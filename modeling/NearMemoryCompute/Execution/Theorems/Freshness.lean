import NearMemoryCompute.Execution.Theorems.Resolvable

namespace NMC

open Coordinator

namespace Op

-- Revokes all evidence that a worker boot has published.
def revokes (boot : WorkerBootId) : Op → Bool
  | advanceEpoch | load _                          => true
  | fenceWorker boot' | onWorkerDisconnected boot' => boot' = boot
  | _                                              => false

-- Revokes the evidence on a target that is owned by a worker boot.
def revokesTarget (t : NearMemoryTargetId) (boot : WorkerBootId) : Op → Bool
  | retireTarget t'         => t' = t
  | applyRegisterTarget msg => msg.target = t
  | op                      => op.revokes boot

def publishesRuntime (t : NearMemoryTargetId) : Op → Bool
  | applyHeartbeat msg => msg.target = t
  | _                  => false

def publishesCapability (t : NearMemoryTargetId) (boot : WorkerBootId) : Op → Bool
  | applyCapability _ _ msg => msg.target = t ∧ msg.publisher = boot
  | _                       => false

def publishesData (r : DataRegionId) (boot : WorkerBootId) (g : DatasetGeneration) : Op → Bool
  | applyDataEvidence msg => msg.region = r ∧ msg.publisher = boot ∧ msg.datasetGeneration = g
  | _                     => false

end Op

-- All evidence that counts as current has been published after it was last revoked.
structure Published (h : List (Event RuntimeState Op Outcome)) (reg : Registry) : Prop where
  targetRuntime : ∀ ⦃t : NearMemoryTargetId⦄ ⦃trt : TargetRuntime⦄,
    reg.targetRuntime[t]? = some trt → trt.dynamicCurrent →
    Since (Done (Op.publishesRuntime t)) (Done (Op.revokesTarget t trt.ownerBoot)) h
  capabilities : ∀ ⦃t : NearMemoryTargetId⦄ ⦃caps : CapabilitySet⦄,
    reg.capabilities[t]? = some caps → caps.dynamicCurrent →
    Since (Done (Op.publishesCapability t caps.publisher)) (Done (Op.revokes caps.publisher)) h
  dataEvidence : ∀ ⦃r : DataRegionId⦄ ⦃ev : DataEvidence⦄,
    reg.dataEvidence[r]? = some ev → ev.dynamicCurrent →
    Since (Done (Op.publishesData r ev.publisher ev.datasetGeneration))
      (Done (Op.revokes ev.publisher)) h

-- What is current after some entries have been withdrawn has not been withdrawn.
theorem current_of_map_ite {κ α : Type} [Ord κ] [Std.TransOrd κ] [Std.LawfulEqOrd κ]
    {m : Table κ α} {k : κ} {a : α} {g : α → Bool} {c : α → Prop} [DecidablePred c]
    {f : α → α} (hf : ∀ a, g (f a) = false)
    (h : (m.map fun _ a => if c a then f a else a)[k]? = some a) (hc : g a) :
    m[k]? = some a ∧ ¬c a := by
  obtain ⟨b, hb, rfl⟩ := Table.getElem?_map_eq_some h
  by_cases hcb : c b <;> simp_all

namespace Registry.Step

variable {reg reg' : Registry} {e : Event RuntimeState Op Outcome}

theorem not_done_of_idle {kind : Op → Bool} (hk : ∀ op, kind op → op.onRegistry)
    (hi : e.output.succeeded → !e.input.onRegistry) : ¬Done kind e := by
  intro ⟨h, hs⟩
  simpa [hk _ h] using hi hs

theorem onRegistry_of_revokes {boot : WorkerBootId} (op : Op) (h : op.revokes boot) :
    op.onRegistry := by
  cases op <;> first | rfl | contradiction

theorem onRegistry_of_revokesTarget {t : NearMemoryTargetId} {boot : WorkerBootId} (op : Op)
    (h : op.revokesTarget t boot) : op.onRegistry := by
  cases op <;> first | rfl | contradiction

-- The evidence on a target that is current after a step has been published by the step, or it has
-- been current before and the step has not revoked it.
theorem targetRuntime_current (h : Step reg e.input e.output reg') {t : NearMemoryTargetId}
    {trt' : TargetRuntime} (ht : reg'.targetRuntime[t]? = some trt') (hc : trt'.dynamicCurrent) :
    Done (Op.publishesRuntime t) e ∨
    ∃ trt, reg.targetRuntime[t]? = some trt ∧ trt.dynamicCurrent ∧ trt.ownerBoot = trt'.ownerBoot ∧
      ¬Done (Op.revokesTarget t trt'.ownerBoot) e := by
  obtain ⟨op, pre, out, post⟩ := e
  cases h
  case idle hi => exact .inr ⟨trt', ht, hc, rfl, not_done_of_idle onRegistry_of_revokesTarget hi⟩
  case heartbeat msg trt hm =>
    rcases Table.getElem?_insert_eq_some ht with ⟨rfl, rfl⟩ | ⟨_, ht⟩
    · exact .inl ⟨by simp [Op.publishesRuntime], rfl⟩
    · exact .inr ⟨trt', ht, hc, rfl, nofun⟩
  case target msg =>
    rcases Table.getElem?_insert_eq_some ht with ⟨_, rfl⟩ | ⟨hne, ht⟩
    · contradiction
    · exact .inr ⟨trt', ht, hc, rfl, by simp [Done, Op.revokesTarget, hne]⟩
  case drain trt hd =>
    rcases Table.getElem?_insert_eq_some ht with ⟨rfl, rfl⟩ | ⟨_, ht⟩
    · exact .inr ⟨trt, hd, hc, rfl, nofun⟩
    · exact .inr ⟨trt', ht, hc, rfl, nofun⟩
  case retire =>
    rcases Table.getElem?_insert_eq_some ht with ⟨_, rfl⟩ | ⟨hne, ht⟩
    · contradiction
    · exact .inr ⟨trt', ht, hc, rfl, by simp [Done, Op.revokesTarget, hne]⟩
  case fence =>
    have ⟨ht, hb⟩ := current_of_map_ite (g := (·.dynamicCurrent)) (fun _ => rfl) ht hc
    exact .inr ⟨trt', ht, hc, rfl, by simp [Done, Op.revokesTarget, Op.revokes, Ne.symm hb]⟩
  case disconnect =>
    have ⟨ht, hb⟩ := current_of_map_ite (g := (·.dynamicCurrent)) (fun _ => rfl) ht hc
    exact .inr ⟨trt', ht, hc, rfl, by simp [Done, Op.revokesTarget, Op.revokes, Ne.symm hb]⟩
  case advance =>
    obtain ⟨_, _, rfl⟩ := Table.getElem?_map_eq_some ht
    contradiction
  case load =>
    obtain ⟨_, _, rfl⟩ := Table.getElem?_map_eq_some ht
    contradiction
  all_goals exact .inr ⟨trt', ht, hc, rfl, nofun⟩

theorem capabilities_current (h : Step reg e.input e.output reg') {t : NearMemoryTargetId}
    {caps : CapabilitySet} (ht : reg'.capabilities[t]? = some caps) (hc : caps.dynamicCurrent) :
    Done (Op.publishesCapability t caps.publisher) e ∨
    reg.capabilities[t]? = some caps ∧ ¬Done (Op.revokes caps.publisher) e := by
  obtain ⟨op, pre, out, post⟩ := e
  cases h
  case idle hi => exact .inr ⟨ht, not_done_of_idle onRegistry_of_revokes hi⟩
  case capability =>
    rcases Table.getElem?_insert_eq_some ht with ⟨rfl, rfl⟩ | ⟨_, ht⟩
    · exact .inl ⟨by simp [Op.publishesCapability, CapabilityMsg.capabilitySet], rfl⟩
    · exact .inr ⟨ht, nofun⟩
  case fence =>
    have ⟨ht, hb⟩ := current_of_map_ite (g := (·.dynamicCurrent)) (fun _ => rfl) ht hc
    exact .inr ⟨ht, by simp [Done, Op.revokes, Ne.symm hb]⟩
  case disconnect =>
    have ⟨ht, hb⟩ := current_of_map_ite (g := (·.dynamicCurrent)) (fun _ => rfl) ht hc
    exact .inr ⟨ht, by simp [Done, Op.revokes, Ne.symm hb]⟩
  case advance =>
    obtain ⟨_, _, rfl⟩ := Table.getElem?_map_eq_some ht
    contradiction
  case load =>
    obtain ⟨_, _, rfl⟩ := Table.getElem?_map_eq_some ht
    contradiction
  all_goals exact .inr ⟨ht, nofun⟩

theorem dataEvidence_current (h : Step reg e.input e.output reg') {r : DataRegionId}
    {ev : DataEvidence} (ht : reg'.dataEvidence[r]? = some ev) (hc : ev.dynamicCurrent) :
    Done (Op.publishesData r ev.publisher ev.datasetGeneration) e ∨
    reg.dataEvidence[r]? = some ev ∧ ¬Done (Op.revokes ev.publisher) e := by
  obtain ⟨op, pre, out, post⟩ := e
  cases h
  case idle hi => exact .inr ⟨ht, not_done_of_idle onRegistry_of_revokes hi⟩
  case evidence =>
    rcases Table.getElem?_insert_eq_some ht with ⟨rfl, rfl⟩ | ⟨_, ht⟩
    · exact .inl ⟨by simp [Op.publishesData, DataEvidenceMsg.dataEvidence], rfl⟩
    · exact .inr ⟨ht, nofun⟩
  case fence =>
    have ⟨ht, hb⟩ := current_of_map_ite (g := (·.dynamicCurrent)) (fun _ => rfl) ht hc
    exact .inr ⟨ht, by simp [Done, Op.revokes, Ne.symm hb]⟩
  case disconnect =>
    have ⟨ht, hb⟩ := current_of_map_ite (g := (·.dynamicCurrent)) (fun _ => rfl) ht hc
    exact .inr ⟨ht, by simp [Done, Op.revokes, Ne.symm hb]⟩
  case advance =>
    obtain ⟨_, _, rfl⟩ := Table.getElem?_map_eq_some ht
    contradiction
  case load =>
    obtain ⟨_, _, rfl⟩ := Table.getElem?_map_eq_some ht
    contradiction
  all_goals exact .inr ⟨ht, nofun⟩

end Registry.Step

theorem Published.step {h : List (Event RuntimeState Op Outcome)} {reg reg' : Registry}
    {e : Event RuntimeState Op Outcome} (hs : Registry.Step reg e.input e.output reg')
    (hp : Published h reg) : Published (e :: h) reg' where
  targetRuntime t trt' ht hc := by
    rcases hs.targetRuntime_current ht hc with hd | ⟨trt, ht, hc, hb, hn⟩
    · exact .now hd
    · exact .later (hb ▸ hp.targetRuntime ht hc) hn
  capabilities t caps ht hc := by
    rcases hs.capabilities_current ht hc with hd | ⟨ht, hn⟩
    · exact .now hd
    · exact .later (hp.capabilities ht hc) hn
  dataEvidence r ev hr hc := by
    rcases hs.dataEvidence_current hr hc with hd | ⟨hr, hn⟩
    · exact .now hd
    · exact .later (hp.dataEvidence hr hc) hn

theorem published_after [Platform] (cid : CoordinatorId) (run : List Op) :
    Published (history cid run) (after cid run).registry := by
  induction run
  case nil =>
    constructor
    all_goals
      intro k a h
      simp [Machine.after, init, RuntimeState.registry] at h
  case cons op run hi => exact hi.step (e := machine.event op (after cid run)) (step_registry op _)

-- Whenever work is sent to a worker, all three pieces of evidence for it have been published after
-- they were last revoked.
theorem dispatch_on_published_evidence [Platform] (cid : CoordinatorId) (run : List Op)
    (p : ExecutionPlanId) (did : DispatchId) (aid : AttemptId) (out : DispatchOutput)
    (h : (prepareDispatch p did aid (after cid run)).fst = .ok out) :
    ∃ plan trt caps ev,
      (after cid run).plans[p]? = some plan ∧
      (after cid run).targetRuntime[plan.target]? = some trt ∧
      (after cid run).capabilities[plan.target]? = some caps ∧
      (after cid run).dataEvidence[plan.region]? = some ev ∧
      Since (Done (Op.publishesRuntime plan.target))
        (Done (Op.revokesTarget plan.target trt.ownerBoot)) (history cid run) ∧
      Since (Done (Op.publishesCapability plan.target caps.publisher))
        (Done (Op.revokes caps.publisher)) (history cid run) ∧
      Since (Done (Op.publishesData plan.region ev.publisher ev.datasetGeneration))
        (Done (Op.revokes ev.publisher)) (history cid run) ∧
      ev.datasetGeneration = plan.authority.snapshot.datasetGeneration := by
  have ⟨prep, _⟩ := prepareDispatch_ok h
  have hf := ((resolvable_after cid run).live prep.plan_eq prep.live).fresh prep.fresh
  have hp := published_after cid run
  have ⟨trt, ht, _, htc⟩ := hf.targetRuntime
  have ⟨caps, hc, _, _, hcc⟩ := hf.capabilities
  have ⟨ev, he, hg, hec⟩ := hf.dataEvidence
  exact ⟨prep.plan, trt, caps, ev, prep.plan_eq, ht, hc, he, hp.targetRuntime ht htc,
    hp.capabilities hc hcc, hp.dataEvidence he hec, hg⟩

open Deployment in
theorem dispatch_on_published_evidence_of_deployment :
    let run := .reserve { value := 10 } :: .plan { value := 10 } { value := 1 } :: setup
    ∃ plan trt, (after { value := 1 } run).plans[({ value := 10 } : ExecutionPlanId)]? = some plan ∧
      (after { value := 1 } run).targetRuntime[plan.target]? = some trt ∧
      Since (Done (Op.publishesRuntime plan.target))
        (Done (Op.revokesTarget plan.target trt.ownerBoot)) (history { value := 1 } run) := by
  intro run
  have hs : (prepareDispatch { value := 10 } { value := 20 } { value := 30 }
      (after { value := 1 } run)).fst.isOk := by
    decide +kernel
  cases h : (prepareDispatch { value := 10 } { value := 20 } { value := 30 }
    (after { value := 1 } run)).fst
  case error => simp [h, Except.isOk, Except.toBool] at hs
  case ok out =>
    have ⟨plan, trt, _, _, hp, ht, _, _, hr, _⟩ :=
      dispatch_on_published_evidence _ run _ _ _ out h
    exact ⟨plan, trt, hp, ht, hr⟩

end NMC
