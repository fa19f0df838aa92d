import NearMemoryCompute.Execution.Theorems.Ledger

namespace NMC

namespace ExecutionLifecycle

-- How the lifecycle of a plan can move. No move leads back to an earlier phase.
inductive Next : ExecutionLifecycle → ExecutionLifecycle → Prop
  | stay {a} : Next a a
  | reserve : Next planned reserved
  | dispatch : Next reserved dispatched
  | settle {a b} : a.inFlight → b = outcomeUnknown ∨ b = failed ∨ b = committed → Next a b
  | withdraw {a b} : a ≠ committed → b = cancelled ∨ b = superseded ∨ b = fenced → Next a b

-- The plan can still lead to work being done.
def live : ExecutionLifecycle → Bool
  | planned | reserved | dispatched => true
  | _                               => false

-- The plan has been admitted, and its completion can still arrive.
def admitted : ExecutionLifecycle → Bool
  | reserved | dispatched => true
  | _                     => false

-- The lifecycles that no operation of the coordinator assigns.
def unused : ExecutionLifecycle → Bool
  | running | verifying | completed => true
  | _                               => false

-- No operation makes progress with the plan anymore.
def dead (l : ExecutionLifecycle) : Bool :=
  !l.live && !l.inFlight

variable {a b : ExecutionLifecycle}

theorem dead_of_not_live (h : a.live = false) (hu : a.unused = false) : a.dead := by
  cases a <;> simp_all [live, unused, dead, inFlight]

theorem dispatched_of_inFlight (h : a.inFlight) (hu : a.unused = false) : a = dispatched := by
  cases a <;> simp_all [unused, inFlight]

-- The lifecycles that occur are the live ones, the ones that have ended and the unknown outcome.
theorem live_or_ended (hu : a.unused = false) : a.live ∨ a = outcomeUnknown ∨ a.ended := by
  cases a <;> simp_all [live, unused, ended]

theorem Next.dead (h : Next a b) (hd : a.dead) : b.dead := by
  cases h
  case stay                        => exact hd
  case reserve                     => contradiction
  case dispatch                    => contradiction
  case settle hf _                 => simp [ExecutionLifecycle.dead, hf] at hd
  case withdraw hb                 => rcases hb with rfl | rfl | rfl <;> rfl

theorem Next.unused (h : Next a b) (hu : a.unused = false) : b.unused = false := by
  cases h
  case stay                        => exact hu
  case reserve                     => rfl
  case dispatch                    => rfl
  case settle hb                   => rcases hb with rfl | rfl | rfl <;> rfl
  case withdraw hb                 => rcases hb with rfl | rfl | rfl <;> rfl

theorem Next.of_committed (h : Next committed b) : b = committed := by
  cases h
  case stay         => rfl
  case settle h _   => contradiction
  case withdraw h _ => contradiction

-- A plan that is dead without being committed is never committed.
theorem Next.not_committed (h : Next a b) (hd : a.dead) (hc : a ≠ committed) : b ≠ committed := by
  cases h
  case stay        => exact hc
  case reserve     => contradiction
  case dispatch    => contradiction
  case settle hf _ => simp [ExecutionLifecycle.dead, hf] at hd
  case withdraw hb => rcases hb with rfl | rfl | rfl <;> nofun

theorem Next.of_planned (h : Next a planned) : a = planned := by
  cases h
  case stay        => rfl
  case settle h    => rcases h with h | h | h <;> contradiction
  case withdraw h  => rcases h with h | h | h <;> contradiction

-- A plan that is live has been live before.
theorem Next.live (h : Next a b) (hb : b.live) : a.live := by
  cases h
  case stay          => exact hb
  case reserve       => rfl
  case dispatch      => rfl
  case settle hb'    => rcases hb' with rfl | rfl | rfl <;> contradiction
  case withdraw hb'  => rcases hb' with rfl | rfl | rfl <;> contradiction

theorem live_of_admitted (h : a.admitted) : a.live := by
  cases a <;> first | rfl | contradiction

theorem not_ended_of_live (h : a.live) : a.ended = false := by
  cases a <;> first | rfl | contradiction

end ExecutionLifecycle

-- What stays the same about a plan as long as it exists, and how its lifecycle can move.
structure ExecutionPlan.Evolves (plan plan' : ExecutionPlan) : Prop where
  id                : plan'.id                = plan.id
  generation        : plan'.generation        = plan.generation
  authority         : plan'.authority         = plan.authority
  target            : plan'.target            = plan.target
  targetGeneration  : plan'.targetGeneration  = plan.targetGeneration
  operation         : plan'.operation         = plan.operation
  dataset           : plan'.dataset           = plan.dataset
  datasetGeneration : plan'.datasetGeneration = plan.datasetGeneration
  region            : plan'.region            = plan.region
  regionGeneration  : plan'.regionGeneration  = plan.regionGeneration
  lifecycle         : plan.lifecycle.Next plan'.lifecycle
  planned           : plan'.lifecycle = .planned → plan' = plan

namespace ExecutionPlan

open ExecutionLifecycle

variable {plan : ExecutionPlan}

theorem Evolves.refl : plan.Evolves plan :=
  ⟨rfl, rfl, rfl, rfl, rfl, rfl, rfl, rfl, rfl, rfl, .stay, fun _ => rfl⟩

theorem Evolves.of_lifecycle {l : ExecutionLifecycle} (h : plan.lifecycle.Next l) :
    plan.Evolves { plan with lifecycle := l } :=
  ⟨rfl, rfl, rfl, rfl, rfl, rfl, rfl, rfl, rfl, rfl, h, fun hl => by
    cases plan
    cases hl
    cases h.of_planned
    rfl⟩

-- What withdrawing plans at large does to a single one: it is spared, it ends, or it is not known
-- what becomes of it.
inductive Swept (plan : ExecutionPlan) : ExecutionPlan → Prop
  | spared : Swept plan plan
  | withdrawn {l} :
    plan.lifecycle ≠ .committed → l = .superseded ∨ l = .fenced →
    Swept plan { plan with lifecycle := l }
  | unknown : plan.lifecycle.inFlight → Swept plan { plan with lifecycle := .outcomeUnknown }

theorem swept_onEpoch : plan.Swept plan.onEpoch := by
  unfold onEpoch
  split
  case isTrue => exact .spared
  case isFalse hc =>
    split
    case isTrue hf => exact .unknown hf
    case isFalse   => exact .withdrawn hc (.inl rfl)

theorem swept_onFence {boot : WorkerBootId} : plan.Swept (plan.onFence boot) := by
  unfold onFence
  split
  case isFalse => exact .spared
  case isTrue h =>
    have hc : plan.lifecycle ≠ .committed := by
      rintro hc
      simp [hc, ended] at h
    split
    case isTrue hf => exact .unknown hf
    case isFalse   => exact .withdrawn hc (.inr rfl)

theorem swept_onRetire {t : NearMemoryTargetId} : plan.Swept (plan.onRetire t) := by
  unfold onRetire
  split
  case isFalse => exact .spared
  case isTrue h =>
    refine .withdrawn ?_ (.inr rfl)
    rintro hc
    simp [hc, ended] at h

theorem Swept.evolves {plan' : ExecutionPlan} (h : plan.Swept plan') : plan.Evolves plan' := by
  cases h
  case spared          => exact .refl
  case withdrawn hc hl => exact .of_lifecycle (.withdraw hc (.inr hl))
  case unknown hf      => exact .of_lifecycle (.settle hf (.inl rfl))

-- Withdrawing plans admits none of them.
theorem Swept.admitted {plan' : ExecutionPlan} (h : plan.Swept plan')
    (ha : plan'.lifecycle.admitted) : plan' = plan := by
  cases h
  case spared       => rfl
  case withdrawn hl => rcases hl with rfl | rfl <;> contradiction
  case unknown      => contradiction

-- Withdrawing a plan never commits it.
theorem Swept.committed {plan' : ExecutionPlan} (h : plan.Swept plan')
    (hc : plan'.lifecycle = .committed) : plan.lifecycle = .committed := by
  cases h
  case spared       => exact hc
  case withdrawn hl => rcases hl with rfl | rfl <;> contradiction
  case unknown      => contradiction

theorem Swept.dispatchId {plan' : ExecutionPlan} (h : plan.Swept plan') :
    plan'.dispatchId = plan.dispatchId := by
  cases h <;> rfl

theorem onEpoch_dead : plan.onEpoch.lifecycle.dead := by
  unfold onEpoch
  split
  case isTrue h => simp [h, dead, live, inFlight]
  case isFalse  => simp only; split <;> rfl

theorem onEpoch_unused : plan.onEpoch.lifecycle.unused = false := by
  unfold onEpoch
  split
  case isTrue h => simp [h, unused]
  case isFalse  => simp only; split <;> rfl

theorem onFence_dead : (plan.onFence plan.authority.snapshot.workerBoot).lifecycle.dead := by
  unfold onFence
  split
  case isTrue => simp only; split <;> rfl
  case isFalse h =>
    have he : plan.lifecycle.ended := by simpa using h
    cases hl : plan.lifecycle <;> simp [hl, ended] at he <;> rfl

theorem onRetire_dead : (plan.onRetire plan.target).lifecycle.dead := by
  unfold onRetire
  split
  case isTrue => rfl
  case isFalse h =>
    have he : plan.lifecycle.ended := by simpa using h
    cases hl : plan.lifecycle <;> simp [hl, ended] at he <;> rfl

end ExecutionPlan

-- The state and the plan with which a completion agrees if it is accepted.
structure Accepts (st : RuntimeState) (plan : ExecutionPlan) (msg : ResultMsg) : Prop where
  inFlight      : plan.lifecycle.inFlight
  epoch         : msg.epoch = st.epoch
  targets       : ∀ tdef ∈ st.targets[msg.target]?, tdef.generation = msg.targetGen
  targetRuntime : ∀ trt ∈ st.targetRuntime[msg.target]?, trt.ownerBoot = msg.workerBoot
  authority     : (Coordinator.completionAuthority msg).Matches plan.authority
  dispatchId    : plan.dispatchId = some msg.dispatch
  attemptId     : plan.attemptId = some msg.attempt

theorem ite_some_eq_none {α : Type} {c : Prop} [Decidable c] {a : α} {o : Option α} :
    (if c then some a else o) = none ↔ ¬c ∧ o = none := by
  split <;> simp [*]

theorem completionError_eq_none {st : RuntimeState} {plan : ExecutionPlan} {msg : ResultMsg} :
    Coordinator.completionError st plan msg = none ↔ Accepts st plan msg := by
  simp only [Coordinator.completionError, ite_some_eq_none, not_not, and_true]
  constructor
  case mp =>
    intro ⟨_, _, h₃, h₄, h₅, h₆, h₇, h₈, h₉⟩
    exact {
      inFlight      := by simpa using h₃
      epoch         := h₄
      targets       := by simpa using h₅
      targetRuntime := by simpa using h₆
      authority     := validateCompletionAgainstPlan_eq_nil.mp h₇
      dispatchId    := h₈
      attemptId     := h₉ }
  case mpr =>
    intro h
    have hf := h.inFlight
    refine ⟨?_, ?_, by simp [hf], h.epoch, ?_, ?_, ?_, h.dispatchId, h.attemptId⟩
    · intro hc
      simp [hc, ExecutionLifecycle.inFlight] at hf
    · rintro (hw | hw | hw) <;> simp [hw, ExecutionLifecycle.inFlight] at hf
    · exact fun ⟨tdef, hm, hne⟩ => hne (h.targets tdef hm)
    · exact fun ⟨trt, hm, hne⟩ => hne (h.targetRuntime trt hm)
    · exact validateCompletionAgainstPlan_eq_nil.mpr h.authority

theorem Admission.live {st : RuntimeState} {p : ExecutionPlanId} (adm : Admission st p) :
    adm.plan.lifecycle.live :=
  adm.planned ▸ rfl

theorem Preparation.live {st : RuntimeState} {p : ExecutionPlanId} (prep : Preparation st p) :
    prep.plan.lifecycle.live :=
  prep.reserved ▸ rfl

theorem Completion.accepts {st : RuntimeState} {msg : ResultMsg} (c : Completion st msg) :
    Accepts st c.plan msg :=
  completionError_eq_none.mp c.accepted

open ExecutionPlan ExecutionLifecycle

-- Where a plan that exists after a step comes from.
inductive Origin (st : RuntimeState) (op : Op) (out : Outcome) (p : ExecutionPlanId)
    (plan' : ExecutionPlan) : Prop
  | created {o} (sel : Selection st o) :
    op = .plan p o → plan' = sel.plan p → Origin st op out p plan'
  | loaded {file loaded plan} :
    op = .load file → out.succeeded → PersistentStore.load file decodeState = .ok loaded →
    loaded.plans[p]? = some plan → plan' = plan.onEpoch → Origin st op out p plan'
  | evolved {plan} :
    st.plans[p]? = some plan → plan.Evolves plan' → Origin st op out p plan'

namespace Origin

variable {st : RuntimeState} {op : Op} {out : Outcome} {p q : ExecutionPlanId}
         {plan plan' : ExecutionPlan}

theorem of_set (hq : st.plans[q]? = some plan) {new : ExecutionPlan} (he : plan.Evolves new)
    (hp : (st.plans.insert q new)[p]? = some plan') : Origin st op out p plan' := by
  rcases Table.getElem?_insert_eq_some hp with ⟨rfl, rfl⟩ | ⟨_, hp⟩
  · exact .evolved hq he
  · exact .evolved hp .refl

theorem of_sweep {f : ExecutionPlan → ExecutionPlan} (he : ∀ plan, Evolves plan (f plan))
    (hp : (st.plans.map fun _ => f)[p]? = some plan') : Origin st op out p plan' := by
  obtain ⟨plan, hq, rfl⟩ := Table.getElem?_map_eq_some hp
  exact .evolved hq (he plan)

end Origin

def Op.loads : Op → Bool
  | load _ => true
  | _      => false

theorem Op.not_loads {op : Op} {out : Outcome} (h : op.loads = false) :
    ¬(op.loads ∧ out.succeeded) :=
  fun hl => Bool.false_ne_true (h.symm.trans hl.1)

theorem Op.not_loads_of_idle {op : Op} {out : Outcome} (hi : out.succeeded → !op.onLedger) :
    ¬(op.loads ∧ out.succeeded) := by
  intro ⟨hl, hs⟩
  cases op <;> first | contradiction | exact absurd (hi hs) nofun

-- The operations that send a plan to a worker.
def Op.dispatches (p : ExecutionPlanId) : Op → Bool
  | prepareDispatch q _ _ | confirmDispatched q _ => q = p
  | _                                             => false

-- How a plan that is admitted after a step has got there.
inductive Admits (st : RuntimeState) (p : ExecutionPlanId) :
    Op → Outcome → ExecutionPlan → Prop
  | reserve (adm : Admission st p) :
    Admits st p (.reserve p) (.unit (.ok ())) adm.reserved
  | prepare {did aid out} (prep : Preparation st p) :
    out.message = prep.message did aid →
    Admits st p (.prepareDispatch p did aid) (.dispatch (.ok out)) (prep.prepared did aid)
  | confirm {did plan} :
    st.plans[p]? = some plan → plan.lifecycle = .reserved → plan.dispatchId = some did →
    Admits st p (.confirmDispatched p did) (.unit (.ok ())) { plan with lifecycle := .dispatched }
  | stay {op out plan} :
    st.plans[p]? = some plan → ¬(op.dispatches p ∧ out.succeeded) → Admits st p op out plan

namespace Ledger.Step

variable {st : RuntimeState} {op : Op} {out : Outcome} {l : Ledger} {p : ExecutionPlanId}

theorem origin (h : Step st op out l) {plan' : ExecutionPlan} (hp : l.plans[p]? = some plan') :
    Origin st op out p plan' := by
  cases h
  case idle => exact .evolved hp .refl
  case plan id o _ sel =>
    rcases Table.getElem?_insert_eq_some hp with ⟨rfl, rfl⟩ | ⟨_, hp⟩
    · exact .created sel rfl rfl
    · exact .evolved hp .refl
  case reserve adm =>
    refine .of_set adm.plan_eq ?_ hp
    exact ⟨rfl, rfl, rfl, rfl, rfl, rfl, rfl, rfl, rfl, rfl, adm.planned ▸ .reserve, nofun⟩
  case prepare prep _ =>
    refine .of_set prep.plan_eq ?_ hp
    refine ⟨rfl, rfl, rfl, rfl, rfl, rfl, rfl, rfl, rfl, rfl, .stay, fun hl => ?_⟩
    exact absurd (prep.reserved.symm.trans hl) nofun
  case supersede hq hl _ =>
    refine .of_set hq (.of_lifecycle (.withdraw ?_ (.inr (.inl rfl)))) hp
    simp [hl]
  case confirm hq hl _ => exact .of_set hq (.of_lifecycle (hl ▸ .dispatch)) hp
  case ambiguous c _ _ _ _ =>
    exact .of_set c.plan_eq (.of_lifecycle (.settle c.accepts.inFlight (.inl rfl))) hp
  case mismatch c _ _ _ _ _ =>
    exact .of_set c.plan_eq (.of_lifecycle (.settle c.accepts.inFlight (.inr (.inl rfl)))) hp
  case commit c _ _ _ _ _ =>
    exact .of_set c.plan_eq (.of_lifecycle (.settle c.accepts.inFlight (.inr (.inr rfl)))) hp
  case cancel hq hl =>
    refine .of_set hq (.of_lifecycle (.withdraw ?_ (.inl rfl))) hp
    rintro hc
    simp [hc, ExecutionLifecycle.ended] at hl
  case advance    => exact .of_sweep (fun _ => swept_onEpoch.evolves) hp
  case fence      => exact .of_sweep (fun _ => swept_onFence.evolves) hp
  case disconnect => exact .of_sweep (fun _ => swept_onFence.evolves) hp
  case retire     => exact .of_sweep (fun _ => swept_onRetire.evolves) hp
  case load hl =>
    obtain ⟨plan, hq, rfl⟩ := Table.getElem?_map_eq_some hp
    exact .loaded rfl rfl hl hq rfl

-- A plan that is live after a step has been there before, unless the step has created it.
theorem live_origin (h : Step st op out l) {plan' : ExecutionPlan} (hp : l.plans[p]? = some plan')
    (hl : plan'.lifecycle.live) :
    (∃ o, ∃ sel : Selection st o, op = .plan p o ∧ plan' = sel.plan p) ∨
    (∃ plan, st.plans[p]? = some plan ∧ plan.Evolves plan') := by
  cases h.origin hp
  case created o sel ho he => exact .inl ⟨o, sel, ho, he⟩
  case loaded plan _ _ _ _ he =>
    have hd := plan.onEpoch_dead
    simp [← he, dead, hl] at hd
  case evolved plan hq he => exact .inr ⟨plan, hq, he⟩

-- In particular, a plan that has not been admitted is the same as before.
theorem planned_origin (h : Step st op out l) {plan' : ExecutionPlan}
    (hp : l.plans[p]? = some plan') (hl : plan'.lifecycle = .planned) :
    (∃ o, ∃ sel : Selection st o, op = .plan p o ∧ plan' = sel.plan p) ∨
    st.plans[p]? = some plan' := by
  rcases h.live_origin hp (hl ▸ rfl) with hc | ⟨plan, hq, he⟩
  · exact .inl hc
  · exact .inr (he.planned hl ▸ hq)

theorem admits (h : Step st op out l) {plan' : ExecutionPlan} (hp : l.plans[p]? = some plan')
    (ha : plan'.lifecycle.admitted) : Admits st p op out plan' := by
  have set {q : ExecutionPlanId} {new : ExecutionPlan} (hn : new.lifecycle.admitted = false)
      (hp : (st.plans.insert q new)[p]? = some plan') : st.plans[p]? = some plan' := by
    rcases Table.getElem?_insert_eq_some hp with ⟨_, rfl⟩ | ⟨_, hp⟩
    · simp [ha] at hn
    · exact hp
  have sweep {f : ExecutionPlan → ExecutionPlan} (hf : ∀ plan : ExecutionPlan, plan.Swept (f plan))
      (hp : (st.plans.map fun _ => f)[p]? = some plan') : st.plans[p]? = some plan' := by
    obtain ⟨plan, hq, rfl⟩ := Table.getElem?_map_eq_some hp
    rw [(hf plan).admitted ha, hq]
  cases h
  case idle hi =>
    refine .stay hp fun ⟨hd, hs⟩ => ?_
    cases op <;> first | contradiction | exact absurd (hi hs) nofun
  case reserve q adm =>
    rcases Table.getElem?_insert_eq_some hp with ⟨rfl, rfl⟩ | ⟨_, hp⟩
    · exact .reserve adm
    · exact .stay hp nofun
  case prepare prep hm =>
    rcases Table.getElem?_insert_eq_some hp with ⟨rfl, rfl⟩ | ⟨hne, hp⟩
    · exact .prepare prep hm
    · exact .stay hp (by simp [Op.dispatches, hne])
  case confirm plan hq hl hd =>
    rcases Table.getElem?_insert_eq_some hp with ⟨rfl, rfl⟩ | ⟨hne, hp⟩
    · exact .confirm hq hl hd
    · exact .stay hp (by simp [Op.dispatches, hne])
  case supersede  => exact .stay (set rfl hp) fun ⟨_, hs⟩ => absurd hs nofun
  case plan       => exact .stay (set rfl hp) nofun
  case ambiguous  => exact .stay (set rfl hp) nofun
  case mismatch   => exact .stay (set rfl hp) nofun
  case commit     => exact .stay (set rfl hp) nofun
  case cancel     => exact .stay (set rfl hp) nofun
  case advance    => exact .stay (sweep (fun _ => swept_onEpoch) hp) nofun
  case fence      => exact .stay (sweep (fun _ => swept_onFence) hp) nofun
  case disconnect => exact .stay (sweep (fun _ => swept_onFence) hp) nofun
  case retire     => exact .stay (sweep (fun _ => swept_onRetire) hp) nofun
  case load =>
    obtain ⟨plan, _, rfl⟩ := Table.getElem?_map_eq_some hp
    exact absurd plan.onEpoch_dead (by simp [dead, live_of_admitted ha])

-- Only loading a file can drop a plan.
theorem mem (h : Step st op out l) (hl : ¬(op.loads ∧ out.succeeded)) (hp : p ∈ st.plans) :
    p ∈ l.plans := by
  cases h
  case load => exact absurd ⟨rfl, rfl⟩ hl
  case idle => exact hp
  all_goals
    simp [Ledger.set, Ledger.activate, Ledger.deactivate, Ledger.record, Ledger.hold,
      Ledger.release, Ledger.nextEpoch, Ledger.sweep, RuntimeState.ledger, hp]

-- A plan that is neither dropped nor replaced evolves.
theorem evolves (h : Step st op out l) (hl : ¬(op.loads ∧ out.succeeded))
    (hn : ∀ o, op ≠ .plan p o) {plan : ExecutionPlan} (hp : st.plans[p]? = some plan) :
    ∃ plan', l.plans[p]? = some plan' ∧ plan.Evolves plan' := by
  have ⟨plan', hp'⟩ := Table.exists_of_mem (h.mem hl (Table.mem_of_some hp))
  refine ⟨plan', hp', ?_⟩
  cases h.origin hp'
  case created o _ ho _ => exact absurd ho (hn o)
  case loaded ho hs _ _ _ => exact absurd ⟨ho ▸ rfl, hs⟩ hl
  case evolved hq he =>
    rw [hp] at hq
    cases hq
    exact he

-- A plan gets the identity of a dispatch only when the dispatch is prepared.
theorem dispatchId (h : Step st op out l) (hl : ¬(op.loads ∧ out.succeeded)) {d : DispatchId}
    {plan' : ExecutionPlan} (hp : l.plans[p]? = some plan') (hd : plan'.dispatchId = some d) :
    (∃ plan, st.plans[p]? = some plan ∧ plan.dispatchId = some d) ∨
    (∃ aid, op = .prepareDispatch p d aid) := by
  have set {q : ExecutionPlanId} {old new : ExecutionPlan} (hq : st.plans[q]? = some old)
      (hp : (st.plans.insert q new)[p]? = some plan') (hn : new.dispatchId = old.dispatchId) :
      ∃ plan, st.plans[p]? = some plan ∧ plan.dispatchId = some d := by
    rcases Table.getElem?_insert_eq_some hp with ⟨rfl, rfl⟩ | ⟨_, hp⟩
    · exact ⟨old, hq, hn ▸ hd⟩
    · exact ⟨plan', hp, hd⟩
  have sweep {f : ExecutionPlan → ExecutionPlan} (hf : ∀ plan : ExecutionPlan, plan.Swept (f plan))
      (hp : (st.plans.map fun _ => f)[p]? = some plan') :
      ∃ plan, st.plans[p]? = some plan ∧ plan.dispatchId = some d := by
    obtain ⟨plan, hq, rfl⟩ := Table.getElem?_map_eq_some hp
    exact ⟨plan, hq, (hf plan).dispatchId ▸ hd⟩
  cases h
  case idle => exact .inl ⟨plan', hp, hd⟩
  case plan =>
    rcases Table.getElem?_insert_eq_some hp with ⟨_, rfl⟩ | ⟨_, hp⟩
    · cases hd
    · exact .inl ⟨plan', hp, hd⟩
  case prepare aid _ _ _ =>
    rcases Table.getElem?_insert_eq_some hp with ⟨rfl, rfl⟩ | ⟨_, hp⟩
    · cases hd
      exact .inr ⟨aid, rfl⟩
    · exact .inl ⟨plan', hp, hd⟩
  case reserve adm           => exact .inl (set adm.plan_eq hp rfl)
  case supersede hq _ _      => exact .inl (set hq hp rfl)
  case confirm hq _ _        => exact .inl (set hq hp rfl)
  case ambiguous c _ _ _ _   => exact .inl (set c.plan_eq hp rfl)
  case mismatch c _ _ _ _ _  => exact .inl (set c.plan_eq hp rfl)
  case commit c _ _ _ _ _    => exact .inl (set c.plan_eq hp rfl)
  case cancel hq _           => exact .inl (set hq hp rfl)
  case advance               => exact .inl (sweep (fun _ => swept_onEpoch) hp)
  case fence                 => exact .inl (sweep (fun _ => swept_onFence) hp)
  case disconnect            => exact .inl (sweep (fun _ => swept_onFence) hp)
  case retire                => exact .inl (sweep (fun _ => swept_onRetire) hp)
  case load                  => exact absurd ⟨rfl, rfl⟩ hl

end Ledger.Step
end NMC
