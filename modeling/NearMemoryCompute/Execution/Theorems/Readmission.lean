import NearMemoryCompute.Execution.Theorems.Capacity
import NearMemoryCompute.Execution.Theorems.Freshness
import NearMemoryCompute.Execution.Theorems.Revalidation

namespace NMC

open Coordinator

-- A target that has been retired or has failed, to which no message applies.
def TargetRuntime.terminal (rt : TargetRuntime) : Bool :=
  rt.lifecycle = TargetLifecycle.retired ∨ rt.lifecycle = TargetLifecycle.failed

-- The lifecycles in which a target takes no new work for now.
def TargetLifecycle.blocks (l : Raw TargetLifecycle) : Bool :=
  l = TargetLifecycle.draining ∨ l = TargetLifecycle.degraded ∨
  l = TargetLifecycle.revalidationRequired

-- The operation invalidates the evidence on the targets of a worker boot.
def Op.invalidates (boot : WorkerBootId) : Op → Bool
  | advanceEpoch                                   => true
  | fenceWorker boot' | onWorkerDisconnected boot' => boot' = boot
  | _                                              => false

-- Where the dynamic state of a target that is known after a step comes from.
inductive RuntimeOrigin (st : RuntimeState) (t : NearMemoryTargetId) :
    Op → Outcome → TargetRuntime → Prop
  | same {op out rt} :
    st.targetRuntime[t]? = some rt → RuntimeOrigin st t op out rt
  | registered {msg out} :
    msg.target = t → out.succeeded →
    RuntimeOrigin st t (.applyRegisterTarget msg) out msg.runtime
  | heartbeat {msg out rt} :
    msg.target = t → st.targetRuntime[t]? = some rt → ¬rt.terminal →
    RuntimeOrigin st t (.applyHeartbeat msg) out (rt.heartbeat msg)
  | drained {out rt} :
    st.targetRuntime[t]? = some rt → ¬rt.terminal →
    RuntimeOrigin st t (.beginDrain t) out rt.drain
  | invalidated {op out rt} :
    st.targetRuntime[t]? = some rt → op.invalidates rt.ownerBoot →
    RuntimeOrigin st t op out rt.invalidate
  | retired {out rt} :
    st.targetRuntime[t]? = some rt → RuntimeOrigin st t (.retireTarget t) out rt.retire

theorem Preparation.current {st : RuntimeState} {p : ExecutionPlanId} (prep : Preparation st p) :
    prep.trt.dynamicCurrent := by
  have h := prep.fresh
  simp only [stalenessLocked, prep.targetRuntime_eq, List.append_eq_nil_iff, staleIf_eq_nil] at h
  simpa using h.1.1.1.2

namespace Coordinator

variable {st : RuntimeState}

theorem applyHeartbeat_ok {msg : HeartbeatMsg} {rt : TargetRuntime}
    (h : (applyHeartbeat msg st).fst = .ok ()) (ht : st.targetRuntime[msg.target]? = some rt) :
    ¬rt.terminal := by
  intro hl
  have hl := of_decide_eq_true hl
  simp only [applyHeartbeat, ht, if_pos hl] at h
  cases h

theorem beginDrain_ok {t : NearMemoryTargetId} {rt : TargetRuntime}
    (h : (beginDrain t st).fst = .ok ()) (ht : st.targetRuntime[t]? = some rt) : ¬rt.terminal := by
  intro hl
  have hl := of_decide_eq_true hl
  simp only [beginDrain, ht, if_pos hl] at h
  cases h

-- What `reserve` has checked about the target if it admits a plan.
theorem reserve_ok {p : ExecutionPlanId} {plan : ExecutionPlan}
    (h : (reserve p st).fst = .ok ()) (hp : st.plans[p]? = some plan) :
    plan.lifecycle = .planned ∧ ∃ rt, st.targetRuntime[plan.target]? = some rt ∧
      ¬TargetLifecycle.blocks rt.lifecycle := by
  cases ht : st.targetRuntime[plan.target]?
  case none =>
    simp only [reserve, hp, ht] at h
    split_ifs at h
    all_goals cases h
  case some rt =>
    simp only [reserve, hp, ht] at h
    split_ifs at h with hl _ _ hd
    all_goals cases h
    exact ⟨not_not.mp hl, rt, rfl, fun hb => hd (of_decide_eq_true hb)⟩

variable [Platform]

theorem step_runtime (op : Op) {t : NearMemoryTargetId} {rt' : TargetRuntime}
    (h : (step op st).snd.targetRuntime[t]? = some rt') :
    RuntimeOrigin st t op (step op st).fst rt' := by
  have hg := step_registry op st
  change (step op st).snd.registry.targetRuntime[t]? = some rt' at h
  generalize hn : step op st = next at h hg
  obtain ⟨out, st'⟩ := next
  generalize st'.registry = reg' at h hg
  cases hg
  case idle => exact .same h
  case heartbeat msg rt hm =>
    rcases Table.getElem?_insert_eq_some h with ⟨rfl, rfl⟩ | ⟨_, h⟩
    · have hok : (applyHeartbeat msg st).fst = .ok () := by
        simpa [step, answer] using congrArg Prod.fst hn
      exact .heartbeat rfl hm (applyHeartbeat_ok hok hm)
    · exact .same h
  case drain t' rt hm =>
    rcases Table.getElem?_insert_eq_some h with ⟨rfl, rfl⟩ | ⟨_, h⟩
    · have hok : (beginDrain t' st).fst = .ok () := by
        simpa [step, answer] using congrArg Prod.fst hn
      exact .drained hm (beginDrain_ok hok hm)
    · exact .same h
  case target msg =>
    rcases Table.getElem?_insert_eq_some h with ⟨rfl, rfl⟩ | ⟨_, h⟩
    · exact .registered rfl rfl
    · exact .same h
  case retire rt hm =>
    rcases Table.getElem?_insert_eq_some h with ⟨rfl, rfl⟩ | ⟨_, h⟩
    · exact .retired hm
    · exact .same h
  case fence boot =>
    obtain ⟨rt, hr, rfl⟩ := Table.getElem?_map_eq_some h
    split
    case isTrue hb => exact .invalidated hr (by simp [Op.invalidates, hb])
    case isFalse   => exact .same hr
  case disconnect boot =>
    obtain ⟨rt, hr, rfl⟩ := Table.getElem?_map_eq_some h
    split
    case isTrue hb => exact .invalidated hr (by simp [Op.invalidates, hb])
    case isFalse   => exact .same hr
  case advance =>
    obtain ⟨rt, hr, rfl⟩ := Table.getElem?_map_eq_some h
    exact .invalidated hr rfl
  case load hl =>
    obtain ⟨rt, hr, rfl⟩ := Table.getElem?_map_eq_some h
    simp [RuntimeState.registry, (decoded_of_load hl).targetRuntime] at hr
  all_goals exact .same h

def targetGeneration (st : RuntimeState) (t : NearMemoryTargetId) : NearMemoryTargetGeneration :=
  (st.targets[t]?).elim {} (·.generation)

end Coordinator

-- No target of the given kind, which may depend on the worker that owns it, counts as current.
def Silent (K : NearMemoryTargetId → WorkerBootId → Bool) (st : RuntimeState) : Prop :=
  ∀ ⦃t : NearMemoryTargetId⦄ ⦃rt : TargetRuntime⦄,
    st.targetRuntime[t]? = some rt → K t rt.ownerBoot → rt.dynamicCurrent = false

-- A heartbeat for a target of the given kind is accepted, since the lifecycle of the target is not
-- a terminal one.
def Op.revives (K : NearMemoryTargetId → WorkerBootId → Bool) (op : Op) (st : RuntimeState) :
    Bool :=
  match op with
  | applyHeartbeat msg =>
    ∃ rt ∈ st.targetRuntime[msg.target]?, !rt.terminal ∧ K msg.target rt.ownerBoot
  | _ => false

namespace Silent

variable [Platform] {K : NearMemoryTargetId → WorkerBootId → Bool} {st : RuntimeState}

-- Only heartbeats make a target current.
theorem step {op : Op} (hk : Silent K st) (hr : ¬op.revives K st) :
    Silent K (step op st).snd := by
  intro t rt' h hb
  cases step_runtime op h
  case same ht => exact hk ht hb
  case drained rt ht _ =>
    have hn : rt.dynamicCurrent = false := hk ht hb
    exact hn
  case registered => rfl
  case invalidated  => rfl
  case retired    => rfl
  case heartbeat msg rt hm ht hl =>
    refine absurd ?_ hr
    cases hm
    simp only [Op.revives, decide_eq_true_eq]
    exact ⟨rt, ht, by simpa using hl, hb⟩

theorem not_planned {id : ExecutionPlanId} {o : OperationId} {out : PlanOutput}
    (hk : Silent K st) (h : (plan id o st).fst = .ok out) (hc : out.created) :
    K out.plan.target out.plan.authority.snapshot.workerBoot = false := by
  have ⟨sel, he, hp, _⟩ := plan_created h hc
  rw [hp]
  by_contra hb
  have hn := hk sel.targetRuntime_eq (eq_true_of_ne_false hb)
  exact Bool.false_ne_true (hn.symm.trans (sel.hardFilter_eq_nil he).2.1)

omit [Platform] in
theorem not_dispatched {p : ExecutionPlanId} {did : DispatchId} {aid : AttemptId}
    {out : DispatchOutput} (hk : Silent K st) (h : (prepareDispatch p did aid st).fst = .ok out) :
    K out.message.target out.message.workerBoot = false := by
  have ⟨prep, hm⟩ := prepareDispatch_ok h
  rw [hm]
  by_contra hb
  have hn := hk prep.targetRuntime_eq (eq_true_of_ne_false hb)
  exact Bool.false_ne_true (hn.symm.trans prep.current)

end Silent

namespace Op

def retires (t : NearMemoryTargetId) : Op → Bool
  | retireTarget t' => t' = t
  | _               => false

-- Registers the target with a greater generation.
def renews (t : NearMemoryTargetId) (g : NearMemoryTargetGeneration) : Op → Bool
  | applyRegisterTarget msg => msg.target = t ∧ g.value < msg.generation.value
  | _                       => false

def drains (t : NearMemoryTargetId) : Op → Bool
  | beginDrain t' => t' = t
  | _             => false

-- Registers the target or replaces the whole state.
def reopens (t : NearMemoryTargetId) (op : Op) : Bool :=
  op.registers t || op.loads

def fences (boot : WorkerBootId) : Op → Bool
  | fenceWorker boot' | onWorkerDisconnected boot' => boot' = boot
  | _                                              => false

-- The worker boot is bound to a session or registers a target.
def readmits (boot : WorkerBootId) : Op → Bool
  | bindWorkerSession _ boot' _ => boot' = boot
  | applyRegisterTarget msg     => msg.ownerBoot = boot
  | _                           => false

end Op

-- The target has been retired, with the given generation.
def RetiredAt (t : NearMemoryTargetId) (g : NearMemoryTargetGeneration)
    (e : Event RuntimeState Op Outcome) : Prop :=
  Done (Op.retires t) e ∧ targetGeneration e.pre t = g

instance {t : NearMemoryTargetId} {g : NearMemoryTargetGeneration} :
    DecidablePred (RetiredAt t g) :=
  fun e => inferInstanceAs (Decidable (Done (Op.retires t) e ∧ targetGeneration e.pre t = g))

-- The target has been retired and not been registered with a greater generation since.
abbrev Retired (t : NearMemoryTargetId) (g : NearMemoryTargetGeneration) :
    List (Event RuntimeState Op Outcome) → Prop :=
  Since (RetiredAt t g) (Done (Op.renews t g))

-- The target has been drained and not been registered since.
abbrev Drained (t : NearMemoryTargetId) : List (Event RuntimeState Op Outcome) → Prop :=
  Since (Done (Op.drains t)) (Done (Op.reopens t))

-- The worker boot has been fenced or disconnected and not come back since.
abbrev Fenced (boot : WorkerBootId) : List (Event RuntimeState Op Outcome) → Prop :=
  Since (Done (Op.fences boot)) (Done (Op.readmits boot))

-- A heartbeat by which a target would take new work again is accepted.
def Op.undrains (t : NearMemoryTargetId) (op : Op) (st : RuntimeState) : Bool :=
  match op with
  | applyHeartbeat msg =>
    msg.target = t ∧ ∃ rt ∈ st.targetRuntime[msg.target]?,
      !rt.terminal ∧ !TargetLifecycle.blocks msg.lifecycle
  | _ => false

-- The target takes no new work for now, or it is retired and no plan waits for it.
def Barred (t : NearMemoryTargetId) (st : RuntimeState) : Prop :=
  ∀ rt, st.targetRuntime[t]? = some rt →
    TargetLifecycle.blocks rt.lifecycle ∨ rt.lifecycle = TargetLifecycle.retired ∧
      ∀ (p : ExecutionPlanId) (plan : ExecutionPlan), st.plans[p]? = some plan →
        plan.target = t → plan.lifecycle ≠ .planned

namespace Deployment

-- What the first worker would publish again.
def republished : List Op := [
  .applyHeartbeat heartbeat,
  .applyDataEvidence evidence,
  .applyCapability { value := 3 } (fun _ => { value := 3 }) capability]

end Deployment

section Retirement

variable [Platform] {st : RuntimeState} {op : Op}

theorem silent_of_retires {t : NearMemoryTargetId} (h : Done (Op.retires t) (machine.event op st)) :
    Silent (fun t' _ => t' = t) (step op st).snd := by
  obtain ⟨ho, hs⟩ := h
  intro t' rt hr hk
  cases of_decide_eq_true hk
  cases op <;> try contradiction
  case retireTarget t' =>
    cases of_decide_eq_true ho
    simp only [machine, Machine.event, step, answer, retireTarget, Outcome.succeeded] at hs hr
    split at hr
    case h_1 hn =>
      rw [hn] at hs
      contradiction
    case h_2 =>
      simp only [RuntimeState.rebuildActivePlans, Table.getElem?_insert_self] at hr
      cases hr
      rfl

theorem silent_of_fences {boot : WorkerBootId} (h : Done (Op.fences boot) (machine.event op st)) :
    Silent (fun _ boot' => boot' = boot) (step op st).snd := by
  intro t rt hr hk
  have ho : (op.fences boot : Prop) := h.1
  have hr : (st.targetRuntime.map fun _ rt =>
      if rt.ownerBoot = boot then rt.invalidate else rt)[t]? = some rt := by
    cases op <;> first | contradiction | (cases of_decide_eq_true ho; exact hr)
  by_contra hc
  have hn := (current_of_map_ite (g := TargetRuntime.dynamicCurrent) (fun _ => rfl) hr
    (eq_true_of_ne_false hc)).2
  exact hn (of_decide_eq_true hk)

theorem barred_of_drains {t : NearMemoryTargetId} (h : Done (Op.drains t) (machine.event op st)) :
    Barred t (step op st).snd := by
  obtain ⟨ho, hs⟩ := h
  intro rt hr
  cases op <;> try contradiction
  case beginDrain t' =>
    cases of_decide_eq_true ho
    simp only [machine, Machine.event, step, answer, beginDrain, Outcome.succeeded] at hs hr
    cases ht : st.targetRuntime[t]?
    case none =>
      rw [ht] at hs
      contradiction
    case some rt =>
      simp only [ht] at hs hr
      split_ifs at hs hr
      · contradiction
      · rw [Table.getElem?_insert_self] at hr
        cases hr
        exact .inl rfl

theorem Barred.step {t : NearMemoryTargetId} (hc : Barred t st) (hu : ¬op.undrains t st)
    (hn : ¬Done (Op.reopens t) (machine.event op st)) : Barred t (step op st).snd := by
  intro rt' h
  have ho := step_runtime op h
  generalize hout : (Coordinator.step op st).fst = out at ho
  cases ho
  case same ht =>
    refine (hc rt' ht).imp_right fun ⟨hl, hp⟩ => ⟨hl, ?_⟩
    intro p plan' hp' hpt hpl
    rcases step_live_origin op hp' (hpl ▸ rfl) with ⟨o, sel, rfl, rfl, he⟩ | ⟨plan, hq, he⟩
    · have hup := (sel.hardFilter_eq_nil he).1.up.2.2
      have hrt : some sel.trt = some rt' := by
        rw [← sel.targetRuntime_eq, ← ht, ← hpt]
        rfl
      cases hrt
      exact hup hl
    · exact hp p plan hq (he.target ▸ hpt) (he.planned hpl ▸ hpl)
  case drained   => exact .inl rfl
  case invalidated => exact .inl rfl
  case registered msg hm hs =>
    refine absurd ⟨?_, (congrArg Outcome.succeeded hout).trans hs⟩ hn
    simp [machine, Machine.event, Op.reopens, Op.registers, hm]
  case heartbeat msg rt hm ht hl =>
    cases hm
    left
    by_contra hb
    refine hu (decide_eq_true ⟨rfl, rt, ht, ?_, ?_⟩)
    · simpa using hl
    · simpa [TargetRuntime.heartbeat] using hb
  case retired rt ht =>
    refine .inr ⟨rfl, ?_⟩
    intro p plan' hp' hpt hpl
    simp only [Coordinator.step, answer, retireTarget, ht, RuntimeState.rebuildActivePlans] at hp'
    obtain ⟨plan, _, rfl⟩ := Table.getElem?_map_eq_some hp'
    cases plan.swept_onRetire.evolves.target.symm.trans hpt
    have hd := plan.onRetire_dead
    rw [hpl] at hd
    contradiction

-- A target of which nothing is heard is never planned for.
theorem silent_of_since {K : NearMemoryTargetId → WorkerBootId → Bool}
    {P Q : Event RuntimeState Op Outcome → Prop}
    (start : ∀ op st, P (machine.event op st) → Silent K (step op st).snd) {cid : CoordinatorId}
    {run : List Op}
    (hr : Machine.EachStep (fun past op =>
      Since P Q (history cid past) → ¬op.revives K (after cid past)) run)
    (hs : Since P Q (history cid run)) : Silent K (after cid run) := by
  refine Machine.of_since ?_ ?_ hr hs
  · intro past op _ hp
    exact start op _ hp
  · intro past op hr hs _ hk
    exact hk.step (hr hs)

-- A retired target is not planned for in any run in which no heartbeat is accepted for it.
theorem retired_not_planned (cid : CoordinatorId) (run : List Op) (t : NearMemoryTargetId)
    (g : NearMemoryTargetGeneration)
    (hr : Machine.EachStep (fun past op =>
      Retired t g (history cid past) → ¬op.revives (fun t' _ => t' = t) (after cid past)) run)
    {past : List Op} (hs : past <:+ run) (hp : Retired t g (history cid past))
    {id : ExecutionPlanId} {o : OperationId} {out : PlanOutput}
    (h : (plan id o (after cid past)).fst = .ok out) (hc : out.created) : out.plan.target ≠ t := by
  have hk := silent_of_since (fun _ _ h => silent_of_retires h.1) (hr.suffix hs) hp
  exact of_decide_eq_false (hk.not_planned h hc)

end Retirement

open Deployment in
theorem retired_not_planned_of_deployment :
    let run := .applyHeartbeat heartbeat :: .retireTarget { value := 1 } :: second ++ setup
    ∃ out, (plan { value := 10 } { value := 1 } (after { value := 1 } run)).fst = .ok out ∧
      out.created ∧ out.plan.target ≠ { value := 1 } := by
  intro run
  have ⟨out, h, hc⟩ : ∃ out,
      (plan { value := 10 } { value := 1 } (after { value := 1 } run)).fst = .ok out ∧
      out.created = true :=
    exists_ok_of_map (by decide +kernel)
  refine ⟨out, h, hc, ?_⟩
  exact retired_not_planned { value := 1 } run { value := 1 } { value := 1 } (by decide +kernel)
    (List.suffix_refl _) (by decide +kernel) h hc

-- A worker whose target has been retired is fenced, and then brings the target back by a delayed
-- heartbeat.
open Deployment in
theorem retired_target_planned :
    let past := republished ++ .fenceWorker { value := 1 } :: .retireTarget { value := 1 } :: setup
    Retired { value := 1 } { value := 1 } (history { value := 1 } past) ∧
    (plan { value := 10 } { value := 1 } (after { value := 1 } past)).fst.map
      (fun out => (out.created, out.plan.target)) = .ok (true, { value := 1 }) := by
  decide +kernel

section Draining

variable [Platform]

-- A drained target admits no plan in any run in which no heartbeat is accepted that says that it
-- does.
theorem drained_not_reserved (cid : CoordinatorId) (run : List Op) (t : NearMemoryTargetId)
    (hr : Machine.EachStep (fun past op =>
      Drained t (history cid past) → ¬op.undrains t (after cid past)) run)
    {past : List Op} (hs : past <:+ run) (hd : Drained t (history cid past))
    {p : ExecutionPlanId} {plan : ExecutionPlan} (hp : (after cid past).plans[p]? = some plan)
    (ht : plan.target = t) : (reserve p (after cid past)).fst ≠ .ok () := by
  intro hok
  have hc : Barred t (after cid past) := by
    refine Machine.of_since ?_ ?_ (hr.suffix hs) hd
    · intro past op _ hp
      exact barred_of_drains hp
    · intro past op hr hs hn hc
      exact hc.step (hr hs) hn
  have ⟨hl, rt, hrt, hb⟩ := reserve_ok hok hp
  cases hc rt (ht ▸ hrt)
  case inl hb'  => exact hb hb'
  case inr hret => exact hret.2 p plan hp ht hl

end Draining

open Deployment in
theorem drained_not_reserved_of_deployment :
    let run := .applyHeartbeat { heartbeat with lifecycle := TargetLifecycle.draining } ::
      .beginDrain { value := 1 } :: .plan { value := 10 } { value := 1 } :: setup
    Drained { value := 1 } (history { value := 1 } run) ∧
    (reserve { value := 10 } (after { value := 1 } run)).fst ≠ .ok () := by
  intro run
  have hd : Drained { value := 1 } (history { value := 1 } run) := by decide +kernel
  have hp : ((after { value := 1 } run).plans[({ value := 10 } : ExecutionPlanId)]?).map
      ExecutionPlan.target = some { value := 1 } := by
    decide +kernel
  obtain ⟨plan, hp, ht⟩ := Option.map_eq_some_iff.mp hp
  exact ⟨hd, drained_not_reserved { value := 1 } run { value := 1 } (by decide +kernel)
    (List.suffix_refl _) hd hp ht⟩

-- The next heartbeat of a drained target says that it is ready.
open Deployment in
theorem drained_target_reserved :
    let past := .applyHeartbeat heartbeat :: .beginDrain { value := 1 } ::
      .plan { value := 10 } { value := 1 } :: setup
    Drained { value := 1 } (history { value := 1 } past) ∧
    ((after { value := 1 } past).plans[({ value := 10 } : ExecutionPlanId)]?).map
      ExecutionPlan.target = some { value := 1 } ∧
    (reserve { value := 10 } (after { value := 1 } past)).fst = .ok () := by
  decide +kernel

section Fencing

variable [Platform]

-- A worker boot that has been fenced takes no part in planning and dispatching in any run in which
-- no heartbeat is accepted for its targets.
theorem fenced_not_dispatched (cid : CoordinatorId) (run : List Op) (boot : WorkerBootId)
    (hr : Machine.EachStep (fun past op =>
      Fenced boot (history cid past) → ¬op.revives (fun _ b => b = boot) (after cid past)) run)
    {past : List Op} (hs : past <:+ run) (hf : Fenced boot (history cid past)) :
    (∀ id o out, (plan id o (after cid past)).fst = .ok out → out.created →
      out.plan.authority.snapshot.workerBoot ≠ boot) ∧
    (∀ p did aid out, (prepareDispatch p did aid (after cid past)).fst = .ok out →
      out.message.workerBoot ≠ boot) := by
  have hk := silent_of_since (fun _ _ h => silent_of_fences h) (hr.suffix hs) hf
  constructor
  · intro id o out h hc
    exact of_decide_eq_false (hk.not_planned h hc)
  · intro p did aid out h
    exact of_decide_eq_false (hk.not_dispatched h)

end Fencing

open Deployment in
theorem fenced_not_dispatched_of_deployment :
    let run := .fenceWorker { value := 1 } :: second ++ setup
    Fenced { value := 1 } (history { value := 1 } run) ∧
    (∃ out, (plan { value := 10 } { value := 1 } (after { value := 1 } run)).fst = .ok out ∧
      out.created ∧ out.plan.authority.snapshot.workerBoot ≠ { value := 1 }) := by
  intro run
  have hf : Fenced { value := 1 } (history { value := 1 } run) := by decide +kernel
  have ⟨out, h, hc⟩ : ∃ out,
      (plan { value := 10 } { value := 1 } (after { value := 1 } run)).fst = .ok out ∧
      out.created = true :=
    exists_ok_of_map (by decide +kernel)
  have hn := fenced_not_dispatched { value := 1 } run { value := 1 } (by decide +kernel)
    (List.suffix_refl _) hf
  exact ⟨hf, out, h, hc, hn.1 _ _ _ h hc⟩

-- Delayed messages of a fenced worker make its target eligible again.
open Deployment in
theorem fenced_worker_dispatched :
    let past := republished ++ .fenceWorker { value := 1 } :: setup
    let later := .reserve { value := 10 } :: .plan { value := 10 } { value := 1 } :: past
    Fenced { value := 1 } (history { value := 1 } past) ∧
    (plan { value := 10 } { value := 1 } (after { value := 1 } past)).fst.map
      (fun out => (out.created, out.plan.authority.snapshot.workerBoot)) =
      .ok (true, { value := 1 }) ∧
    Fenced { value := 1 } (history { value := 1 } later) ∧
    (prepareDispatch { value := 10 } { value := 20 } { value := 30 }
      (after { value := 1 } later)).fst.map (fun out => out.message.workerBoot) =
      .ok { value := 1 } := by
  decide +kernel

end NMC
