import NearMemoryCompute.Execution.Theorems.Resolvable
import NearMemoryCompute.Execution.Worker

namespace NMC

open Coordinator

-- The message that an event has prepared for the plan.
def prepared (p : ExecutionPlanId) (e : Event RuntimeState Op Outcome) : Option DispatchMsg :=
  match e.input, e.output with
  | .prepareDispatch q _ _, .dispatch (.ok out) => if q = p then some out.message else none
  | _, _                                        => none

-- The dispatch that an event has confirmed for the plan.
def confirmed (p : ExecutionPlanId) (e : Event RuntimeState Op Outcome) : Option DispatchId :=
  match e.input, e.output with
  | .confirmDispatched q did, .unit (.ok ()) => if q = p then some did else none
  | _, _                                     => none

def confirmations (p : ExecutionPlanId) (h : List (Event RuntimeState Op Outcome)) :
    List DispatchId :=
  h.filterMap (confirmed p)

-- The message that had been prepared last when the plan was confirmed for the last time.
def lastDispatch (p : ExecutionPlanId) : List (Event RuntimeState Op Outcome) → Option DispatchMsg
  | []     => none
  | e :: h => if (confirmed p e).isSome then h.findSome? (prepared p) else lastDispatch p h

-- The message carries the authority of the plan.
structure DispatchMsg.Carries (m : DispatchMsg) (plan : ExecutionPlan) : Prop where
  dispatch  : plan.dispatchId = some m.dispatch
  attempt   : plan.attemptId = some m.attempt
  target    : m.target = plan.target
  authority : (completionAuthority (Worker.resultMsg m {})).Matches plan.authority

theorem Preparation.carries {st : RuntimeState} {p : ExecutionPlanId} (prep : Preparation st p)
    (hr : Resolves st prep.plan) (did : DispatchId) (aid : AttemptId) :
    (prep.message did aid).Carries (prep.prepared did aid) := by
  have hf := hr.fresh prep.fresh
  have ⟨trt, ht, hb, _⟩ := hf.targetRuntime
  have ⟨op, ho, hg, _⟩ := hf.operation
  cases ht.symm.trans prep.targetRuntime_eq
  cases ho.symm.trans prep.operation_eq
  exact {
    dispatch  := rfl
    attempt   := rfl
    target    := rfl
    authority := {
      plan                := hr.authority.symm
      planGeneration      := hr.planGeneration.symm
      targetGeneration    := hr.targetGeneration.symm
      workerBoot          := hb
      epoch               := hr.epoch.symm
      datasetGeneration   := hr.datasetGeneration.symm
      regionGeneration    := hr.regionGeneration.symm
      operationGeneration := hg } }

-- What the history says about a plan on its way to a worker.
structure Recorded (h : List (Event RuntimeState Op Outcome)) (p : ExecutionPlanId)
    (plan : ExecutionPlan) : Prop where
  planned    : plan.lifecycle = .planned → plan.dispatchId = none
  reserved   : plan.lifecycle = .reserved → plan.dispatchId ≠ none →
    ∃ m, h.findSome? (prepared p) = some m ∧ m.Carries plan
  dispatched : plan.lifecycle = .dispatched → ∃ m, lastDispatch p h = some m ∧ m.Carries plan

section Steps

variable {h : List (Event RuntimeState Op Outcome)} {e : Event RuntimeState Op Outcome}
         {st : RuntimeState} {l : Ledger} {p : ExecutionPlanId}

theorem prepared_eq_none (hn : ¬Done (Op.dispatches p) e) : prepared p e = none := by
  unfold prepared
  split
  case h_1 hi ho =>
    refine if_neg fun hq => hn ⟨?_, ?_⟩
    · simp [hi, Op.dispatches, hq]
    · simp [ho, Outcome.succeeded, Except.isOk, Except.toBool]
  case h_2 => rfl

theorem confirmed_eq_none (hn : ¬Done (Op.dispatches p) e) : confirmed p e = none := by
  unfold confirmed
  split
  case h_1 hi ho =>
    refine if_neg fun hq => hn ⟨?_, ?_⟩
    · simp [hi, Op.dispatches, hq]
    · simp [ho, Outcome.succeeded, Except.isOk, Except.toBool]
  case h_2 => rfl

-- Only plans that are admitted are confirmed.
theorem reserved_of_confirmed (hs : Ledger.Step st e.input e.output l) {d : DispatchId}
    (hc : confirmed p e = some d) :
    ∃ plan, st.plans[p]? = some plan ∧ plan.lifecycle = .reserved := by
  obtain ⟨op, pre, out, post⟩ := e
  unfold confirmed at hc
  split at hc
  case h_2 => contradiction
  case h_1 q _ hi ho =>
    cases hi
    cases ho
    obtain ⟨rfl, -⟩ := Option.ite_none_right_eq_some.mp hc
    cases hs
    case idle hi         => exact absurd (hi rfl) nofun
    case confirm hl hp _ => exact ⟨_, hp, hl⟩

-- An admitted plan has been prepared and confirmed as the history says.
theorem Recorded.step (hh : ∀ ⦃p plan⦄, st.plans[p]? = some plan → Recorded h p plan)
    (hr : Resolvable st) (hs : Ledger.Step st e.input e.output l) {plan' : ExecutionPlan}
    (hp : l.plans[p]? = some plan') : Recorded (e :: h) p plan' where
  planned hl := by
    rcases hs.planned_origin hp hl with ⟨_, _, _, rfl⟩ | hp
    · rfl
    · exact (hh hp).planned hl
  reserved hl hd := by
    obtain ⟨op, pre, out, post⟩ := e
    cases hs.admits hp (hl ▸ rfl)
    case reserve adm => exact absurd ((hh adm.plan_eq).planned adm.planned) hd
    case prepare did aid out prep hm =>
      have hlive : prep.plan.lifecycle.live := by rw [prep.reserved]; rfl
      refine ⟨_, ?_, prep.carries (hr.live prep.plan_eq hlive) did aid⟩
      simp [prepared, hm]
    case confirm => contradiction
    case stay hn hq =>
      have ⟨m, hm, hc⟩ := (hh hq).reserved hl hd
      exact ⟨m, by rw [List.findSome?_cons, prepared_eq_none hn, hm], hc⟩
  dispatched hl := by
    obtain ⟨op, pre, out, post⟩ := e
    cases hs.admits hp (hl ▸ rfl)
    case reserve => contradiction
    case prepare prep _ => exact absurd (prep.reserved.symm.trans hl) nofun
    case confirm plan hq hr hd =>
      have ⟨m, hm, hc⟩ := (hh hq).reserved hr (by simp [hd])
      refine ⟨m, ?_, ⟨hc.dispatch, hc.attempt, hc.target, hc.authority⟩⟩
      simp [lastDispatch, confirmed, hm]
    case stay hn hq =>
      have ⟨m, hm, hc⟩ := (hh hq).dispatched hl
      exact ⟨m, by simp [lastDispatch, confirmed_eq_none hn, hm], hc⟩

end Steps

theorem recorded_after [Platform] (cid : CoordinatorId) (run : List Op) {p : ExecutionPlanId}
    {plan : ExecutionPlan} (hp : (after cid run).plans[p]? = some plan) :
    Recorded (history cid run) p plan := by
  refine machine.invariant _ (I := fun past st => ∀ ⦃p : ExecutionPlanId⦄ ⦃plan : ExecutionPlan⦄,
    st.plans[p]? = some plan → Recorded (history cid past) p plan) ?_ ?_ run hp
  · intro p plan hp
    simp [init] at hp
  · intro past op hh p plan hp
    exact Recorded.step (e := machine.event op (after cid past)) hh (resolvable_after cid past)
      (step_refines op _) hp

-- The plan identity that the operation draws has not been in use in any state of the past.
def Op.planIdNew [Platform] (op : Op) (cid : CoordinatorId) (past : List Op) : Bool :=
  match op with
  | .plan id _ => past.tails.all fun past' => id ∉ (after cid past').plans
  | _          => true

-- A plan is confirmed at most once.
structure Once (h : List (Event RuntimeState Op Outcome)) (p : ExecutionPlanId)
    (plan : ExecutionPlan) : Prop where
  planned    : plan.lifecycle = .planned → confirmations p h = []
  reserved   : plan.lifecycle = .reserved → confirmations p h = []
  dispatched : plan.lifecycle = .dispatched →
    ∃ d, plan.dispatchId = some d ∧ confirmations p h = [d]

section Once

variable {h : List (Event RuntimeState Op Outcome)} {e : Event RuntimeState Op Outcome}
         {st : RuntimeState} {l : Ledger} {p : ExecutionPlanId}

theorem confirmations_cons_of_none (hc : confirmed p e = none) :
    confirmations p (e :: h) = confirmations p h := by
  simp [confirmations, hc]

theorem Once.step (hh : ∀ ⦃p plan⦄, st.plans[p]? = some plan → Once h p plan)
    (hs : Ledger.Step st e.input e.output l)
    (hn : ∀ o, e.input = .plan p o → confirmations p h = []) {plan' : ExecutionPlan}
    (hp : l.plans[p]? = some plan') : Once (e :: h) p plan' where
  planned hl := by
    rcases hs.planned_origin hp hl with ⟨o, _, ho, _⟩ | hp
    · rw [confirmations_cons_of_none, hn o ho]
      simp [confirmed, ho]
    · rw [confirmations_cons_of_none, (hh hp).planned hl]
      by_contra hc
      have ⟨d, hc⟩ := Option.ne_none_iff_exists'.mp hc
      have ⟨plan, hq, hl'⟩ := reserved_of_confirmed hs hc
      cases hp.symm.trans hq
      exact absurd (hl.symm.trans hl') nofun
  reserved hl := by
    obtain ⟨op, pre, out, post⟩ := e
    cases hs.admits hp (hl ▸ rfl)
    case reserve adm    => exact (hh adm.plan_eq).planned adm.planned
    case prepare prep _ => exact (hh prep.plan_eq).reserved prep.reserved
    case confirm        => contradiction
    case stay hn hq =>
      rw [confirmations_cons_of_none (confirmed_eq_none hn)]
      exact (hh hq).reserved hl
  dispatched hl := by
    obtain ⟨op, pre, out, post⟩ := e
    cases hs.admits hp (hl ▸ rfl)
    case reserve        => contradiction
    case prepare prep _ => exact absurd (prep.reserved.symm.trans hl) nofun
    case confirm did plan hq hr hd =>
      refine ⟨did, hd, ?_⟩
      have hz := (hh hq).reserved hr
      rw [confirmations] at hz
      simp [confirmations, confirmed, hz]
    case stay hn hq =>
      rw [confirmations_cons_of_none (confirmed_eq_none hn)]
      exact (hh hq).dispatched hl

variable [Platform] {cid : CoordinatorId}

-- A plan that is new has not been confirmed.
theorem confirmations_of_new {past : List Op} {o : OperationId}
    (hn : (Op.plan p o).planIdNew cid past) : confirmations p (history cid past) = [] := by
  apply List.filterMap_eq_nil_iff.mpr
  intro e he
  obtain ⟨op, past', hs, rfl⟩ := machine.mem_events _ he
  by_contra hc
  have ⟨d, hc⟩ := Option.ne_none_iff_exists'.mp hc
  have ⟨plan, hp, _⟩ := reserved_of_confirmed (e := machine.event op _) (step_refines op _) hc
  have hm := (List.mem_tails past' past).mpr ((List.suffix_cons _ _).trans hs)
  have hm := List.all_eq_true.mp hn past' hm
  exact of_decide_eq_true hm (Table.mem_of_some hp)

theorem once_after {run : List Op}
    (hn : Machine.EachStep (fun past op => op.planIdNew cid past) run) {plan : ExecutionPlan}
    (hp : (after cid run).plans[p]? = some plan) : Once (history cid run) p plan := by
  refine machine.invariant_of_eachStep _ (I := fun past st => ∀ ⦃p : ExecutionPlanId⦄
    ⦃plan : ExecutionPlan⦄, st.plans[p]? = some plan → Once (history cid past) p plan) ?_ ?_ hn hp
  · intro p plan hp
    simp [init] at hp
  · intro past op hn hh p plan hp
    refine Once.step (e := machine.event op (after cid past)) hh (step_refines op _) ?_ hp
    rintro o rfl
    exact confirmations_of_new hn

end Once

-- The result has everything that it shares with a dispatch from that dispatch.
structure DispatchMsg.Agrees (m : DispatchMsg) (r : ExecutionResult) : Prop where
  plan                : r.plan                = m.plan
  planGeneration      : r.planGeneration      = m.planGen
  dispatch            : r.dispatch            = m.dispatch
  attempt             : r.attempt             = m.attempt
  target              : r.target              = m.target
  targetGeneration    : r.targetGeneration    = m.targetGen
  workerBoot          : r.workerBoot          = m.workerBoot
  epoch               : r.epoch               = m.epoch
  datasetGeneration   : r.datasetGeneration   = m.datasetGen
  regionGeneration    : r.regionGeneration    = m.regionGen
  operationGeneration : r.operationGeneration = m.operationGen

-- The plan of the result has been confirmed once, for the dispatch that was prepared last before,
-- and the result agrees with this dispatch.
def Provenance (h : List (Event RuntimeState Op Outcome)) (r : ExecutionResult) : Prop :=
  ∃ d m, confirmations r.plan h = [d] ∧ lastDispatch r.plan h = some m ∧ m.dispatch = d ∧ m.Agrees r

-- A committed result echoes the completion.
theorem applyResult_committed {st : RuntimeState} {rid : ResultId} {msg : ResultMsg}
    {r : ExecutionResult} (h : (applyResult rid msg st).fst = .ok r) (hc : r.committed) :
    ∃ plan, st.plans[msg.plan]? = some plan ∧ completionError st plan msg = none ∧
      r = { executionResult rid msg with
        verification := .verified
        outputDigest := msg.outputDigest
        committed    := true } := by
  simp only [applyResult] at h
  split at h
  case h_1 => contradiction
  case h_2 plan hp =>
    split at h
    case h_1 => contradiction
    case h_2 he =>
      refine ⟨plan, hp, he, ?_⟩
      split_ifs at h
      · cases h
        contradiction
      · cases h
        contradiction
      · cases h
        rfl

-- A completion that is committed stems from the dispatch of its plan in every respect, except that
-- the target that it names is not checked.
theorem completion_provenance [Platform] {cid : CoordinatorId} {run : List Op}
    (hn : Machine.EachStep (fun past op => op.planIdNew cid past) run)
    {rid : ResultId} {msg : ResultMsg} {r : ExecutionResult} {plan : ExecutionPlan}
    (hp : (after cid run).plans[msg.plan]? = some plan)
    (hr : (applyResult rid msg (after cid run)).fst = .ok r) (hc : r.committed) :
    Provenance (history cid run) r ↔ msg.target = plan.target := by
  have ⟨plan', hp', he, hr⟩ := applyResult_committed hr hc
  subst hr
  cases hp.symm.trans hp'
  have ha := completionError_eq_none.mp he
  have hd : plan.lifecycle = .dispatched :=
    Completion.dispatched ⟨plan, hp, he⟩ (resolvable_after cid run)
  have ⟨d, hd', hone⟩ := (once_after hn hp).dispatched hd
  have ⟨m, hm, hca⟩ := (recorded_after cid run hp).dispatched hd
  constructor
  case mp =>
    intro ⟨_, m', _, hm', _, hag⟩
    cases hm.symm.trans hm'
    exact hag.target.trans hca.target
  case mpr =>
    intro ht
    refine ⟨d, m, hone, hm, Option.some.inj (hca.dispatch.symm.trans hd'), ?_⟩
    have h₁ := ha.authority
    have h₂ := hca.authority
    exact {
      plan                := h₁.plan.trans h₂.plan.symm
      planGeneration      := h₁.planGeneration.trans h₂.planGeneration.symm
      dispatch            := Option.some.inj (ha.dispatchId.symm.trans hca.dispatch)
      attempt             := Option.some.inj (ha.attemptId.symm.trans hca.attempt)
      target              := ht.trans hca.target.symm
      targetGeneration    := h₁.targetGeneration.trans h₂.targetGeneration.symm
      workerBoot          := h₁.workerBoot.trans h₂.workerBoot.symm
      epoch               := h₁.epoch.trans h₂.epoch.symm
      datasetGeneration   := h₁.datasetGeneration.trans h₂.datasetGeneration.symm
      regionGeneration    := h₁.regionGeneration.trans h₂.regionGeneration.symm
      operationGeneration := h₁.operationGeneration.trans h₂.operationGeneration.symm }

section

open Deployment

-- The completion names a target that does not exist.
theorem misattributed_without_provenance :
    Machine.EachStep (fun past op => op.planIdNew { value := 1 } past) (dispatch ++ setup) ∧
    ∃ r, (applyResult { value := 40 } { completion with target := { value := 2 } }
        (after { value := 1 } (dispatch ++ setup))).fst = .ok r ∧ r.committed ∧
      ¬Provenance (history { value := 1 } (dispatch ++ setup)) r := by
  refine ⟨by decide +kernel, ?_⟩
  have hx : (applyResult { value := 40 } { completion with target := { value := 2 } }
      (after { value := 1 } (dispatch ++ setup))).fst.toOption.map
      (fun r => (r.committed, r.plan, r.target)) =
        some (true, { value := 10 }, { value := 2 }) := by
    decide +kernel
  have hm : (lastDispatch { value := 10 } (history { value := 1 } (dispatch ++ setup))).map
      (·.target) = some { value := 1 } := by
    decide +kernel
  have ⟨r, hr, he⟩ := exists_ok_of_map hx
  simp only [Prod.mk.injEq] at he
  obtain ⟨hc, hp, ht⟩ := he
  refine ⟨r, hr, hc, ?_⟩
  intro ⟨_, m, _, hm', _, ha⟩
  rw [hp] at hm'
  rw [hm', Option.map_some, ← ha.target, ht] at hm
  exact absurd hm (by decide)

theorem completion_provenance_of_deployment :
    ∃ r, (applyResult { value := 40 } completion
        (after { value := 1 } (dispatch ++ setup))).fst = .ok r ∧ r.committed ∧
      Provenance (history { value := 1 } (dispatch ++ setup)) r := by
  have hx : (applyResult { value := 40 } completion
      (after { value := 1 } (dispatch ++ setup))).fst.toOption.map (·.committed) = some true := by
    decide +kernel
  have ht : (after { value := 1 } (dispatch ++ setup)).plans[({ value := 10 } :
      ExecutionPlanId)]?.map (·.target) = some { value := 1 } := by
    decide +kernel
  have ⟨r, hr, hc⟩ := exists_ok_of_map hx
  have ⟨plan, hp, ht⟩ := Option.map_eq_some_iff.mp ht
  exact ⟨r, hr, hc, (completion_provenance (by decide +kernel) hp hr hc).mpr ht.symm⟩

end
end NMC
