import NearMemoryCompute.Execution.Theorems.ActivePlans

namespace NMC

open Coordinator

-- The operation is registered as one whose work can be done again.
def RuntimeState.replayable (st : RuntimeState) (o : OperationId) : Bool :=
  st.operations[o]?.any fun (op : OperationSpec) =>
    op.retryClass = RetryClass.replaySafe ∨ op.retryClass = RetryClass.idempotent

-- No worker reports the outcome of work that can not be done again as unknown, and if there are
-- several plans for such work, the one whose outcome is unknown is not cancelled.
def Op.KeepsUnknown (op : Op) (st : RuntimeState) : Prop :=
  match op with
  | .applyResult _ msg => msg.unknown → ∀ plan, st.plans[msg.plan]? = some plan →
    completionError st plan msg = none → st.replayable plan.operation
  | .cancelPlan p => ∀ plan, st.plans[p]? = some plan → plan.lifecycle = .outcomeUnknown →
    !st.replayable plan.operation → ∀ (q : ExecutionPlanId) (plan' : ExecutionPlan), q ≠ p →
      st.plans[q]? = some plan' → plan'.operation = plan.operation → plan'.lifecycle.ended
  | _ => True

-- A plan that has not ended occupies its operation, also if its outcome is unknown.
def ExecutionLifecycle.pending (a : ExecutionLifecycle) : Bool :=
  !a.ended

theorem occupying_pending : Occupying ExecutionLifecycle.pending where
  live h  := by simp [ExecutionLifecycle.pending, ExecutionLifecycle.not_ended_of_live h]
  ended h := by simpa [ExecutionLifecycle.pending] using h
  back h hb := by
    cases h
    case stay     => exact hb
    case reserve  => rfl
    case dispatch => rfl
    case settle a _ ha _ =>
      cases a <;> first | rfl | contradiction
    case withdraw hw => rcases hw with rfl | rfl | rfl <;> contradiction

-- The work of the operation must not be done again.
abbrev RuntimeState.Strict (st : RuntimeState) (o : OperationId) : Prop :=
  st.replayable o = false

section

variable {st : RuntimeState} {op : Op}

theorem Op.KeepsUnknown.vacates (h : op.KeepsUnknown st) :
    op.Vacates st.Strict ExecutionLifecycle.pending st := by
  cases op <;> try trivial
  case applyResult =>
    intro hu c hs
    exact absurd (hs.symm.trans (h hu c.plan c.plan_eq c.accepted)) Bool.false_ne_true
  case cancelPlan =>
    intro plan hp hl hs q plan' hne hq ho
    simpa [ExecutionLifecycle.pending] using h plan hp hl (by simpa using hs) q plan' hne hq ho

-- Recovery finds all operations that are occupied, and leaves no plan live.
theorem Occupied.of_load {R : OperationId → Prop} {occ : ExecutionLifecycle → Bool} {out : Outcome}
    {l : Ledger} (hocc : Occupying occ) (h : Ledger.Step st op out l)
    (hl : op.loads ∧ out.succeeded) : Occupied R occ l where
  single p q plan plan' hp _ _ _ hlive _ := absurd hl (h.of_live hp hlive).2
  indexed p plan hp _ ho := by
    cases h
    case load    => exact Ledger.mem_activePlansOf hp (hocc.ended ho)
    case idle hi => exact absurd hl (Op.not_loads_of_idle hi)
    all_goals exact absurd hl.1 Bool.false_ne_true

variable [Platform]

-- Registered operations do not change unless a file is loaded.
theorem strict_of_step (hl : ¬(op.loads ∧ (step op st).fst.succeeded)) {o : OperationId}
    (h : (step op st).snd.Strict o) : st.Strict o := by
  by_contra hs
  have ⟨spec, ho, hr⟩ := (Option.any_eq_true _ _).mp (Bool.not_eq_false _ ▸ hs)
  have ho : (step op st).snd.operations[o]? = some spec :=
    ((step_registry op st).retains hl).operations ho
  simp only [RuntimeState.Strict, RuntimeState.replayable, ho, Option.any_some, hr] at h
  contradiction

theorem step_occupied (hr : Resolvable st) (hk : op.KeepsUnknown st)
    (hi : Occupied st.Strict ExecutionLifecycle.pending st.ledger) :
    Occupied (step op st).snd.Strict ExecutionLifecycle.pending (step op st).snd.ledger := by
  by_cases hl : op.loads ∧ (step op st).fst.succeeded
  case pos => exact .of_load occupying_pending (step_refines op st) hl
  case neg =>
    have hi := hi.step occupying_pending (step_refines op st) hr hk.vacates
    exact hi.mono fun o => strict_of_step hl

end

-- Work that can not be done again blocks its operation as long as its outcome is unknown.
theorem unknown_blocks_operation [Platform] (cid : CoordinatorId) (run : List Op)
    (hk : Machine.EachStep (fun past op => op.KeepsUnknown (after cid past)) run)
    (o : OperationId) (spec : OperationSpec) (hs : (after cid run).operations[o]? = some spec)
    (hrs : spec.retryClass ≠ RetryClass.replaySafe) (hid : spec.retryClass ≠ RetryClass.idempotent)
    (p : ExecutionPlanId) (plan : ExecutionPlan) (hp : (after cid run).plans[p]? = some plan)
    (ho : plan.operation = o) (hu : plan.lifecycle = .outcomeUnknown) :
    (∀ id out, (Coordinator.plan id o (after cid run)).fst = .ok out → out.created = false) ∧
    ∀ (q : ExecutionPlanId) (plan' : ExecutionPlan), (after cid run).plans[q]? = some plan' →
      plan'.operation = o → ∀ did aid,
        !(prepareDispatch q did aid (after cid run)).fst.isOk ∧
        !(confirmDispatched q did (after cid run)).fst.isOk := by
  have hr := resolvable_after cid run
  have hi : Occupied (after cid run).Strict ExecutionLifecycle.pending (after cid run).ledger := by
    refine machine.invariant_of_eachStep _
      (I := fun _ st => Occupied st.Strict ExecutionLifecycle.pending st.ledger) (.init cid) ?_ hk
    exact fun past op hk hi => step_occupied (resolvable_after cid past) hk hi
  have hstrict : (after cid run).Strict o := by
    simp [RuntimeState.Strict, RuntimeState.replayable, hs, hrs, hid]
  have hpend : plan.lifecycle.pending := by
    simp [hu, ExecutionLifecycle.pending, ExecutionLifecycle.ended]
  subst ho
  constructor
  case left =>
    intro id out hout
    by_contra hc
    obtain ⟨sel, _⟩ := plan_created hout (by simpa using hc)
    apply sel.inactive
    rw [hr.operations sel.operation_eq]
    exact hi.indexed hp hstrict hpend
  case right =>
    intro q plan' hq ho did aid
    -- A plan of the operation that is live would be the one with the unknown outcome.
    have hn : plan'.lifecycle ≠ .reserved := by
      intro hl
      cases hi.single hq hp ho (ho ▸ hstrict) (hl ▸ rfl) hpend
      cases hp.symm.trans hq
      simp [hu] at hl
    constructor
    · simp [prepareDispatch, hq, hn, makeError, Except.isOk, Except.toBool]
    · simp only [confirmDispatched, hq]
      split_ifs <;> rfl

-- The worker is fenced while it executes the only plan of an operation that can not be repeated.
open Deployment in
theorem unknown_blocks_operation_of_deployment :
    let run := .fenceWorker { value := 1 } :: (dispatch ++ setup)
    ¬∃ id out, (Coordinator.plan id { value := 1 } (after { value := 1 } run)).fst = .ok out ∧
      out.created := by
  intro run ⟨id, out, hout, hc⟩
  have hk : Machine.EachStep (fun past op => op.KeepsUnknown (after { value := 1 } past)) run := by
    simp [run, dispatch, setup, Machine.eachStep_cons, Machine.eachStep_nil, Op.KeepsUnknown]
  have hs : ∃ spec : OperationSpec,
      (after { value := 1 } run).operations[({ value := 1 } : OperationId)]? = some spec ∧
      spec.retryClass = RetryClass.nonRetryable :=
    Option.map_eq_some_iff.mp (by decide +kernel)
  have hp : ∃ plan : ExecutionPlan,
      (after { value := 1 } run).plans[({ value := 10 } : ExecutionPlanId)]? = some plan ∧
      (plan.operation, plan.lifecycle) = ({ value := 1 }, .outcomeUnknown) :=
    Option.map_eq_some_iff.mp (by decide +kernel)
  obtain ⟨spec, hs, hr⟩ := hs
  obtain ⟨plan, hp, hf⟩ := hp
  obtain ⟨ho, hu⟩ := Prod.mk.inj hf
  have hn := (unknown_blocks_operation _ run hk _ spec hs (by rw [hr]; decide) (by rw [hr]; decide)
    _ plan hp ho hu).1 id out hout
  simp [hn] at hc

-- The worker reports that the outcome is unknown. The operation can not be repeated, but planning
-- creates a second plan for it.
open Deployment in
theorem unknown_operation_planned_again :
    let run := .applyResult { value := 40 } { completion with unknown := true } ::
      (dispatch ++ setup)
    (operation { value := 1 }).retryClass = RetryClass.nonRetryable ∧
    (after { value := 1 } run).plans[({ value := 10 } : ExecutionPlanId)]?.map
      (fun plan => (plan.operation, plan.lifecycle)) = some ({ value := 1 }, .outcomeUnknown) ∧
    ∃ out, (Coordinator.plan { value := 11 } { value := 1 } (after { value := 1 } run)).fst =
      .ok out ∧ out.created := by
  intro run
  refine ⟨rfl, by decide +kernel, exists_ok_of_map ?_⟩
  decide +kernel

end NMC
