import NearMemoryCompute.Execution.Theorems.Evolution
import NearMemoryCompute.Execution.Theorems.Recovery
import NearMemoryCompute.Execution.Theorems.Registry

namespace NMC

open Coordinator

-- No entry is lost, and operations do not change.
structure Registry.Retains (reg reg' : Registry) : Prop where
  operations    : ∀ ⦃o : OperationId⦄ ⦃op : OperationSpec⦄,
    reg.operations[o]? = some op → reg'.operations[o]? = some op
  policies      : ∀ ⦃k⦄, k ∈ reg.policies → k ∈ reg'.policies
  targets       : ∀ ⦃k⦄, k ∈ reg.targets → k ∈ reg'.targets
  targetRuntime : ∀ ⦃k⦄, k ∈ reg.targetRuntime → k ∈ reg'.targetRuntime
  capabilities  : ∀ ⦃k⦄, k ∈ reg.capabilities → k ∈ reg'.capabilities
  dataEvidence  : ∀ ⦃k⦄, k ∈ reg.dataEvidence → k ∈ reg'.dataEvidence

namespace Registry

variable {reg reg' : Registry} {op : Op} {out : Outcome}

theorem setRuntime_retains (t : NearMemoryTargetId) (rt : TargetRuntime) :
    reg.Retains (reg.setRuntime t rt) where
  operations _ _ h    := h
  policies _ h        := h
  targets _ h         := h
  targetRuntime _ h   := by simp [setRuntime, h]
  capabilities _ h    := h
  dataEvidence _ h    := h

-- Only loading a file can forget an entry.
theorem Step.retains (h : Step reg op out reg') (hl : ¬(op.loads ∧ out.succeeded)) :
    reg.Retains reg' := by
  cases h
  case load      => exact absurd ⟨rfl, rfl⟩ hl
  case heartbeat => exact setRuntime_retains _ _
  case drain     => exact setRuntime_retains _ _
  case retire    => exact setRuntime_retains _ _
  case operation spec hn =>
    refine ⟨?_, fun _ => id, fun _ => id, fun _ => id, fun _ => id, fun _ => id⟩
    intro o op ho
    rw [Table.getElem?_insert_ne _ _ ?_, ho]
    rintro rfl
    simp [Std.ExtTreeMap.getElem?_eq_none hn] at ho
  all_goals
    constructor
    case operations => exact fun _ _ => id
    all_goals
      intro k hk
      simp [setRuntime, withdraw, withdrawAll, Table.subscript, hk]

theorem Step.operations_keyed (h : Step reg op out reg')
    (hk : Table.Keyed OperationSpec.id reg.operations) :
    Table.Keyed OperationSpec.id reg'.operations := by
  cases h
  case operation => exact hk.insert rfl
  case load hl   => exact (decoded_of_load hl).operations
  all_goals exact hk

end Registry

namespace Ledger.Step

variable {st : RuntimeState} {op : Op} {out : Outcome} {l : Ledger} {p : ExecutionPlanId}
         {plan : ExecutionPlan}

-- Neither a new epoch nor a recovery leaves any plan live.
theorem of_live (h : Step st op out l) (hp : l.plans[p]? = some plan) (hl : plan.lifecycle.live) :
    l.epoch = st.epoch ∧ ¬(op.loads ∧ out.succeeded) := by
  have swept {plans : Table ExecutionPlanId ExecutionPlan}
      (hp : (plans.map fun _ => ExecutionPlan.onEpoch)[p]? = some plan) : False := by
    obtain ⟨plan, _, rfl⟩ := Table.getElem?_map_eq_some hp
    simpa [ExecutionLifecycle.dead, hl] using plan.onEpoch_dead
  cases h
  case advance => exact (swept hp).elim
  case load    => exact (swept hp).elim
  case idle hi => exact ⟨rfl, Op.not_loads_of_idle hi⟩
  all_goals exact ⟨rfl, Op.not_loads rfl⟩

theorem plans_keyed (h : Step st op out l) (hk : Table.Keyed ExecutionPlan.id st.plans) :
    Table.Keyed ExecutionPlan.id l.plans := by
  intro p plan hp
  cases h.origin hp
  case created he                 => exact he ▸ rfl
  case loaded hl hq he =>
    subst he
    exact ExecutionPlan.swept_onEpoch.evolves.id.trans ((decoded_of_load hl).plans hq)
  case evolved hq he              => exact he.id.trans (hk hq)

theorem lifecycle_used (h : Step st op out l)
    (hu : ∀ ⦃p : ExecutionPlanId⦄ ⦃plan : ExecutionPlan⦄, st.plans[p]? = some plan →
      plan.lifecycle.unused = false)
    (hp : l.plans[p]? = some plan) : plan.lifecycle.unused = false := by
  cases h.origin hp
  case created he    => exact he ▸ rfl
  case loaded he     => exact he ▸ ExecutionPlan.onEpoch_unused
  case evolved hq he => exact he.lifecycle.unused (hu hq)

end Ledger.Step

-- Everything that a plan refers to exists, and what the plan has pinned is what it says itself.
structure Resolves (st : RuntimeState) (plan : ExecutionPlan) : Prop where
  target            : plan.target ∈ st.targets
  targetRuntime     : plan.target ∈ st.targetRuntime
  capabilities      : plan.target ∈ st.capabilities
  operation         : ∃ op, st.operations[plan.operation]? = some op ∧ op.policy ∈ st.policies
  dataEvidence      : plan.region ∈ st.dataEvidence
  authority         : plan.authority.plan = plan.id
  planGeneration    : plan.authority.planGeneration = plan.generation
  snapshotTarget    : plan.authority.snapshot.target = plan.target
  targetGeneration  : plan.authority.snapshot.targetGeneration = plan.targetGeneration
  datasetGeneration : plan.authority.snapshot.datasetGeneration = plan.datasetGeneration
  regionGeneration  : plan.authority.snapshot.regionGeneration = plan.regionGeneration
  epoch             : plan.authority.snapshot.epoch = st.epoch

namespace Resolves

variable {st st' : RuntimeState} {plan plan' : ExecutionPlan}

theorem evolve (hr : Resolves st plan) (hk : st.registry.Retains st'.registry)
    (hep : st'.epoch = st.epoch) (he : plan.Evolves plan') : Resolves st' plan' where
  target            := he.target ▸ hk.targets hr.target
  targetRuntime     := he.target ▸ hk.targetRuntime hr.targetRuntime
  capabilities      := he.target ▸ hk.capabilities hr.capabilities
  operation         := by
    have ⟨op, ho, hp⟩ := hr.operation
    exact ⟨op, he.operation ▸ hk.operations ho, hk.policies hp⟩
  dataEvidence      := he.region ▸ hk.dataEvidence hr.dataEvidence
  authority         := by rw [he.authority, he.id, hr.authority]
  planGeneration    := by rw [he.authority, he.generation, hr.planGeneration]
  snapshotTarget    := by rw [he.authority, he.target, hr.snapshotTarget]
  targetGeneration  := by rw [he.authority, he.targetGeneration, hr.targetGeneration]
  datasetGeneration := by rw [he.authority, he.datasetGeneration, hr.datasetGeneration]
  regionGeneration  := by rw [he.authority, he.regionGeneration, hr.regionGeneration]
  epoch             := by rw [he.authority, hep, hr.epoch]

theorem create {o : OperationId} (sel : Selection st o) (p : ExecutionPlanId)
    (ho : Table.Keyed OperationSpec.id st.operations) : Resolves st (sel.plan p) where
  target            := Table.mem_of_some sel.targets_eq
  targetRuntime     := Table.mem_of_some sel.targetRuntime_eq
  capabilities      := Table.mem_of_some sel.capabilities_eq
  operation         := by
    have hs : st.operations[sel.op.id]? = some sel.op := by
      rw [show sel.op.id = o from ho sel.operation_eq, sel.operation_eq]
    exact ⟨sel.op, hs, Table.mem_of_some sel.policy_eq⟩
  dataEvidence      := Table.mem_of_some sel.dataEvidence_eq
  authority         := rfl
  planGeneration    := rfl
  snapshotTarget    := rfl
  targetGeneration  := rfl
  datasetGeneration := rfl
  regionGeneration  := rfl
  epoch             := rfl

end Resolves

-- The invariant of the coordinator as a whole.
structure Resolvable (st : RuntimeState) : Prop where
  operations : Table.Keyed OperationSpec.id st.operations
  plans      : Table.Keyed ExecutionPlan.id st.plans
  used       : ∀ ⦃p : ExecutionPlanId⦄ ⦃plan : ExecutionPlan⦄, st.plans[p]? = some plan →
    plan.lifecycle.unused = false
  live       : ∀ ⦃p : ExecutionPlanId⦄ ⦃plan : ExecutionPlan⦄, st.plans[p]? = some plan →
    plan.lifecycle.live → Resolves st plan

namespace Resolvable

theorem init (cid : CoordinatorId) : Resolvable (init cid) where
  operations     := .empty
  plans          := .empty
  used _ _ h     := by simp [Coordinator.init] at h
  live _ _ h     := by simp [Coordinator.init] at h

variable [Platform] {st : RuntimeState}

theorem step (op : Op) (hr : Resolvable st) : Resolvable (step op st).snd := by
  have hl := step_refines op st
  have hg := step_registry op st
  generalize Coordinator.step op st = next at hl hg
  obtain ⟨out, st'⟩ := next
  refine ⟨hg.operations_keyed hr.operations, hl.plans_keyed hr.plans, ?_, ?_⟩
  · intro p plan hp
    exact hl.lifecycle_used hr.used hp
  · intro p plan' hp hlive
    have ⟨hep, hload⟩ := hl.of_live hp hlive
    have hk := hg.retains hload
    cases hl.origin hp
    case created sel _ he =>
      subst he
      exact (Resolves.create sel p hr.operations).evolve hk hep .refl
    case loaded ho hs _ _ _ => exact absurd ⟨ho ▸ rfl, hs⟩ hload
    case evolved hq he => exact (hr.live hq (he.lifecycle.live hlive)).evolve hk hep he

end Resolvable

theorem resolvable_after [Platform] (cid : CoordinatorId) (run : List Op) :
    Resolvable (after cid run) :=
  machine.invariant _ (I := fun _ => Resolvable) (.init cid) (fun _ op hr => hr.step op) run

theorem Completion.dispatched {st : RuntimeState} {msg : ResultMsg} (c : Completion st msg)
    (hr : Resolvable st) : c.plan.lifecycle = .dispatched :=
  ExecutionLifecycle.dispatched_of_inFlight c.accepts.inFlight (hr.used c.plan_eq)

theorem Completion.live {st : RuntimeState} {msg : ResultMsg} (c : Completion st msg)
    (hr : Resolvable st) : c.plan.lifecycle.live :=
  c.dispatched hr ▸ rfl

-- All entries that decide whether a plan is stale exist, and none of them has moved.
structure Fresh (st : RuntimeState) (plan : ExecutionPlan) : Prop where
  epoch         : plan.authority.snapshot.epoch = st.epoch
  target        : ∃ tdef, st.targets[plan.target]? = some tdef ∧
    tdef.generation = plan.authority.snapshot.targetGeneration
  targetRuntime : ∃ trt, st.targetRuntime[plan.target]? = some trt ∧
    trt.ownerBoot = plan.authority.snapshot.workerBoot ∧ trt.dynamicCurrent
  operation     : ∃ op, st.operations[plan.operation]? = some op ∧
    op.generation = plan.authority.snapshot.operationGeneration ∧
    ∃ policy, st.policies[op.policy]? = some policy ∧
      policy.generation = plan.authority.snapshot.policyGeneration
  capabilities  : ∃ caps, st.capabilities[plan.target]? = some caps ∧
    caps.generation = plan.authority.snapshot.capabilityGeneration ∧
    caps.evidenceGeneration = plan.authority.snapshot.evidenceGeneration ∧ caps.dynamicCurrent
  dataEvidence  : ∃ ev, st.dataEvidence[plan.region]? = some ev ∧
    ev.datasetGeneration = plan.authority.snapshot.datasetGeneration ∧ ev.dynamicCurrent

-- For a plan whose references exist, the staleness check does not fail open.
theorem Resolves.fresh {st : RuntimeState} {plan : ExecutionPlan} (hr : Resolves st plan)
    (hs : stalenessLocked st plan = []) : Fresh st plan := by
  have ⟨tdef, ht⟩ := Table.exists_of_mem hr.target
  have ⟨trt, hrt⟩ := Table.exists_of_mem hr.targetRuntime
  have ⟨caps, hc⟩ := Table.exists_of_mem hr.capabilities
  have ⟨ev, he⟩ := Table.exists_of_mem hr.dataEvidence
  have ⟨op, ho, hm⟩ := hr.operation
  have ⟨policy, hp⟩ := Table.exists_of_mem hm
  simp only [stalenessLocked, ht, hrt, hc, he, ho, List.append_eq_nil_iff, staleIf_eq_nil] at hs
  simp [hp] at hs
  obtain ⟨⟨⟨⟨⟨⟨⟨⟨⟨⟨⟨⟨⟨_, h₂⟩, h₃⟩, _⟩, _⟩, h₆⟩, h₇⟩, _⟩, h₉⟩, h₁₀⟩, h₁₁⟩, h₁₂⟩, h₁₃⟩, h₁₄⟩ := hs
  exact {
    epoch         := hr.epoch
    target        := ⟨tdef, ht, h₃⟩
    targetRuntime := ⟨trt, hrt, h₂, h₁₁⟩
    operation     := ⟨op, ho, h₆, policy, hp, h₉⟩
    capabilities  := ⟨caps, hc, h₇, h₁₀, h₁₂⟩
    dataEvidence  := ⟨ev, he, h₁₄, h₁₃⟩ }

-- The errors for an operation or a target that has gone missing.
def Error.missing (e : Error) : Bool :=
  e.code = "E_PLAN_OP" ∨ e.code = "E_TARGET_UNKNOWN"

section Reservation

variable {st : RuntimeState} {p : ExecutionPlanId} {plan : ExecutionPlan}

theorem Resolves.reserve_not_missing (hr : Resolves st plan) (hp : st.plans[p]? = some plan)
    {e : Error} (he : (reserve p st).fst = .error e) : !e.missing := by
  have ⟨trt, ht⟩ := Table.exists_of_mem hr.targetRuntime
  simp only [reserve, hp, ht] at he
  split_ifs at he
  all_goals
    cases he
    rfl

theorem Resolves.prepareDispatch_not_missing (hr : Resolves st plan) (hp : st.plans[p]? = some plan)
    {did : DispatchId} {aid : AttemptId} {e : Error}
    (he : (prepareDispatch p did aid st).fst = .error e) : !e.missing := by
  have ⟨trt, ht⟩ := Table.exists_of_mem hr.targetRuntime
  have ⟨op, ho, _⟩ := hr.operation
  simp only [prepareDispatch, hp, ht, ho] at he
  split_ifs at he
  · cases he
    rfl
  · cases he
    rfl
  · split at he
    · cases he
      rfl
    · cases he

theorem Resolvable.reserve_registry (hr : Resolvable st) (p : ExecutionPlanId) :
    (reserve p st).snd.registry = st.registry := by
  simp only [reserve]
  split
  case h_1 => rfl
  case h_2 plan hp =>
    split
    case isTrue => rfl
    case isFalse hl =>
      have hlive : plan.lifecycle.live := not_not.mp hl ▸ rfl
      obtain ⟨tdef, ht⟩ := Table.exists_of_mem (hr.live hp hlive).target
      simp only [Table.subscript_snd_of_some _ _ ht]
      split
      case h_1 => rfl
      case h_2 => split_ifs <;> rfl

end Reservation

-- Live plans refer to nothing that is missing, so no check on them is skipped, no lookup for them
-- fails, and no lookup ever creates an entry.
theorem live_plans_resolve [Platform] (cid : CoordinatorId) (run : List Op) :
    (∀ (p : ExecutionPlanId) (plan : ExecutionPlan),
      (after cid run).plans[p]? = some plan → plan.lifecycle.live →
      Resolves (after cid run) plan ∧
      (∀ e, (reserve p (after cid run)).fst = .error e → !e.missing) ∧
      (∀ did aid e, (prepareDispatch p did aid (after cid run)).fst = .error e → !e.missing) ∧
      (stalenessLocked (after cid run) plan = [] → Fresh (after cid run) plan)) ∧
    (∀ p, (reserve p (after cid run)).snd.registry = (after cid run).registry) ∧
    (∀ id o, (Coordinator.plan id o (after cid run)).snd.registry = (after cid run).registry) := by
  have hr := resolvable_after cid run
  refine ⟨?_, hr.reserve_registry, fun id o => plan_registry id o⟩
  intro p plan hp hl
  have h := hr.live hp hl
  refine ⟨h, ?_, ?_, h.fresh⟩
  · exact fun _ => h.reserve_not_missing hp
  · exact fun _ _ _ => h.prepareDispatch_not_missing hp

end NMC
