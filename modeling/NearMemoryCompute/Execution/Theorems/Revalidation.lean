import NearMemoryCompute.Execution.Theorems.Resolvable

namespace NMC

open Coordinator

-- The part of eligibility that dispatching does not look at again.
structure Serviceable (op : OperationSpec) (policy : Policy) (data : DataEvidence)
    (target : TargetDefinition) (runtime : TargetRuntime) (caps : CapabilitySet) : Prop where
  up            : runtime.lifecycle ≠ TargetLifecycle.offline ∧
    runtime.lifecycle ≠ TargetLifecycle.failed ∧ runtime.lifecycle ≠ TargetLifecycle.retired
  healthy       : runtime.lifecycle ≠ TargetLifecycle.degraded ∧
    runtime.lifecycle ≠ TargetLifecycle.revalidationRequired
  reachable     : runtime.reachable
  operation     : op.opClass ∈ target.supportedOps
  capability    :
    caps.stateOf (ascii ("operation:" ++ op.opClass.toString)) ≠ CapabilityState.unknown ∧
    caps.stateOf (ascii ("operation:" ++ op.opClass.toString)) ≠
      CapabilityState.revalidationRequired
  dataType      : op.shape.dataType ∈ target.supportedDataTypes
  layout        : op.shape.layout ∈ target.supportedLayouts
  alignment     : target.alignmentConstraint = 0 ∨
    op.shape.alignment % target.alignmentConstraint = 0
  present       : data.present
  current       : data.current
  dataReachable : data.reachable
  workspace     : op.workspaceBytes ≤ target.workspaceBytes
  concurrency   : runtime.concurrencyInUse < target.concurrencyCapacity.toUInt64
  confidence    : runtime.performance.confidence.lt policy.requiredConfidence = false

section HardFilter

variable {st : RuntimeState} {op : OperationSpec} {policy : Policy} {data : DataEvidence}
         {t : NearMemoryTargetId} {tdef : TargetDefinition} {trt : TargetRuntime}
         {caps : CapabilitySet}

theorem lifecycleReasons_eq_nil : lifecycleReasons trt = [] ↔
    (trt.lifecycle ≠ TargetLifecycle.offline ∧ trt.lifecycle ≠ TargetLifecycle.failed ∧
      trt.lifecycle ≠ TargetLifecycle.retired) ∧
    trt.lifecycle ≠ TargetLifecycle.degraded ∧ trt.reachable ∧
    trt.dynamicCurrent ∧ trt.lifecycle ≠ TargetLifecycle.revalidationRequired := by
  simp [lifecycleReasons, and_assoc]

theorem operationReasons_eq_nil : operationReasons tdef op caps = [] ↔
    op.opClass ∈ tdef.supportedOps ∧
    (caps.stateOf (ascii ("operation:" ++ op.opClass.toString)) ≠ CapabilityState.unknown ∧
      caps.stateOf (ascii ("operation:" ++ op.opClass.toString)) ≠
        CapabilityState.revalidationRequired) ∧
    op.shape.dataType ∈ tdef.supportedDataTypes ∧ op.shape.layout ∈ tdef.supportedLayouts ∧
    (tdef.alignmentConstraint = 0 ∨ op.shape.alignment % tdef.alignmentConstraint = 0) := by
  simp only [operationReasons, List.append_eq_nil_iff, rejectIf_eq_nil, not_not]
  split_ifs <;> simp_all [and_assoc, or_iff_not_imp_left]

theorem dataReasons_eq_nil : dataReasons op data = [] ↔
    data.present ∧ data.current ∧ data.datasetGeneration = op.datasetGeneration ∧
    data.reachable := by
  simp [dataReasons]

theorem capacityReasons_eq_nil : capacityReasons tdef trt op = [] ↔
    op.workspaceBytes ≤ tdef.workspaceBytes ∧
    trt.concurrencyInUse < tdef.concurrencyCapacity.toUInt64 := by
  simp [capacityReasons, opWorkspaceRequired]

-- The authority that the filter is given by planning is always the current one.
theorem freshnessReasons_eq_nil :
    freshnessReasons tdef trt caps policy (some tdef.generation) (some trt.ownerBoot) = [] ↔
    caps.dynamicCurrent ∧ trt.performance.confidence.lt policy.requiredConfidence = false := by
  simp [freshnessReasons]

-- What the filter checks beyond that is what the staleness check looks at, and the program.
theorem hardFilter_filterInput_eq_nil (ht : st.targets[t]? = some tdef) :
    hardFilter (filterInput st op policy (some data) t tdef trt caps) = [] ↔
    Serviceable op policy data tdef trt caps ∧
    trt.dynamicCurrent ∧ caps.dynamicCurrent ∧ data.datasetGeneration = op.datasetGeneration ∧
    programReasons op (op.program.bind (st.programs[·]?)) = [] := by
  simp only [hardFilter, filterInput, Table.subscript_fst_of_some st.targets t ht,
    List.append_eq_nil_iff, lifecycleReasons_eq_nil, operationReasons_eq_nil, dataReasons_eq_nil,
    capacityReasons_eq_nil, freshnessReasons_eq_nil]
  constructor
  case mp =>
    rintro ⟨⟨⟨⟨⟨⟨hu, hd, hr, hc, hv⟩, ho, hs, hdt, hl, ha⟩, hp, hcu, hg, hdr⟩, hw, hn⟩, hpr⟩, hcc,
      hcf⟩
    exact ⟨⟨hu, ⟨hd, hv⟩, hr, ho, hs, hdt, hl, ha, hp, hcu, hdr, hw, hn, hcf⟩, hc, hcc, hg, hpr⟩
  case mpr =>
    rintro ⟨⟨hu, ⟨hd, hv⟩, hr, ho, hs, hdt, hl, ha, hp, hcu, hdr, hw, hn, hcf⟩, hc, hcc, hg, hpr⟩
    exact ⟨⟨⟨⟨⟨⟨hu, hd, hr, hc, hv⟩, ho, hs, hdt, hl, ha⟩, hp, hcu, hg, hdr⟩, hw, hn⟩, hpr⟩, hcc,
      hcf⟩

end HardFilter

theorem Selection.hardFilter_eq_nil {st : RuntimeState} {o : OperationId} (sel : Selection st o)
    (he : Eligible st sel.op sel.policy (some sel.data) sel.target) :
    Serviceable sel.op sel.policy sel.data sel.tdef sel.trt sel.caps ∧
    sel.trt.dynamicCurrent ∧ sel.caps.dynamicCurrent ∧
    sel.data.datasetGeneration = sel.op.datasetGeneration ∧
    programReasons sel.op (sel.op.program.bind (st.programs[·]?)) = [] := by
  obtain ⟨tdef, trt, caps, ht, hrt, hc, hf⟩ := he
  rw [sel.targets_eq] at ht
  rw [sel.targetRuntime_eq] at hrt
  rw [sel.capabilities_eq] at hc
  cases ht
  cases hrt
  cases hc
  exact (hardFilter_filterInput_eq_nil sel.targets_eq).mp hf

namespace Coordinator

variable {st : RuntimeState}

variable [Platform]

-- Programs are never replaced, and only loading a file can drop one.
theorem step_programs (op : Op) (hl : ¬(op.loads ∧ (step op st).fst.succeeded))
    {k : KernelOrProgramId} {pg : Program} (h : st.programs[k]? = some pg) :
    (step op st).snd.programs[k]? = some pg := by
  have hc := step_catalog op st
  generalize step op st = next at hc hl
  obtain ⟨out, st'⟩ := next
  suffices st'.catalog.programs[k]? = some pg from this
  generalize st'.catalog = cat at hc
  cases hc
  case program new hn =>
    rw [Table.getElem?_insert_ne _ _ ?_]
    case _ => exact h
    rintro rfl
    exact hn (Table.mem_of_some h)
  case load => exact absurd ⟨rfl, rfl⟩ hl
  all_goals exact h

-- A plan that is live after a step has been there before, or it has been created for a target that
-- is eligible.
theorem step_live_origin (op : Op) {p : ExecutionPlanId} {plan' : ExecutionPlan}
    (hp : (step op st).snd.plans[p]? = some plan') (hl : plan'.lifecycle.live) :
    (∃ o, ∃ sel : Selection st o, op = .plan p o ∧ plan' = sel.plan p ∧
      Eligible st sel.op sel.policy (some sel.data) sel.target) ∨
    (∃ plan, st.plans[p]? = some plan ∧ plan.Evolves plan') := by
  rcases (step_refines op st).live_origin hp hl with ⟨o, _, rfl, _⟩ | he
  case inr => exact .inr he
  case inl =>
    simp only [step, answer] at hp
    rcases plan_cases p o st with ⟨hs, _⟩ | ⟨sel, _, he, _, hs⟩
    · rw [hs] at hp
      exact .inr ⟨plan', hp, .refl⟩
    · simp only [hs, Table.getElem?_insert_self] at hp
      cases hp
      exact .inl ⟨o, sel, rfl, rfl, he⟩

end Coordinator

-- What a plan has taken over from its operation, and the program with which this one was eligible.
structure Grounded (st : RuntimeState) (plan : ExecutionPlan) (op : OperationSpec) : Prop where
  operation           : st.operations[plan.operation]? = some op
  region              : plan.region = op.region
  datasetGeneration   : plan.authority.snapshot.datasetGeneration = op.datasetGeneration
  regionGeneration    : plan.authority.snapshot.regionGeneration = op.regionGeneration
  operationGeneration : plan.authority.snapshot.operationGeneration = op.generation
  programGeneration   : plan.authority.snapshot.programGeneration = op.programGeneration
  policyGeneration    : plan.authority.snapshot.policyGeneration = op.policyGeneration
  program             : programReasons op (op.program.bind (st.programs[·]?)) = []

namespace Grounded

variable {st st' : RuntimeState} {plan plan' : ExecutionPlan} {op : OperationSpec}

theorem create {o : OperationId} (sel : Selection st o) (p : ExecutionPlanId)
    (he : Eligible st sel.op sel.policy (some sel.data) sel.target)
    (ho : Table.Keyed OperationSpec.id st.operations) : Grounded st (sel.plan p) sel.op where
  operation           := by
    show st.operations[sel.op.id]? = some sel.op
    rw [show sel.op.id = o from ho sel.operation_eq, sel.operation_eq]
  region              := rfl
  datasetGeneration   := rfl
  regionGeneration    := rfl
  operationGeneration := rfl
  programGeneration   := rfl
  policyGeneration    := rfl
  program             := (sel.hardFilter_eq_nil he).2.2.2.2

theorem evolve (hg : Grounded st plan op) (hk : st.registry.Retains st'.registry)
    (hp : ∀ ⦃k : KernelOrProgramId⦄ ⦃pg : Program⦄,
      st.programs[k]? = some pg → st'.programs[k]? = some pg)
    (he : plan.Evolves plan') : Grounded st' plan' op where
  operation           := he.operation ▸ hk.operations hg.operation
  region              := by rw [he.region, hg.region]
  datasetGeneration   := by rw [he.authority, hg.datasetGeneration]
  regionGeneration    := by rw [he.authority, hg.regionGeneration]
  operationGeneration := by rw [he.authority, hg.operationGeneration]
  programGeneration   := by rw [he.authority, hg.programGeneration]
  policyGeneration    := by rw [he.authority, hg.policyGeneration]
  program             := by
    have h := hg.program
    cases hop : op.program
    case none => simp [programReasons, hop]
    case some id =>
      cases hid : st.programs[id]?
      case none    => simp [programReasons, hop, hid] at h
      case some pg => simpa [hop, hid, hp hid] using h

end Grounded

theorem grounded_after [Platform] (cid : CoordinatorId) (run : List Op) ⦃p : ExecutionPlanId⦄
    ⦃plan : ExecutionPlan⦄ (hp : (after cid run).plans[p]? = some plan)
    (hl : plan.lifecycle.live) : ∃ op, Grounded (after cid run) plan op := by
  refine machine.invariant _ (I := fun _ st => ∀ ⦃p : ExecutionPlanId⦄ ⦃plan : ExecutionPlan⦄,
    st.plans[p]? = some plan → plan.lifecycle.live → ∃ op, Grounded st plan op) ?_ ?_ run hp hl
  case refine_1 =>
    intro p plan hp
    simp [init] at hp
  case refine_2 =>
    intro past op hi p plan' hp hl
    obtain ⟨_, hload⟩ := (step_refines op _).of_live hp hl
    have hk := (step_registry op _).retains hload
    have hpr ⦃k : KernelOrProgramId⦄ ⦃pg : Program⦄ (h : (after cid past).programs[k]? = some pg) :=
      step_programs op hload h
    rcases step_live_origin op hp hl with ⟨o, sel, _, rfl, he⟩ | ⟨plan, hq, he⟩
    · have hg := Grounded.create sel p he (resolvable_after cid past).operations
      exact ⟨sel.op, hg.evolve hk hpr .refl⟩
    · obtain ⟨spec, hg⟩ := hi hq (he.lifecycle.live hl)
      exact ⟨spec, hg.evolve hk hpr he⟩

-- What the filter says about a plan that exists, on the inputs that planning would give it now.
def currentReasons (st : RuntimeState) (plan : ExecutionPlan) :
    Option (List EligibilityReasonDetail) := do
  let op ← st.operations[plan.operation]?
  let policy ← st.policies[op.policy]?
  let tdef ← st.targets[plan.target]?
  let trt ← st.targetRuntime[plan.target]?
  let caps ← st.capabilities[plan.target]?
  let data := st.dataEvidence[op.region]?
  return hardFilter (filterInput st op policy data plan.target tdef trt caps)

-- A target to which work is sent is eligible exactly if it is still serviceable. The rest of what
-- planning has checked is checked again or can not have changed.
theorem dispatch_eligible_iff [Platform] (cid : CoordinatorId) (run : List Op)
    (p : ExecutionPlanId) (did : DispatchId) (aid : AttemptId) (out : DispatchOutput)
    (h : (prepareDispatch p did aid (after cid run)).fst = .ok out) :
    ∃ plan op policy data tdef trt caps,
      (after cid run).plans[p]? = some plan ∧
      (after cid run).operations[plan.operation]? = some op ∧
      (after cid run).policies[op.policy]? = some policy ∧
      (after cid run).dataEvidence[op.region]? = some data ∧
      (after cid run).targets[plan.target]? = some tdef ∧
      (after cid run).targetRuntime[plan.target]? = some trt ∧
      (after cid run).capabilities[plan.target]? = some caps ∧
      (currentReasons (after cid run) plan = some [] ↔
        Serviceable op policy data tdef trt caps) := by
  have ⟨prep, _⟩ := prepareDispatch_ok h
  have hf := ((resolvable_after cid run).live prep.plan_eq prep.live).fresh prep.fresh
  have ⟨op, hg⟩ := grounded_after cid run prep.plan_eq prep.live
  obtain ⟨op', ho, _, policy, hpol, _⟩ := hf.operation
  rw [hg.operation] at ho
  cases ho
  obtain ⟨tdef, ht, _⟩ := hf.target
  obtain ⟨trt, hrt, _, htc⟩ := hf.targetRuntime
  obtain ⟨caps, hc, _, _, hcc⟩ := hf.capabilities
  obtain ⟨data, hd, hdg, _⟩ := hf.dataEvidence
  rw [hg.region] at hd
  rw [hg.datasetGeneration] at hdg
  refine ⟨prep.plan, op, policy, data, tdef, trt, caps, prep.plan_eq, hg.operation, hpol, hd, ht,
    hrt, hc, ?_⟩
  simp only [currentReasons, hg.operation, hpol, ht, hrt, hc, hd, Option.bind_eq_bind,
    Option.bind_some, Option.pure_def, Option.some.injEq, hardFilter_filterInput_eq_nil ht]
  constructor
  case mp  => exact fun hs => hs.1
  case mpr => exact fun hs => ⟨hs, htc, hcc, hdg, hg.program⟩

open Deployment in
theorem dispatch_eligible_of_deployment :
    let run := .reserve { value := 10 } :: .plan { value := 10 } { value := 1 } :: setup
    ∃ plan op policy data tdef trt caps,
      (after { value := 1 } run).plans[({ value := 10 } : ExecutionPlanId)]? = some plan ∧
      currentReasons (after { value := 1 } run) plan = some [] ∧
      Serviceable op policy data tdef trt caps := by
  intro run
  have hs : (prepareDispatch { value := 10 } { value := 20 } { value := 30 }
      (after { value := 1 } run)).fst.isOk := by
    decide +kernel
  have hn : ((after { value := 1 } run).plans[({ value := 10 } : ExecutionPlanId)]?).bind
      (currentReasons (after { value := 1 } run)) = some [] := by
    decide +kernel
  cases h : (prepareDispatch { value := 10 } { value := 20 } { value := 30 }
    (after { value := 1 } run)).fst
  case error => simp [h, Except.isOk, Except.toBool] at hs
  case ok out =>
    have ⟨plan, op, policy, data, tdef, trt, caps, hp, _, _, _, _, _, _, hiff⟩ :=
      dispatch_eligible_iff _ run _ _ _ out h
    rw [hp, Option.bind_some] at hn
    exact ⟨plan, op, policy, data, tdef, trt, caps, hp, hn, hiff.mp hn⟩

-- A target that reports after the reservation that it is offline is still sent the work.
open Deployment in
theorem offline_target_dispatched :
    let run := .applyHeartbeat { heartbeat with
        lifecycle := TargetLifecycle.offline
        reachable := false } ::
      .reserve { value := 10 } :: .plan { value := 10 } { value := 1 } :: setup
    let st := after { value := 1 } run
    (prepareDispatch { value := 10 } { value := 20 } { value := 30 } st).fst.isOk ∧
    st.plans[({ value := 10 } : ExecutionPlanId)]?.bind (currentReasons st) = some [
      { reason := .targetOffline, detail := "target lifecycle OFFLINE" },
      { reason := .targetUnreachable, detail := "target reported unreachable" }] := by
  decide +kernel

-- The authority that a plan for the same operation and target would pin now.
def liveSnapshot (st : RuntimeState) (plan : ExecutionPlan) : AuthoritySnapshot :=
  let op   := st.operations[plan.operation]?.getD {}
  let trt  := st.targetRuntime[plan.target]?.getD {}
  let tdef := st.targets[plan.target]?.getD {}
  let caps := st.capabilities[plan.target]?.getD {}
  let data := st.dataEvidence[op.region]?
  (newPlan st plan.id op data plan.target trt tdef caps).authority.snapshot

-- A plan that is not stale agrees with the live authority in everything but the generation of the
-- memory domain, which the staleness check leaves out.
theorem fresh_agrees_iff [Platform] {cid : CoordinatorId} {run : List Op} {p : ExecutionPlanId}
    {plan : ExecutionPlan} (hp : (after cid run).plans[p]? = some plan)
    (hl : plan.lifecycle.live) (hs : stalenessLocked (after cid run) plan = []) :
    plan.authority.snapshot.Agrees (liveSnapshot (after cid run) plan) ↔
    plan.authority.snapshot.memoryDomainGeneration =
      (liveSnapshot (after cid run) plan).memoryDomainGeneration := by
  have hf := ((resolvable_after cid run).live hp hl).fresh hs
  have ⟨op, hg⟩ := grounded_after cid run hp hl
  have ⟨tdef, ht, htg⟩ := hf.target
  have ⟨trt, hrt, hb, _⟩ := hf.targetRuntime
  have ⟨caps, hc, hcg, heg, _⟩ := hf.capabilities
  constructor
  case mp => exact fun ha => ha.memoryDomainGeneration
  case mpr =>
    intro hm
    constructor
    case memoryDomainGeneration => exact hm
    all_goals simp only [liveSnapshot, newPlan, hg.operation, ht, hrt, hc, Option.getD_some]
    case epoch                => exact hf.epoch
    case workerBoot           => exact hb.symm
    case targetGeneration     => exact htg.symm
    case datasetGeneration    => exact hg.datasetGeneration
    case regionGeneration     => exact hg.regionGeneration
    case operationGeneration  => exact hg.operationGeneration
    case programGeneration    => exact hg.programGeneration
    case capabilityGeneration => exact hcg.symm
    case policyGeneration     => exact hg.policyGeneration
    case evidenceGeneration   => exact heg.symm

theorem staleness_strict_iff [Platform] (cid : CoordinatorId) (run : List Op)
    (p : ExecutionPlanId) (plan : ExecutionPlan) (hp : (after cid run).plans[p]? = some plan)
    (hl : plan.lifecycle = .reserved) :
    (stalenessLocked (after cid run) plan = [] →
      (validatePlanAgainstCurrent plan.authority (liveSnapshot (after cid run) plan) = [] ↔
        plan.authority.snapshot.memoryDomainGeneration =
          (liveSnapshot (after cid run) plan).memoryDomainGeneration)) ∧
    (∀ did aid out, (prepareDispatch p did aid (after cid run)).fst = .ok out →
      (validatePlanAgainstCurrent plan.authority (liveSnapshot (after cid run) plan) = [] ↔
        plan.authority.snapshot.memoryDomainGeneration =
          (liveSnapshot (after cid run) plan).memoryDomainGeneration)) := by
  have hs (hs : stalenessLocked (after cid run) plan = []) :
      validatePlanAgainstCurrent plan.authority (liveSnapshot (after cid run) plan) = [] ↔
      plan.authority.snapshot.memoryDomainGeneration =
        (liveSnapshot (after cid run) plan).memoryDomainGeneration := by
    rw [validatePlanAgainstCurrent_eq_nil]
    exact fresh_agrees_iff hp (hl ▸ rfl) hs
  refine ⟨hs, ?_⟩
  intro did aid out h
  have ⟨prep, _⟩ := prepareDispatch_ok h
  have he := prep.plan_eq
  rw [hp] at he
  cases he
  exact hs prep.fresh

open Deployment in
theorem staleness_strict_of_deployment :
    let run := .reserve { value := 10 } :: .plan { value := 10 } { value := 1 } :: setup
    ∃ plan, (after { value := 1 } run).plans[({ value := 10 } : ExecutionPlanId)]? = some plan ∧
      plan.lifecycle = .reserved ∧ stalenessLocked (after { value := 1 } run) plan = [] ∧
      validatePlanAgainstCurrent plan.authority (liveSnapshot (after { value := 1 } run) plan) =
        [] := by
  intro run
  have hs : ((after { value := 1 } run).plans[({ value := 10 } : ExecutionPlanId)]?).any
      (fun plan => plan.lifecycle = .reserved ∧
        stalenessLocked (after { value := 1 } run) plan = [] ∧
        plan.authority.snapshot.memoryDomainGeneration =
          (liveSnapshot (after { value := 1 } run) plan).memoryDomainGeneration) := by
    decide +kernel
  have ⟨plan, hp, hs⟩ := (Option.any_eq_true ..).mp hs
  have ⟨hl, hs, hm⟩ := of_decide_eq_true hs
  exact ⟨plan, hp, hl, hs, ((staleness_strict_iff _ run _ plan hp hl).1 hs).mpr hm⟩

-- The evidence on the data is published again, with another generation of the memory domain.
open Deployment in
theorem moved_memory_domain_dispatched :
    let run := .applyDataEvidence { evidence with memoryDomainGeneration := { value := 2 } } ::
      .reserve { value := 10 } :: .plan { value := 10 } { value := 1 } :: setup
    let st := after { value := 1 } run
    (st.plans[({ value := 10 } : ExecutionPlanId)]?).any (fun plan =>
      plan.lifecycle = .reserved ∧ stalenessLocked st plan = [] ∧
      validatePlanAgainstCurrent plan.authority (liveSnapshot st plan) = [{
        dimension := "memory_domain_generation"
        detail    := "memory domain generation moved" }]) ∧
    (prepareDispatch { value := 10 } { value := 20 } { value := 30 } st).fst.isOk := by
  decide +kernel

-- What the operation declares is what is registered, and the evidence on its data is current.
structure Consistent (st : RuntimeState) (op : OperationSpec) : Prop where
  dataset  : ∀ ds ∈ st.datasets[op.dataset]?, ds.generation = op.datasetGeneration
  region   : ∀ rg ∈ st.regions[op.region]?, rg.generation = op.regionGeneration
  program  : ∀ g ∈ op.programGeneration, ∀ id ∈ op.program, ∀ pg ∈ st.programs[id]?,
    pg.generation = g
  policy   : ∀ pl ∈ st.policies[op.policy]?, pl.generation = op.policyGeneration
  evidence : ∀ ev ∈ st.dataEvidence[op.region]?, ev.dynamicCurrent

section Creation

variable {st : RuntimeState}

theorem Selection.staleness_eq_nil {o : OperationId} (sel : Selection st o) (p : ExecutionPlanId)
    (he : Eligible st sel.op sel.policy (some sel.data) sel.target)
    (ho : Table.Keyed OperationSpec.id st.operations) :
    stalenessLocked st (sel.plan p) = [] ↔ Consistent st sel.op := by
  have ⟨_, htc, hcc, hdg, _⟩ := sel.hardFilter_eq_nil he
  have hop := (Grounded.create sel p he ho).operation
  simp only [stalenessLocked, hop, List.append_eq_nil_iff, staleIf_eq_nil]
  simp only [Selection.plan, newPlan, sel.targets_eq, sel.targetRuntime_eq, sel.capabilities_eq,
    sel.dataEvidence_eq]
  simp only [ne_eq, not_true_eq_false, not_false_eq_true, Option.mem_def, Option.some.injEq,
    exists_eq_left', and_self, not_exists, not_and, Decidable.not_not, true_and, and_true,
    Bool.not_eq_eq_eq_not, Bool.not_true, htc, Bool.true_eq_false, hcc, Bool.not_eq_false, hdg]
  constructor
  case mp =>
    rintro ⟨⟨⟨⟨hds, hrg⟩, hpg⟩, hpl⟩, hev⟩
    refine ⟨hds, hrg, hpg, hpl, fun ev he => ?_⟩
    rw [Option.mem_def, sel.dataEvidence_eq] at he
    cases he
    exact hev
  case mpr =>
    intro h
    exact ⟨⟨⟨⟨h.dataset, h.region⟩, h.program⟩, h.policy⟩, h.evidence _ sel.dataEvidence_eq⟩

theorem prepareDispatch_stale {p : ExecutionPlanId} {did : DispatchId} {aid : AttemptId} {e : Error}
    (h : (prepareDispatch p did aid st).fst = .error e) (hc : e.code = "E_STALE_PLAN") :
    ∃ plan, st.plans[p]? = some plan ∧ stalenessLocked st plan ≠ [] := by
  simp only [prepareDispatch] at h
  split at h
  case h_1 =>
    cases h
    simp at hc
  case h_2 plan hp =>
    refine ⟨plan, hp, ?_⟩
    intro hs
    rw [if_neg (not_not.mpr hs)] at h
    split_ifs at h
    case pos =>
      cases h
      simp at hc
    case neg =>
      repeat' split at h
      all_goals
        cases h
        try simp at hc

-- Reserving a plan moves nothing that its staleness depends on.
theorem reserve_rest (st : RuntimeState) (p : ExecutionPlanId) :
    (reserve p st).snd.epoch = st.epoch ∧ (reserve p st).snd.datasets = st.datasets ∧
    (reserve p st).snd.regions = st.regions ∧ (reserve p st).snd.programs = st.programs := by
  simp only [reserve]
  repeat' split
  all_goals exact ⟨rfl, rfl, rfl, rfl⟩

theorem Resolvable.reserve_staleness (hr : Resolvable st) {p : ExecutionPlanId}
    {plan plan' : ExecutionPlan} (hp : st.plans[p]? = some plan)
    (hp' : (reserve p st).snd.plans[p]? = some plan') :
    stalenessLocked (reserve p st).snd plan' = stalenessLocked st plan := by
  have hg := hr.reserve_registry p
  have hrest := reserve_rest st p
  have ⟨plan'', hq, he⟩ := (reserve_refines p).evolves (Op.not_loads rfl) nofun hp
  rw [show (reserve p st).snd.ledger.plans[p]? = some plan' from hp'] at hq
  cases hq
  simp only [RuntimeState.registry, Registry.mk.injEq] at hg
  simp only [stalenessLocked, hg, hrest, he.authority, he.target, he.operation, he.dataset,
    he.region]

end Creation

-- A new plan is not stale exactly if its operation is consistent with what is registered, and then
-- it does not become stale by being reserved.
theorem born_fresh_iff [Platform] (cid : CoordinatorId) (run : List Op) (id : ExecutionPlanId)
    (o : OperationId) (out : PlanOutput) (h : (plan id o (after cid run)).fst = .ok out)
    (hc : out.created) :
    ∃ op, (after cid run).operations[o]? = some op ∧
      (stalenessLocked (plan id o (after cid run)).snd out.plan = [] ↔
        Consistent (after cid run) op) ∧
      (Consistent (after cid run) op → ∀ did aid e,
        (prepareDispatch id did aid (reserve id (plan id o (after cid run)).snd).snd).fst =
          .error e → e.code ≠ "E_STALE_PLAN") := by
  have ⟨sel, he, hp, hs⟩ := plan_created h hc
  have hr := resolvable_after cid run
  have hn : Resolvable (plan id o (after cid run)).snd :=
    resolvable_after cid (.plan id o :: run)
  have hiff := sel.staleness_eq_nil id he hr.operations
  refine ⟨sel.op, sel.operation_eq, ?_, ?_⟩
  · rw [hp, hs]
    exact hiff
  · intro hcon did aid e hd hstale
    have ⟨plan', hp', hne⟩ := prepareDispatch_stale hd hstale
    have hq : (plan id o (after cid run)).snd.plans[id]? = some (sel.plan id) := by
      simp [hs]
    rw [hn.reserve_staleness hq hp', hs] at hne
    exact hne (hiff.mpr hcon)

open Deployment in
theorem born_fresh_of_deployment :
    ∃ op, (after { value := 1 } setup).operations[({ value := 1 } : OperationId)]? = some op ∧
      Consistent (after { value := 1 } setup) op := by
  have hs : ((plan { value := 10 } { value := 1 } (after { value := 1 } setup)).fst.toOption).any
      (fun out => out.created ∧ stalenessLocked
        (plan { value := 10 } { value := 1 } (after { value := 1 } setup)).snd out.plan = []) := by
    decide +kernel
  cases h : (plan { value := 10 } { value := 1 } (after { value := 1 } setup)).fst
  case error => simp [h, Except.toOption] at hs
  case ok out =>
    simp only [h, Except.toOption, Option.any_some] at hs
    have ⟨hc, hs⟩ := of_decide_eq_true hs
    have ⟨op, ho, hiff, _⟩ := born_fresh_iff _ setup _ _ out h hc
    exact ⟨op, ho, hiff.mp hs⟩

-- The operation refers to a generation of its policy that is not the current one.
open Deployment in
theorem born_stale :
    let run := .createOperation { operation { value := 4 } with
      policyGeneration := { value := 2 } } :: setup
    let next := plan { value := 10 } { value := 4 } (after { value := 1 } run)
    (next.fst.toOption).any (fun out => out.created ∧
      stalenessLocked next.snd out.plan = [{
        dimension := "policy_generation"
        detail    := "policy generation moved" }]) ∧
    (match (prepareDispatch { value := 10 } { value := 20 } { value := 30 }
        (reserve { value := 10 } next.snd).snd).fst with
      | .error e => e.code == "E_STALE_PLAN"
      | .ok _    => false : Bool) := by
  decide +kernel

end NMC
