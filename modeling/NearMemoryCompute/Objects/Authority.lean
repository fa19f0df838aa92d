import NearMemoryCompute.Objects.Protocol

namespace NMC

structure CompletionAuthority where
  plan                : ExecutionPlanId
  planGeneration      : ExecutionPlanGeneration
  dispatch            : DispatchId
  attempt             : AttemptId
  target              : NearMemoryTargetId
  targetGeneration    : NearMemoryTargetGeneration
  workerBoot          : WorkerBootId
  epoch               : CoordinatorEpoch
  datasetGeneration   : DatasetGeneration
  regionGeneration    : DataRegionGeneration
  resultGeneration    : ResultGeneration
  operationGeneration : OperationGeneration

structure StaleReason where
  dimension : String
  detail    : String
deriving DecidableEq

def staleIf (c : Prop) [Decidable c] (dimension detail : String) : List StaleReason :=
  if c then [{ dimension, detail }] else []

@[simp]
theorem staleIf_eq_nil {c : Prop} [Decidable c] {dimension detail : String} :
    staleIf c dimension detail = [] ↔ ¬c := by
  simp [staleIf]

-- All dimensions joined, as they appear in error messages.
def dimensions (reasons : List StaleReason) : String :=
  reasons.foldl (fun why r => why ++ r.dimension ++ "; ") ""

-- The target of the completion is not compared with the target of the snapshot.
def validateCompletionAgainstPlan (completion : CompletionAuthority) (plan : PlanAuthority) :
    List StaleReason :=
  let s := plan.snapshot
  staleIf (completion.plan ≠ plan.plan) "plan" "completion plan id mismatch" ++
  staleIf (completion.planGeneration ≠ plan.planGeneration)
    "plan_generation" "completion plan generation mismatch" ++
  staleIf (completion.targetGeneration ≠ s.targetGeneration)
    "target_generation" "completion target generation mismatch" ++
  staleIf (completion.workerBoot ≠ s.workerBoot)
    "worker_boot" "completion worker boot mismatch" ++
  staleIf (completion.epoch ≠ s.epoch) "epoch" "completion epoch mismatch" ++
  staleIf (completion.datasetGeneration ≠ s.datasetGeneration)
    "dataset_generation" "completion dataset generation mismatch" ++
  staleIf (completion.regionGeneration ≠ s.regionGeneration)
    "region_generation" "completion region generation mismatch" ++
  staleIf (completion.operationGeneration ≠ s.operationGeneration)
    "operation_generation" "completion operation generation mismatch"

-- Neither the target nor the generation of the plan is compared.
def validatePlanAgainstCurrent (plan : PlanAuthority) (current : AuthoritySnapshot) :
    List StaleReason :=
  let s := plan.snapshot
  staleIf (s.epoch ≠ current.epoch) "epoch" "coordinator epoch moved" ++
  staleIf (s.workerBoot ≠ current.workerBoot) "worker_boot" "worker boot changed" ++
  staleIf (s.targetGeneration ≠ current.targetGeneration)
    "target_generation" "target generation moved" ++
  staleIf (s.memoryDomainGeneration ≠ current.memoryDomainGeneration)
    "memory_domain_generation" "memory domain generation moved" ++
  staleIf (s.datasetGeneration ≠ current.datasetGeneration)
    "dataset_generation" "dataset generation moved" ++
  staleIf (s.regionGeneration ≠ current.regionGeneration)
    "region_generation" "region generation moved" ++
  staleIf (s.operationGeneration ≠ current.operationGeneration)
    "operation_generation" "operation generation moved" ++
  staleIf (s.programGeneration ≠ current.programGeneration)
    "program_generation" "program generation moved" ++
  staleIf (s.capabilityGeneration ≠ current.capabilityGeneration)
    "capability_generation" "capability generation moved" ++
  staleIf (s.policyGeneration ≠ current.policyGeneration)
    "policy_generation" "policy generation moved" ++
  staleIf (s.evidenceGeneration ≠ current.evidenceGeneration)
    "evidence_generation" "evidence generation moved"

-- What a completion that is accepted has in common with the plan.
structure CompletionAuthority.Matches (completion : CompletionAuthority)
    (authority : PlanAuthority) : Prop where
  plan                : completion.plan                = authority.plan
  planGeneration      : completion.planGeneration      = authority.planGeneration
  targetGeneration    : completion.targetGeneration    = authority.snapshot.targetGeneration
  workerBoot          : completion.workerBoot          = authority.snapshot.workerBoot
  epoch               : completion.epoch               = authority.snapshot.epoch
  datasetGeneration   : completion.datasetGeneration   = authority.snapshot.datasetGeneration
  regionGeneration    : completion.regionGeneration    = authority.snapshot.regionGeneration
  operationGeneration : completion.operationGeneration = authority.snapshot.operationGeneration

theorem validateCompletionAgainstPlan_eq_nil
    {completion : CompletionAuthority} {plan : PlanAuthority} :
    validateCompletionAgainstPlan completion plan = [] ↔ completion.Matches plan := by
  simp only [validateCompletionAgainstPlan, List.append_eq_nil_iff, staleIf_eq_nil, not_not]
  constructor
  · intro ⟨⟨⟨⟨⟨⟨⟨h₁, h₂⟩, h₃⟩, h₄⟩, h₅⟩, h₆⟩, h₇⟩, h₈⟩
    exact ⟨h₁, h₂, h₃, h₄, h₅, h₆, h₇, h₈⟩
  · intro ⟨h₁, h₂, h₃, h₄, h₅, h₆, h₇, h₈⟩
    exact ⟨⟨⟨⟨⟨⟨⟨h₁, h₂⟩, h₃⟩, h₄⟩, h₅⟩, h₆⟩, h₇⟩, h₈⟩

-- What a plan that remains authoritative has in common with the current authority.
structure AuthoritySnapshot.Agrees (s current : AuthoritySnapshot) : Prop where
  epoch                  : s.epoch                  = current.epoch
  workerBoot             : s.workerBoot             = current.workerBoot
  targetGeneration       : s.targetGeneration       = current.targetGeneration
  memoryDomainGeneration : s.memoryDomainGeneration = current.memoryDomainGeneration
  datasetGeneration      : s.datasetGeneration      = current.datasetGeneration
  regionGeneration       : s.regionGeneration       = current.regionGeneration
  operationGeneration    : s.operationGeneration    = current.operationGeneration
  programGeneration      : s.programGeneration      = current.programGeneration
  capabilityGeneration   : s.capabilityGeneration   = current.capabilityGeneration
  policyGeneration       : s.policyGeneration       = current.policyGeneration
  evidenceGeneration     : s.evidenceGeneration     = current.evidenceGeneration

theorem validatePlanAgainstCurrent_eq_nil {plan : PlanAuthority} {current : AuthoritySnapshot} :
    validatePlanAgainstCurrent plan current = [] ↔ plan.snapshot.Agrees current := by
  simp only [validatePlanAgainstCurrent, List.append_eq_nil_iff, staleIf_eq_nil, not_not]
  constructor
  · intro ⟨⟨⟨⟨⟨⟨⟨⟨⟨⟨h₁, h₂⟩, h₃⟩, h₄⟩, h₅⟩, h₆⟩, h₇⟩, h₈⟩, h₉⟩, h₁₀⟩, h₁₁⟩
    exact ⟨h₁, h₂, h₃, h₄, h₅, h₆, h₇, h₈, h₉, h₁₀, h₁₁⟩
  · intro ⟨h₁, h₂, h₃, h₄, h₅, h₆, h₇, h₈, h₉, h₁₀, h₁₁⟩
    exact ⟨⟨⟨⟨⟨⟨⟨⟨⟨⟨h₁, h₂⟩, h₃⟩, h₄⟩, h₅⟩, h₆⟩, h₇⟩, h₈⟩, h₉⟩, h₁₀⟩, h₁₁⟩

end NMC
