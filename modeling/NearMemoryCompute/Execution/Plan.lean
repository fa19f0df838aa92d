import NearMemoryCompute.Execution.State

namespace NMC.Coordinator

def kDefaultConventionalBandwidthBps : UInt64 :=
  40000000000

def kDefaultConventionalLatencyNs : UInt64 :=
  50000

-- The dimensions in which the live state has moved away from what the plan has pinned. An entry
-- that is missing from its table is never a reason.
def stalenessLocked (st : RuntimeState) (plan : ExecutionPlan) : List StaleReason :=
  let s    := plan.authority.snapshot
  let tdef := st.targets[plan.target]?
  let trt  := st.targetRuntime[plan.target]?
  let oit  := st.operations[plan.operation]?
  let cit  := st.capabilities[plan.target]?
  let eit  := st.dataEvidence[plan.region]?
  let dit  := st.datasets[plan.dataset]?
  let rit  := st.regions[plan.region]?
  staleIf (st.epoch ≠ s.epoch) "epoch" "coordinator epoch moved" ++
  staleIf (∃ rt ∈ trt, rt.ownerBoot ≠ s.workerBoot)
    "worker_boot" "target owned by a different worker boot" ++
  staleIf (∃ t ∈ tdef, t.generation ≠ s.targetGeneration)
    "target_generation" "target generation moved" ++
  staleIf (∃ d ∈ dit, d.generation ≠ s.datasetGeneration)
    "dataset_generation" "dataset generation moved" ++
  staleIf (∃ r ∈ rit, r.generation ≠ s.regionGeneration)
    "region_generation" "region generation moved" ++
  staleIf (∃ op ∈ oit, op.generation ≠ s.operationGeneration)
    "operation_generation" "operation generation moved" ++
  staleIf (∃ cs ∈ cit, cs.generation ≠ s.capabilityGeneration)
    "capability_generation" "capability generation moved" ++
  staleIf (∃ pg ∈ s.programGeneration, ∃ op ∈ oit, ∃ id ∈ op.program, ∃ prog ∈ st.programs[id]?,
      prog.generation ≠ pg)
    "program_generation" "program generation moved" ++
  staleIf (∃ op ∈ oit, ∃ pol ∈ st.policies[op.policy]?, pol.generation ≠ s.policyGeneration)
    "policy_generation" "policy generation moved" ++
  staleIf (∃ cs ∈ cit, cs.evidenceGeneration ≠ s.evidenceGeneration)
    "evidence_generation" "evidence generation moved" ++
  staleIf (∃ rt ∈ trt, !rt.dynamicCurrent)
    "target_dynamic" "target dynamic evidence requires revalidation" ++
  staleIf (∃ cs ∈ cit, !cs.dynamicCurrent)
    "capability_dynamic" "capability evidence requires revalidation" ++
  staleIf (∃ ev ∈ eit, !ev.dynamicCurrent)
    "data_dynamic" "data evidence requires revalidation" ++
  staleIf (∃ ev ∈ eit, ev.datasetGeneration ≠ s.datasetGeneration)
    "dataset_generation" "data current/observed generation mismatch"

structure PlanOutput where
  plan        : ExecutionPlan                := {}
  decision    : Decision                     := .reject
  rejected    : List EligibilityReasonDetail := []
  ranked      : List RankedCandidate         := []
  explanation : List Bytes                   := []
  created     : Bool                         := false

section Candidates

variable [Platform]

def candidate (op : OperationSpec) (tid : NearMemoryTargetId) (tdef : TargetDefinition)
    (perf : PerfEstimate) : RankedCandidate :=
  let tr : TransferEstimate := {
    bytesToMove         := op.inputBytes
    bandwidthBps        := kDefaultConventionalBandwidthBps
    latencyNs           := kDefaultConventionalLatencyNs
    stagingCostNs       := 0
    serializationCostNs := 0
    registrationCostNs  := 0
  }
  let conv : ComputeCostEstimate := {
    executionNs       := op.inputBytes
    setupNs           := 0
    queueDelayNs      := 0
    resultReturnBytes := op.outputBytes
  }
  -- The queue delay is assumed to be as long as the latency.
  let near : ComputeCostEstimate := {
    executionNs       := perf.latencyNs
    setupNs           := perf.setupNs
    queueDelayNs      := perf.latencyNs
    resultReturnBytes := op.outputBytes
    confidence        := perf.confidence
  }
  let econ := choosePath tr conv near
  { target               := tid
    generation           := tdef.generation
    decision             := econ.decision
    movementAvoidedBytes := econ.movementAvoidedBytes
    totalCostNs          := econ.nearTotalNs
    estimatedLatencyNs   := near.executionNs + near.setupNs + near.queueDelayNs
    confidence           := perf.confidence
    factors              := econ.explanation }

-- The inputs on which the eligibility of a target for an operation is decided.
def filterInput (st : RuntimeState) (op : OperationSpec) (policy : Policy)
    (data : Option DataEvidence) (tid : NearMemoryTargetId) (tdef : TargetDefinition)
    (trt : TargetRuntime) (caps : CapabilitySet) : HardFilterInput where
  target                  := tdef
  runtime                 := trt
  op                      := op
  data                    := data
  caps                    := caps
  program                 := op.program.bind (st.programs[·]?)
  policy                  := policy
  currentWorkerBoot       := trt.ownerBoot
  currentTargetGeneration := (Table.subscript st.targets tid).fst.generation

-- One round of the loop over all targets.
def considerTarget (op : OperationSpec) (policy : Policy) (data : Option DataEvidence)
    (acc : RuntimeState × PlanOutput) (target : NearMemoryTargetId × TargetDefinition) :
    RuntimeState × PlanOutput :=
  let (st, out) := acc
  let (tid, tdef) := target
  match st.targetRuntime[tid]?, st.capabilities[tid]? with
  | some trt, some caps =>
    let reasons := hardFilter (filterInput st op policy data tid tdef trt caps)
    let st := { st with targets := (Table.subscript st.targets tid).snd }
    match reasons with
    | [] => (st, { out with ranked := out.ranked ++ [candidate op tid tdef trt.performance] })
    | reason :: _ =>
      let why := s!"target {tid.value} rejected: " ++ CppEnum.toString reason.reason
      (st, { out with
        rejected    := out.rejected ++ reasons
        explanation := out.explanation ++ [ascii why] })
  | _, _ => acc

end Candidates

-- The plan for an operation, pinned to the current authority of its target.
def newPlan (st : RuntimeState) (id : ExecutionPlanId) (op : OperationSpec)
    (data : Option DataEvidence) (target : NearMemoryTargetId) (trt : TargetRuntime)
    (tdef : TargetDefinition) (caps : CapabilitySet) : ExecutionPlan where
  id                := id
  generation        := { value := 1 }
  target            := target
  targetGeneration  := tdef.generation
  operation         := op.id
  opClass           := op.opClass
  dataset           := op.dataset
  datasetGeneration := op.datasetGeneration
  region            := op.region
  regionGeneration  := op.regionGeneration
  lifecycle         := .planned
  retryClass        := op.retryClass
  decision          := .nearMemorySelected
  authority         := {
    plan           := id
    planGeneration := { value := 1 }
    snapshot       := {
      epoch                  := st.epoch
      workerBoot             := trt.ownerBoot
      target                 := target
      targetGeneration       := tdef.generation
      memoryDomainGeneration := data.elim { value := 1 } (·.memoryDomainGeneration)
      datasetGeneration      := op.datasetGeneration
      regionGeneration       := op.regionGeneration
      operationGeneration    := op.generation
      programGeneration      := op.programGeneration
      capabilityGeneration   := caps.generation
      policyGeneration       := op.policyGeneration
      evidenceGeneration     := caps.evidenceGeneration
      planGeneration         := { value := 1 }
    }
  }

-- The identity that `ExecutionPlanId::make` returns is passed in.
def plan [Platform] (id : ExecutionPlanId) (opId : OperationId) : Action PlanOutput := fun st =>
  match st.operations[opId]? with
  | none => (makeError "E_PLAN_OP" "operation not registered", st)
  | some op =>
    match st.policies[op.policy]? with
    | none => (makeError "E_PLAN_POLICY" "operation references a missing policy", st)
    | some policy =>
      let data := st.dataEvidence[op.region]?
      if op.id ∈ st.activePlans then
        (makeError "E_PLAN_ACTIVE" "an active plan already exists for this operation", st)
      else
        let (st, out) := st.targets.toList.foldl (considerTarget op policy data) (st, {})
        let out := { out with ranked := rankCandidates out.ranked }
        match out.ranked with
        | [] =>
          let decision : Decision :=
            if policy.outcome = PolicyOutcome.nearMemoryRequired then .reject else .movementRequired
          let why := "no eligible near-memory target; " ++ CppEnum.toString decision
          (.ok { out with decision, explanation := out.explanation ++ [ascii why] }, st)
        | best :: _ =>
          if best.decision ≠ .nearMemorySelected then
            let decision := best.decision
            let why :=
              "best eligible candidate still not economically justified; " ++
              CppEnum.toString decision
            (.ok { out with decision, explanation := out.explanation ++ [ascii why] }, st)
          else
            let (trt, targetRuntime) := Table.subscript st.targetRuntime best.target
            let (tdef, targets) := Table.subscript st.targets best.target
            let (caps, capabilities) := Table.subscript st.capabilities best.target
            let plan := newPlan st id op data best.target trt tdef caps
            let why := ascii s!"selected target {best.target.value} (" ++ tdef.name ++ ascii ")"
            (.ok { out with
                plan
                decision    := .nearMemorySelected
                created     := true
                explanation := out.explanation ++ [why] },
              { st with
                targetRuntime, targets, capabilities
                plans       := st.plans.insert plan.id plan
                activePlans := st.activePlans.insert op.id plan.id })

end NMC.Coordinator
