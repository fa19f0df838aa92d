import NearMemoryCompute.Objects.Authority

namespace NMC

structure EligibilityReasonDetail where
  reason : EligibilityReason := .none
  detail : String            := ""
deriving DecidableEq

-- The inputs for filtering a single candidate. Inputs that are missing are `none`.
structure HardFilterInput where
  target                  : Option TargetDefinition           := none
  runtime                 : Option TargetRuntime              := none
  op                      : Option OperationSpec              := none
  data                    : Option DataEvidence               := none
  caps                    : Option CapabilitySet              := none
  program                 : Option Program                    := none
  policy                  : Option Policy                     := none
  currentWorkerBoot       : Option WorkerBootId               := none
  currentTargetGeneration : Option NearMemoryTargetGeneration := none

def opWorkspaceRequired (op : OperationSpec) : UInt64 :=
  op.workspaceBytes

def rejectIf (c : Prop) [Decidable c] (reason : EligibilityReason) (detail : String) :
    List EligibilityReasonDetail :=
  if c then [{ reason, detail }] else []

@[simp]
theorem rejectIf_eq_nil {c : Prop} [Decidable c] {reason : EligibilityReason} {detail : String} :
    rejectIf c reason detail = [] ↔ ¬c := by
  simp [rejectIf]

section HardFilter

variable (target : TargetDefinition) (runtime : TargetRuntime) (op : OperationSpec)
         (data : DataEvidence) (caps : CapabilitySet) (program : Option Program) (policy : Policy)

def lifecycleReasons : List EligibilityReasonDetail :=
  rejectIf (runtime.lifecycle = TargetLifecycle.offline ∨
            runtime.lifecycle = TargetLifecycle.failed ∨
            runtime.lifecycle = TargetLifecycle.retired)
    .targetOffline ("target lifecycle " ++ runtime.lifecycle.toString) ++
  rejectIf (runtime.lifecycle = TargetLifecycle.degraded) .targetDegraded "target degraded" ++
  rejectIf (!runtime.reachable) .targetUnreachable "target reported unreachable" ++
  rejectIf (!runtime.dynamicCurrent ∨ runtime.lifecycle = TargetLifecycle.revalidationRequired)
    .targetRevalidationRequired "dynamic target evidence requires revalidation"

def operationReasons : List EligibilityReasonDetail :=
  let opCapState := caps.stateOf (ascii ("operation:" ++ op.opClass.toString))
  rejectIf (op.opClass ∉ target.supportedOps)
    .operationUnsupported "operation class not supported by target" ++
  (if opCapState = CapabilityState.unknown then
    [{ reason := .operationUnknown, detail := "operation capability UNKNOWN (fails closed)" }]
  else if opCapState = CapabilityState.revalidationRequired then
    [{ reason := .targetRevalidationRequired
       detail := "operation capability requires revalidation" }]
  else []) ++
  rejectIf (op.shape.dataType ∉ target.supportedDataTypes)
    .datatypeUnsupported "data type not supported" ++
  rejectIf (op.shape.layout ∉ target.supportedLayouts)
    .layoutUnsupported "layout not supported" ++
  rejectIf (target.alignmentConstraint ≠ 0 ∧ op.shape.alignment % target.alignmentConstraint ≠ 0)
    .alignmentUnsupported "data alignment violates target constraint"

def dataReasons : List EligibilityReasonDetail :=
  rejectIf (!data.present) .dataUnreachable "data not present in domain" ++
  rejectIf (!data.current) .dataStale "data not current" ++
  rejectIf (data.datasetGeneration ≠ op.datasetGeneration)
    .dataWrongGeneration "data generation does not match operation" ++
  rejectIf (!data.reachable) .dataUnreachable "data not reachable from target"

def capacityReasons : List EligibilityReasonDetail :=
  rejectIf (opWorkspaceRequired op > target.workspaceBytes)
    .insufficientWorkspace "workspace requirement exceeds target budget" ++
  rejectIf (runtime.concurrencyInUse ≥ target.concurrencyCapacity.toUInt64)
    .concurrencyExhausted "target concurrency capacity exhausted"

def programReasons : List EligibilityReasonDetail :=
  match op.program with
  | none => []
  | some required =>
    match program with
    | none => [{ reason := .programIncompatible, detail := "program not READY or not registered" }]
    | some program =>
      rejectIf (program.id ≠ required ∨ program.lifecycle ≠ ProgramLifecycle.ready)
        .programIncompatible "program not READY or not registered" ++
      rejectIf (program.opClass ≠ op.opClass)
        .programIncompatible "program operation class mismatch" ++
      rejectIf (op.shape.dataType ∉ program.dataTypes)
        .programIncompatible "program data type mismatch"

def freshnessReasons (currentTargetGeneration : Option NearMemoryTargetGeneration)
    (currentWorkerBoot : Option WorkerBootId) : List EligibilityReasonDetail :=
  rejectIf (∃ g ∈ currentTargetGeneration, target.generation ≠ g)
    .wrongTargetGeneration "target generation is stale" ++
  rejectIf (∃ b ∈ currentWorkerBoot, runtime.ownerBoot ≠ b)
    .wrongWorkerBoot "target owned by a different worker boot" ++
  rejectIf (!caps.dynamicCurrent) .evidenceStale "capability evidence stale" ++
  rejectIf (runtime.performance.confidence.lt policy.requiredConfidence)
    .insufficientConfidence "performance confidence below policy threshold"

end HardFilter

-- The reasons for which a candidate is not eligible. A candidate is eligible if there are none.
def hardFilter (inp : HardFilterInput) : List EligibilityReasonDetail :=
  match inp.target, inp.runtime, inp.op, inp.data, inp.policy, inp.caps with
  | some target, some runtime, some op, some data, some policy, some caps =>
    lifecycleReasons runtime ++
    operationReasons target op caps ++
    dataReasons op data ++
    capacityReasons target runtime op ++
    programReasons op inp.program ++
    freshnessReasons target runtime caps policy inp.currentTargetGeneration inp.currentWorkerBoot
  | _, _, _, _, _, _ =>
    [{ reason := .targetOffline, detail := "missing required evidence (null input)" }]

structure TransferEstimate where
  bytesToMove         : UInt64 := 0
  bandwidthBps        : UInt64 := 0
  latencyNs           : UInt64 := 0
  stagingCostNs       : UInt64 := 0
  serializationCostNs : UInt64 := 0
  registrationCostNs  : UInt64 := 0

structure ComputeCostEstimate where
  executionNs       : UInt64 := 0
  setupNs           : UInt64 := 0
  queueDelayNs      : UInt64 := 0
  resultReturnBytes : UInt64 := 0
  confidence        : F64    := {}

structure EconomicTerms where
  dataBytesToMove         : UInt64 := 0
  transferLatencyNs       : UInt64 := 0
  transferBytesTimeNs     : UInt64 := 0
  stagingNs               : UInt64 := 0
  serializationNs         : UInt64 := 0
  registrationNs          : UInt64 := 0
  nearSetupNs             : UInt64 := 0
  nearExecutionNs         : UInt64 := 0
  nearQueueDelayNs        : UInt64 := 0
  conventionalExecutionNs : UInt64 := 0
  resultBytes             : UInt64 := 0
  resultTransferNs        : UInt64 := 0
  workspaceNs             : UInt64 := 0
  confidence              : F64    := {}

structure EconomicsResult where
  decision                   : Decision    := .movementRequired
  nearTotalNs                : UInt64      := 0
  conventionalTotalNs        : UInt64      := 0
  movementAvoidedBytes       : UInt64      := 0
  nearMemoryJudgedBeneficial : Bool        := false
  explanation                : List String := []

-- The time that moving bytes takes at a given bandwidth is computed in `long double`, whose
-- precision is up to the platform.
class Platform where
  byteTimeNs (bytes bandwidthBps : UInt64) : UInt64

section Economics

variable [Platform] (tr : TransferEstimate) (conv near : ComputeCostEstimate)

def evaluateTerms : EconomicTerms where
  dataBytesToMove         := tr.bytesToMove
  transferLatencyNs       := tr.latencyNs
  transferBytesTimeNs     :=
    if tr.bandwidthBps > 0 then Platform.byteTimeNs tr.bytesToMove tr.bandwidthBps else 0
  stagingNs               := tr.stagingCostNs
  serializationNs         := tr.serializationCostNs
  registrationNs          := tr.registrationCostNs
  nearSetupNs             := near.setupNs
  nearExecutionNs         := near.executionNs
  nearQueueDelayNs        := near.queueDelayNs
  conventionalExecutionNs := conv.executionNs
  resultBytes             := near.resultReturnBytes
  resultTransferNs        :=
    if tr.bandwidthBps > 0 ∧ near.resultReturnBytes > 0 then
      Platform.byteTimeNs near.resultReturnBytes tr.bandwidthBps
    else 0
  workspaceNs             := 0
  confidence              := near.confidence

def kSynthesisPenaltyNs : UInt64 :=
  1000000

def conventionalTotal : UInt64 :=
  let t := evaluateTerms tr conv near
  let base := (t.stagingNs + t.serializationNs + t.registrationNs) + t.conventionalExecutionNs
  if tr.bandwidthBps > 0 then base + t.transferLatencyNs + t.transferBytesTimeNs
  else base + kSynthesisPenaltyNs

def nearTotal : UInt64 :=
  let t := evaluateTerms tr conv near
  t.nearSetupNs + t.nearExecutionNs + t.nearQueueDelayNs + t.resultTransferNs

def choosePath : EconomicsResult :=
  let convTotal := conventionalTotal tr conv near
  let nearTotal := nearTotal tr conv near
  let nearBeneficial := nearTotal ≤ convTotal
  { decision                   :=
      if nearBeneficial then .nearMemorySelected else .conventionalCpuSelected
    nearTotalNs                := nearTotal
    conventionalTotalNs        := convTotal
    movementAvoidedBytes       := tr.bytesToMove
    nearMemoryJudgedBeneficial := nearBeneficial
    explanation                := [
      s!"near-memory compute: {nearTotal} ns",
      s!"conventional compute (move data): {convTotal} ns",
      if nearBeneficial then
        "selection: NEAR_MEMORY_SELECTED because near-memory path is not more expensive than " ++
        "moving data."
      else
        "selection: CONVENTIONAL_COMPUTE_SELECTED because the movement path is not more " ++
        "expensive than near-memory setup/execution."] }

end Economics

structure RankedCandidate where
  target               : NearMemoryTargetId         := {}
  generation           : NearMemoryTargetGeneration := {}
  decision             : Decision                   := .nearMemorySelected
  movementAvoidedBytes : UInt64                     := 0
  totalCostNs          : UInt64                     := 0
  estimatedLatencyNs   : UInt64                     := 0
  confidence           : F64                        := {}
  factors              : List String                := []

def RankedCandidate.before (a b : RankedCandidate) : Bool :=
  if a.totalCostNs ≠ b.totalCostNs then a.totalCostNs < b.totalCostNs
  else if a.movementAvoidedBytes ≠ b.movementAvoidedBytes then
    a.movementAvoidedBytes > b.movementAvoidedBytes
  else if a.estimatedLatencyNs ≠ b.estimatedLatencyNs then
    a.estimatedLatencyNs < b.estimatedLatencyNs
  else if a.confidence.ne b.confidence then b.confidence.lt a.confidence
  else a.target.value < b.target.value

def rankCandidates (candidates : List RankedCandidate) : List RankedCandidate :=
  candidates.insertionSort fun a b => !b.before a

theorem mem_rankCandidates {c : RankedCandidate} {candidates : List RankedCandidate} :
    c ∈ rankCandidates candidates ↔ c ∈ candidates :=
  (List.perm_insertionSort _ candidates).mem_iff

end NMC
