import NearMemoryCompute.Objects.Records

namespace NMC

inductive FrameType
  | hello | registerTarget | capability | dataEvidence | heartbeat | dispatch | dispatchAck | result
  | commitAck | error | ping | pong | shutdown | revalidate | clientRegisterOperation | clientPlan
  | clientDispatch | clientGetResult | clientReply
deriving DecidableEq

structure HelloMsg where
  worker     : WorkerId     := {}
  workerBoot : WorkerBootId := {}
  name       : Bytes        := []

structure RegisterTargetMsg where
  target        : NearMemoryTargetId         := {}
  generation    : NearMemoryTargetGeneration := {}
  provider      : Raw ProviderKind           := ProviderKind.unknown
  kind          : Raw TargetKind             := TargetKind.unknown
  synthetic     : Bool                       := false
  name          : Bytes                      := []
  ops           : List (Raw OperationClass)  := []
  dataTypes     : List (Raw DataType)        := []
  layouts       : List (Raw Layout)          := []
  maxInputBytes : UInt64                     := 0
  alignment     : UInt64                     := 1
  concurrency   : UInt32                     := 1
  workspace     : UInt64                     := 0
  ownerBoot     : WorkerBootId               := {}

structure CapabilityEntryWire where
  key   : Bytes
  state : Raw CapabilityState

structure CapabilityMsg where
  target             : NearMemoryTargetId       := {}
  generation         : CapabilityGeneration     := {}
  entries            : List CapabilityEntryWire := []
  evidenceGeneration : EvidenceGeneration       := {}
  publisher          : WorkerBootId             := {}

structure DataEvidenceMsg where
  region                 : DataRegionId           := {}
  regionGeneration       : DataRegionGeneration   := {}
  dataset                : DatasetId              := {}
  datasetGeneration      : DatasetGeneration      := {}
  memoryDomain           : MemoryDomainId         := {}
  memoryDomainGeneration : MemoryDomainGeneration := {}
  present                : Bool                   := false
  current                : Bool                   := false
  reachable              : Bool                   := false
  publisher              : WorkerBootId           := {}

structure HeartbeatMsg where
  target        : NearMemoryTargetId  := {}
  lifecycle     : Raw TargetLifecycle := TargetLifecycle.ready
  reachable     : Bool                := true
  queueDepth    : UInt64              := 0
  latencyNs     : UInt64              := 0
  throughputBps : UInt64              := 0
  confidence    : F64                 := {}

structure DispatchMsg where
  plan                : ExecutionPlanId            := {}
  planGen             : ExecutionPlanGeneration    := {}
  dispatch            : DispatchId                 := {}
  attempt             : AttemptId                  := {}
  target              : NearMemoryTargetId         := {}
  targetGen           : NearMemoryTargetGeneration := {}
  workerBoot          : WorkerBootId               := {}
  epoch               : CoordinatorEpoch           := {}
  datasetGen          : DatasetGeneration          := {}
  regionGen           : DataRegionGeneration       := {}
  operationGen        : OperationGeneration        := {}
  hasProgram          : Bool                       := false
  programGen          : ProgramGeneration          := {}
  opClass             : Raw OperationClass         := OperationClass.sum
  dataType            : Raw DataType               := DataType.u8
  retryClass          : Raw RetryClass             := RetryClass.nonRetryable
  idempotent          : Bool                       := false
  requireVerification : Bool                       := false
  payload             : Bytes                      := []

structure ResultMsg where
  plan         : ExecutionPlanId            := {}
  planGen      : ExecutionPlanGeneration    := {}
  dispatch     : DispatchId                 := {}
  attempt      : AttemptId                  := {}
  target       : NearMemoryTargetId         := {}
  targetGen    : NearMemoryTargetGeneration := {}
  workerBoot   : WorkerBootId               := {}
  epoch        : CoordinatorEpoch           := {}
  datasetGen   : DatasetGeneration          := {}
  regionGen    : DataRegionGeneration       := {}
  operationGen : OperationGeneration        := {}
  resultGen    : ResultGeneration           := {}
  output       : Bytes                      := []
  outputDigest : Bytes                      := []
  unknown      : Bool                       := false
  note         : Bytes                      := []

structure DispatchAckMsg where
  dispatch : DispatchId := {}
  accepted : Bool       := false
  note     : Bytes      := []

structure CommitAckMsg where
  plan      : ExecutionPlanId := {}
  dispatch  : DispatchId      := {}
  committed : Bool            := false
  note      : Bytes           := []

structure ErrorMsg where
  code    : Bytes := []
  message : Bytes := []

structure ShutdownMsg where
  reason : Bytes := []

structure RevalidateMsg where
  target : NearMemoryTargetId := {}

structure ClientRegisterOperationMsg where
  op : OperationSpec := {}

structure ClientPlanMsg where
  op : OperationId := {}

structure ClientDispatchMsg where
  plan : ExecutionPlanId := {}

structure ClientGetResultMsg where
  plan : ExecutionPlanId := {}

structure ClientReplyMsg where
  ok           : Bool            := false
  plan         : ExecutionPlanId := {}
  decision     : Raw Decision    := Decision.reject
  created      : Bool            := false
  committed    : Bool            := false
  ambiguous    : Bool            := false
  verification : Raw VerifyState := VerifyState.unverified
  outputBytes  : UInt64          := 0
  outputDigest : Bytes           := []
  note         : Bytes           := []

end NMC
