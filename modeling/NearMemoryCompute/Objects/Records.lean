import NearMemoryCompute.Objects.Enums

namespace NMC

structure DataShape where
  elementCount : UInt64       := 0
  dataType     : Raw DataType := DataType.u8
  layout       : Raw Layout   := Layout.contiguous
  alignment    : UInt64       := 1

structure ByteWindow where
  offset : UInt64 := 0
  length : UInt64 := 0

structure MemoryDomainDescriptor where
  id         : MemoryDomainId         := {}
  generation : MemoryDomainGeneration := {}
  name       : Bytes                  := []
  durable    : Bool                   := true

structure DatasetDescriptor where
  id         : DatasetId         := {}
  generation : DatasetGeneration := {}
  name       : Bytes             := []
  producer   : Bytes             := []
  durable    : Bool              := true

structure DataRegionDescriptor where
  id                : DataRegionId         := {}
  generation        : DataRegionGeneration := {}
  dataset           : DatasetId            := {}
  datasetGeneration : DatasetGeneration    := {}
  memoryDomain      : MemoryDomainId       := {}
  window            : ByteWindow           := {}
  shape             : DataShape            := {}
  integrity         : Raw IntegrityState   := IntegrityState.unknown
  durable           : Bool                 := true

-- Dynamic evidence on where the data of a region is and whether it is current.
structure DataEvidence where
  region                 : DataRegionId           := {}
  regionGeneration       : DataRegionGeneration   := {}
  datasetGeneration      : DatasetGeneration      := {}
  memoryDomain           : MemoryDomainId         := {}
  memoryDomainGeneration : MemoryDomainGeneration := {}
  present                : Bool                   := false
  current                : Bool                   := false
  reachable              : Bool                   := false
  dynamicCurrent         : Bool                   := false
  publisher              : WorkerBootId           := {}

structure PerfEstimate where
  latencyNs     : UInt64 := 0
  throughputBps : UInt64 := 0
  setupNs       : UInt64 := 0
  confidence    : F64    := {}
  measured      : Bool   := false

-- The static definition of a target, which survives a restart.
structure TargetDefinition where
  id                   : NearMemoryTargetId         := {}
  generation           : NearMemoryTargetGeneration := {}
  provider             : Raw ProviderKind           := ProviderKind.unknown
  kind                 : Raw TargetKind             := TargetKind.unknown
  name                 : Bytes                      := []
  description          : Bytes                      := []
  failureDomain        : FailureDomainId            := {}
  memoryDomains        : List MemoryDomainId        := []
  supportedOps         : List (Raw OperationClass)  := []
  supportedDataTypes   : List (Raw DataType)        := []
  supportedLayouts     : List (Raw Layout)          := []
  maxInputBytes        : UInt64                     := 0
  alignmentConstraint  : UInt64                     := 1
  concurrencyCapacity  : UInt32                     := 1
  queueDepth           : UInt64                     := 1
  workspaceBytes       : UInt64                     := 0
  accessSemantics      : Raw AccessSemantics        := AccessSemantics.direct
  requiresStaging      : Bool                       := false
  synthetic            : Bool                       := true
  supportsVerification : Bool                       := false
  supportsCancellation : Bool                       := false
  supportsDrain        : Bool                       := false
  authorityOwner       : Bytes                      := []

instance : Inhabited TargetDefinition where
  default := {}

-- The dynamic state of a target.
structure TargetRuntime where
  lifecycle         : Raw TargetLifecycle := TargetLifecycle.discovered
  id                : NearMemoryTargetId  := {}
  ownerBoot         : WorkerBootId        := {}
  reachable         : Bool                := false
  concurrencyInUse  : UInt64              := 0
  currentQueueDepth : UInt64              := 0
  performance       : PerfEstimate        := {}
  dynamicCurrent    : Bool                := false

instance : Inhabited TargetRuntime where
  default := {}

structure CapabilityEntry where
  id                   : CapabilityId         := {}
  generation           : CapabilityGeneration := {}
  target               : NearMemoryTargetId   := {}
  key                  : Bytes                := []
  state                : Raw CapabilityState  := CapabilityState.unknown
  requiredForExecution : Bool                 := false

structure CapabilitySet where
  target             : NearMemoryTargetId          := {}
  targetGeneration   : NearMemoryTargetGeneration  := {}
  generation         : CapabilityGeneration        := {}
  entries            : Table Bytes CapabilityEntry := ∅
  evidenceId         : EvidenceId                  := {}
  evidenceGeneration : EvidenceGeneration          := {}
  publisher          : WorkerBootId                := {}
  dynamicCurrent     : Bool                        := false

instance : Inhabited CapabilitySet where
  default := {}

def CapabilitySet.stateOf (caps : CapabilitySet) (key : Bytes) : Raw CapabilityState :=
  match caps.entries[key]? with
  | none    => CapabilityState.unknown
  | some en => en.state

structure Program where
  id             : KernelOrProgramId    := {}
  generation     : ProgramGeneration    := {}
  name           : Bytes                := []
  opClass        : Raw OperationClass   := OperationClass.sum
  targetKind     : Raw TargetKind       := TargetKind.unknown
  digest         : Bytes                := []
  dataTypes      : List (Raw DataType)  := []
  layouts        : List (Raw Layout)    := []
  workspaceBytes : UInt64               := 0
  lifecycle      : Raw ProgramLifecycle := ProgramLifecycle.registered
  predefined     : Bool                 := true
  validated      : Bool                 := false

structure Policy where
  id                      : PolicyId            := {}
  generation              : PolicyGeneration    := {}
  name                    : Bytes               := []
  outcome                 : Raw PolicyOutcome   := PolicyOutcome.unconstrained
  permittedFallbacks      : List (Raw Decision) := []
  requiredConfidence      : F64                 := {}
  nearMemoryBias          : F64                 := {}
  rejectOnStale           : Bool                := true
  maxNearMemoryInputBytes : UInt64              := 0
  requireVerification     : Bool                := false

structure OperationSpec where
  id                    : OperationId              := {}
  generation            : OperationGeneration      := {}
  opClass               : Raw OperationClass       := OperationClass.sum
  dataset               : DatasetId                := {}
  datasetGeneration     : DatasetGeneration        := {}
  region                : DataRegionId             := {}
  regionGeneration      : DataRegionGeneration     := {}
  shape                 : DataShape                := {}
  inputBytes            : UInt64                   := 0
  outputBytes           : UInt64                   := 0
  workspaceBytes        : UInt64                   := 0
  outputDataType        : Raw DataType             := DataType.f64
  determinismRequired   : Bool                     := true
  maxToleratedLatencyNs : UInt64                   := 0
  requiredThroughputBps : UInt64                   := 0
  integrity             : Raw IntegrityRequirement := IntegrityRequirement.checked
  retryClass            : Raw RetryClass           := RetryClass.nonRetryable
  policy                : PolicyId                 := {}
  policyGeneration      : PolicyGeneration         := {}
  program               : Option KernelOrProgramId := none
  programGeneration     : Option ProgramGeneration := none
  description           : Bytes                    := []

-- The identities and generations that a plan pins and that a completion must reproduce.
structure AuthoritySnapshot where
  epoch                  : CoordinatorEpoch           := {}
  workerBoot             : WorkerBootId               := {}
  target                 : NearMemoryTargetId         := {}
  targetGeneration       : NearMemoryTargetGeneration := {}
  memoryDomainGeneration : MemoryDomainGeneration     := {}
  datasetGeneration      : DatasetGeneration          := {}
  regionGeneration       : DataRegionGeneration       := {}
  operationGeneration    : OperationGeneration        := {}
  programGeneration      : Option ProgramGeneration   := none
  capabilityGeneration   : CapabilityGeneration       := {}
  policyGeneration       : PolicyGeneration           := {}
  evidenceGeneration     : EvidenceGeneration         := {}
  planGeneration         : ExecutionPlanGeneration    := {}

structure PlanAuthority where
  snapshot       : AuthoritySnapshot       := {}
  plan           : ExecutionPlanId         := {}
  planGeneration : ExecutionPlanGeneration := {}

structure ExecutionPlan where
  id                : ExecutionPlanId            := {}
  generation        : ExecutionPlanGeneration    := {}
  authority         : PlanAuthority              := {}
  target            : NearMemoryTargetId         := {}
  targetGeneration  : NearMemoryTargetGeneration := {}
  operation         : OperationId                := {}
  opClass           : Raw OperationClass         := OperationClass.sum
  dataset           : DatasetId                  := {}
  datasetGeneration : DatasetGeneration          := {}
  region            : DataRegionId               := {}
  regionGeneration  : DataRegionGeneration       := {}
  lifecycle         : ExecutionLifecycle         := .planned
  reservedSlots     : UInt64                     := 0
  reservedWorkspace : UInt64                     := 0
  dispatchId        : Option DispatchId          := none
  attemptId         : Option AttemptId           := none
  retryClass        : Raw RetryClass             := RetryClass.nonRetryable
  decision          : Decision                   := .movementRequired
  notes             : List Bytes                 := []

structure ExecutionResult where
  id                  : ResultId                   := {}
  generation          : ResultGeneration           := {}
  plan                : ExecutionPlanId            := {}
  planGeneration      : ExecutionPlanGeneration    := {}
  dispatch            : DispatchId                 := {}
  attempt             : AttemptId                  := {}
  target              : NearMemoryTargetId         := {}
  targetGeneration    : NearMemoryTargetGeneration := {}
  workerBoot          : WorkerBootId               := {}
  epoch               : CoordinatorEpoch           := {}
  datasetGeneration   : DatasetGeneration          := {}
  regionGeneration    : DataRegionGeneration       := {}
  operationGeneration : OperationGeneration        := {}
  verification        : VerifyState                := .unverified
  outputDigest        : Bytes                      := []
  outputBytes         : UInt64                     := 0
  committed           : Bool                       := false
  ambiguous           : Bool                       := false
  note                : Bytes                      := []

end NMC
