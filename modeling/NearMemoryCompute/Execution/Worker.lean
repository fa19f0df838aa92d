import NearMemoryCompute.Execution.Backend
import NearMemoryCompute.Execution.Wire

namespace NMC

-- A worker process with its arguments and the identities that it has made for itself.
structure Worker where
  worker      : WorkerId           := {}
  boot        : WorkerBootId       := {}
  target      : NearMemoryTargetId := {}
  name        : Bytes              := ascii "worker"
  targetName  : Bytes              := ascii "nm-target"
  synthetic   : Bool               := false
  holdResult  : Bool               := false
  latency     : UInt64             := 12000000
  throughput  : UInt64             := (100 : UInt64) <<< 30
  dataset     : DatasetId          := { value := 1000 }
  region      : DataRegionId       := { value := 1001 }
  domain      : MemoryDomainId     := { value := 2000 }
  concurrency : UInt32             := 4

namespace Worker

def hello (w : Worker) : HelloMsg where
  worker     := w.worker
  workerBoot := w.boot
  name       := w.name

-- The operations are the same for both engines.
def registration (w : Worker) : RegisterTargetMsg where
  target        := w.target
  generation    := { value := 1 }
  provider      := if w.synthetic then ProviderKind.synthetic else ProviderKind.real
  kind          := if w.synthetic then TargetKind.synthetic else TargetKind.hostCpuLocal
  synthetic     := w.synthetic
  name          := w.targetName
  ops           := [
    OperationClass.sum, OperationClass.min, OperationClass.count, OperationClass.max,
    OperationClass.filter, OperationClass.checksum, OperationClass.hash]
  dataTypes     := [DataType.u8]
  layouts       := [Layout.contiguous]
  maxInputBytes := (8 : UInt64) <<< 30
  alignment     := 1
  concurrency   := w.concurrency
  workspace     := (1 : UInt64) <<< 20
  ownerBoot     := w.boot

def capability (w : Worker) : CapabilityMsg where
  target             := w.target
  generation         := { value := 1 }
  entries            := [
    { key := ascii "operation:SUM", state := CapabilityState.supported },
    { key := ascii "operation:MIN", state := CapabilityState.supported },
    { key := ascii "operation:MAX", state := CapabilityState.supported },
    { key := ascii "operation:COUNT", state := CapabilityState.supported },
    { key := ascii "operation:FILTER", state := CapabilityState.supported },
    { key := ascii "operation:CHECKSUM", state := CapabilityState.supported },
    { key := ascii "operation:HASH", state := CapabilityState.supported }]
  evidenceGeneration := { value := 1 }
  publisher          := w.boot

def evidence (w : Worker) : DataEvidenceMsg where
  region                 := w.region
  regionGeneration       := { value := 1 }
  dataset                := w.dataset
  datasetGeneration      := { value := 1 }
  memoryDomain           := w.domain
  memoryDomainGeneration := { value := 1 }
  present                := true
  current                := true
  reachable              := true
  publisher              := w.boot

-- The confidence is the double that is closest to 0.95.
def heartbeat (w : Worker) : HeartbeatMsg where
  target        := w.target
  lifecycle     := TargetLifecycle.ready
  reachable     := true
  queueDepth    := 0
  latencyNs     := w.latency
  throughputBps := w.throughput
  confidence    := { bits := 0x3FEE666666666666 }

def request (dm : DispatchMsg) : BackendRequest where
  opClass    := dm.opClass
  dataType   := dm.dataType
  input      := dm.payload
  inputBytes := .ofNat dm.payload.length

def execute (w : Worker) (dm : DispatchMsg) : BackendResult :=
  if w.synthetic then syntheticExecute (request dm) else hostLocalExecute (request dm)

-- The completion that a worker sends for a dispatch. All authority is echoed from the dispatch.
def resultMsg (dm : DispatchMsg) (r : BackendResult) : ResultMsg where
  plan         := dm.plan
  planGen      := dm.planGen
  dispatch     := dm.dispatch
  attempt      := dm.attempt
  target       := dm.target
  targetGen    := dm.targetGen
  workerBoot   := dm.workerBoot
  epoch        := dm.epoch
  datasetGen   := dm.datasetGen
  regionGen    := dm.regionGen
  operationGen := dm.operationGen
  resultGen    := { value := 1 }
  output       := r.output
  outputDigest := toHex r.digest
  unknown      := !r.ok
  note         := r.note

open Reader Writer in
-- The frames that a worker sends in answer to one that it has received, or none if it ends.
def onFrame (w : Worker) (type : FrameType) (payload : Bytes) : Option (List (FrameType × Bytes)) :=
  match type with
  | .ping     => some [(.pong, [])]
  | .dispatch =>
    match decodeDispatch payload with
    | none         => some []
    | some (dm, _) =>
      let r := w.execute dm
      if w.holdResult then some [] else some [(.result, encodeResult (resultMsg dm r))]
  | .shutdown => none
  | _         => some []

end Worker
end NMC
