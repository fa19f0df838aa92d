import NearMemoryCompute.Execution.State

namespace NMC

-- The static and the dynamic part of a target as it is registered. The target is not reachable
-- until a heartbeat says that it is ready.
def RegisterTargetMsg.definition (msg : RegisterTargetMsg) : TargetDefinition where
  id                  := msg.target
  generation          := msg.generation
  provider            := msg.provider
  kind                := msg.kind
  name                := msg.name
  synthetic           := msg.synthetic
  supportedOps        := msg.ops
  supportedDataTypes  := msg.dataTypes
  supportedLayouts    := msg.layouts
  maxInputBytes       := msg.maxInputBytes
  alignmentConstraint := msg.alignment
  concurrencyCapacity := msg.concurrency
  workspaceBytes      := msg.workspace
  authorityOwner      := ascii "worker"

def RegisterTargetMsg.runtime (msg : RegisterTargetMsg) : TargetRuntime where
  id             := msg.target
  ownerBoot      := msg.ownerBoot
  lifecycle      := TargetLifecycle.registered
  reachable      := false
  dynamicCurrent := false

-- The identities that `EvidenceId::make` and, for the entries in turn, `CapabilityId::make` return
-- are passed in.
def CapabilityMsg.capabilitySet (msg : CapabilityMsg) (evidenceId : EvidenceId)
    (capabilityId : ℕ → CapabilityId) (tdef : TargetDefinition) : CapabilitySet where
  target             := msg.target
  targetGeneration   := tdef.generation
  generation         := msg.generation
  evidenceId         := evidenceId
  evidenceGeneration := msg.evidenceGeneration
  publisher          := msg.publisher
  entries            := msg.entries.zipIdx.foldl (fun (entries : Table Bytes CapabilityEntry) e =>
    entries.insert e.fst.key {
      id                   := capabilityId e.snd
      generation           := { value := 1 }
      target               := msg.target
      key                  := e.fst.key
      state                := e.fst.state
      requiredForExecution := true
    }) ∅
  dynamicCurrent     := true

def DataEvidenceMsg.dataEvidence (msg : DataEvidenceMsg) : DataEvidence where
  region                 := msg.region
  regionGeneration       := msg.regionGeneration
  datasetGeneration      := msg.datasetGeneration
  memoryDomain           := msg.memoryDomain
  memoryDomainGeneration := msg.memoryDomainGeneration
  present                := msg.present
  current                := msg.current
  reachable              := msg.reachable
  dynamicCurrent         := true
  publisher              := msg.publisher

def TargetRuntime.heartbeat (rt : TargetRuntime) (msg : HeartbeatMsg) : TargetRuntime :=
  { rt with
    lifecycle         := msg.lifecycle
    reachable         := msg.reachable
    currentQueueDepth := msg.queueDepth
    performance       := { rt.performance with
      latencyNs     := msg.latencyNs
      throughputBps := msg.throughputBps
      confidence    := msg.confidence
      measured      := false }
    dynamicCurrent    := true }

namespace Coordinator

def attachCoordinator (id : CoordinatorId) : Action Unit := fun st =>
  (.ok (), { st with coordinatorId := id })

-- Adds an entry with a fresh, valid identity.
def registerEntry (null : Bool) (nullText : String) (duplicate : Bool) (duplicateText : String)
    (registered : RuntimeState) : Action Unit := fun st =>
  if null then (makeError "E_ID_NULL" nullText, st)
  else if duplicate then (makeError "E_DUP" duplicateText, st)
  else (.ok (), registered)

def registerMemoryDomain (md : MemoryDomainDescriptor) : Action Unit := fun st =>
  registerEntry (md.id.isNull || md.generation.isNull) "null memory-domain identity"
    (md.id ∈ st.memoryDomains) "duplicate memory domain id"
    { st with memoryDomains := st.memoryDomains.insert md.id md } st

def registerDataset (ds : DatasetDescriptor) : Action Unit := fun st =>
  registerEntry (ds.id.isNull || ds.generation.isNull) "null dataset identity"
    (ds.id ∈ st.datasets) "duplicate dataset id"
    { st with datasets := st.datasets.insert ds.id ds } st

def registerRegion (rg : DataRegionDescriptor) : Action Unit := fun st =>
  registerEntry (rg.id.isNull || rg.generation.isNull) "null region identity"
    (rg.id ∈ st.regions) "duplicate region id"
    { st with regions := st.regions.insert rg.id rg } st

def registerProgram (pg : Program) : Action Unit := fun st =>
  registerEntry (pg.id.isNull || pg.generation.isNull) "null program identity"
    (pg.id ∈ st.programs) "duplicate program id"
    { st with programs := st.programs.insert pg.id pg } st

-- The only registration that protects an identity.
def registerPolicy (pl : Policy) : Action Unit := fun st =>
  if pl.id.isNull || pl.generation.isNull then
    (makeError "E_ID_NULL" "null policy identity", st)
  else if pl.id = { value := 1 } then
    (makeError "E_RESERVED" "policy id 1 is the built-in default", st)
  else if pl.id ∈ st.policies then
    (makeError "E_DUP" "duplicate policy id", st)
  else
    (.ok (), { st with policies := st.policies.insert pl.id pl })

def createOperation (op : OperationSpec) : Action Unit := fun st =>
  registerEntry (op.id.isNull || op.generation.isNull) "null operation identity"
    (op.id ∈ st.operations) "duplicate operation id"
    { st with operations := st.operations.insert op.id op } st

def bindWorkerSession (w : WorkerId) (boot : WorkerBootId) (name : Bytes) : Action Unit := fun st =>
  let s := { worker := w, boot, name, connected := true }
  (.ok (), { st with workers := st.workers.insert w s })

def applyRegisterTarget (msg : RegisterTargetMsg) : Action Unit := fun st =>
  if msg.target.isNull || msg.generation.isNull then
    (makeError "E_ID_NULL" "null target identity", st)
  else
    (.ok (), { st with
      targets       := st.targets.insert msg.target msg.definition
      targetRuntime := st.targetRuntime.insert msg.target msg.runtime })

def applyCapability (evidenceId : EvidenceId) (capabilityId : ℕ → CapabilityId)
    (msg : CapabilityMsg) : Action Unit := fun st =>
  if msg.target.isNull then (makeError "E_ID_NULL" "null target id", st)
  else
    match st.targets[msg.target]? with
    | none => (makeError "E_TARGET_UNKNOWN" "target not registered", st)
    | some tdef =>
      let cs := msg.capabilitySet evidenceId capabilityId tdef
      (.ok (), { st with capabilities := st.capabilities.insert msg.target cs })

def applyDataEvidence (msg : DataEvidenceMsg) : Action Unit := fun st =>
  if msg.region.isNull then (makeError "E_ID_NULL" "null region id", st)
  else (.ok (), { st with dataEvidence := st.dataEvidence.insert msg.region msg.dataEvidence })

-- A terminal target can not be resurrected by a heartbeat.
def applyHeartbeat (msg : HeartbeatMsg) : Action Unit := fun st =>
  match st.targetRuntime[msg.target]? with
  | none => (makeError "E_TARGET_UNKNOWN" "target runtime not found", st)
  | some rt =>
    if rt.lifecycle = TargetLifecycle.retired ∨ rt.lifecycle = TargetLifecycle.failed then
      (makeError "E_TARGET_TERMINAL" "target is terminal; heartbeat ignored", st)
    else
      (.ok (), { st with
        targetRuntime := st.targetRuntime.insert msg.target (rt.heartbeat msg) })

end Coordinator
end NMC
