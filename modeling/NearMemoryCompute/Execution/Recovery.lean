import NearMemoryCompute.Execution.Failure
import NearMemoryCompute.Objects.Codec

namespace NMC

def kMaxPersistCount : UInt64 :=
  4096

namespace Reader

-- A table whose entries are stored one after the other. Each is put under the identity that it
-- carries, so of several entries with one identity the last one is kept.
def getTable {t : Tag} {α : Type} (id : α → Id t) (get : Reader α) : Reader (Table (Id t) α) := do
  let n ← readU64
  guard (n ≤ kMaxPersistCount)
  go n.toNat ∅
where
  go : ℕ → Table (Id t) α → Reader (Table (Id t) α)
    | 0,     table => return table
    | n + 1, table => do
      let v ← get
      go n (table.insert (id v) v)

def getRaw {α : Type} [CppEnum α] : Reader (Raw α) := do
  return .member (← getEnum)

def getShape : Reader DataShape := do
  let dataType ← getRaw
  let layout ← getRaw
  let elementCount ← readU64
  let alignment ← readU64
  return { dataType, layout, elementCount, alignment }

def getSnapshot : Reader AuthoritySnapshot := do
  let epoch ← getGen
  let workerBoot ← getId
  let target ← getId
  let targetGeneration ← getGen
  let memoryDomainGeneration ← getGen
  let datasetGeneration ← getGen
  let regionGeneration ← getGen
  let operationGeneration ← getGen
  let programGeneration ← getOption getGen
  let capabilityGeneration ← getGen
  let policyGeneration ← getGen
  let evidenceGeneration ← getGen
  let planGeneration ← getGen
  return {
    epoch, workerBoot, target, targetGeneration, memoryDomainGeneration, datasetGeneration,
    regionGeneration, operationGeneration, programGeneration, capabilityGeneration,
    policyGeneration, evidenceGeneration, planGeneration }

def getMemoryDomain : Reader MemoryDomainDescriptor := do
  let id ← getId
  let generation ← getGen
  let name ← readString
  let durable ← getBool
  return { id, generation, name, durable }

def getDataset : Reader DatasetDescriptor := do
  let id ← getId
  let generation ← getGen
  let name ← readString
  let producer ← readString
  let durable ← getBool
  return { id, generation, name, producer, durable }

def getRegion : Reader DataRegionDescriptor := do
  let id ← getId
  let generation ← getGen
  let dataset ← getId
  let datasetGeneration ← getGen
  let memoryDomain ← getId
  let offset ← readU64
  let length ← readU64
  let shape ← getShape
  let integrity ← getRaw
  let durable ← getBool
  return {
    id, generation, dataset, datasetGeneration, memoryDomain, shape, integrity, durable
    window := { offset, length } }

def getProgram : Reader Program := do
  let id ← getId
  let generation ← getGen
  let name ← readString
  let opClass ← getRaw
  let targetKind ← getRaw
  let digest ← readString
  let dataTypes ← getList getRaw
  let layouts ← getList getRaw
  let workspaceBytes ← readU64
  let lifecycle ← getRaw
  let predefined ← getBool
  let validated ← getBool
  return {
    id, generation, name, opClass, targetKind, digest, dataTypes, layouts, workspaceBytes,
    lifecycle, predefined, validated }

def getPolicy : Reader Policy := do
  let id ← getId
  let generation ← getGen
  let name ← readString
  let outcome ← getRaw
  let permittedFallbacks ← getList getRaw
  let requiredConfidence ← readF64
  let nearMemoryBias ← readF64
  let rejectOnStale ← getBool
  let maxNearMemoryInputBytes ← readU64
  let requireVerification ← getBool
  return {
    id, generation, name, outcome, permittedFallbacks, requiredConfidence, nearMemoryBias,
    rejectOnStale, maxNearMemoryInputBytes, requireVerification }

-- The flag for the program comes before the description, and the program itself after it.
def getOperation : Reader OperationSpec := do
  let id ← getId
  let generation ← getGen
  let opClass ← getRaw
  let dataset ← getId
  let datasetGeneration ← getGen
  let region ← getId
  let regionGeneration ← getGen
  let shape ← getShape
  let inputBytes ← readU64
  let outputBytes ← readU64
  let workspaceBytes ← readU64
  let outputDataType ← getRaw
  let determinismRequired ← getBool
  let maxToleratedLatencyNs ← readU64
  let requiredThroughputBps ← readU64
  let integrity ← getRaw
  let retryClass ← getRaw
  let policy ← getId
  let policyGeneration ← getGen
  let hasProg ← getBool
  let description ← readString
  let op : OperationSpec := {
    id, generation, opClass, dataset, datasetGeneration, region, regionGeneration, shape,
    inputBytes, outputBytes, workspaceBytes, outputDataType, determinismRequired,
    maxToleratedLatencyNs, requiredThroughputBps, integrity, retryClass, policy, policyGeneration,
    description }
  if hasProg then
    let program ← getId
    let programGeneration ← getGen
    return { op with program := some program, programGeneration := some programGeneration }
  else return op

def getTarget : Reader TargetDefinition := do
  let id ← getId
  let generation ← getGen
  let provider ← getRaw
  let kind ← getRaw
  let name ← readString
  let description ← readString
  let failureDomain ← getId
  let memoryDomains ← getList getId
  let supportedOps ← getList getRaw
  let supportedDataTypes ← getList getRaw
  let supportedLayouts ← getList getRaw
  let maxInputBytes ← readU64
  let alignmentConstraint ← readU64
  let concurrencyCapacity ← readU32
  let queueDepth ← readU64
  let workspaceBytes ← readU64
  let accessSemantics ← getRaw
  let requiresStaging ← getBool
  let synthetic ← getBool
  let supportsVerification ← getBool
  let supportsCancellation ← getBool
  let supportsDrain ← getBool
  let authorityOwner ← readString
  return {
    id, generation, provider, kind, name, description, failureDomain, memoryDomains, supportedOps,
    supportedDataTypes, supportedLayouts, maxInputBytes, alignmentConstraint, concurrencyCapacity,
    queueDepth, workspaceBytes, accessSemantics, requiresStaging, synthetic, supportsVerification,
    supportsCancellation, supportsDrain, authorityOwner }

-- The plan authority is not stored beyond its snapshot. It is rebuilt from the plan.
def getPlan : Reader ExecutionPlan := do
  let id ← getId
  let generation ← getGen
  let snapshot ← getSnapshot
  let target ← getId
  let targetGeneration ← getGen
  let operation ← getId
  let opClass ← getRaw
  let dataset ← getId
  let datasetGeneration ← getGen
  let region ← getId
  let regionGeneration ← getGen
  let lifecycle ← getEnum
  let reservedSlots ← readU64
  let reservedWorkspace ← readU64
  let dispatchId ← getOption getId
  let attemptId ← getOption getId
  let retryClass ← getRaw
  let decision ← getEnum
  let notes ← getList readString
  return {
    id, generation, target, targetGeneration, operation, opClass, dataset, datasetGeneration,
    region, regionGeneration, lifecycle, reservedSlots, reservedWorkspace, dispatchId, attemptId,
    retryClass, decision, notes
    authority := { snapshot, plan := id, planGeneration := generation } }

def getResult : Reader ExecutionResult := do
  let id ← getId
  let generation ← getGen
  let plan ← getId
  let planGeneration ← getGen
  let dispatch ← getId
  let attempt ← getId
  let target ← getId
  let targetGeneration ← getGen
  let workerBoot ← getId
  let epoch ← getGen
  let datasetGeneration ← getGen
  let regionGeneration ← getGen
  let operationGeneration ← getGen
  let verification ← getEnum
  let outputDigest ← readString
  let outputBytes ← readU64
  let committed ← getBool
  let ambiguous ← getBool
  let note ← readString
  return {
    id, generation, plan, planGeneration, dispatch, attempt, target, targetGeneration, workerBoot,
    epoch, datasetGeneration, regionGeneration, operationGeneration, verification, outputDigest,
    outputBytes, committed, ambiguous, note }

end Reader

open Reader in
def decodeState : Reader RuntimeState := do
  let coordinatorId ← getId
  let epoch ← getGen
  guard !epoch.isNull
  let memoryDomains ← getTable (·.id) getMemoryDomain
  let datasets ← getTable (·.id) getDataset
  let regions ← getTable (·.id) getRegion
  let programs ← getTable (·.id) getProgram
  let policies ← getTable (·.id) getPolicy
  let operations ← getTable (·.id) getOperation
  let targets ← getTable (·.id) getTarget
  let plans ← getTable (·.id) getPlan
  let results ← getTable (·.id) getResult
  return {
    coordinatorId, epoch, memoryDomains, datasets, regions, programs, policies, operations, targets,
    plans, results }

-- What reading a file yields.
inductive File
  | cannotOpen
  | noSize
  | shortRead (size : ℕ)
  | contents (bytes : Bytes)

namespace PersistentStore

def kMagic : UInt32 :=
  0x504D434E

def kFormatVersion : UInt16 :=
  1

def kMaxPayload : ℕ :=
  256 * 1024 * 1024

def readWholeFile : File → Result Bytes
  | .cannotOpen => makeError "E_PERSIST_OPEN" "cannot open persistence file"
  | .noSize     => makeError "E_PERSIST_SIZE" "cannot determine file size"
  | .shortRead size =>
    if size > kMaxPayload + 64 then
      makeError "E_PERSIST_OVERSIZE" "persistence file exceeds maximum size"
    else makeError "E_PERSIST_READ" "short read on persistence file"
  | .contents bytes =>
    if bytes.length > kMaxPayload + 64 then
      makeError "E_PERSIST_OVERSIZE" "persistence file exceeds maximum size"
    else .ok bytes

def littleEndian (width n : ℕ) : Bytes :=
  (List.range width).map fun i => (n / 256 ^ i).toUInt8

def computePayloadCrc (magic : UInt32) (version : UInt16) (len : UInt64) (payload : Bytes) :
    UInt32 :=
  let c : Crc32 := {}
  let c := c.update (littleEndian 4 magic.toNat)
  let c := c.update (littleEndian 2 version.toNat)
  let c := c.update (littleEndian 8 len.toNat)
  (c.update payload).digest

def orError {α : Type} (o : Option α) (code message : String) : Result α :=
  match o with
  | some a => .ok a
  | none   => makeError code message

def require (c : Prop) [Decidable c] (code message : String) : Result Unit :=
  if c then .ok () else makeError code message

-- The payload of an envelope, which consists of the magic number, the format version, the length
-- of the payload, the payload and a checksum over all of these.
def openEnvelope (r : Bytes) : Result Bytes := do
  let (magic, r) ← orError (Reader.readU32 r) "E_PERSIST_MAGIC" "truncated header"
  require (magic = kMagic) "E_PERSIST_MAGIC" "bad magic"
  let (version, r) ← orError (Reader.readU16 r) "E_PERSIST_VERSION" "truncated version"
  require (version = kFormatVersion) "E_PERSIST_VERSION" "unsupported format version"
  let (payloadLen, r) ← orError (Reader.readU64 r) "E_PERSIST_LEN" "truncated payload length"
  require (payloadLen.toNat ≤ kMaxPayload) "E_PERSIST_OVERSIZE" "payload too large"
  let (payload, r) ← orError (Reader.readFixed payloadLen.toNat r)
    "E_PERSIST_TRUNC" "payload truncated"
  let (crc, r) ← orError (Reader.readU32 r) "E_PERSIST_CRC" "truncated checksum"
  require (r = []) "E_PERSIST_TRAILING" "trailing garbage after payload"
  require (computePayloadCrc magic version payloadLen payload = crc)
    "E_PERSIST_CRC" "checksum mismatch (corruption)"
  return payload

def load {α : Type} (file : File) (decode : Reader α) : Result α := do
  let r ← readWholeFile file
  let payload ← openEnvelope r
  let (decoded, r) ← orError (decode payload) "E_PERSIST_DECODE" "malformed persistence payload"
  require (r = []) "E_PERSIST_TRAILING" "trailing garbage inside payload"
  return decoded

end PersistentStore

-- What becomes of a state that has been loaded: it begins a new epoch, and no dynamic authority
-- is left in it.
def RuntimeState.recover (st : RuntimeState) : RuntimeState :=
  let st := rebuildActivePlans { st with
    epoch         := { value := st.epoch.value + 1 }
    targetRuntime := st.targetRuntime.map fun _ rt =>
      { rt with
        dynamicCurrent := false
        reachable      := false
        lifecycle      := TargetLifecycle.revalidationRequired }
    capabilities  := st.capabilities.map fun _ cs => { cs with dynamicCurrent := false }
    dataEvidence  := st.dataEvidence.map fun _ ev => { ev with dynamicCurrent := false }
    plans         := st.plans.map fun _ plan =>
      if plan.lifecycle ≠ .committed then
        { plan with
          lifecycle :=
            if plan.lifecycle = .dispatched ∨ plan.lifecycle = .running ∨
              plan.lifecycle = .verifying then .outcomeUnknown
            else .superseded }
      else plan }
  { st with reservations := ∅, workers := ∅ }

def Coordinator.load (file : File) : Action Unit := fun st =>
  match PersistentStore.load file decodeState with
  | .error e   => (.error e, st)
  | .ok loaded => (.ok (), loaded.recover)

end NMC
