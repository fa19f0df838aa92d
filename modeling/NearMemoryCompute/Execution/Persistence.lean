import NearMemoryCompute.Execution.Recovery

namespace NMC

-- What is appended to a `ByteWriter`.
namespace Writer

open PersistentStore (littleEndian)

def writeU8 (v : UInt8) : Bytes :=
  [v]

def writeU16 (v : UInt16) : Bytes :=
  littleEndian 2 v.toNat

def writeU32 (v : UInt32) : Bytes :=
  littleEndian 4 v.toNat

def writeU64 (v : UInt64) : Bytes :=
  littleEndian 8 v.toNat

def writeF64 (v : F64) : Bytes :=
  writeU64 v.bits

def writeString (s : Bytes) : Bytes :=
  writeU64 (.ofNat s.length) ++ s

def putId {t : Tag} (id : Id t) : Bytes :=
  writeU64 id.value

def putGen {t : Tag} (g : Generation t) : Bytes :=
  writeU64 g.value

def putBool (b : Bool) : Bytes :=
  writeU8 (if b then 1 else 0)

section Enum

variable {α : Type} [CppEnum α] [DecidableEq α]

def putEnum (a : α) : Bytes :=
  writeString (ascii (CppEnum.toString a))

def putRaw (a : Raw α) : Bytes :=
  writeString (ascii a.toString)

end Enum

def putOption {α : Type} (put : α → Bytes) : Option α → Bytes
  | none   => putBool false
  | some a => putBool true ++ put a

def putList {α : Type} (put : α → Bytes) (l : List α) : Bytes :=
  writeU64 (.ofNat l.length) ++ (l.map put).flatten

def bounded (n : ℕ) : ℕ :=
  if n > kMaxPersistCount.toNat then kMaxPersistCount.toNat else n

-- The count is bounded, but all entries are written, in the order of their keys.
def putTable {t : Tag} {α : Type} (put : α → Bytes) (table : Table (Id t) α) : Bytes :=
  writeU64 (.ofNat (bounded table.size)) ++ (table.toList.map fun e => put e.snd).flatten

def putShape (s : DataShape) : Bytes :=
  [putRaw s.dataType, putRaw s.layout, writeU64 s.elementCount, writeU64 s.alignment].flatten

def putSnapshot (s : AuthoritySnapshot) : Bytes := [
  putGen s.epoch,
  putId s.workerBoot,
  putId s.target,
  putGen s.targetGeneration,
  putGen s.memoryDomainGeneration,
  putGen s.datasetGeneration,
  putGen s.regionGeneration,
  putGen s.operationGeneration,
  putOption putGen s.programGeneration,
  putGen s.capabilityGeneration,
  putGen s.policyGeneration,
  putGen s.evidenceGeneration,
  putGen s.planGeneration].flatten

def putMemoryDomain (v : MemoryDomainDescriptor) : Bytes :=
  [putId v.id, putGen v.generation, writeString v.name, putBool v.durable].flatten

def putDataset (v : DatasetDescriptor) : Bytes := [
  putId v.id,
  putGen v.generation,
  writeString v.name,
  writeString v.producer,
  putBool v.durable].flatten

def putRegion (v : DataRegionDescriptor) : Bytes := [
  putId v.id,
  putGen v.generation,
  putId v.dataset,
  putGen v.datasetGeneration,
  putId v.memoryDomain,
  writeU64 v.window.offset,
  writeU64 v.window.length,
  putShape v.shape,
  putRaw v.integrity,
  putBool v.durable].flatten

def putProgram (v : Program) : Bytes := [
  putId v.id,
  putGen v.generation,
  writeString v.name,
  putRaw v.opClass,
  putRaw v.targetKind,
  writeString v.digest,
  putList putRaw v.dataTypes,
  putList putRaw v.layouts,
  writeU64 v.workspaceBytes,
  putRaw v.lifecycle,
  putBool v.predefined,
  putBool v.validated].flatten

def putPolicy (v : Policy) : Bytes := [
  putId v.id,
  putGen v.generation,
  writeString v.name,
  putRaw v.outcome,
  putList putRaw v.permittedFallbacks,
  writeF64 v.requiredConfidence,
  writeF64 v.nearMemoryBias,
  putBool v.rejectOnStale,
  writeU64 v.maxNearMemoryInputBytes,
  putBool v.requireVerification].flatten

-- A program without a generation makes `std::optional::value` throw, so there is no result.
def putProgramOf (v : OperationSpec) : Option Bytes :=
  match v.program with
  | none         => some []
  | some program => v.programGeneration.map fun g => putId program ++ putGen g

-- The program comes right after its flag, before the description.
def putOperation (v : OperationSpec) : Option Bytes := do
  let program ← putProgramOf v
  return [
    putId v.id,
    putGen v.generation,
    putRaw v.opClass,
    putId v.dataset,
    putGen v.datasetGeneration,
    putId v.region,
    putGen v.regionGeneration,
    putShape v.shape,
    writeU64 v.inputBytes,
    writeU64 v.outputBytes,
    writeU64 v.workspaceBytes,
    putRaw v.outputDataType,
    putBool v.determinismRequired,
    writeU64 v.maxToleratedLatencyNs,
    writeU64 v.requiredThroughputBps,
    putRaw v.integrity,
    putRaw v.retryClass,
    putId v.policy,
    putGen v.policyGeneration,
    putBool v.program.isSome,
    program,
    writeString v.description].flatten

def putTarget (v : TargetDefinition) : Bytes := [
  putId v.id,
  putGen v.generation,
  putRaw v.provider,
  putRaw v.kind,
  writeString v.name,
  writeString v.description,
  putId v.failureDomain,
  putList putId v.memoryDomains,
  putList putRaw v.supportedOps,
  putList putRaw v.supportedDataTypes,
  putList putRaw v.supportedLayouts,
  writeU64 v.maxInputBytes,
  writeU64 v.alignmentConstraint,
  writeU32 v.concurrencyCapacity,
  writeU64 v.queueDepth,
  writeU64 v.workspaceBytes,
  putRaw v.accessSemantics,
  putBool v.requiresStaging,
  putBool v.synthetic,
  putBool v.supportsVerification,
  putBool v.supportsCancellation,
  putBool v.supportsDrain,
  writeString v.authorityOwner].flatten

-- Of the authority of a plan only the snapshot is written.
def putPlan (v : ExecutionPlan) : Bytes := [
  putId v.id,
  putGen v.generation,
  putSnapshot v.authority.snapshot,
  putId v.target,
  putGen v.targetGeneration,
  putId v.operation,
  putRaw v.opClass,
  putId v.dataset,
  putGen v.datasetGeneration,
  putId v.region,
  putGen v.regionGeneration,
  putEnum v.lifecycle,
  writeU64 v.reservedSlots,
  writeU64 v.reservedWorkspace,
  putOption putId v.dispatchId,
  putOption putId v.attemptId,
  putRaw v.retryClass,
  putEnum v.decision,
  putList writeString v.notes].flatten

def putResult (v : ExecutionResult) : Bytes := [
  putId v.id,
  putGen v.generation,
  putId v.plan,
  putGen v.planGeneration,
  putId v.dispatch,
  putId v.attempt,
  putId v.target,
  putGen v.targetGeneration,
  putId v.workerBoot,
  putGen v.epoch,
  putGen v.datasetGeneration,
  putGen v.regionGeneration,
  putGen v.operationGeneration,
  putEnum v.verification,
  writeString v.outputDigest,
  writeU64 v.outputBytes,
  putBool v.committed,
  putBool v.ambiguous,
  writeString v.note].flatten

end Writer

open Writer in
-- Without a result, an exception has been thrown.
def encodeState (st : RuntimeState) : Option Bytes := do
  let operations ← st.operations.toList.mapM fun e => putOperation e.snd
  return [
    putId st.coordinatorId,
    putGen st.epoch,
    putTable putMemoryDomain st.memoryDomains,
    putTable putDataset st.datasets,
    putTable putRegion st.regions,
    putTable putProgram st.programs,
    putTable putPolicy st.policies,
    writeU64 (.ofNat (bounded st.operations.size)) ++ operations.flatten,
    putTable putTarget st.targets,
    putTable putPlan st.plans,
    putTable putResult st.results].flatten

-- What becomes of a file that is written: a temporary file is created, written and moved to its
-- place.
inductive Disk
  | cannotCreate
  | cannotWrite
  | cannotReplace
  | replaced

namespace PersistentStore

open Writer in
def buildEnvelope (payload : Bytes) : Result Bytes :=
  if payload.length > kMaxPayload then
    makeError "E_PERSIST_OVERSIZE" "serialized payload exceeds maximum size"
  else
    let len := .ofNat payload.length
    .ok [
      writeU32 kMagic,
      writeU16 kFormatVersion,
      writeU64 len,
      payload,
      writeU32 (computePayloadCrc kMagic kFormatVersion len payload)].flatten

-- On success, the bytes that the file contains afterwards.
def save (disk : Disk) (payload : Bytes) : Result Bytes := do
  let bytes ← buildEnvelope payload
  match disk with
  | .cannotCreate  => makeError "E_PERSIST_WRITE" "cannot create temp persistence file"
  | .cannotWrite   => makeError "E_PERSIST_WRITE" "failure writing temp persistence file"
  | .cannotReplace => makeError "E_PERSIST_REPLACE" "atomic replace failed"
  | .replaced      => return bytes

end PersistentStore

def Coordinator.save (disk : Disk) (st : RuntimeState) : Option (Result Bytes) := do
  let payload ← encodeState st
  return PersistentStore.save disk payload

end NMC
