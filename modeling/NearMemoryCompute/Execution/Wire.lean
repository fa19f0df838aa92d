import NearMemoryCompute.Execution.Persistence
import NearMemoryCompute.Objects.Protocol

namespace NMC

namespace Raw

variable {α : Type} [CppEnum α]

-- The casts between an `enum class` and the 16 bits by which it is sent. No check is made on the
-- way back, so any number is a value.
def toCode [DecidableEq α] : Raw α → UInt16
  | member a     => .ofNat (CppEnum.members.findIdx fun m : α × String => m.fst = a)
  | other code _ => code.toUInt16

def ofCode (code : UInt16) : Raw α :=
  if h : code.toNat < CppEnum.count α then member (CppEnum.members.get ⟨code.toNat, h⟩).fst
  else other code.toUInt32 (by simpa using h)

end Raw

namespace Writer

variable {α : Type} [CppEnum α] [DecidableEq α]

def putCode (a : Raw α) : Bytes :=
  writeU16 a.toCode

def writeBlob (blob : Bytes) : Bytes :=
  writeString blob

def encodeHello (m : HelloMsg) : Bytes :=
  [putId m.worker, putId m.workerBoot, writeString m.name].flatten

def encodeRegisterTarget (m : RegisterTargetMsg) : Bytes := [
  putId m.target,
  putGen m.generation,
  putCode m.provider,
  putCode m.kind,
  putBool m.synthetic,
  writeString m.name,
  putList putCode m.ops,
  putList putCode m.dataTypes,
  putList putCode m.layouts,
  writeU64 m.maxInputBytes,
  writeU64 m.alignment,
  writeU32 m.concurrency,
  writeU64 m.workspace,
  putId m.ownerBoot].flatten

def encodeCapability (m : CapabilityMsg) : Bytes := [
  putId m.target,
  putGen m.generation,
  putList (fun e : CapabilityEntryWire => writeString e.key ++ putCode e.state) m.entries,
  putGen m.evidenceGeneration,
  putId m.publisher].flatten

def encodeDataEvidence (m : DataEvidenceMsg) : Bytes := [
  putId m.region,
  putGen m.regionGeneration,
  putId m.dataset,
  putGen m.datasetGeneration,
  putId m.memoryDomain,
  putGen m.memoryDomainGeneration,
  putBool m.present,
  putBool m.current,
  putBool m.reachable,
  putId m.publisher].flatten

def encodeHeartbeat (m : HeartbeatMsg) : Bytes := [
  putId m.target,
  putCode m.lifecycle,
  putBool m.reachable,
  writeU64 m.queueDepth,
  writeU64 m.latencyNs,
  writeU64 m.throughputBps,
  writeF64 m.confidence].flatten

def encodeDispatch (m : DispatchMsg) : Bytes := [
  putId m.plan,
  putGen m.planGen,
  putId m.dispatch,
  putId m.attempt,
  putId m.target,
  putGen m.targetGen,
  putId m.workerBoot,
  putGen m.epoch,
  putGen m.datasetGen,
  putGen m.regionGen,
  putGen m.operationGen,
  putBool m.hasProgram,
  if m.hasProgram then putGen m.programGen else [],
  putCode m.opClass,
  putCode m.dataType,
  putCode m.retryClass,
  putBool m.idempotent,
  putBool m.requireVerification,
  writeBlob m.payload].flatten

def encodeDispatchAck (m : DispatchAckMsg) : Bytes :=
  [putId m.dispatch, putBool m.accepted, writeString m.note].flatten

def encodeResult (m : ResultMsg) : Bytes := [
  putId m.plan,
  putGen m.planGen,
  putId m.dispatch,
  putId m.attempt,
  putId m.target,
  putGen m.targetGen,
  putId m.workerBoot,
  putGen m.epoch,
  putGen m.datasetGen,
  putGen m.regionGen,
  putGen m.operationGen,
  putGen m.resultGen,
  writeBlob m.output,
  writeString m.outputDigest,
  putBool m.unknown,
  writeString m.note].flatten

def encodeCommitAck (m : CommitAckMsg) : Bytes :=
  [putId m.plan, putId m.dispatch, putBool m.committed, writeString m.note].flatten

def encodeError (m : ErrorMsg) : Bytes :=
  [writeString m.code, writeString m.message].flatten

def encodeShutdown (m : ShutdownMsg) : Bytes :=
  writeString m.reason

def encodeRevalidate (m : RevalidateMsg) : Bytes :=
  putId m.target

-- A program without a generation is sent with the first one.
def encodeOperationFields (op : OperationSpec) : Bytes := [
  putId op.id,
  putGen op.generation,
  putCode op.opClass,
  putId op.dataset,
  putGen op.datasetGeneration,
  putId op.region,
  putGen op.regionGeneration,
  writeU64 op.shape.elementCount,
  putCode op.shape.dataType,
  putCode op.shape.layout,
  writeU64 op.shape.alignment,
  writeU64 op.inputBytes,
  writeU64 op.outputBytes,
  writeU64 op.workspaceBytes,
  putCode op.outputDataType,
  putBool op.determinismRequired,
  writeU64 op.maxToleratedLatencyNs,
  writeU64 op.requiredThroughputBps,
  putCode op.integrity,
  putCode op.retryClass,
  putId op.policy,
  putGen op.policyGeneration,
  putOption (fun id => putId id ++ putGen (op.programGeneration.getD { value := 1 })) op.program,
  writeString op.description].flatten

def encodeClientRegisterOp (m : ClientRegisterOperationMsg) : Bytes :=
  encodeOperationFields m.op

def encodeClientPlan (m : ClientPlanMsg) : Bytes :=
  putId m.op

def encodeClientDispatch (m : ClientDispatchMsg) : Bytes :=
  putId m.plan

def encodeClientGetResult (m : ClientGetResultMsg) : Bytes :=
  putId m.plan

def encodeClientReply (m : ClientReplyMsg) : Bytes := [
  putBool m.ok,
  putId m.plan,
  putCode m.decision,
  putBool m.created,
  putBool m.committed,
  putBool m.ambiguous,
  putCode m.verification,
  writeU64 m.outputBytes,
  writeString m.outputDigest,
  writeString m.note].flatten

end Writer

namespace Reader

def getCode {α : Type} [CppEnum α] : Reader (Raw α) := do
  return .ofCode (← readU16)

def readBlob : Reader Bytes :=
  readString

def decodeHello : Reader HelloMsg := do
  let worker ← getId
  let workerBoot ← getId
  let name ← readString
  return { worker, workerBoot, name }

def decodeRegisterTarget : Reader RegisterTargetMsg := do
  let target ← getId
  let generation ← getGen
  let provider ← getCode
  let kind ← getCode
  let synthetic ← getBool
  let name ← readString
  let ops ← getList getCode
  let dataTypes ← getList getCode
  let layouts ← getList getCode
  let maxInputBytes ← readU64
  let alignment ← readU64
  let concurrency ← readU32
  let workspace ← readU64
  let ownerBoot ← getId
  return {
    target, generation, provider, kind, synthetic, name, ops, dataTypes, layouts, maxInputBytes,
    alignment, concurrency, workspace, ownerBoot }

-- As in a shorter list, the entries beyond the bound are not skipped.
def getEntries : Reader (List CapabilityEntryWire) := do
  let n ← readU64
  repeatedly (do return { key := ← readString, state := ← getCode }) (min n.toNat 1024)

def decodeCapability : Reader CapabilityMsg := do
  let target ← getId
  let generation ← getGen
  let entries ← getEntries
  let evidenceGeneration ← getGen
  let publisher ← getId
  return { target, generation, entries, evidenceGeneration, publisher }

def decodeDataEvidence : Reader DataEvidenceMsg := do
  let region ← getId
  let regionGeneration ← getGen
  let dataset ← getId
  let datasetGeneration ← getGen
  let memoryDomain ← getId
  let memoryDomainGeneration ← getGen
  let present ← getBool
  let current ← getBool
  let reachable ← getBool
  let publisher ← getId
  return {
    region, regionGeneration, dataset, datasetGeneration, memoryDomain, memoryDomainGeneration,
    present, current, reachable, publisher }

def decodeHeartbeat : Reader HeartbeatMsg := do
  let target ← getId
  let lifecycle ← getCode
  let reachable ← getBool
  let queueDepth ← readU64
  let latencyNs ← readU64
  let throughputBps ← readU64
  let confidence ← readF64
  return { target, lifecycle, reachable, queueDepth, latencyNs, throughputBps, confidence }

def decodeDispatch : Reader DispatchMsg := do
  let plan ← getId
  let planGen ← getGen
  let dispatch ← getId
  let attempt ← getId
  let target ← getId
  let targetGen ← getGen
  let workerBoot ← getId
  let epoch ← getGen
  let datasetGen ← getGen
  let regionGen ← getGen
  let operationGen ← getGen
  let hasProgram ← getBool
  let programGen ← (if hasProgram then getGen else pure {})
  let opClass ← getCode
  let dataType ← getCode
  let retryClass ← getCode
  let idempotent ← getBool
  let requireVerification ← getBool
  let payload ← readBlob
  return {
    plan, planGen, dispatch, attempt, target, targetGen, workerBoot, epoch, datasetGen, regionGen,
    operationGen, hasProgram, programGen, opClass, dataType, retryClass, idempotent,
    requireVerification, payload }

def decodeDispatchAck : Reader DispatchAckMsg := do
  let dispatch ← getId
  let accepted ← getBool
  let note ← readString
  return { dispatch, accepted, note }

def decodeResult : Reader ResultMsg := do
  let plan ← getId
  let planGen ← getGen
  let dispatch ← getId
  let attempt ← getId
  let target ← getId
  let targetGen ← getGen
  let workerBoot ← getId
  let epoch ← getGen
  let datasetGen ← getGen
  let regionGen ← getGen
  let operationGen ← getGen
  let resultGen ← getGen
  let output ← readBlob
  let outputDigest ← readString
  let unknown ← getBool
  let note ← readString
  return {
    plan, planGen, dispatch, attempt, target, targetGen, workerBoot, epoch, datasetGen, regionGen,
    operationGen, resultGen, output, outputDigest, unknown, note }

def decodeCommitAck : Reader CommitAckMsg := do
  let plan ← getId
  let dispatch ← getId
  let committed ← getBool
  let note ← readString
  return { plan, dispatch, committed, note }

def decodeError : Reader ErrorMsg := do
  let code ← readString
  let message ← readString
  return { code, message }

def decodeShutdown : Reader ShutdownMsg := do
  return { reason := ← readString }

def decodeRevalidate : Reader RevalidateMsg := do
  return { target := ← getId }

def decodeOperationFields : Reader OperationSpec := do
  let id ← getId
  let generation ← getGen
  let opClass ← getCode
  let dataset ← getId
  let datasetGeneration ← getGen
  let region ← getId
  let regionGeneration ← getGen
  let elementCount ← readU64
  let dataType ← getCode
  let layout ← getCode
  let alignment ← readU64
  let inputBytes ← readU64
  let outputBytes ← readU64
  let workspaceBytes ← readU64
  let outputDataType ← getCode
  let determinismRequired ← getBool
  let maxToleratedLatencyNs ← readU64
  let requiredThroughputBps ← readU64
  let integrity ← getCode
  let retryClass ← getCode
  let policy ← getId
  let policyGeneration ← getGen
  let program ← getOption do return (← getId, ← getGen)
  let description ← readString
  return {
    id, generation, opClass, dataset, datasetGeneration, region, regionGeneration,
    shape := { elementCount, dataType, layout, alignment },
    inputBytes, outputBytes, workspaceBytes, outputDataType, determinismRequired,
    maxToleratedLatencyNs, requiredThroughputBps, integrity, retryClass, policy, policyGeneration,
    program := program.map Prod.fst, programGeneration := program.map Prod.snd, description }

def decodeClientRegisterOp : Reader ClientRegisterOperationMsg := do
  return { op := ← decodeOperationFields }

def decodeClientPlan : Reader ClientPlanMsg := do
  return { op := ← getId }

def decodeClientDispatch : Reader ClientDispatchMsg := do
  return { plan := ← getId }

def decodeClientGetResult : Reader ClientGetResultMsg := do
  return { plan := ← getId }

def decodeClientReply : Reader ClientReplyMsg := do
  let ok ← getBool
  let plan ← getId
  let decision ← getCode
  let created ← getBool
  let committed ← getBool
  let ambiguous ← getBool
  let verification ← getCode
  let outputBytes ← readU64
  let outputDigest ← readString
  let note ← readString
  return {
    ok, plan, decision, created, committed, ambiguous, verification, outputBytes, outputDigest,
    note }

end Reader
end NMC
