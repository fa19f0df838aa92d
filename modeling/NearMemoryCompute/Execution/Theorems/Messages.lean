import NearMemoryCompute.Execution.Wire
import NearMemoryCompute.Execution.Theorems.Codec

namespace NMC

open Parser Reader Writer

-- The enumerators can be told from the 16 bits by which they are sent.
class WireEnum (α : Type) [CppEnum α] : Prop extends LawfulCppEnum α where
  small : CppEnum.count α ≤ UInt16.size

instance : WireEnum ProviderKind where
  small := by decide

instance : WireEnum TargetKind where
  small := by decide

instance : WireEnum OperationClass where
  small := by decide

instance : WireEnum DataType where
  small := by decide

instance : WireEnum Layout where
  small := by decide

instance : WireEnum CapabilityState where
  small := by decide

instance : WireEnum TargetLifecycle where
  small := by decide

instance : WireEnum RetryClass where
  small := by decide

instance : WireEnum IntegrityRequirement where
  small := by decide

instance : WireEnum Decision where
  small := by decide

instance : WireEnum VerifyState where
  small := by decide

section Codes

variable {α : Type} [CppEnum α] [DecidableEq α] [WireEnum α] {a : Raw α} {l : List (Raw α)}

theorem Raw.ofCode_toCode (h : a.canonical) : ofCode a.toCode = a := by
  cases a
  case other    => contradiction
  case member a =>
    obtain ⟨m, hm, he⟩ := List.mem_map.mp (LawfulCppEnum.total a)
    have hi : (CppEnum.members.findIdx fun m : α × String => m.fst = a) < CppEnum.members.length :=
      List.findIdx_lt_length_of_exists ⟨m, hm, by simpa using he⟩
    have hc : (toCode (member a)).toNat =
        CppEnum.members.findIdx fun m : α × String => m.fst = a :=
      UInt16.toNat_ofNat_of_lt' (hi.trans_le WireEnum.small)
    have hf := List.findIdx_getElem (w := hi)
    rw [ofCode, dif_pos (hc ▸ hi)]
    simpa [hc] using hf

namespace Reader

theorem getCode_reads (h : a.canonical) : Reads getCode (putCode a) a := by
  have hr : Reads getCode (putCode a) (Raw.ofCode (α := α) a.toCode) :=
    (readU16_reads a.toCode).map
  rwa [Raw.ofCode_toCode h] at hr

theorem getCodes_reads (h : Short (Raw.canonical ·) l) :
    Reads (getList getCode) (putList putCode l) l :=
  getList_reads (fun _ => getCode_reads) h

theorem readBlob_reads {blob : Bytes} (h : Fits blob) : Reads readBlob (writeBlob blob) blob :=
  readString_reads h

end Reader
end Codes

-- The messages that their encodings tell apart from all others. A double is just its bits.
def HelloMsg.Normal (m : HelloMsg) : Prop :=
  Fits m.name

structure RegisterTargetMsg.Normal (m : RegisterTargetMsg) : Prop where
  provider  : m.provider.canonical
  kind      : m.kind.canonical
  name      : Fits m.name
  ops       : Short (Raw.canonical ·) m.ops
  dataTypes : Short (Raw.canonical ·) m.dataTypes
  layouts   : Short (Raw.canonical ·) m.layouts

structure CapabilityEntryWire.Normal (e : CapabilityEntryWire) : Prop where
  key   : Fits e.key
  state : e.state.canonical

structure CapabilityMsg.Normal (m : CapabilityMsg) : Prop where
  length  : m.entries.length ≤ 1024
  entries : ∀ e ∈ m.entries, e.Normal

def HeartbeatMsg.Normal (m : HeartbeatMsg) : Prop :=
  m.lifecycle.canonical

structure DispatchMsg.Normal (m : DispatchMsg) : Prop where
  opClass    : m.opClass.canonical
  dataType   : m.dataType.canonical
  retryClass : m.retryClass.canonical
  programGen : ¬m.hasProgram → m.programGen = {}
  payload    : Fits m.payload

def DispatchAckMsg.Normal (m : DispatchAckMsg) : Prop :=
  Fits m.note

structure ResultMsg.Normal (m : ResultMsg) : Prop where
  output       : Fits m.output
  outputDigest : Fits m.outputDigest
  note         : Fits m.note

def CommitAckMsg.Normal (m : CommitAckMsg) : Prop :=
  Fits m.note

structure ErrorMsg.Normal (m : ErrorMsg) : Prop where
  code    : Fits m.code
  message : Fits m.message

def ShutdownMsg.Normal (m : ShutdownMsg) : Prop :=
  Fits m.reason

structure OperationSpec.Normal (op : OperationSpec) : Prop where
  opClass        : op.opClass.canonical
  dataType       : op.shape.dataType.canonical
  layout         : op.shape.layout.canonical
  outputDataType : op.outputDataType.canonical
  integrity      : op.integrity.canonical
  retryClass     : op.retryClass.canonical
  program        : op.programGeneration.isSome ↔ op.program.isSome
  description    : Fits op.description

-- The program of an operation with the generation that is sent for it.
def OperationSpec.versionedProgram (op : OperationSpec) :
    Option (KernelOrProgramId × ProgramGeneration) :=
  op.program.map fun id => (id, op.programGeneration.getD { value := 1 })

theorem OperationSpec.map_fst_versionedProgram (op : OperationSpec) :
    op.versionedProgram.map Prod.fst = op.program := by
  simp [versionedProgram, Function.comp_def]

theorem OperationSpec.Normal.map_snd_versionedProgram {op : OperationSpec} (h : op.Normal) :
    op.versionedProgram.map Prod.snd = op.programGeneration := by
  have hp := h.program
  cases ho : op.program <;> cases hg : op.programGeneration <;>
    simp_all [versionedProgram]

structure ClientReplyMsg.Normal (m : ClientReplyMsg) : Prop where
  decision     : m.decision.canonical
  verification : m.verification.canonical
  outputDigest : Fits m.outputDigest
  note         : Fits m.note

namespace Reader

theorem decodeHello_reads {m : HelloMsg} (h : m.Normal) : Reads decodeHello (encodeHello m) m :=
  .cons (getId_reads _) <| .cons (getId_reads _) <| .cons (readString_reads h) .nil

theorem decodeRegisterTarget_reads {m : RegisterTargetMsg} (h : m.Normal) :
    Reads decodeRegisterTarget (encodeRegisterTarget m) m :=
  .cons (getId_reads _) <| .cons (getGen_reads _) <| .cons (getCode_reads h.provider) <|
  .cons (getCode_reads h.kind) <| .cons (getBool_reads _) <| .cons (readString_reads h.name) <|
  .cons (getCodes_reads h.ops) <| .cons (getCodes_reads h.dataTypes) <|
  .cons (getCodes_reads h.layouts) <| .cons (readU64_reads _) <| .cons (readU64_reads _) <|
  .cons (readU32_reads _) <| .cons (readU64_reads _) <| .cons (getId_reads _) .nil

def getEntry : Reader CapabilityEntryWire := do
  return { key := ← readString, state := ← getCode }

def putEntry (e : CapabilityEntryWire) : Bytes :=
  writeString e.key ++ putCode e.state

theorem getEntry_reads {e : CapabilityEntryWire} (h : e.Normal) :
    Reads getEntry (putEntry e) e :=
  .bind (readString_reads h.key) (getCode_reads h.state).map

theorem getEntries_reads {m : CapabilityMsg} (h : m.Normal) :
    Reads getEntries (putList putEntry m.entries) m.entries :=
  counted_reads (by decide) h.length fun e he => getEntry_reads (h.entries e he)

theorem decodeCapability_reads {m : CapabilityMsg} (h : m.Normal) :
    Reads decodeCapability (encodeCapability m) m :=
  .cons (getId_reads _) <| .cons (getGen_reads _) <| .cons (getEntries_reads h) <|
  .cons (getGen_reads _) <| .cons (getId_reads _) .nil

theorem decodeDataEvidence_reads (m : DataEvidenceMsg) :
    Reads decodeDataEvidence (encodeDataEvidence m) m :=
  .cons (getId_reads _) <| .cons (getGen_reads _) <| .cons (getId_reads _) <|
  .cons (getGen_reads _) <| .cons (getId_reads _) <| .cons (getGen_reads _) <|
  .cons (getBool_reads _) <| .cons (getBool_reads _) <| .cons (getBool_reads _) <|
  .cons (getId_reads _) .nil

theorem decodeHeartbeat_reads {m : HeartbeatMsg} (h : m.Normal) :
    Reads decodeHeartbeat (encodeHeartbeat m) m :=
  .cons (getId_reads _) <| .cons (getCode_reads h) <| .cons (getBool_reads _) <|
  .cons (readU64_reads _) <| .cons (readU64_reads _) <| .cons (readU64_reads _) <|
  .cons (readF64_reads _) .nil

-- A generation is sent only along with the flag.
theorem programGen_reads {m : DispatchMsg} (h : m.Normal) :
    Reads (if m.hasProgram then getGen else pure {})
      (if m.hasProgram then putGen m.programGen else []) m.programGen := by
  split
  case isTrue     => exact getGen_reads _
  case isFalse hn => exact h.programGen hn ▸ .nil

theorem decodeDispatch_reads {m : DispatchMsg} (h : m.Normal) :
    Reads decodeDispatch (encodeDispatch m) m :=
  .cons (getId_reads _) <| .cons (getGen_reads _) <| .cons (getId_reads _) <|
  .cons (getId_reads _) <| .cons (getId_reads _) <| .cons (getGen_reads _) <|
  .cons (getId_reads _) <| .cons (getGen_reads _) <| .cons (getGen_reads _) <|
  .cons (getGen_reads _) <| .cons (getGen_reads _) <| .cons (getBool_reads _) <|
  .cons (programGen_reads h) <| .cons (getCode_reads h.opClass) <|
  .cons (getCode_reads h.dataType) <| .cons (getCode_reads h.retryClass) <|
  .cons (getBool_reads _) <| .cons (getBool_reads _) <| .cons (readBlob_reads h.payload) .nil

theorem decodeDispatchAck_reads {m : DispatchAckMsg} (h : m.Normal) :
    Reads decodeDispatchAck (encodeDispatchAck m) m :=
  .cons (getId_reads _) <| .cons (getBool_reads _) <| .cons (readString_reads h) .nil

theorem decodeResult_reads {m : ResultMsg} (h : m.Normal) :
    Reads decodeResult (encodeResult m) m :=
  .cons (getId_reads _) <| .cons (getGen_reads _) <| .cons (getId_reads _) <|
  .cons (getId_reads _) <| .cons (getId_reads _) <| .cons (getGen_reads _) <|
  .cons (getId_reads _) <| .cons (getGen_reads _) <| .cons (getGen_reads _) <|
  .cons (getGen_reads _) <| .cons (getGen_reads _) <| .cons (getGen_reads _) <|
  .cons (readBlob_reads h.output) <| .cons (readString_reads h.outputDigest) <|
  .cons (getBool_reads _) <| .cons (readString_reads h.note) .nil

theorem decodeCommitAck_reads {m : CommitAckMsg} (h : m.Normal) :
    Reads decodeCommitAck (encodeCommitAck m) m :=
  .cons (getId_reads _) <| .cons (getId_reads _) <| .cons (getBool_reads _) <|
  .cons (readString_reads h) .nil

theorem decodeError_reads {m : ErrorMsg} (h : m.Normal) : Reads decodeError (encodeError m) m :=
  .cons (readString_reads h.code) <| .cons (readString_reads h.message) .nil

theorem decodeShutdown_reads {m : ShutdownMsg} (h : m.Normal) :
    Reads decodeShutdown (encodeShutdown m) m :=
  (readString_reads h).map

theorem decodeRevalidate_reads (m : RevalidateMsg) :
    Reads decodeRevalidate (encodeRevalidate m) m :=
  (getId_reads m.target).map

-- A program is read along with its generation.
theorem getProgram_reads (op : OperationSpec) :
    Reads (getOption do return (← getId, ← getGen))
      (putOption (fun id => putId id ++ putGen (op.programGeneration.getD { value := 1 }))
        op.program)
      op.versionedProgram := by
  unfold OperationSpec.versionedProgram
  cases op.program
  case none    => exact .first (getBool_reads false)
  case some id =>
    have hr : Reads (do return (← getId, ← getGen) : Reader (KernelOrProgramId × ProgramGeneration))
        (putId id ++ putGen (op.programGeneration.getD { value := 1 }))
        (id, op.programGeneration.getD { value := 1 }) :=
      .bind (getId_reads id) (getGen_reads _).map
    exact .bind (getBool_reads true) hr.map

theorem decodeOperationFields_reads {op : OperationSpec} (h : op.Normal) :
    Reads decodeOperationFields (encodeOperationFields op) op := by
  have hr : Reads decodeOperationFields (encodeOperationFields op) { op with
      program           := op.versionedProgram.map Prod.fst
      programGeneration := op.versionedProgram.map Prod.snd } :=
    .cons (getId_reads _) <| .cons (getGen_reads _) <| .cons (getCode_reads h.opClass) <|
    .cons (getId_reads _) <| .cons (getGen_reads _) <| .cons (getId_reads _) <|
    .cons (getGen_reads _) <| .cons (readU64_reads _) <| .cons (getCode_reads h.dataType) <|
    .cons (getCode_reads h.layout) <| .cons (readU64_reads _) <| .cons (readU64_reads _) <|
    .cons (readU64_reads _) <| .cons (readU64_reads _) <|
    .cons (getCode_reads h.outputDataType) <| .cons (getBool_reads _) <|
    .cons (readU64_reads _) <| .cons (readU64_reads _) <| .cons (getCode_reads h.integrity) <|
    .cons (getCode_reads h.retryClass) <| .cons (getId_reads _) <| .cons (getGen_reads _) <|
    .cons (getProgram_reads op) <| .cons (readString_reads h.description) .nil
  rwa [op.map_fst_versionedProgram, h.map_snd_versionedProgram] at hr

theorem decodeClientRegisterOp_reads {m : ClientRegisterOperationMsg} (h : m.op.Normal) :
    Reads decodeClientRegisterOp (encodeClientRegisterOp m) m :=
  (decodeOperationFields_reads h).map

theorem decodeClientPlan_reads (m : ClientPlanMsg) :
    Reads decodeClientPlan (encodeClientPlan m) m :=
  (getId_reads m.op).map

theorem decodeClientDispatch_reads (m : ClientDispatchMsg) :
    Reads decodeClientDispatch (encodeClientDispatch m) m :=
  (getId_reads m.plan).map

theorem decodeClientGetResult_reads (m : ClientGetResultMsg) :
    Reads decodeClientGetResult (encodeClientGetResult m) m :=
  (getId_reads m.plan).map

theorem decodeClientReply_reads {m : ClientReplyMsg} (h : m.Normal) :
    Reads decodeClientReply (encodeClientReply m) m :=
  .cons (getBool_reads _) <| .cons (getId_reads _) <| .cons (getCode_reads h.decision) <|
  .cons (getBool_reads _) <| .cons (getBool_reads _) <| .cons (getBool_reads _) <|
  .cons (getCode_reads h.verification) <| .cons (readU64_reads _) <|
  .cons (readString_reads h.outputDigest) <| .cons (readString_reads h.note) .nil

end Reader

-- A message of any type. A ping and a pong have no payload.
inductive Message
  | hello (m : HelloMsg)
  | registerTarget (m : RegisterTargetMsg)
  | capability (m : CapabilityMsg)
  | dataEvidence (m : DataEvidenceMsg)
  | heartbeat (m : HeartbeatMsg)
  | dispatch (m : DispatchMsg)
  | dispatchAck (m : DispatchAckMsg)
  | result (m : ResultMsg)
  | commitAck (m : CommitAckMsg)
  | error (m : ErrorMsg)
  | shutdown (m : ShutdownMsg)
  | revalidate (m : RevalidateMsg)
  | clientRegisterOperation (m : ClientRegisterOperationMsg)
  | clientPlan (m : ClientPlanMsg)
  | clientDispatch (m : ClientDispatchMsg)
  | clientGetResult (m : ClientGetResultMsg)
  | clientReply (m : ClientReplyMsg)

namespace Message

def type : Message → FrameType
  | hello _                   => .hello
  | registerTarget _          => .registerTarget
  | capability _              => .capability
  | dataEvidence _            => .dataEvidence
  | heartbeat _               => .heartbeat
  | dispatch _                => .dispatch
  | dispatchAck _             => .dispatchAck
  | result _                  => .result
  | commitAck _               => .commitAck
  | error _                   => .error
  | shutdown _                => .shutdown
  | revalidate _              => .revalidate
  | clientRegisterOperation _ => .clientRegisterOperation
  | clientPlan _              => .clientPlan
  | clientDispatch _          => .clientDispatch
  | clientGetResult _         => .clientGetResult
  | clientReply _             => .clientReply

def Normal : Message → Prop
  | hello m                   => m.Normal
  | registerTarget m          => m.Normal
  | capability m              => m.Normal
  | dataEvidence _            => True
  | heartbeat m               => m.Normal
  | dispatch m                => m.Normal
  | dispatchAck m             => m.Normal
  | result m                  => m.Normal
  | commitAck m               => m.Normal
  | error m                   => m.Normal
  | shutdown m                => m.Normal
  | revalidate _              => True
  | clientRegisterOperation m => m.op.Normal
  | clientPlan _              => True
  | clientDispatch _          => True
  | clientGetResult _         => True
  | clientReply m             => m.Normal

def encode : Message → Bytes
  | hello m                   => encodeHello m
  | registerTarget m          => encodeRegisterTarget m
  | capability m              => encodeCapability m
  | dataEvidence m            => encodeDataEvidence m
  | heartbeat m               => encodeHeartbeat m
  | dispatch m                => encodeDispatch m
  | dispatchAck m             => encodeDispatchAck m
  | result m                  => encodeResult m
  | commitAck m               => encodeCommitAck m
  | error m                   => encodeError m
  | shutdown m                => encodeShutdown m
  | revalidate m              => encodeRevalidate m
  | clientRegisterOperation m => encodeClientRegisterOp m
  | clientPlan m              => encodeClientPlan m
  | clientDispatch m          => encodeClientDispatch m
  | clientGetResult m         => encodeClientGetResult m
  | clientReply m             => encodeClientReply m

-- The decoder for the payload of a frame of the given type.
def decode : FrameType → Reader Message
  | .hello                   => return hello (← decodeHello)
  | .registerTarget          => return registerTarget (← decodeRegisterTarget)
  | .capability              => return capability (← decodeCapability)
  | .dataEvidence            => return dataEvidence (← decodeDataEvidence)
  | .heartbeat               => return heartbeat (← decodeHeartbeat)
  | .dispatch                => return dispatch (← decodeDispatch)
  | .dispatchAck             => return dispatchAck (← decodeDispatchAck)
  | .result                  => return result (← decodeResult)
  | .commitAck               => return commitAck (← decodeCommitAck)
  | .error                   => return error (← decodeError)
  | .shutdown                => return shutdown (← decodeShutdown)
  | .revalidate              => return revalidate (← decodeRevalidate)
  | .clientRegisterOperation => return clientRegisterOperation (← decodeClientRegisterOp)
  | .clientPlan              => return clientPlan (← decodeClientPlan)
  | .clientDispatch          => return clientDispatch (← decodeClientDispatch)
  | .clientGetResult         => return clientGetResult (← decodeClientGetResult)
  | .clientReply             => return clientReply (← decodeClientReply)
  | .ping | .pong            => failure

theorem decode_reads {m : Message} (h : m.Normal) : Reads (decode m.type) m.encode m := by
  cases m
  case hello                   => exact (decodeHello_reads h).map
  case registerTarget          => exact (decodeRegisterTarget_reads h).map
  case capability              => exact (decodeCapability_reads h).map
  case dataEvidence m          => exact (decodeDataEvidence_reads m).map
  case heartbeat               => exact (decodeHeartbeat_reads h).map
  case dispatch                => exact (decodeDispatch_reads h).map
  case dispatchAck             => exact (decodeDispatchAck_reads h).map
  case result                  => exact (decodeResult_reads h).map
  case commitAck               => exact (decodeCommitAck_reads h).map
  case error                   => exact (decodeError_reads h).map
  case shutdown                => exact (decodeShutdown_reads h).map
  case revalidate m            => exact (decodeRevalidate_reads m).map
  case clientRegisterOperation => exact (decodeClientRegisterOp_reads h).map
  case clientPlan m            => exact (decodeClientPlan_reads m).map
  case clientDispatch m        => exact (decodeClientDispatch_reads m).map
  case clientGetResult m       => exact (decodeClientGetResult_reads m).map
  case clientReply             => exact (decodeClientReply_reads h).map

-- Whatever follows a message, it is read back, and what follows is left.
theorem decode_encode {m : Message} (h : m.Normal) (rest : Bytes) :
    decode m.type (m.encode ++ rest) = some (m, rest) :=
  (decode_reads h).run rest

-- A dispatch of a versioned program, followed by a stray byte.
theorem decode_encode_dispatch :
    let m : DispatchMsg := {
      plan       := { value := 4 }
      hasProgram := true
      programGen := { value := 2 }
      dataType   := DataType.f64
      payload    := [1, 2, 3] }
    decode .dispatch (encodeDispatch m ++ [255]) = some (dispatch m, [255]) :=
  decode_encode (m := dispatch _) ⟨rfl, rfl, rfl, by decide, by decide⟩ [255]

end Message
end NMC
