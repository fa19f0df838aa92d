import NearMemoryCompute.Library.Stream
import NearMemoryCompute.Execution.Frame
import NearMemoryCompute.Execution.Theorems.Codec

namespace NMC

open Parser Reader Writer PersistentStore

theorem FrameType.ofCode_code (type : FrameType) : ofCode type.code = some type := by
  cases type <;> decide

theorem decodeHeader_reads (h : FrameHeader) : Reads decodeHeader (encodeHeader h) h :=
  .cons (readU32_reads _) <| .cons (readU16_reads _) <| .cons (readU16_reads _) <|
  .lift h.type.ofCode_code <| .cons (readU32_reads _) <| .cons (readU64_reads _) <|
  .cons (readU32_reads _) .nil

@[simp]
theorem length_encodeHeader (h : FrameHeader) : (encodeHeader h).length = kFrameHeaderBytes := by
  simp [encodeHeader, writeU16, writeU32, writeU64, kFrameHeaderBytes]

section Stream

variable {n : ℕ} {bytes rest : Bytes}

theorem recvAll_append (h : bytes.length = n) : recvAll n (bytes ++ rest) = (.ok bytes, rest) := by
  simp [recvAll, ← h]

theorem recvAll_short (h : bytes.length < n) : recvAll n bytes = (.error bytes, []) := by
  rw [recvAll, if_neg (by omega)]

-- Asking for no bytes is not asking at all.
theorem recvAll_payloadLen (header : FrameHeader) (stream : Bytes) :
    (if header.payloadLen > 0 then recvAll header.payloadLen.toNat stream else (.ok [], stream)) =
      recvAll header.payloadLen.toNat stream := by
  split
  case isTrue    => rfl
  case isFalse h =>
    have hz : header.payloadLen.toNat = 0 := by simpa [UInt32.lt_iff_toNat_lt] using h
    simp [recvAll, hz]

variable {header : FrameHeader}

theorem recvPayload_append {payload : Bytes} (hl : payload.length = header.payloadLen.toNat)
    (hc : header.digest payload = header.checksum) :
    recvPayload header (payload ++ rest) = ({ status := .ok, header, payload }, rest) := by
  simp only [recvPayload]
  rw [recvAll_payloadLen, recvAll_append hl]
  simp [hc]

theorem recvPayload_short (h : bytes.length < header.payloadLen.toNat) :
    ∃ r : FrameReceive, r.status = .truncated ∧ recvPayload header bytes = (r, []) := by
  simp only [recvPayload]
  rw [recvAll_payloadLen, recvAll_short h]
  exact ⟨_, rfl, rfl⟩

theorem recvFrame_short (h : bytes.length < kFrameHeaderBytes) :
    recvFrame bytes = ({ status := .disconnect }, []) := by
  rw [recvFrame, recvAll_short h]

end Stream

-- A frame that can be sent.
structure Frame where
  type        : FrameType
  correlation : UInt64
  payload     : Bytes
  fits        : payload.length ≤ kMaxFramePayload.toNat

namespace Frame

def send (f : Frame) : Result Bytes :=
  sendFrame f.type f.payload f.correlation

def bare (f : Frame) : FrameHeader where
  magic       := kProtocolMagic
  version     := kProtocolVersion
  type        := f.type
  payloadLen  := .ofNat f.payload.length
  correlation := f.correlation

def header (f : Frame) : FrameHeader :=
  { f.bare with checksum := f.bare.digest f.payload }

def wire (f : Frame) : Bytes :=
  encodeHeader f.header ++ f.payload

def received (f : Frame) : FrameReceive where
  status  := .ok
  header  := f.header
  payload := f.payload

theorem send_eq (f : Frame) : f.send = .ok f.wire := by
  rw [send, sendFrame, if_neg (Nat.not_lt.mpr f.fits)]
  rfl

theorem mapM_send (fs : List Frame) : fs.mapM send = .ok (fs.map wire) := by
  induction fs
  case nil => rfl
  case cons f fs hi =>
    rw [List.mapM_cons, f.send_eq, hi]
    rfl

theorem toNat_payloadLen (f : Frame) : f.header.payloadLen.toNat = f.payload.length := by
  apply UInt32.toNat_ofNat_of_lt'
  exact f.fits.trans_lt (by decide)

theorem recvFrame_header (f : Frame) (rest : Bytes) :
    recvFrame (encodeHeader f.header ++ rest) = recvPayload f.header rest := by
  have hd : decodeHeader (encodeHeader f.header) = some (f.header, []) := by
    simpa using (decodeHeader_reads f.header).run []
  have hl : ¬f.header.payloadLen > kMaxFramePayload := by
    rw [gt_iff_lt, UInt32.lt_iff_toNat_lt, f.toNat_payloadLen]
    exact Nat.not_lt.mpr f.fits
  rw [recvFrame, recvAll_append (length_encodeHeader _)]
  simp only [hd]
  rw [if_neg (by simp [header, bare]), if_neg hl]

theorem recvFrame_wire (f : Frame) (rest : Bytes) :
    recvFrame (f.wire ++ rest) = (f.received, rest) := by
  rw [wire, List.append_assoc, recvFrame_header]
  exact recvPayload_append f.toNat_payloadLen.symm rfl

-- A frame is cut in its header or in its payload.
theorem recvFrame_part {f : Frame} {part : Bytes} (hp : part <+: f.wire) (hn : part ≠ f.wire) :
    ∃ r : FrameReceive, (r.status = .disconnect ∨ r.status = .truncated) ∧
      recvFrame part = (r, []) := by
  by_cases hl : part.length < kFrameHeaderBytes
  case pos => exact ⟨_, .inl rfl, recvFrame_short hl⟩
  case neg =>
    have hh : encodeHeader f.header <+: part :=
      List.prefix_of_prefix_length_le (List.prefix_append _ _) hp (by simpa using hl)
    obtain ⟨got, rfl⟩ := hh
    have hg : got <+: f.payload := (List.prefix_append_right_inj _).mp hp
    have hs : got.length < f.header.payloadLen.toNat := by
      rw [f.toNat_payloadLen]
      refine lt_of_le_of_ne hg.length_le fun he => hn ?_
      rw [hg.eq_of_length he, wire]
    obtain ⟨r, ht, hr⟩ := recvPayload_short hs
    exact ⟨r, .inr ht, f.recvFrame_header got ▸ hr⟩

theorem recvFrame_delimits :
    Receiver.Delimits recvFrame wire received { status := .disconnect } fun r =>
      r.status = .disconnect ∨ r.status = .truncated where
  whole   := recvFrame_wire
  cut _ _ := recvFrame_part
  closed  := recvFrame_short (by decide)

end Frame

def recvFrames : ℕ → Bytes → List FrameReceive :=
  Receiver.calls recvFrame

-- The frames of a stream are received as they were sent, and then the end of the stream. If the
-- stream ends early, the frames that have come as a whole are received, and no other.
theorem recvFrames_sent (frames : List Frame) :
    frames.mapM Frame.send = .ok (frames.map Frame.wire) ∧
    (∀ n, recvFrames (frames.length + n) (frames.flatMap Frame.wire) =
      frames.map Frame.received ++ List.replicate n { status := .disconnect }) ∧
    ∀ part, part <+: frames.flatMap Frame.wire → part ≠ frames.flatMap Frame.wire →
      ∃ (whole : List Frame) (f : Frame) (rest : List Frame) (last : FrameReceive),
        frames = whole ++ f :: rest ∧
        whole.flatMap Frame.wire <+: part ∧ ¬(whole ++ [f]).flatMap Frame.wire <+: part ∧
        (last.status = .disconnect ∨ last.status = .truncated) ∧
        ∀ n, recvFrames (whole.length + (1 + n)) part =
          whole.map Frame.received ++ last :: List.replicate n { status := .disconnect } := by
  refine ⟨Frame.mapM_send frames, Frame.recvFrame_delimits.calls_flatMap frames, ?_⟩
  intro part hp hn
  exact Frame.recvFrame_delimits.calls_part hp hn

-- The last byte of the second frame has not come.
theorem recvFrames_sent_cut :
    let frames : List Frame := [⟨.ping, 1, [], by decide⟩, ⟨.hello, 2, [1, 2, 3], by decide⟩]
    let part := (frames.flatMap Frame.wire).dropLast
    ∃ (whole : List Frame) (f : Frame) (rest : List Frame) (last : FrameReceive),
      frames = whole ++ f :: rest ∧
      whole.flatMap Frame.wire <+: part ∧ ¬(whole ++ [f]).flatMap Frame.wire <+: part ∧
      (last.status = .disconnect ∨ last.status = .truncated) ∧
      ∀ n, recvFrames (whole.length + (1 + n)) part =
        whole.map Frame.received ++ last :: List.replicate n { status := .disconnect } :=
  (recvFrames_sent _).2.2 _ (List.dropLast_prefix _) (by decide +kernel)

end NMC
