import NearMemoryCompute.Execution.Theorems.Corruption
import NearMemoryCompute.Execution.Theorems.Frame

namespace NMC

open Parser Reader Writer PersistentStore

theorem FrameType.code_of_ofCode {code : UInt16} {type : FrameType}
    (h : ofCode code = some type) : type.code = code := by
  simpa using List.find?_some h

theorem decodeHeader_exact : Exact decodeHeader encodeHeader := by
  intro w h rest hw
  obtain ⟨_, _, h₁, hw⟩ := bind_some hw
  obtain ⟨_, _, h₂, hw⟩ := bind_some hw
  obtain ⟨_, _, h₃, hw⟩ := bind_some hw
  obtain ⟨_, _, h₄, hw⟩ := bind_some hw
  obtain ⟨_, _, h₅, hw⟩ := bind_some hw
  obtain ⟨_, _, h₆, hw⟩ := bind_some hw
  obtain ⟨_, _, h₇, hw⟩ := bind_some hw
  cases hw
  obtain ⟨hc, rfl⟩ := lift_some h₄
  rw [readU32_exact h₁, readU16_exact h₂, readU16_exact h₃, readU32_exact h₅, readU64_exact h₆,
    readU32_exact h₇, ← FrameType.code_of_ofCode hc]
  simp [encodeHeader]

namespace Frame

-- The bytes before the checksum.
def start (f : Frame) : Bytes := [
  writeU32 kProtocolMagic,
  writeU16 kProtocolVersion,
  writeU16 f.type.code,
  writeU32 f.header.payloadLen,
  writeU64 f.correlation].flatten

-- The bytes that the checksum is taken over.
def covered (f : Frame) : Bytes :=
  f.start ++ f.payload

variable {f f' : Frame} {j : ℕ}

theorem wire_eq (f : Frame) : f.wire = f.start ++ writeU32 f.header.checksum ++ f.payload := by
  simp [wire, encodeHeader, start, header, bare]

theorem checksum_eq (f : Frame) : f.header.checksum.toBitVec = residue f.covered := by
  simp only [residue, covered, start, List.flatten_cons, List.flatten_nil, List.append_nil,
    List.map_append, Crc.feeds_append]
  simp only [header, FrameHeader.digest, Crc32.digest, Crc32.update_eq]
  rfl

theorem getElem?_covered (f : Frame) (j : ℕ) :
    f.covered[j]? = f.wire[if j < 20 then j else j + 4]? := by
  have hs : f.start.length = 20 := rfl
  rw [wire_eq, covered]
  split_ifs with hj
  · rw [List.append_assoc, List.getElem?_append_left (hs ▸ hj), List.getElem?_append_left (hs ▸ hj)]
  · rw [List.getElem?_append_right (hs ▸ Nat.not_lt.mp hj), List.getElem?_append_right]
    · simp [hs, writeU32]
    · simp [hs, writeU32]
      omega

-- A frame is its checksum and what the checksum is taken over.
theorem wire_eq_of_covered (hc : f'.covered = f.covered) : f'.wire = f.wire := by
  have hs : f'.header.checksum = f.header.checksum := by
    apply UInt32.toBitVec_inj.mp
    rw [checksum_eq, checksum_eq, hc]
  obtain ⟨hst, hp⟩ := List.append_inj hc rfl
  rw [wire_eq, wire_eq, hst, hp, hs]

theorem writeU32_injective : Function.Injective writeU32 := by
  intro v v' h
  have hv := (readU32_reads v).run []
  rw [h, (readU32_reads v').run []] at hv
  cases hv
  rfl

theorem checksum_eq_of_agree (h : ∀ j, 20 ≤ j → j < 24 → f'.wire[j]? = f.wire[j]?) :
    f'.header.checksum = f.header.checksum := by
  have field (f : Frame) : (f.wire.drop 20).take 4 = writeU32 f.header.checksum := rfl
  apply writeU32_injective
  rw [← field, ← field]
  exact List.take_drop_congr h

theorem length_payload_eq_of_agree (h : ∀ j, 8 ≤ j → j < 12 → f'.wire[j]? = f.wire[j]?) :
    f'.payload.length = f.payload.length := by
  have field (f : Frame) : (f.wire.drop 8).take 4 = writeU32 f.header.payloadLen := rfl
  rw [← toNat_payloadLen, ← toNat_payloadLen]
  apply congrArg UInt32.toNat (writeU32_injective _)
  rw [← field, ← field]
  exact List.take_drop_congr h

end Frame

theorem recvPayload_ok {header : FrameHeader} {stream : Bytes}
    (h : (recvPayload header stream).fst.status = .ok) :
    ∃ payload rest, stream = payload ++ rest ∧ payload.length = header.payloadLen.toNat ∧
      header.digest payload = header.checksum := by
  by_cases hl : stream.length < header.payloadLen.toNat
  case pos =>
    obtain ⟨r, hr, he⟩ := recvPayload_short hl
    rw [he, hr] at h
    contradiction
  case neg =>
    obtain ⟨payload, rest, rfl, hlen⟩ := List.exists_append_of_le_length (Nat.not_lt.mp hl)
    refine ⟨payload, rest, rfl, hlen, ?_⟩
    simp only [recvPayload] at h
    rw [recvAll_payloadLen, recvAll_append hlen] at h
    by_contra hc
    simp [hc] at h

-- A header that passes all checks is the header of a frame.
theorem Frame.exists_header_eq {header : FrameHeader} {payload : Bytes}
    (hm : header.magic = kProtocolMagic) (hv : header.version = kProtocolVersion)
    (hp : header.payloadLen ≤ kMaxFramePayload) (hn : payload.length = header.payloadLen.toNat)
    (hc : header.digest payload = header.checksum) :
    ∃ f : Frame, f.header = header ∧ f.payload = payload := by
  have hl : header.payloadLen = .ofNat payload.length := by
    rw [hn, UInt32.ofNat_toNat]
  refine ⟨⟨header.type, header.correlation, payload, ?_⟩, ?_, rfl⟩
  · rw [hn]
    exact UInt32.le_iff_toNat_le.mp hp
  · cases header
    cases hm
    cases hv
    cases hl
    exact congrArg (FrameHeader.mk kProtocolMagic kProtocolVersion _ _ _) hc

-- Whatever is accepted has been sent.
theorem recvFrame_ok {stream : Bytes} (h : (recvFrame stream).fst.status = .ok) :
    ∃ (f : Frame) (rest : Bytes), stream = f.wire ++ rest := by
  by_cases hl : stream.length < kFrameHeaderBytes
  case pos =>
    rw [recvFrame_short hl] at h
    contradiction
  case neg =>
    obtain ⟨hdr, stream, rfl, hlen⟩ := List.exists_append_of_le_length (Nat.not_lt.mp hl)
    rw [recvFrame, recvAll_append hlen] at h
    cases hd : decodeHeader hdr
    case none => simp [hd] at h
    case some r =>
      obtain ⟨header, left⟩ := r
      simp only [hd] at h
      split_ifs at h with hm hp
      have hdr := decodeHeader_exact hd
      rw [hdr, List.length_append, length_encodeHeader, Nat.add_eq_left,
        List.length_eq_zero_iff] at hlen
      obtain ⟨payload, rest, rfl, hn, hc⟩ := recvPayload_ok h
      obtain ⟨hm, hv⟩ := not_or.mp hm
      obtain ⟨f, rfl, rfl⟩ := Frame.exists_header_eq (not_not.mp hm) (not_not.mp hv)
        (UInt32.not_lt.mp hp) hn hc
      exact ⟨f, rest, by simp [hdr, hlen, Frame.wire]⟩

-- The parts of a frame, without the length of the payload.
inductive FramePart
  | magic | version | type | correlation | checksum | payload

def FramePart.Contains : FramePart → ℕ → Prop
  | magic,       j => j < 4
  | version,     j => 4 ≤ j ∧ j < 6
  | type,        j => 6 ≤ j ∧ j < 8
  | correlation, j => 12 ≤ j ∧ j < 20
  | checksum,    j => 20 ≤ j ∧ j < 24
  | payload,     j => 24 ≤ j

-- At most four consecutive bytes, which lie inside of one part, are changed.
def Tampered (w w' : Bytes) : Prop :=
  w'.length = w.length ∧ w' ≠ w ∧
    ∃ (part : FramePart) (i : ℕ), ∀ j, w'[j]? ≠ w[j]? → part.Contains j ∧ i ≤ j ∧ j < i + 4

namespace FramePart

variable {part : FramePart} {j : ℕ}

theorem Contains.not_payloadLen (h : part.Contains j) : j < 8 ∨ 12 ≤ j := by
  cases part <;> simp [Contains] at h <;> omega

-- What is not in the checksum is on one side of it.
theorem Contains.side (hp : part ≠ .checksum) :
    (∀ j, part.Contains j → j < 20) ∨ (∀ j, part.Contains j → 24 ≤ j) := by
  cases part
  case checksum => contradiction
  case payload  => exact .inr fun _ h => h
  all_goals exact .inl fun j h => by simp [Contains] at h; omega

end FramePart

namespace Frame

variable {f f' : Frame} {i : ℕ}

theorem wire_eq_of_checksum_agree (hl : f'.wire.length = f.wire.length)
    (hs : f'.header.checksum = f.header.checksum)
    (h : ∀ j, j < i ∨ i + 4 ≤ j → f'.covered[j]? = f.covered[j]?) : f'.wire = f.wire := by
  have hc : residue f'.covered = residue f.covered := by
    rw [← checksum_eq, ← checksum_eq, hs]
  have hl : f'.covered.length = f.covered.length := by
    simpa [wire_eq, covered, start, writeU16, writeU32, writeU64] using hl
  exact wire_eq_of_covered (eq_of_burst hl h hc)

theorem wire_eq_of_part (hl : f'.wire.length = f.wire.length) {part : FramePart}
    (h : ∀ j, f'.wire[j]? ≠ f.wire[j]? → part.Contains j ∧ i ≤ j ∧ j < i + 4) :
    f'.wire = f.wire := by
  by_cases hp : part = .checksum
  case pos =>
    subst hp
    apply wire_eq_of_covered
    apply List.ext_getElem?
    intro j
    rw [getElem?_covered, getElem?_covered]
    by_contra hne
    have ⟨⟨hlo, hhi⟩, _⟩ := h _ hne
    split_ifs at hlo hhi <;> omega
  case neg =>
    have hs : f'.header.checksum = f.header.checksum := by
      refine checksum_eq_of_agree fun j hlo hhi => ?_
      by_contra hne
      have hc := (h j hne).1
      rcases FramePart.Contains.side hp with hs | hs
      · exact absurd (hs j hc) (by omega)
      · exact absurd (hs j hc) (by omega)
    -- Behind the checksum, the bytes that it covers are four places further to the front.
    rcases FramePart.Contains.side hp with side | side
    · refine wire_eq_of_checksum_agree (i := i) hl hs fun j hj => ?_
      rw [getElem?_covered, getElem?_covered]
      by_contra hne
      have ⟨hc, hlo, hhi⟩ := h _ hne
      have hc := side _ hc
      split_ifs at hc hlo hhi <;> omega
    · refine wire_eq_of_checksum_agree (i := i - 4) hl hs fun j hj => ?_
      rw [getElem?_covered, getElem?_covered]
      by_contra hne
      have ⟨hc, hlo, hhi⟩ := h _ hne
      have hc := side _ hc
      split_ifs at hc hlo hhi <;> omega

end Frame

theorem sendFrame_ok {type : FrameType} {payload : Bytes} {correlation : UInt64} {w : Bytes}
    (h : sendFrame type payload correlation = .ok w) : ∃ f : Frame, w = f.wire := by
  rw [sendFrame] at h
  split_ifs at h with hl
  · cases h
  · cases h
    exact ⟨⟨type, correlation, payload, Nat.not_lt.mp hl⟩, rfl⟩

-- A frame in which a part has been changed is not accepted, whatever follows it.
theorem tampered_frame_rejected {type : FrameType} {payload : Bytes} {correlation : UInt64}
    {w w' : Bytes} (hs : sendFrame type payload correlation = .ok w) (ht : Tampered w w')
    (rest : Bytes) : (recvFrame (w' ++ rest)).fst.status ≠ .ok := by
  intro h
  obtain ⟨f, rfl⟩ := sendFrame_ok hs
  have ⟨hlen, hne, part, i, hj⟩ := ht
  obtain ⟨f', rest', he⟩ := recvFrame_ok h
  have length_wire (f : Frame) : f.wire.length = 24 + f.payload.length := by
    simp [Frame.wire, kFrameHeaderBytes]
  have head {j : ℕ} (hj : j < 24) : f'.wire[j]? = w'[j]? := by
    have hf : (f'.wire ++ rest')[j]? = f'.wire[j]? :=
      List.getElem?_append_left (by rw [length_wire]; omega)
    have hw : (w' ++ rest)[j]? = w'[j]? :=
      List.getElem?_append_left (by rw [hlen, length_wire]; omega)
    rw [← hf, ← he, hw]
  have hp : f'.payload.length = f.payload.length := by
    refine Frame.length_payload_eq_of_agree fun j hlo hhi => ?_
    rw [head (by omega)]
    by_contra hd
    have hc := (hj j hd).1.not_payloadLen
    omega
  obtain ⟨rfl, _⟩ := List.append_inj he (by rw [hlen, length_wire, length_wire, hp])
  exact hne (Frame.wire_eq_of_part hlen hj)

-- The first byte of the payload has been changed.
theorem tampered_frame_rejected_of_hello :
    ∃ w, sendFrame .hello [1, 2, 3] 7 = .ok w ∧ Tampered w (w.set 24 9) ∧
      (recvFrame (w.set 24 9)).fst.status ≠ .ok := by
  let f : Frame := ⟨.hello, 7, [1, 2, 3], by decide⟩
  have ht : Tampered f.wire (f.wire.set 24 9) := by
    refine ⟨List.length_set, by decide +kernel, .payload, 24, fun j hj => ?_⟩
    rw [List.getElem?_set] at hj
    split_ifs at hj with hj'
    · subst hj'
      exact ⟨le_rfl, le_rfl, by decide⟩
    · subst hj'
      exact ⟨le_rfl, le_rfl, by decide⟩
    · contradiction
  refine ⟨f.wire, f.send_eq, ht, ?_⟩
  simpa using tampered_frame_rejected f.send_eq ht []

end NMC
