import NearMemoryCompute.Execution.Theorems.Checksum
import NearMemoryCompute.Execution.Theorems.RoundTrip

namespace NMC

open Parser

theorem value_eq_ofLittleEndian (bytes : Bytes) :
    Crc.value (bytes.map UInt8.toBitVec) = ofLittleEndian bytes := by
  induction bytes
  case nil => rfl
  case cons b bytes hi =>
    rw [List.map_cons, Crc.value_cons, hi]
    rfl

namespace PersistentStore

open Reader Writer

-- What precedes the payload in a file.
def header (payload : Bytes) : Bytes :=
  writeU32 kMagic ++ (writeU16 kFormatVersion ++ writeU64 (.ofNat payload.length))

def checksum (payload : Bytes) : UInt32 :=
  computePayloadCrc kMagic kFormatVersion (.ofNat payload.length) payload

def envelope (payload : Bytes) : Bytes :=
  header payload ++ payload ++ writeU32 (checksum payload)

-- The register after a whole file.
def residue (f : Bytes) : BitVec 32 :=
  Crc.feeds Crc32.polynomial (BitVec.allOnes 32) (f.map UInt8.toBitVec)

-- The ways in which a file is damaged: it is cut off, it is continued, or up to four consecutive
-- bytes are changed.
inductive Damaged (f : Bytes) : Bytes → Prop
  | cut {f' : Bytes} : f' <+: f → Damaged f f'
  | continued {f' : Bytes} : f <+: f' → Damaged f f'
  | burst {f' : Bytes} (i : ℕ) :
    f'.length = f.length → (∀ j, j < i ∨ i + 4 ≤ j → f'[j]? = f[j]?) → Damaged f f'

variable {payload payload' f f' : Bytes}

theorem buildEnvelope_eq (h : payload.length ≤ kMaxPayload) :
    buildEnvelope payload = .ok (envelope payload) := by
  rw [buildEnvelope, if_neg (Nat.not_lt.mpr h)]
  simp [envelope, header, checksum]

theorem checksum_eq (payload : Bytes) :
    (checksum payload).toBitVec = residue (header payload ++ payload) := by
  simp only [residue, header, List.map_append, Crc.feeds_append]
  simp only [checksum, computePayloadCrc, Crc32.digest, Crc32.update_eq]
  rfl

-- The checksum that follows a message takes the register to zero.
theorem residue_envelope (payload : Bytes) : residue (envelope payload) = 0#32 := by
  rw [residue, envelope, List.map_append, Crc.feeds_append]
  refine (Crc.feeds_eq_zero_iff (by decide) (by decide) (by simp [writeU32])).mpr ?_
  rw [value_eq_ofLittleEndian, ← residue, ← checksum_eq, writeU32, ofLittleEndian_littleEndian]
  simp

-- Whatever is accepted has been built from its payload.
theorem eq_envelope_of_openEnvelope (h : openEnvelope f = .ok payload) :
    f = envelope payload ∧ payload.length ≤ kMaxPayload := by
  have ⟨⟨magic, r₁⟩, hm, h⟩ := bind_eq_ok h
  have ⟨_, hm', h⟩ := bind_eq_ok h
  have ⟨⟨version, r₂⟩, hv, h⟩ := bind_eq_ok h
  have ⟨_, hv', h⟩ := bind_eq_ok h
  have ⟨⟨len, r₃⟩, hl, h⟩ := bind_eq_ok h
  have ⟨_, hl', h⟩ := bind_eq_ok h
  have ⟨⟨p, r₄⟩, hp, h⟩ := bind_eq_ok h
  have ⟨⟨crc, r₅⟩, hc, h⟩ := bind_eq_ok h
  have ⟨_, hr, h⟩ := bind_eq_ok h
  have ⟨_, hc', h⟩ := bind_eq_ok h
  cases h
  have hlen := require_ok hl'
  have ⟨hr₃, hp⟩ := readFixed_some (orError_ok hp)
  have hn : len = .ofNat payload.length := by
    simp [hp]
  refine ⟨?_, hp ▸ hlen⟩
  rw [readU32_exact (orError_ok hm), readU16_exact (orError_ok hv), readU64_exact (orError_ok hl),
    hr₃, readU32_exact (orError_ok hc), require_ok hr, require_ok hm', require_ok hv', hn]
  have hc' := require_ok hc'
  rw [require_ok hm', require_ok hv', hn] at hc'
  simp [envelope, header, checksum, hc']

theorem length_eq_of_header (h : header payload = header payload')
    (hl : payload.length ≤ kMaxPayload) (hl' : payload'.length ≤ kMaxPayload) :
    payload.length = payload'.length := by
  have h := List.append_cancel_left (List.append_cancel_left h)
  have hr := congrArg ofLittleEndian h
  have hm : kMaxPayload < 2 ^ 64 := by decide
  simp only [writeU64, ofLittleEndian_littleEndian, UInt64.toNat_ofNat'] at hr
  omega

-- The length in the header leaves no room for another end of the file.
theorem envelope_eq_of_append {rest : Bytes} (h : envelope payload' ++ rest = envelope payload)
    (hl : payload.length ≤ kMaxPayload) (hl' : payload'.length ≤ kMaxPayload) : rest = [] := by
  have hh : header payload' = header payload := by
    simp only [envelope, List.append_assoc] at h
    exact (List.append_inj h (by simp [header, writeU16, writeU32, writeU64])).1
  have hn := length_eq_of_header hh hl' hl
  have h := congrArg List.length h
  simp [envelope, hh, hn, writeU32] at h
  exact h

theorem eq_of_burst {i : ℕ} (hl : f'.length = f.length)
    (h : ∀ j, j < i ∨ i + 4 ≤ j → f'[j]? = f[j]?) (hr : residue f' = residue f) : f' = f := by
  obtain ⟨pre, mid', mid, post, rfl, rfl, hm, hn⟩ := List.exists_window_of_agree hl h
  simp only [residue, List.map_append] at hr
  have hm := Crc.feeds_burst (by decide) (by decide) (by simp [hm]) (by simp; omega) hr
  rw [List.map_injective_iff.mpr (fun _ _ => UInt8.toBitVec_inj.mp) hm]

theorem Damaged.eq_of_openEnvelope (hd : Damaged (envelope payload) f')
    (hl : payload.length ≤ kMaxPayload) (h : openEnvelope f' = .ok payload') :
    f' = envelope payload := by
  obtain ⟨rfl, hl'⟩ := eq_envelope_of_openEnvelope h
  cases hd
  case cut hp =>
    have ⟨rest, hp⟩ := hp
    rwa [envelope_eq_of_append hp hl hl', List.append_nil] at hp
  case continued hp =>
    have ⟨rest, hp⟩ := hp
    rw [envelope_eq_of_append hp hl' hl, List.append_nil] at hp
    exact hp.symm
  case burst i hlen hj =>
    exact eq_of_burst hlen hj ((residue_envelope _).trans (residue_envelope _).symm)

theorem readWholeFile_ok (h : readWholeFile (.contents f) = .ok f') : f' = f := by
  simp only [readWholeFile] at h
  split_ifs at h
  · cases h
  · cases h
    rfl

-- A file is loaded as the payload that it has been built from, and no damage to it goes unnoticed.
theorem damage_detected (payload : Bytes) (hl : payload.length ≤ kMaxPayload) :
    ∃ f, buildEnvelope payload = .ok f ∧ ∀ {α : Type} (decode : Reader α),
      (load (.contents f) decode = do
        let (decoded, r) ← orError (decode payload)
          "E_PERSIST_DECODE" "malformed persistence payload"
        require (r = []) "E_PERSIST_TRAILING" "trailing garbage inside payload"
        return decoded) ∧
      ∀ f', Damaged f f' → f' ≠ f → ∃ e, load (.contents f') decode = .error e := by
  refine ⟨_, buildEnvelope_eq hl, fun {α} decode => ⟨?_, ?_⟩⟩
  case refine_1 =>
    have h : save .replaced payload = .ok (envelope payload) := by
      rw [save, buildEnvelope_eq hl]
      rfl
    exact load_eq_of_save h
  case refine_2 =>
    intro f' hd hne
    cases h : load (.contents f') decode
    case error e => exact ⟨e, rfl⟩
    case ok a =>
      obtain ⟨r, hr, h⟩ := bind_eq_ok h
      obtain ⟨payload', ho, _⟩ := bind_eq_ok h
      exact absurd (hd.eq_of_openEnvelope hl (readWholeFile_ok hr ▸ ho)) hne

theorem damage_detected_of_bytes :
    ∃ f, buildEnvelope [1, 2, 3] = .ok f ∧ Damaged f f.dropLast ∧
      ∃ e, load (.contents f.dropLast) decodeState = .error e := by
  have ⟨f, hf, h⟩ := damage_detected [1, 2, 3] (by decide)
  have hd : Damaged f f.dropLast := .cut f.dropLast_prefix
  refine ⟨f, hf, hd, (h decodeState).2 _ hd ?_⟩
  intro heq
  have hl := congrArg List.length heq
  rw [List.length_dropLast] at hl
  cases hf
  simp [writeU32, kMagic] at hl

end PersistentStore
end NMC
