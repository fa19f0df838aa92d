import NearMemoryCompute.Execution.Theorems.Intake
import NearMemoryCompute.Execution.Theorems.Messages

namespace NMC

open Parser Reader Writer

-- The sizes of strings and lists are machine words.
structure RegisterTargetMsg.Sized (m : RegisterTargetMsg) : Prop where
  name      : m.name.length < UInt64.size
  ops       : m.ops.length < UInt64.size
  dataTypes : m.dataTypes.length < UInt64.size
  layouts   : m.layouts.length < UInt64.size

structure CapabilityMsg.Sized (m : CapabilityMsg) : Prop where
  entries : m.entries.length < UInt64.size
  keys    : ∀ e ∈ m.entries, e.key.length < UInt64.size

def CapabilityMsg.canonical (m : CapabilityMsg) : Bool :=
  m.entries.all (·.state.canonical)

-- The decoder returns the message that has been encoded, or it fails.
def RegisterTargetMsg.NeverMisread (m : RegisterTargetMsg) : Prop :=
  ∀ m' rest, decodeRegisterTarget (encodeRegisterTarget m) = some (m', rest) → m' = m

def CapabilityMsg.NeverMisread (m : CapabilityMsg) : Prop :=
  ∀ m' rest, decodeCapability (encodeCapability m) = some (m', rest) → m' = m

-- How many bytes are needed for so many lists of codes and for the fields behind the lists.
def demand : ℕ → Bytes → ℕ
  | 0,     _     => 36
  | k + 1, bytes =>
    let n := min (ofLittleEndian (bytes.take 8)) 64
    8 + (2 * n + demand k (bytes.drop (8 + 2 * n)))

namespace RegisterTargetMsg

def firstFields (m : RegisterTargetMsg) : List Bytes := [
  putId m.target,
  putGen m.generation,
  putCode m.provider,
  putCode m.kind,
  putBool m.synthetic]

def lastFields (m : RegisterTargetMsg) : Bytes := [
  writeU64 m.maxInputBytes,
  writeU64 m.alignment,
  writeU32 m.concurrency,
  writeU64 m.workspace,
  putId m.ownerBoot].flatten

-- What lies behind the 64th element of the first list that is longer, and the number of lists that
-- the decoder still expects there.
def excess (m : RegisterTargetMsg) : Option (ℕ × Bytes) :=
  if 64 < m.ops.length then
    some (2, ((m.ops.drop 64).map putCode).flatten ++ putList putCode m.dataTypes ++
      putList putCode m.layouts ++ m.lastFields)
  else if 64 < m.dataTypes.length then
    some (1, ((m.dataTypes.drop 64).map putCode).flatten ++ putList putCode m.layouts ++
      m.lastFields)
  else if 64 < m.layouts.length then
    some (0, ((m.layouts.drop 64).map putCode).flatten ++ m.lastFields)
  else
    none

-- The decoder does not get past the elements that it has not skipped.
def Starves (m : RegisterTargetMsg) : Prop :=
  ∀ e ∈ m.excess, e.snd.length < demand e.fst e.snd

end RegisterTargetMsg

section Widths

theorem readU16_width : Width readU16 2 :=
  (readFixed_width 2).map

theorem readU32_width : Width readU32 4 :=
  (readFixed_width 4).map

theorem readU64_width : Width readU64 8 :=
  (readFixed_width 8).map

theorem getId_width {t : Tag} : Width (getId (t := t)) 8 :=
  readU64_width.map

theorem getGen_width {t : Tag} : Width (getGen (t := t)) 8 :=
  readU64_width.map

theorem getCode_width {α : Type} [CppEnum α] : Width (getCode (α := α)) 2 :=
  readU16_width.map

theorem readU64_value {bytes rest : Bytes} {n : UInt64} (h : readU64 bytes = some (n, rest)) :
    n.toNat = ofLittleEndian (bytes.take 8) := by
  rw [readU64_exact h, writeU64, List.take_left' (PersistentStore.length_littleEndian ..),
    PersistentStore.ofLittleEndian_littleEndian]
  exact (Nat.mod_eq_of_lt n.toNat_lt).symm

end Widths

-- The decoder goes on with so many lists and the fields behind them.
def Expects {α : Type} (get : Reader α) (k : ℕ) : Prop :=
  ∀ bytes, (get bytes).isSome ↔ demand k bytes ≤ bytes.length

theorem Expects.cons {α β : Type} [CppEnum α] {f : List (Raw α) → Reader β} {k : ℕ}
    (h : ∀ l, Expects (f l) k) : Expects (getList getCode >>= f) (k + 1) := by
  intro bytes
  rw [getList, bind_assoc, demand]
  refine readU64_width.isSome_bind fun n hn => ?_
  rw [readU64_value hn]
  refine (repeatedly_width getCode_width _).isSome_bind fun l _ => ?_
  rw [List.drop_drop]
  exact h l _

-- The part of a list that is read.
def putRead {α : Type} (put : α → Bytes) (bound : ℕ) (l : List α) : Bytes :=
  writeU64 (.ofNat l.length) ++ ((l.take bound).map put).flatten

theorem putList_eq {α : Type} (put : α → Bytes) (bound : ℕ) (l : List α) :
    putList put l = putRead put bound l ++ ((l.drop bound).map put).flatten := by
  rw [putRead, List.append_assoc, ← List.flatten_append, ← List.map_append, List.take_append_drop]
  rfl

section Lists

variable {α : Type} [CppEnum α] [DecidableEq α] [WireEnum α] {l : List (Raw α)}

theorem getCodes_reads_take (hl : l.length < UInt64.size) (hc : ∀ a ∈ l, a.canonical) :
    Reads (getList getCode) (putRead putCode 64 l) (l.take 64) :=
  counted_reads_take hl fun a ha => getCode_reads (hc a (List.mem_of_mem_take ha))

end Lists

namespace RegisterTargetMsg

variable {m : RegisterTargetMsg}

theorem excess_eq_none_iff :
    m.excess = none ↔ m.ops.length ≤ 64 ∧ m.dataTypes.length ≤ 64 ∧ m.layouts.length ≤ 64 := by
  unfold excess
  split_ifs <;> simp <;> omega

theorem encode_eq (m : RegisterTargetMsg) : encodeRegisterTarget m =
    m.firstFields.flatten ++ (writeString m.name ++ (putList putCode m.ops ++
      (putList putCode m.dataTypes ++ (putList putCode m.layouts ++ m.lastFields)))) := by
  simp [encodeRegisterTarget, firstFields, lastFields]

-- The decoder behind the lists.
def readLastFields (m : RegisterTargetMsg) : Reader RegisterTargetMsg := do
  let maxInputBytes ← readU64
  let alignment ← readU64
  let concurrency ← readU32
  let workspace ← readU64
  let ownerBoot ← getId
  return { m with maxInputBytes, alignment, concurrency, workspace, ownerBoot }

theorem readLastFields_expects (m : RegisterTargetMsg) : Expects m.readLastFields 0 := by
  have h : Width m.readLastFields 36 :=
    readU64_width.bind fun _ => readU64_width.bind fun _ => readU32_width.bind fun _ =>
    readU64_width.bind fun _ => getId_width.bind fun _ => .pure _
  exact fun _ => h.isSome

def readLists (m : RegisterTargetMsg) : Reader RegisterTargetMsg := do
  let ops ← getList getCode
  let dataTypes ← getList getCode
  let layouts ← getList getCode
  readLastFields { m with ops, dataTypes, layouts }

theorem leads_name (hc : m.canonical) : Leads decodeRegisterTarget m.firstFields.flatten (do
    let name ← readString
    readLists { m with name }) := by
  have ⟨hp, hk, _⟩ := canonical_iff.mp hc
  exact .cons (getId_reads _) <| .cons (getGen_reads _) <| .cons (getCode_reads hp) <|
    .cons (getCode_reads hk) <| .cons (getBool_reads _) .nil

theorem leads_lists (hc : m.canonical) (hn : Fits m.name) :
    Leads decodeRegisterTarget (m.firstFields.flatten ++ writeString m.name) m.readLists :=
  (leads_name hc).trans (.first (readString_reads hn))

-- The decoder comes as far as the excess, and there it expects what it expects.
theorem exists_leads_excess (hc : m.canonical) (hs : m.Sized) (hn : Fits m.name) {k : ℕ}
    {bytes : Bytes} (he : m.excess = some (k, bytes)) :
    ∃ w next, encodeRegisterTarget m = w ++ bytes ∧ Leads decodeRegisterTarget w next ∧
      Expects next k := by
  have ⟨_, _, ho, hd, hl⟩ := canonical_iff.mp hc
  have lists := leads_lists hc hn
  unfold excess at he
  split_ifs at he with h₁ h₂ h₃
  case pos =>
    cases he
    refine ⟨_, _, ?_, lists.trans (.first (getCodes_reads_take hs.ops ho)),
      .cons fun _ => .cons fun _ => readLastFields_expects _⟩
    simp [encode_eq, putList_eq putCode 64 m.ops]
  case pos =>
    cases he
    refine ⟨_, _, ?_, lists.trans (.bind (getCodes_reads ⟨by omega, ho⟩)
      (.first (getCodes_reads_take hs.dataTypes hd))), .cons fun _ => readLastFields_expects _⟩
    simp [encode_eq, putList_eq putCode 64 m.dataTypes]
  case pos =>
    cases he
    refine ⟨_, _, ?_, lists.trans (.bind (getCodes_reads ⟨by omega, ho⟩)
      (.bind (getCodes_reads ⟨by omega, hd⟩) (.first (getCodes_reads_take hs.layouts hl)))),
      readLastFields_expects _⟩
    simp [encode_eq, putList_eq putCode 64 m.layouts]

theorem decode_eq_none (hc : m.canonical) (hs : m.Sized) (hn : ¬Fits m.name) :
    decodeRegisterTarget (encodeRegisterTarget m) = none := by
  have h : Leads decodeRegisterTarget (m.firstFields.flatten ++ writeString m.name) failure :=
    (leads_name hc).trans (.fails (readString_fails hn hs.name))
  rw [encode_eq, ← List.append_assoc, h]
  rfl

theorem neverMisread_iff (hc : m.canonical) (hs : m.Sized) :
    m.NeverMisread ↔ ¬Fits m.name ∨ m.Starves := by
  have ⟨hp, hk, ho, hd, hl⟩ := canonical_iff.mp hc
  by_cases hn : Fits m.name
  case neg => simp [NeverMisread, decode_eq_none hc hs hn, hn]
  case pos =>
    rw [NeverMisread, Starves]
    cases he : m.excess
    case none =>
      have ⟨h₁, h₂, h₃⟩ := excess_eq_none_iff.mp he
      have hr := (decodeRegisterTarget_reads
        ⟨hp, hk, hn, ⟨h₁, ho⟩, ⟨h₂, hd⟩, ⟨h₃, hl⟩⟩).run []
      rw [List.append_nil] at hr
      simp [hr]
    case some e =>
      obtain ⟨k, bytes⟩ := e
      obtain ⟨w, next, hw, hlead, hexp⟩ := exists_leads_excess hc hs hn he
      have hsome := hexp bytes
      rw [← hlead, ← hw] at hsome
      constructor
      case mp =>
        intro h
        refine .inr fun e hm => ?_
        cases hm
        by_contra hlt
        obtain ⟨⟨m', rest⟩, hm⟩ := Option.isSome_iff_exists.mp (hsome.mpr (Nat.not_lt.mp hlt))
        obtain rfl := h m' rest hm
        have hw := decodeRegisterTarget_ensures hm
        rw [excess_eq_none_iff.mpr ⟨hw.ops, hw.dataTypes, hw.layouts⟩] at he
        contradiction
      case mpr =>
        intro h m' rest hm
        have hlt := h.resolve_left (not_not.mpr hn) _ rfl
        have hle := hsome.mp (by rw [hm]; rfl)
        exact absurd hle (Nat.not_le.mpr hlt)

end RegisterTargetMsg

namespace CapabilityMsg

variable {m : CapabilityMsg}

theorem getEntry_fails {e : CapabilityEntryWire} (h : ¬Fits e.key)
    (hs : e.key.length < UInt64.size) : Leads getEntry (putEntry e) failure :=
  .fails_append (.fails (readString_fails h hs)) _

theorem decode_ensures : Ensures decodeCapability fun m => m.entries.length ≤ 1024 := by
  have entries : Ensures getEntries fun l => l.length ≤ 1024 := by
    refine .skip fun n => ?_
    intro bytes l rest hl
    have h := (repeatedly_ensures (P := fun _ => True) (fun _ _ _ _ => trivial) _ hl).1
    exact h.trans_le (Nat.min_le_right _ _)
  exact .skip fun _ => .skip fun _ => .bind entries fun _ h => .skip fun _ => .skip fun _ => .pure h

theorem encode_eq (m : CapabilityMsg) : encodeCapability m =
    putId m.target ++ (putGen m.generation ++ putRead putEntry 1024 m.entries) ++
      (((m.entries.drop 1024).map putEntry).flatten ++
        (putGen m.evidenceGeneration ++ putId m.publisher)) := by
  have h : encodeCapability m = putId m.target ++ (putGen m.generation ++
      (putList putEntry m.entries ++ (putGen m.evidenceGeneration ++ putId m.publisher))) := by
    simp [encodeCapability]
    rfl
  rw [h, putList_eq putEntry 1024]
  simp

theorem decode_eq_none (hc : m.canonical) (hs : m.Sized)
    (hf : ∃ e ∈ m.entries.take 1024, ¬Fits e.key) :
    decodeCapability (encodeCapability m) = none := by
  have fails (e : CapabilityEntryWire) (he : e ∈ m.entries.take 1024) (hk : ¬Fits e.key) :
      Leads getEntry (putEntry e) failure :=
    getEntry_fails hk (hs.keys e (List.mem_of_mem_take he))
  have each (e : CapabilityEntryWire) (he : e ∈ m.entries.take 1024) :
      Reads getEntry (putEntry e) e ∨ Leads getEntry (putEntry e) failure := by
    have hc := List.all_eq_true.mp hc e (List.mem_of_mem_take he)
    by_cases hk : Fits e.key
    · exact .inl (getEntry_reads ⟨hk, hc⟩)
    · exact .inr (fails e he hk)
  have ⟨e, he, hk⟩ := hf
  have entries : Leads getEntries (putRead putEntry 1024 m.entries) failure :=
    counted_leads hs.entries (repeatedly_fails each ⟨e, he, fails e he hk⟩)
  have h : Leads decodeCapability
      (putId m.target ++ (putGen m.generation ++ putRead putEntry 1024 m.entries)) failure :=
    .bind (getId_reads _) (.bind (getGen_reads _) (.fails entries))
  rw [encode_eq, h]
  rfl

-- There are always enough bytes for the fields behind the entries.
theorem isSome_decode (hc : m.canonical) (hs : m.Sized)
    (hf : ∀ e ∈ m.entries.take 1024, Fits e.key) :
    (decodeCapability (encodeCapability m)).isSome := by
  have entries : Reads getEntries (putRead putEntry 1024 m.entries) (m.entries.take 1024) :=
    counted_reads_take hs.entries fun e he =>
      getEntry_reads ⟨hf e he, List.all_eq_true.mp hc e (List.mem_of_mem_take he)⟩
  have h : Leads decodeCapability
      (putId m.target ++ (putGen m.generation ++ putRead putEntry 1024 m.entries)) _ :=
    .bind (getId_reads _) (.bind (getGen_reads _) (.first entries))
  have width : Width (do
      let evidenceGeneration ← getGen
      let publisher ← getId
      return { m with entries := m.entries.take 1024, evidenceGeneration, publisher }) 16 :=
    getGen_width.bind fun _ => getId_width.bind fun _ => .pure _
  rw [encode_eq, h]
  apply width.isSome.mpr
  simp [putGen, putId, writeU64]

theorem neverMisread_iff (hc : m.canonical) (hs : m.Sized) : m.NeverMisread ↔
    m.entries.length ≤ 1024 ∨ ∃ e ∈ m.entries.take 1024, ¬Fits e.key := by
  by_cases hf : ∃ e ∈ m.entries.take 1024, ¬Fits e.key
  case pos => simp [NeverMisread, decode_eq_none hc hs hf, hf]
  case neg =>
    have hf' : ∀ e ∈ m.entries.take 1024, Fits e.key := by simpa using hf
    constructor
    case mp =>
      intro h
      obtain ⟨⟨m', rest⟩, hm⟩ := Option.isSome_iff_exists.mp (isSome_decode hc hs hf')
      obtain rfl := h m' rest hm
      exact .inl (decode_ensures hm)
    case mpr =>
      intro h m' rest hm
      have hl := h.resolve_right hf
      rw [List.take_of_length_le hl] at hf'
      have hr := (decodeCapability_reads
        ⟨hl, fun e he => ⟨hf' e he, List.all_eq_true.mp hc e he⟩⟩).run []
      rw [List.append_nil, hm] at hr
      cases hr
      rfl

end CapabilityMsg

-- A message is told from all others unless a list is too long and the decoder finds enough bytes in
-- what it has not skipped.
theorem never_misread_iff {reg : RegisterTargetMsg} (hr : reg.canonical) (hrs : reg.Sized)
    {cap : CapabilityMsg} (hc : cap.canonical) (hcs : cap.Sized) :
    (reg.NeverMisread ↔ ¬Fits reg.name ∨ reg.Starves) ∧
    (cap.NeverMisread ↔
      cap.entries.length ≤ 1024 ∨ ∃ e ∈ cap.entries.take 1024, ¬Fits e.key) :=
  ⟨RegisterTargetMsg.neverMisread_iff hr hrs, CapabilityMsg.neverMisread_iff hc hcs⟩

-- One layout too many moves the limits of the target by two bytes.
def sixtyFiveLayouts : RegisterTargetMsg where
  name          := ascii "worker"
  layouts       := List.replicate 65 Layout.contiguous
  maxInputBytes := 1

theorem never_misread_iff_of_layouts :
    ¬sixtyFiveLayouts.NeverMisread ∧ ({} : CapabilityMsg).NeverMisread := by
  have h := @never_misread_iff sixtyFiveLayouts (by decide)
    ⟨by decide, by decide, by decide, by decide⟩ {} (by decide) ⟨by decide, by decide⟩
  refine ⟨fun hn => ?_, h.2.mpr (.inl (by decide))⟩
  rcases h.1.mp hn with hf | hs
  · exact hf (by decide)
  · exact absurd (hs _ rfl) (by decide)

theorem sixtyFiveLayouts_misread :
    ∃ m rest, decodeRegisterTarget (encodeRegisterTarget sixtyFiveLayouts) = some (m, rest) ∧
      m.layouts.length = 64 ∧ sixtyFiveLayouts.maxInputBytes = 1 ∧ m.maxInputBytes = 65536 ∧
      m ≠ sixtyFiveLayouts := by
  have h : (decodeRegisterTarget (encodeRegisterTarget sixtyFiveLayouts)).map
      (fun r => (r.fst.layouts.length, r.fst.maxInputBytes)) = some (64, 65536) := by
    decide +kernel
  obtain ⟨⟨m, rest⟩, hm, h⟩ := Option.map_eq_some_iff.mp h
  obtain ⟨hl, hb⟩ := Prod.mk.inj h
  refine ⟨m, rest, hm, hl, rfl, hb, ?_⟩
  rintro rfl
  exact absurd (show sixtyFiveLayouts.maxInputBytes = 65536 from hb) (by decide)

end NMC
