import NearMemoryCompute.Execution.Persistence
import NearMemoryCompute.Execution.Theorems.Recovery

namespace NMC

open Parser

namespace PersistentStore

theorem littleEndian_succ (w n : ℕ) :
    littleEndian (w + 1) n = n.toUInt8 :: littleEndian w (n / 256) := by
  simp [littleEndian, List.range_succ_eq_map, Nat.pow_succ', Nat.div_div_eq_div_mul]

@[simp]
theorem length_littleEndian (w n : ℕ) : (littleEndian w n).length = w := by
  simp [littleEndian]

theorem ofLittleEndian_littleEndian (w n : ℕ) :
    ofLittleEndian (littleEndian w n) = n % 256 ^ w := by
  induction w generalizing n
  case zero => simp [littleEndian, ofLittleEndian, Nat.mod_one]
  case succ w hi =>
    have h := hi (n / 256)
    rw [littleEndian_succ, Nat.pow_succ', Nat.mod_mul, ← h]
    simp [ofLittleEndian]

theorem littleEndian_ofLittleEndian (bytes : Bytes) :
    littleEndian bytes.length (ofLittleEndian bytes) = bytes := by
  induction bytes
  case nil => rfl
  case cons b bytes hi =>
    have hb := b.toNat_lt
    have hd : ofLittleEndian (b :: bytes) / 256 = ofLittleEndian bytes := by
      simp only [ofLittleEndian, List.foldr_cons]
      omega
    have hm : (ofLittleEndian (b :: bytes)).toUInt8 = b := by
      apply UInt8.toNat_inj.mp
      simp only [ofLittleEndian, List.foldr_cons]
      simp
    rw [List.length_cons, littleEndian_succ, hd, hm, hi]

theorem ofLittleEndian_lt (bytes : Bytes) : ofLittleEndian bytes < 256 ^ bytes.length := by
  have h := ofLittleEndian_littleEndian bytes.length (ofLittleEndian bytes)
  rw [littleEndian_ofLittleEndian] at h
  rw [h]
  exact Nat.mod_lt _ (by positivity)

end PersistentStore

open PersistentStore

namespace Reader

open Writer

section Scalars

variable {t : Tag} {n : ℕ} {s bytes rest : Bytes}

theorem readFixed_reads (h : s.length = n) : Reads (readFixed n) s s := by
  subst h
  intro rest
  simp [readFixed]
  rfl

theorem readFixed_some (h : readFixed n bytes = some (s, rest)) :
    bytes = s ++ rest ∧ s.length = n := by
  unfold readFixed at h
  split_ifs at h with hn
  cases h
  simp
  omega

theorem readFixed_width (n : ℕ) : Width (readFixed n) n where
  enough w h := ⟨w.take n, if_neg (Nat.not_lt.mpr h)⟩
  short _ h  := if_pos h

theorem readNumber_reads {α : Type} {f : ℕ → α} {w : ℕ} (h : n < 256 ^ w) :
    Reads (do return f (ofLittleEndian (← readFixed w))) (littleEndian w n) (f n) := by
  have hr := (readFixed_reads (length_littleEndian w n)).map (f := fun b => f (ofLittleEndian b))
  rwa [ofLittleEndian_littleEndian, Nat.mod_eq_of_lt h] at hr

theorem readU8_reads (v : UInt8) : Reads readU8 (writeU8 v) v := by
  have h : Reads readU8 (writeU8 v) (.ofNat (ofLittleEndian [v])) :=
    (readFixed_reads (n := 1) rfl).map
  simpa [ofLittleEndian] using h

theorem readU16_reads (v : UInt16) : Reads readU16 (writeU16 v) v := by
  have h : Reads readU16 (writeU16 v) (.ofNat v.toNat) := readNumber_reads v.toNat_lt
  rwa [UInt16.ofNat_toNat] at h

theorem readU32_reads (v : UInt32) : Reads readU32 (writeU32 v) v := by
  have h : Reads readU32 (writeU32 v) (.ofNat v.toNat) := readNumber_reads v.toNat_lt
  rwa [UInt32.ofNat_toNat] at h

theorem readU64_reads (v : UInt64) : Reads readU64 (writeU64 v) v := by
  have h : Reads readU64 (writeU64 v) (.ofNat v.toNat) := readNumber_reads v.toNat_lt
  rwa [UInt64.ofNat_toNat] at h

theorem readF64_reads (v : F64) : Reads readF64 (writeF64 v) v :=
  (readU64_reads v.bits).map

theorem getId_reads (id : Id t) : Reads getId (putId id) id :=
  (readU64_reads id.value).map

theorem getGen_reads (g : Generation t) : Reads getGen (putGen g) g :=
  (readU64_reads g.value).map

theorem getBool_reads (b : Bool) : Reads getBool (putBool b) b := by
  have h := (readU8_reads (if b then 1 else 0)).map (f := (· != 0))
  cases b <;> exact h

theorem readNumber_exact {α : Type} {f : ℕ → α} {g : α → ℕ} {w : ℕ}
    (h : ∀ n < 256 ^ w, g (f n) = n) :
    Exact (do return f (ofLittleEndian (← readFixed w))) fun v => littleEndian w (g v) := by
  intro bytes v rest hr
  have ⟨s, rest', hs, hv⟩ := bind_some hr
  cases hv
  obtain ⟨hb, rfl⟩ := readFixed_some hs
  simp only [h _ (ofLittleEndian_lt s), littleEndian_ofLittleEndian, hb]

theorem readU16_exact : Exact readU16 writeU16 :=
  readNumber_exact fun _ => UInt16.toNat_ofNat_of_lt'

theorem readU32_exact : Exact readU32 writeU32 :=
  readNumber_exact fun _ => UInt32.toNat_ofNat_of_lt'

theorem readU64_exact : Exact readU64 writeU64 :=
  readNumber_exact fun _ => UInt64.toNat_ofNat_of_lt'

theorem getId_exact : Exact (getId (t := t)) putId :=
  readU64_exact.map fun _ => rfl

theorem getGen_exact : Exact (getGen (t := t)) putGen :=
  readU64_exact.map fun _ => rfl

end Scalars

-- The strings that can be read back.
def Fits (s : Bytes) : Prop :=
  s.length ≤ kMaxCodecBlobBytes.toNat

instance : DecidablePred Fits :=
  fun s => inferInstanceAs (Decidable (s.length ≤ kMaxCodecBlobBytes.toNat))

section Strings

variable {s : Bytes}

theorem Fits.toNat_length (h : Fits s) : (UInt64.ofNat s.length).toNat = s.length := by
  apply UInt64.toNat_ofNat_of_lt'
  exact h.trans_lt (by decide)

theorem readString_reads (h : Fits s) : Reads readString (writeString s) s := by
  have hl : UInt64.ofNat s.length ≤ kMaxCodecBlobBytes := by
    rw [UInt64.le_iff_toNat_le, h.toNat_length]
    exact h
  exact .bind (readU64_reads _) (.check hl (readFixed_reads h.toNat_length.symm))

theorem readString_fails (h : ¬Fits s) (hs : s.length < UInt64.size) :
    Leads readString (writeString s) failure := by
  have hl : ¬UInt64.ofNat s.length ≤ kMaxCodecBlobBytes := by
    rwa [UInt64.le_iff_toNat_le, UInt64.toNat_ofNat_of_lt' hs]
  exact .bind (readU64_reads _) (.guard_fails hl)

theorem readString_some {bytes rest : Bytes} (h : readString bytes = some (s, rest)) :
    Fits s ∧ bytes = writeString s ++ rest := by
  have ⟨len, _, hn, hb⟩ := bind_some h
  have ⟨_, _, hg, hr⟩ := bind_some hb
  obtain ⟨hl, rfl⟩ := guard_some hg
  obtain ⟨rfl, hs⟩ := readFixed_some hr
  have hf : Fits s := hs.trans_le (UInt64.le_iff_toNat_le.mp hl)
  rw [readU64_exact hn, writeString, hs, UInt64.ofNat_toNat, List.append_assoc]
  exact ⟨hf, rfl⟩

theorem readString_ensures : Ensures readString Fits :=
  fun _ _ _ h => (readString_some h).1

theorem readString_exact : Exact readString writeString :=
  fun _ _ _ h => (readString_some h).2

end Strings

end Reader

-- Every enumerator is listed and can be told from its name.
class LawfulCppEnum (α : Type) [CppEnum α] : Prop where
  total : ∀ a : α, a ∈ (CppEnum.members : List (α × String)).map Prod.fst
  names : ((CppEnum.members : List (α × String)).map fun m => ascii m.snd).Nodup
  fits  : ∀ m ∈ (CppEnum.members : List (α × String)), Reader.Fits (ascii m.snd)

namespace CppEnum

variable {α : Type} [CppEnum α] [DecidableEq α] [LawfulCppEnum α]

theorem mem_members (a : α) : (a, toString a) ∈ members := by
  unfold toString
  cases hl : members.lookup a
  case none =>
    obtain ⟨m, hm, he⟩ := List.mem_map.mp (LawfulCppEnum.total a)
    simpa [he] using List.lookup_eq_none_iff.mp hl m hm
  case some name =>
    obtain ⟨_, _, hm, _⟩ := List.lookup_eq_some_iff.mp hl
    simp [hm]

theorem parseEnum_toString (a : α) : parseEnum (ascii (toString a)) = some a := by
  have hm := mem_members a
  cases hf : members.find? (fun m : α × String => ascii m.snd = ascii (toString a))
  case none => simpa using List.find?_eq_none.mp hf _ hm
  case some m =>
    have he : ascii m.snd = ascii (toString a) := by simpa using List.find?_some hf
    have heq := List.inj_on_of_nodup_map LawfulCppEnum.names (List.mem_of_find?_eq_some hf) hm he
    rw [parseEnum, hf, heq]
    rfl

end CppEnum

instance : LawfulCppEnum OperationClass where
  total a := by cases a <;> decide
  names   := by decide +kernel
  fits    := by decide +kernel

instance : LawfulCppEnum TargetKind where
  total a := by cases a <;> decide
  names   := by decide +kernel
  fits    := by decide +kernel

instance : LawfulCppEnum ProviderKind where
  total a := by cases a <;> decide
  names   := by decide +kernel
  fits    := by decide +kernel

instance : LawfulCppEnum CapabilityState where
  total a := by cases a <;> decide
  names   := by decide +kernel
  fits    := by decide +kernel

instance : LawfulCppEnum TargetLifecycle where
  total a := by cases a <;> decide
  names   := by decide +kernel
  fits    := by decide +kernel

instance : LawfulCppEnum ExecutionLifecycle where
  total a := by cases a <;> decide
  names   := by decide +kernel
  fits    := by decide +kernel

instance : LawfulCppEnum ProgramLifecycle where
  total a := by cases a <;> decide
  names   := by decide +kernel
  fits    := by decide +kernel

instance : LawfulCppEnum Decision where
  total a := by cases a <;> decide
  names   := by decide +kernel
  fits    := by decide +kernel

instance : LawfulCppEnum RetryClass where
  total a := by cases a <;> decide
  names   := by decide +kernel
  fits    := by decide +kernel

instance : LawfulCppEnum VerifyState where
  total a := by cases a <;> decide
  names   := by decide +kernel
  fits    := by decide +kernel

instance : LawfulCppEnum DataType where
  total a := by cases a <;> decide
  names   := by decide +kernel
  fits    := by decide +kernel

instance : LawfulCppEnum Layout where
  total a := by cases a <;> decide
  names   := by decide +kernel
  fits    := by decide +kernel

instance : LawfulCppEnum PolicyOutcome where
  total a := by cases a <;> decide
  names   := by decide +kernel
  fits    := by decide +kernel

instance : LawfulCppEnum IntegrityState where
  total a := by cases a <;> decide
  names   := by decide +kernel
  fits    := by decide +kernel

instance : LawfulCppEnum AccessSemantics where
  total a := by cases a <;> decide
  names   := by decide +kernel
  fits    := by decide +kernel

instance : LawfulCppEnum IntegrityRequirement where
  total a := by cases a <;> decide
  names   := by decide +kernel
  fits    := by decide +kernel

def Raw.canonical {α : Type} [CppEnum α] : Raw α → Bool
  | member _ => true
  | other .. => false

namespace Reader

open Writer

section Enums

variable {α : Type} [CppEnum α] [DecidableEq α] [LawfulCppEnum α]

theorem getEnum_reads (a : α) : Reads getEnum (putEnum a) a := by
  have hf := LawfulCppEnum.fits _ (CppEnum.mem_members a)
  have h : Leads (getEnum : Reader α) (putEnum a)
      (liftM (CppEnum.parseEnum (ascii (CppEnum.toString a)))) :=
    .first (readString_reads hf)
  rwa [CppEnum.parseEnum_toString] at h

theorem getRaw_reads {a : Raw α} (h : a.canonical) : Reads getRaw (putRaw a) a := by
  cases a
  case member a => exact (getEnum_reads a).map
  case other    => contradiction

omit [DecidableEq α] [LawfulCppEnum α] in
theorem getRaw_ensures : Ensures (getRaw (α := α)) (Raw.canonical ·) :=
  .skip fun _ => .pure rfl

end Enums

-- The lists that can be read back.
def Short {α : Type} (P : α → Prop) (l : List α) : Prop :=
  l.length ≤ 64 ∧ ∀ a ∈ l, P a

instance {α : Type} {P : α → Prop} [DecidablePred P] : DecidablePred (Short P) :=
  fun l => inferInstanceAs (Decidable (l.length ≤ 64 ∧ ∀ a ∈ l, P a))

section Lists

variable {α : Type} {get : Reader α} {put : α → Bytes} {P : α → Prop}

theorem getOption_reads (h : ∀ a, Reads get (put a) a) (o : Option α) :
    Reads (getOption get) (putOption put o) o := by
  cases o
  case none   => exact .first (getBool_reads false)
  case some a => exact .bind (getBool_reads true) (h a).map

theorem repeatedly_reads {ws : List Bytes} {l : List α} (h : List.Forall₂ (Reads get) ws l) :
    Reads (repeatedly get l.length) ws.flatten l := by
  induction h
  case nil          => exact .nil
  case cons hw _ hi => exact .cons hw hi.map

theorem forall₂_reads {l : List α} (h : ∀ a ∈ l, Reads get (put a) a) :
    List.Forall₂ (Reads get) (l.map put) l :=
  List.forall₂_map_left_iff.mpr (List.forall₂_same.mpr h)

theorem repeatedly_ensures (h : Ensures get P) (n : ℕ) :
    Ensures (repeatedly get n) fun l => l.length = n ∧ ∀ a ∈ l, P a := by
  induction n
  case zero => exact .pure (by simp)
  case succ n hi =>
    refine .bind h fun a ha => .bind hi fun l hl => .pure ?_
    simpa [hl.1, ha] using hl.2

theorem repeatedly_width {w : ℕ} (h : Width get w) (n : ℕ) : Width (repeatedly get n) (w * n) := by
  induction n
  case zero => exact .pure _
  case succ n hi =>
    rw [Nat.mul_succ, Nat.add_comm (w * n)]
    exact h.bind fun _ => hi.map

-- A list is not read if one of its elements is not.
theorem repeatedly_fails {l : List α}
    (h : ∀ a ∈ l, Reads get (put a) a ∨ Leads get (put a) failure)
    (hf : ∃ a ∈ l, Leads get (put a) failure) :
    Leads (repeatedly get l.length) (l.map put).flatten failure := by
  induction l
  case nil => simp at hf
  case cons a l hi =>
    rw [List.forall_mem_cons] at h
    rw [List.exists_mem_cons_iff] at hf
    by_cases ha : Leads get (put a) failure
    case pos => exact .fails (.fails_append ha _)
    case neg => exact .cons (h.1.resolve_right ha) (.fails (hi h.2 (hf.resolve_left ha)))

-- A list of which at most so many elements are read. The others are left.
theorem counted_leads {bound : ℕ} {l : List α} {next : Reader (List α)}
    (hl : l.length < UInt64.size)
    (h : Leads (repeatedly get (l.take bound).length) ((l.take bound).map put).flatten next) :
    Leads (do repeatedly get (min (← readU64).toNat bound))
      (writeU64 (.ofNat l.length) ++ ((l.take bound).map put).flatten) next := by
  have hn : min (UInt64.ofNat l.length).toNat bound = (l.take bound).length := by
    rw [UInt64.toNat_ofNat_of_lt' hl, List.length_take, Nat.min_comm]
  rw [← hn] at h
  exact .bind (readU64_reads _) h

theorem counted_reads_take {bound : ℕ} {l : List α} (hl : l.length < UInt64.size)
    (h : ∀ a ∈ l.take bound, Reads get (put a) a) :
    Reads (do repeatedly get (min (← readU64).toNat bound))
      (writeU64 (.ofNat l.length) ++ ((l.take bound).map put).flatten) (l.take bound) :=
  counted_leads hl (repeatedly_reads (forall₂_reads h))

theorem counted_reads {bound : ℕ} (hb : bound < UInt64.size) {l : List α} (hl : l.length ≤ bound)
    (h : ∀ a ∈ l, Reads get (put a) a) :
    Reads (do repeatedly get (min (← readU64).toNat bound)) (putList put l) l := by
  have ht : l.take bound = l := List.take_of_length_le hl
  have hr := counted_reads_take (hl.trans_lt hb) (ht.symm ▸ h)
  rwa [ht] at hr

theorem getList_reads (h : ∀ ⦃a⦄, P a → Reads get (put a) a) {l : List α} (hl : Short P l) :
    Reads (getList get) (putList put l) l :=
  counted_reads (by decide) hl.1 fun a ha => h (hl.2 a ha)

theorem getList_ensures (h : Ensures get P) : Ensures (getList get) (Short P) := by
  refine .skip fun n => ?_
  intro bytes l rest hl
  have ⟨hn, ha⟩ := repeatedly_ensures h _ hl
  exact ⟨hn.trans_le (Nat.min_le_right _ _), ha⟩

end Lists
end Reader
end NMC
