import NearMemoryCompute.Library.Crc
import NearMemoryCompute.Execution.Frame

namespace NMC

namespace Crc32

def polynomial : BitVec 32 :=
  0xEDB88320#32

theorem table_step (c : UInt32) :
    (if c &&& 1 = 1 then (0xEDB88320 : UInt32) ^^^ (c >>> 1) else c >>> 1).toBitVec =
      Crc.shift polynomial c.toBitVec := by
  have h : c &&& 1 = 1 ↔ c.toBitVec.getLsbD 0 := by
    rw [← UInt32.toNat_inj, BitVec.getLsbD, Nat.testBit_zero]
    simp [Nat.and_one_is_mod]
  unfold Crc.shift
  split_ifs with h₁ h₂ <;> simp_all [polynomial]

theorem repeat_step {f : UInt32 → UInt32}
    (h : ∀ c, (f c).toBitVec = Crc.shift polynomial c.toBitVec)
    (n : ℕ) (c : UInt32) : (Nat.repeat f n c).toBitVec = Crc.shifts polynomial n c.toBitVec := by
  induction n
  case zero => rfl
  case succ n hi => rw [Nat.repeat, h, hi, Crc.shifts, Crc.shifts, Function.iterate_succ_apply']

theorem table_eq (i : Fin 256) :
    (table i).toBitVec = Crc.shifts polynomial 8 (BitVec.ofNat 32 i) :=
  repeat_step table_step 8 _

-- The table contains what eight shifts make of the low byte of the register.
theorem updateByte_eq (c : Crc32) (b : UInt8) :
    (c.updateByte b).value.toBitVec = Crc.feed polynomial c.value.toBitVec b.toBitVec := by
  have hb : b.toBitVec.setWidth 32 >>> 8 = 0#32 := by
    apply BitVec.eq_of_toNat_eq
    simp [Nat.shiftRight_eq_div_pow, Nat.div_eq_of_lt b.toNat_lt]
  have hx : (c.value ^^^ b.toUInt32).toBitVec = c.value.toBitVec ^^^ b.toBitVec.setWidth 32 := rfl
  rw [Crc.feed, Crc.shifts_eq, BitVec.ushiftRight_xor_distrib, hb, BitVec.xor_zero, ← hx]
  simp only [updateByte, UInt32.toBitVec_xor, table_eq, UInt32.toBitVec_shiftRight]
  rw [BitVec.xor_comm]
  rfl

theorem update_eq (c : Crc32) (data : Bytes) :
    (c.update data).value.toBitVec =
      Crc.feeds polynomial c.value.toBitVec (data.map UInt8.toBitVec) := by
  induction data generalizing c
  case nil => rfl
  case cons b data hi =>
    rw [update, List.foldl_cons, ← update, hi, updateByte_eq]
    rfl

theorem update_append (c : Crc32) (data data' : Bytes) :
    c.update (data ++ data') = (c.update data).update data' :=
  List.foldl_append

-- The calls by which a checksum is fed.
inductive Call
  | update (data : Bytes)
  | updateU16 (v : UInt16)
  | updateU32 (v : UInt32)
  | updateU64 (v : UInt64)

namespace Call

def run (c : Crc32) : Call → Crc32
  | update data => c.update data
  | updateU16 v => c.updateU16 v
  | updateU32 v => c.updateU32 v
  | updateU64 v => c.updateU64 v

open PersistentStore (littleEndian)

def bytes : Call → Bytes
  | update data => data
  | updateU16 v => littleEndian 2 v.toNat
  | updateU32 v => littleEndian 4 v.toNat
  | updateU64 v => littleEndian 8 v.toNat

theorem run_eq (c : Crc32) (call : Call) : call.run c = c.update call.bytes := by
  cases call <;> rfl

-- It does not matter how the bytes are distributed over the calls.
theorem foldl_run (calls : List Call) (c : Crc32) :
    calls.foldl run c = c.update (calls.flatMap bytes) := by
  induction calls generalizing c
  case nil => rfl
  case cons call calls hi =>
    rw [List.foldl_cons, hi, run_eq, List.flatMap_cons, update_append]

end Call

-- The register of the same check when it is computed bit by bit. Each bit is added to the low end
-- of the register, which is then shifted once.
def bitSerial (data : Bytes) : BitVec 32 :=
  Crc.feeds polynomial (BitVec.allOnes 32) (data.flatMap fun b => Crc.bits b.toBitVec)

theorem bitSerial_eq (data : Bytes) :
    bitSerial data = (({} : Crc32).update data).digest.toBitVec := by
  rw [digest, update_eq, ← Crc.feeds_flatMap_bits (by decide), List.flatMap_map]
  rfl

theorem toBitVec_bijective : Function.Bijective UInt32.toBitVec :=
  ⟨fun _ _ => UInt32.toBitVec_inj.mp, fun v => ⟨⟨v⟩, rfl⟩⟩

theorem updateByte_bijective (b : UInt8) :
    Function.Bijective fun v : UInt32 => (updateByte { value := v } b).value := by
  rw [← Function.Bijective.of_comp_iff' toBitVec_bijective]
  have h : UInt32.toBitVec ∘ (fun v => (updateByte { value := v } b).value) =
      (fun c => Crc.feed polynomial c b.toBitVec) ∘ UInt32.toBitVec :=
    funext fun v => updateByte_eq { value := v } b
  rw [h]
  exact (Crc.feed_bijective (by decide) _).comp toBitVec_bijective

theorem update_bijective (v : UInt32) :
    Function.Bijective fun bytes : Fin 4 → UInt8 =>
      (update { value := v } (List.ofFn bytes)).value := by
  have hb : Function.Bijective UInt8.toBitVec :=
    ⟨fun _ _ => UInt8.toBitVec_inj.mp, fun v => ⟨⟨v⟩, rfl⟩⟩
  rw [← Function.Bijective.of_comp_iff' toBitVec_bijective]
  have h : UInt32.toBitVec ∘ (fun bytes : Fin 4 → UInt8 =>
        (update { value := v } (List.ofFn bytes)).value) =
      (fun symbols : Fin 4 → BitVec 8 => Crc.feeds polynomial v.toBitVec (List.ofFn symbols)) ∘
        (UInt8.toBitVec ∘ ·) := by
    funext bytes
    simp [update_eq]
  rw [h]
  exact (Crc.feeds_bijective (by decide) (by decide) rfl _).comp hb.comp_left

-- However it is fed, the checksum is the register of the bit-serial check. No byte takes two states
-- to the same one, and four bytes take a state to any other in exactly one way.
theorem digest_eq_bitSerial :
    (∀ calls : List Call, (calls.foldl Call.run {}).digest.toBitVec =
      bitSerial (calls.flatMap Call.bytes)) ∧
    (∀ b : UInt8, Function.Bijective fun v : UInt32 => (updateByte { value := v } b).value) ∧
    ∀ v : UInt32, Function.Bijective fun bytes : Fin 4 → UInt8 =>
      (update { value := v } (List.ofFn bytes)).value := by
  refine ⟨fun calls => ?_, updateByte_bijective, update_bijective⟩
  rw [Call.foldl_run, bitSerial_eq]

end Crc32
end NMC
