import NearMemoryCompute.Library.Fold
import NearMemoryCompute.Library.Word
import NearMemoryCompute.Execution.Theorems.Honest

namespace NMC

open Coordinator

-- The two outputs have the same length and differ in exactly one byte.
def OneByteApart (o o' : Bytes) : Prop :=
  o.length = o'.length ∧ ∃! i : ℕ, o[i]? ≠ o'[i]?

section Digest

def fnvPrime : UInt64 := 0x100000001b3

def fnvStep (h : UInt64) (b : UInt8) : UInt64 :=
  (h ^^^ b.toUInt64) * fnvPrime

theorem contentDigest_eq (data : Bytes) :
    (contentDigest data).value = data.foldl fnvStep 0xcbf29ce484222325 :=
  rfl

-- The prime is odd, so it has an inverse.
theorem mul_fnvPrime_injective : Function.Injective (· * fnvPrime) := by
  have inverse : Function.LeftInverse (· * 0xce965057aff6957b) (· * fnvPrime) := by
    intro a
    change a * fnvPrime * 0xce965057aff6957b = a
    rw [UInt64.mul_assoc, show fnvPrime * 0xce965057aff6957b = 1 by decide, UInt64.mul_one]
  exact inverse.injective

theorem fnvStep_injective_left (b : UInt8) : Function.Injective (fnvStep · b) := by
  intro h h' he
  exact (UInt64.xor_left_inj _).mp (mul_fnvPrime_injective he)

theorem fnvStep_injective_right (h : UInt64) : Function.Injective (fnvStep h) := by
  intro b b' he
  have hb := (UInt64.xor_right_inj _).mp (mul_fnvPrime_injective he)
  simpa using congrArg UInt64.toUInt8 hb

theorem OneByteApart.contentDigest_ne {o o' : Bytes} (h : OneByteApart o o') :
    contentDigest o ≠ contentDigest o' := by
  obtain ⟨pre, b, b', post, rfl, rfl, hb⟩ := List.exists_eq_append_of_existsUnique h.1 h.2
  intro he
  have he := congrArg ContentDigest.value he
  rw [contentDigest_eq, contentDigest_eq] at he
  exact List.foldl_ne fnvStep_injective_left fnvStep_injective_right hb _ he

theorem hexDigit_injective {d d' : UInt64} (h : d.toNat < 16) (h' : d'.toNat < 16)
    (he : hexDigit d = hexDigit d') : d.toNat = d'.toNat := by
  have table : ∀ a b : Fin 16, hexDigit (.ofNat a) = hexDigit (.ofNat b) → a = b := by
    decide
  rw [← UInt64.ofNat_toNat (x := d), ← UInt64.ofNat_toNat (x := d')] at he
  exact Fin.mk.inj (table ⟨_, h⟩ ⟨_, h'⟩ he)

theorem toNat_nibble (v : UInt64) {i : ℕ} (hi : i < 16) :
    ((v >>> (60 - 4 * i.toUInt64)) &&& 0xF).toNat = v.toNat / 16 ^ (15 - i) % 16 := by
  have shift : ∀ i < 16, (60 - 4 * i.toUInt64).toNat % 64 = 4 * (15 - i) := by
    decide
  rw [UInt64.toNat_shiftRight_and (k := 4) rfl, shift i hi, Nat.pow_mul]
  rfl

-- The sixteen digits determine the digest, from the lowest one up.
theorem toHex_injective : Function.Injective toHex := by
  intro d d' h
  have digit {k : ℕ} (hk : k < 16) :
      d.value.toNat / 16 ^ k % 16 = d'.value.toNat / 16 ^ k % 16 := by
    have hi : 15 - k < 16 := by omega
    have he := List.map_inj_left.mp h (15 - k) (List.mem_range.mpr hi)
    have hn := toNat_nibble d.value hi
    have hn' := toNat_nibble d'.value hi
    rw [show 15 - (15 - k) = k by omega] at hn hn'
    rw [← hn, ← hn']
    apply hexDigit_injective _ _ he
    · omega
    · omega
  have low {k : ℕ} (hk : k ≤ 16) : d.value.toNat % 16 ^ k = d'.value.toNat % 16 ^ k := by
    induction k
    case zero => simp [Nat.mod_one]
    case succ k hi => rw [Nat.mod_pow_succ, Nat.mod_pow_succ, hi (by omega), digit (by omega)]
  have hv : d.value.toNat % 2 ^ 64 = d'.value.toNat % 2 ^ 64 := low le_rfl
  rw [Nat.mod_eq_of_lt (UInt64.toNat_lt _), Nat.mod_eq_of_lt (UInt64.toNat_lt _)] at hv
  cases d
  cases d'
  exact congrArg ContentDigest.mk (UInt64.toNat_inj.mp hv)

end Digest

theorem OneByteApart.not_intact {o : Bytes} {msg : ResultMsg} (h : OneByteApart o msg.output)
    (hd : msg.outputDigest = toHex (contentDigest o)) : ¬intact msg := by
  intro hi
  have hi := (of_decide_eq_true hi).trans hd
  exact h.contentDigest_ne (toHex_injective hi).symm

-- An output of which one byte has been changed fails its plan, and commits nothing.
theorem corrupted_output_fails [Platform] {cid : CoordinatorId} {run : List Op} {msg : ResultMsg}
    {plan : ExecutionPlan} (hp : (after cid run).plans[msg.plan]? = some plan)
    (ha : Accepts (after cid run) plan msg) (hu : !msg.unknown) {o : Bytes}
    (ho : OneByteApart o msg.output) (hd : msg.outputDigest = toHex (contentDigest o))
    (rid : ResultId) :
    let st' := after cid (.applyResult rid msg :: run)
    ∃ res, (applyResult rid msg (after cid run)).fst = .ok res ∧ st'.results[rid]? = some res ∧
      res.verification = .mismatch ∧ !res.committed ∧
      st'.plans[msg.plan]? = some { plan with lifecycle := .failed } ∧
      ∀ (id : ResultId) (res' : ExecutionResult), st'.results[id]? = some res' → res'.committed →
        (after cid run).results[id]? = some res' := by
  intro st'
  have h := applyResult_mismatch hp ha hu (ho.not_intact hd) rid
  have hst : st' = (applyResult rid msg (after cid run)).snd := rfl
  rw [hst, h]
  refine ⟨_, rfl, Table.getElem?_insert_self .., rfl, rfl,
    Table.getElem?_insert_self .., ?_⟩
  intro id res' hr hc
  rcases Table.getElem?_insert_eq_some hr with ⟨_, rfl⟩ | ⟨_, hr⟩
  · contradiction
  · exact hr

open Deployment in
theorem corrupted_output_fails_of_deployment :
    let msg := { completion with output := [1], outputDigest := toHex (contentDigest [0]) }
    OneByteApart [0] msg.output ∧
    ∃ plan res, (after { value := 1 } (dispatch ++ setup)).plans[msg.plan]? = some plan ∧
      plan.lifecycle = .dispatched ∧ res.verification = .mismatch ∧
      (after { value := 1 } (.applyResult { value := 40 } msg :: dispatch ++ setup)).results[
        ({ value := 40 } : ResultId)]? = some res := by
  intro msg
  have ho : OneByteApart [0] msg.output := by
    refine ⟨rfl, 0, by decide, ?_⟩
    intro i hi
    by_contra h0
    obtain ⟨i, rfl⟩ := Nat.exists_eq_succ_of_ne_zero h0
    exact hi rfl
  have hx : ((after { value := 1 } (dispatch ++ setup)).plans[msg.plan]?.map fun plan =>
      (plan.lifecycle, completionError (after { value := 1 } (dispatch ++ setup)) plan msg)) =
        some (.dispatched, none) := by
    decide +kernel
  have ⟨plan, hp, hx⟩ := Option.map_eq_some_iff.mp hx
  have ha := completionError_eq_none.mp (Prod.mk.inj hx).2
  have ⟨res, _, hres, hv, _⟩ := corrupted_output_fails hp ha rfl ho rfl { value := 40 }
  exact ⟨ho, plan, res, hp, (Prod.mk.inj hx).1, hv, hres⟩

end NMC
