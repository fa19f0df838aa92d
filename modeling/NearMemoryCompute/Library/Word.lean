import Mathlib

namespace UInt64

-- None of the additions by which the terms are added up, from left to right, wraps around.
def NoWrap : UInt64 → List UInt64 → Prop
  | _, []      => True
  | s, x :: xs => s.toNat + x.toNat < 2 ^ 64 ∧ NoWrap (s + x) xs

def exactSum (s : UInt64) (xs : List UInt64) : ℕ :=
  s.toNat + (xs.map UInt64.toNat).sum

variable {s x : UInt64} {xs : List UInt64}

theorem exactSum_cons : exactSum s (x :: xs) = s.toNat + x.toNat + (xs.map UInt64.toNat).sum := by
  simp [exactSum, Nat.add_assoc]

theorem noWrap_iff : NoWrap s xs ↔ exactSum s xs < 2 ^ 64 := by
  induction xs generalizing s
  case nil => simpa [NoWrap, exactSum] using s.toNat_lt
  case cons x xs hi =>
    simp only [NoWrap, hi, exactSum_cons]
    constructor
    case mp =>
      intro ⟨hx, hs⟩
      rwa [exactSum, UInt64.toNat_add, Nat.mod_eq_of_lt hx] at hs
    case mpr =>
      intro hs
      have hx : s.toNat + x.toNat < 2 ^ 64 := by omega
      rw [exactSum, UInt64.toNat_add, Nat.mod_eq_of_lt hx]
      exact ⟨hx, hs⟩

theorem toNat_foldl_add : (xs.foldl (· + ·) s).toNat = exactSum s xs % 2 ^ 64 := by
  induction xs generalizing s
  case nil => simp [exactSum]
  case cons x xs hi => simp [hi, exactSum, Nat.add_assoc]

-- Shifting and masking select digits of a number.
theorem toNat_shiftRight_and {v s mask : UInt64} {k : ℕ} (hm : mask.toNat = 2 ^ k - 1) :
    ((v >>> s) &&& mask).toNat = v.toNat / 2 ^ (s.toNat % 64) % 2 ^ k := by
  rw [UInt64.toNat_and, UInt64.toNat_shiftRight, hm, Nat.and_two_pow_sub_one_eq_mod,
    Nat.shiftRight_eq_div_pow]

-- A sum is exact just if no addition wraps around.
theorem toNat_foldl_add_eq : (xs.foldl (· + ·) s).toNat = exactSum s xs ↔ NoWrap s xs := by
  rw [toNat_foldl_add, noWrap_iff]
  exact Nat.mod_eq_iff_lt (by decide)

-- A word below another one, or that is not the greatest one, has a successor.
theorem toNat_add_one_of_lt {a b : UInt64} (h : a < b) : (a + 1).toNat = a.toNat + 1 := by
  have hb := b.toNat_lt
  rw [UInt64.lt_iff_toNat_lt] at h
  rw [UInt64.toNat_add, Nat.mod_eq_of_lt (by simp; omega)]
  rfl

theorem lt_add_one_of_ne {a : UInt64} (h : a ≠ 0xFFFFFFFFFFFFFFFF) : a < a + 1 := by
  have hn : a.toNat ≠ (0xFFFFFFFFFFFFFFFF : UInt64).toNat := fun he => h (UInt64.toNat_inj.mp he)
  have hl := a.toNat_lt
  simp at hn
  rw [UInt64.lt_iff_toNat_lt, UInt64.toNat_add]
  simp
  omega

end UInt64

-- The greatest one of some bytes does not depend on how they are grouped.
instance UInt8.associative_max : Std.Associative (max : UInt8 → UInt8 → UInt8) where
  assoc a b c := by
    apply UInt8.toNat_inj.mp
    simp only [UInt8.toNat_max, Nat.max_assoc]

instance UInt8.idempotent_max : Std.IdempotentOp (max : UInt8 → UInt8 → UInt8) where
  idempotent a := by
    apply UInt8.toNat_inj.mp
    simp only [UInt8.toNat_max, Nat.max_self]
