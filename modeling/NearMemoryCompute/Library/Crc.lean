import Mathlib
import NearMemoryCompute.Library.Fold

-- A cyclic redundancy check in reflected form. The register is shifted down, and the polynomial is
-- added whenever a one leaves it.
namespace Crc

variable {w s : ℕ} (poly : BitVec w)

def shift (c : BitVec w) : BitVec w :=
  if c.getLsbD 0 then poly ^^^ (c >>> 1) else c >>> 1

def shifts (n : ℕ) : BitVec w → BitVec w :=
  (shift poly)^[n]

-- Takes a symbol of the message into the register.
def feed (c : BitVec w) (b : BitVec s) : BitVec w :=
  shifts poly s (c ^^^ b.setWidth w)

def feeds (c : BitVec w) (l : List (BitVec s)) : BitVec w :=
  l.foldl (feed poly) c

-- The bits of a symbol, in the order in which they leave it.
def bits (b : BitVec s) : List (BitVec 1) :=
  (List.range s).map fun i => BitVec.ofBool (b.getLsbD i)

-- The number that a list of symbols stands for, the least significant one first.
def value (l : List (BitVec s)) : ℕ :=
  Nat.ofDigits (2 ^ s) (l.map BitVec.toNat)

variable {poly} {a b c : BitVec w}

theorem getLsbD_shift (c : BitVec w) (i : ℕ) :
    (shift poly c).getLsbD i = ((c.getLsbD 0 && poly.getLsbD i) ^^ c.getLsbD (1 + i)) := by
  unfold shift
  cases c.getLsbD 0 <;> simp

theorem shift_zero : shift poly 0#w = 0#w := by
  simp [shift]

theorem shift_xor : shift poly (a ^^^ b) = shift poly a ^^^ shift poly b := by
  apply BitVec.eq_of_getLsbD_eq
  intro i _
  simp only [getLsbD_shift, BitVec.getLsbD_xor]
  grind

-- The bit that leaves the register is seen at its other end, so nothing is lost.
theorem shift_injective (h : poly.msb) : Function.Injective (shift poly) := by
  intro a b hab
  have bit (i : ℕ) : (shift poly a).getLsbD i = (shift poly b).getLsbD i := by rw [hab]
  simp only [getLsbD_shift] at bit
  have h₀ : a.getLsbD 0 = b.getLsbD 0 := by
    have hw := bit (w - 1)
    rw [← BitVec.msb_eq_getLsbD_last, h, BitVec.getLsbD_of_ge a (1 + (w - 1)) (by omega),
      BitVec.getLsbD_of_ge b (1 + (w - 1)) (by omega)] at hw
    simpa using hw
  apply BitVec.eq_of_getLsbD_eq
  intro i _
  cases i
  case zero => exact h₀
  case succ i _ =>
    have hi := bit i
    rw [h₀, Nat.add_comm] at hi
    exact Bool.xor_right_inj.mp hi

theorem shift_of_low_zero (h : c.getLsbD 0 = false) : shift poly c = c >>> 1 := by
  simp [shift, h]

theorem shifts_zero (n : ℕ) : shifts poly n 0#w = 0#w :=
  Function.iterate_fixed shift_zero n

theorem shifts_xor (n : ℕ) : shifts poly n (a ^^^ b) = shifts poly n a ^^^ shifts poly n b := by
  induction n generalizing a b
  case zero => rfl
  case succ n hi =>
    rw [shifts, Function.iterate_succ_apply, shift_xor]
    exact hi

theorem shifts_injective (h : poly.msb) (n : ℕ) : Function.Injective (shifts poly n) :=
  (shift_injective h).iterate n

-- Bits that are far enough up are only moved.
theorem shifts_shiftLeft {n : ℕ} (h : c.toNat * 2 ^ n < 2 ^ w) : shifts poly n (c <<< n) = c := by
  induction n
  case zero => simp [shifts]
  case succ n hi =>
    have hn : c.toNat * 2 ^ n < 2 ^ w := by
      refine lt_of_le_of_lt ?_ h
      exact Nat.mul_le_mul_left _ (Nat.pow_le_pow_right (by decide) (Nat.le_succ n))
    have hs : shift poly (c <<< (n + 1)) = c <<< n := by
      rw [shift_of_low_zero (by simp)]
      apply BitVec.eq_of_toNat_eq
      simp only [BitVec.toNat_ushiftRight, BitVec.toNat_shiftLeft, Nat.shiftLeft_eq,
        Nat.shiftRight_eq_div_pow, Nat.mod_eq_of_lt h, Nat.mod_eq_of_lt hn, pow_one]
      rw [Nat.pow_succ, ← Nat.mul_assoc, Nat.mul_div_cancel _ (by decide)]
    rw [shifts, Function.iterate_succ_apply, hs]
    exact hi hn

-- The low bits are divided, and the others are moved down.
theorem shifts_eq (n : ℕ) : shifts poly n c =
    shifts poly n (BitVec.ofNat w (c.toNat % 2 ^ n)) ^^^ (c >>> n) := by
  have hc : c = BitVec.ofNat w (c.toNat % 2 ^ n) ^^^ ((c >>> n) <<< n) := by
    apply BitVec.eq_of_getLsbD_eq
    intro i hi
    simp only [BitVec.getLsbD_xor, BitVec.getLsbD_ofNat, BitVec.getLsbD_shiftLeft,
      BitVec.getLsbD_ushiftRight, Nat.testBit_mod_two_pow, BitVec.testBit_toNat, hi]
    by_cases hn : i < n
    case pos => simp [hn]
    case neg => simp [hn, Nat.add_sub_cancel' (Nat.not_lt.mp hn)]
  have hn : (c >>> n).toNat * 2 ^ n < 2 ^ w := by
    rw [BitVec.toNat_ushiftRight, Nat.shiftRight_eq_div_pow]
    exact lt_of_le_of_lt (Nat.div_mul_le_self _ _) c.isLt
  conv_lhs => rw [hc]
  rw [shifts_xor, shifts_shiftLeft hn]

section Feeds

variable {l l' : List (BitVec s)}

theorem value_cons (b : BitVec s) (l : List (BitVec s)) :
    value (b :: l) = b.toNat + 2 ^ s * value l := by
  simp [value, Nat.ofDigits_cons]

theorem value_append (l l' : List (BitVec s)) :
    value (l ++ l') = value l + 2 ^ (s * l.length) * value l' := by
  simp [value, Nat.ofDigits_append, Nat.pow_mul]

theorem value_bits (b : BitVec s) : value (bits b) = b.toNat := by
  have low (n : ℕ) :
      value ((List.range n).map fun i => BitVec.ofBool (b.getLsbD i)) = b.toNat % 2 ^ n := by
    induction n
    case zero => simp [value, Nat.mod_one]
    case succ n hi =>
      have hb : value [BitVec.ofBool (b.getLsbD n)] = b.toNat / 2 ^ n % 2 := by
        simp [value, BitVec.getLsbD, Nat.toNat_testBit]
      rw [List.range_succ, List.map_append, value_append, hi, List.map_singleton, hb,
        Nat.mod_pow_succ]
      simp
  rw [bits, low, Nat.mod_eq_of_lt b.isLt]

theorem value_lt (hs : 0 < s) (l : List (BitVec s)) : value l < 2 ^ (s * l.length) := by
  have h := Nat.ofDigits_lt_base_pow_length (b := 2 ^ s) (l := l.map BitVec.toNat)
    (Nat.one_lt_two_pow hs.ne') (by simp [BitVec.isLt])
  rwa [List.length_map, ← Nat.pow_mul] at h

theorem ofNat_value_cons (b : BitVec s) (l : List (BitVec s)) :
    BitVec.ofNat w (value (b :: l)) = b.setWidth w ^^^ (BitVec.ofNat w (value l) <<< s) := by
  apply BitVec.eq_of_getLsbD_eq
  intro i hi
  rw [value_cons, Nat.add_comm, BitVec.getLsbD_ofNat, Nat.testBit_two_pow_mul_add _ b.isLt]
  simp only [BitVec.getLsbD_xor, BitVec.getLsbD_setWidth, BitVec.getLsbD_shiftLeft,
    BitVec.getLsbD_ofNat, hi]
  by_cases hs : i < s
  case pos => simp [hs, BitVec.testBit_toNat]
  case neg => simp [hs, BitVec.getLsbD_of_ge b i (Nat.not_lt.mp hs), (Nat.sub_le i s).trans_lt hi]

-- As long as the symbols fit into the register, they are added to it as one number.
theorem feeds_eq (hs : 0 < s) (hl : s * l.length ≤ w) :
    feeds poly c l = shifts poly (s * l.length) (c ^^^ BitVec.ofNat w (value l)) := by
  induction l generalizing c
  case nil => simp [feeds, shifts, value]
  case cons b l hi =>
    rw [List.length_cons, Nat.mul_succ] at hl ⊢
    have hv : value l < 2 ^ w :=
      (value_lt hs l).trans_le (Nat.pow_le_pow_right (by decide) (by omega))
    have hm : (BitVec.ofNat w (value l)).toNat * 2 ^ s < 2 ^ w := by
      rw [BitVec.toNat_ofNat, Nat.mod_eq_of_lt hv]
      calc value l * 2 ^ s < 2 ^ (s * l.length) * 2 ^ s :=
            Nat.mul_lt_mul_of_pos_right (value_lt hs l) (by positivity)
        _ = 2 ^ (s * l.length + s) := (Nat.pow_add ..).symm
        _ ≤ 2 ^ w := Nat.pow_le_pow_right (by decide) hl
    calc feeds poly c (b :: l)
        = feeds poly (feed poly c b) l := rfl
      _ = shifts poly (s * l.length) (feed poly c b ^^^ BitVec.ofNat w (value l)) :=
        hi (by omega)
      _ = shifts poly (s * l.length) (shifts poly s
            (c ^^^ BitVec.ofNat w (value (b :: l)))) := by
        rw [ofNat_value_cons, ← BitVec.xor_assoc, shifts_xor s (b := _ <<< _), shifts_shiftLeft hm]
        rfl
      _ = shifts poly (s * l.length + s) (c ^^^ BitVec.ofNat w (value (b :: l))) :=
        (Function.iterate_add_apply ..).symm

theorem feeds_append (c : BitVec w) (l l' : List (BitVec s)) :
    feeds poly c (l ++ l') = feeds poly (feeds poly c l) l' :=
  List.foldl_append

theorem feed_injective (h : poly.msb) (b : BitVec s) : Function.Injective (feed poly · b) := by
  intro c c' hc
  exact (BitVec.xor_left_inj _).mp (shifts_injective h s hc)

theorem feeds_injective (h : poly.msb) (l : List (BitVec s)) :
    Function.Injective fun c => feeds poly c l :=
  List.foldl_injective (feed_injective h) l

-- A symbol can as well be fed bit by bit.
theorem feeds_bits (hs : s ≤ w) (b : BitVec s) : feeds poly c (bits b) = feed poly c b := by
  have hl : 1 * (bits b).length = s := by simp [bits]
  rw [feeds_eq (by decide) (by omega), hl, value_bits, feed]
  congr 2
  exact BitVec.eq_of_toNat_eq (by simp)

theorem feeds_flatMap_bits (hs : s ≤ w) (l : List (BitVec s)) :
    feeds poly c (l.flatMap bits) = feeds poly c l := by
  induction l generalizing c
  case nil => rfl
  case cons b l hi =>
    rw [List.flatMap_cons, feeds_append, feeds_bits hs, hi]
    rfl

theorem feed_bijective (h : poly.msb) (b : BitVec s) :
    Function.Bijective fun c => feed poly c b :=
  Finite.injective_iff_bijective.mp (feed_injective h b)

theorem value_injective (hs : 0 < s) (hl : l.length = l'.length) (hv : value l = value l') :
    l = l' := by
  have h := Nat.ofDigits_inj_of_len_eq (Nat.one_lt_two_pow hs.ne') (by simpa using hl)
    (by simp [BitVec.isLt]) (by simp [BitVec.isLt]) hv
  exact List.map_injective_iff.mpr (fun _ _ => BitVec.eq_of_toNat_eq) h

-- A burst of errors that is not longer than the register changes it.
theorem feeds_burst (h : poly.msb) (hs : 0 < s) {pre mid mid' post : List (BitVec s)}
    (hlen : mid.length = mid'.length) (hl : s * mid.length ≤ w)
    (hf : feeds poly c (pre ++ mid ++ post) = feeds poly c (pre ++ mid' ++ post)) : mid = mid' := by
  have hv (l : List (BitVec s)) (hl : s * l.length ≤ w) : value l < 2 ^ w :=
    (value_lt hs l).trans_le (Nat.pow_le_pow_right (by decide) hl)
  simp only [feeds_append] at hf
  have hf := feeds_injective h post hf
  rw [feeds_eq (l := mid) hs hl, feeds_eq (l := mid') hs (hlen ▸ hl), hlen] at hf
  have hf := congrArg BitVec.toNat ((BitVec.xor_right_inj _).mp (shifts_injective h _ hf))
  rw [BitVec.toNat_ofNat, BitVec.toNat_ofNat, Nat.mod_eq_of_lt (hv mid hl),
    Nat.mod_eq_of_lt (hv mid' (hlen ▸ hl))] at hf
  exact value_injective hs hlen hf

-- As many symbols as fill the register take it from any state to any other, in exactly one way.
theorem feeds_bijective (h : poly.msb) (hs : 0 < s) {n : ℕ} (hn : s * n = w) (c : BitVec w) :
    Function.Bijective fun symbols : Fin n → BitVec s => feeds poly c (List.ofFn symbols) := by
  refine Function.Injective.bijective_of_nat_card_le ?_ ?_
  case refine_1 =>
    intro l l' hf
    have hf : feeds poly c ([] ++ List.ofFn l ++ []) = feeds poly c ([] ++ List.ofFn l' ++ []) := by
      simpa using hf
    exact List.ofFn_injective (feeds_burst h hs (by simp) (by simp [hn]) hf)
  case refine_2 =>
    have card (m : ℕ) : Nat.card (BitVec m) = 2 ^ m := by
      rw [Nat.card_congr BitVec.equivFin.toEquiv, Nat.card_fin]
    rw [Nat.card_pi]
    simp only [card, Finset.prod_const, Finset.card_univ, Fintype.card_fin]
    rw [← Nat.pow_mul, hn]

-- A register that is followed by itself is zero.
theorem feeds_eq_zero_iff (h : poly.msb) (hs : 0 < s) (hl : s * l.length ≤ w) :
    feeds poly c l = 0#w ↔ c = BitVec.ofNat w (value l) := by
  have hz : shifts poly (s * l.length) 0#w = 0#w := shifts_zero _
  rw [feeds_eq hs hl, ← hz,
    (shifts_injective h _).eq_iff, BitVec.xor_eq_zero_iff]

end Feeds
end Crc
