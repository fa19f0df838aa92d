import NearMemoryCompute.Library.Ranking
import NearMemoryCompute.Objects.Planning

namespace NMC
namespace RankedCandidate

variable {a b : RankedCandidate}

-- The keys by which candidates are compared, the most significant one first. Less is better, except
-- for the movement that is avoided and for the confidence.
def keys (c : RankedCandidate) : ℕ ×ₗ ℕᵒᵈ ×ₗ ℕ ×ₗ ℤᵒᵈ ×ₗ ℕ :=
  toLex (c.totalCostNs.toNat, toLex (OrderDual.toDual c.movementAvoidedBytes.toNat,
    toLex (c.estimatedLatencyNs.toNat,
      toLex (OrderDual.toDual c.confidence.key, c.target.value.toNat))))

theorem before_iff_keys (ha : !a.confidence.isNaN) (hb : !b.confidence.isNaN) :
    a.before b ↔ a.keys < b.keys := by
  simp only [Bool.not_eq_true'] at ha hb
  simp only [keys, Prod.Lex.toLex_lt_toLex, OrderDual.toDual_lt_toDual, OrderDual.toDual_inj,
    UInt64.toNat_inj, ← UInt64.lt_iff_toNat_lt]
  by_cases ht : a.totalCostNs = b.totalCostNs
  case neg => simp [before, ht]
  case pos =>
    by_cases hm : a.movementAvoidedBytes = b.movementAvoidedBytes
    case neg => simp [before, ht, hm]
    case pos =>
      by_cases hl : a.estimatedLatencyNs = b.estimatedLatencyNs
      case neg => simp [before, ht, hm, hl]
      case pos =>
        by_cases hk : a.confidence.key = b.confidence.key
        case neg => simp [before, ht, hm, hl, F64.ne, F64.lt, ha, hb, hk]
        case pos => simp [before, ht, hm, hl, F64.ne, ha, hb, hk]

theorem target_eq_of_keys (h : a.keys = b.keys) : a.target = b.target := by
  simp only [keys, toLex_inj, Prod.mk.injEq, UInt64.toNat_inj] at h
  have ht := h.2.2.2.2
  cases ha : a.target
  cases hb : b.target
  simp_all

end RankedCandidate

section Ranking

open RankedCandidate

variable {l l' : List RankedCandidate}

-- The candidates are told apart by their targets, and all confidences are numbers.
structure Rankable (l : List RankedCandidate) : Prop where
  targets : (l.map (·.target)).Nodup
  numbers : ∀ c ∈ l, !c.confidence.isNaN

theorem Rankable.perm (h : Rankable l) (hp : l'.Perm l) : Rankable l' where
  targets     := ((hp.map _).nodup_iff).mpr h.targets
  numbers c hc := h.numbers c (hp.mem_iff.mp hc)

theorem Rankable.before_iff (h : Rankable l) :
    ∀ a ∈ l, ∀ b ∈ l, a.before b ↔ a.keys < b.keys :=
  fun a ha b hb => before_iff_keys (h.numbers a ha) (h.numbers b hb)

theorem Rankable.keys_le {a b : RankedCandidate} (h : Rankable l) (ha : a ∈ l) (hb : b ∈ l)
    (hn : !b.before a) : a.keys ≤ b.keys := by
  refine not_lt.mp fun hlt => ?_
  simp [(h.before_iff b hb a ha).mpr hlt] at hn

theorem Rankable.keys (h : Rankable l) : (l.map RankedCandidate.keys).Nodup := by
  have ht : l.Pairwise fun a b => a.target ≠ b.target := List.pairwise_map.mp h.targets
  exact List.pairwise_map.mpr (ht.imp fun hne he => hne (target_eq_of_keys he))

-- A list in which no candidate comes before an earlier one is strictly sorted.
theorem Rankable.sorted (h : Rankable l) (hs : l.Pairwise fun a b => !b.before a) :
    l.Pairwise fun a b => a.keys < b.keys := by
  refine List.Pairwise.lt_of_key RankedCandidate.keys h.keys (hs.imp_of_mem ?_)
  exact fun ha hb hn => h.keys_le ha hb hn

theorem rankCandidates_perm (l : List RankedCandidate) : (rankCandidates l).Perm l :=
  List.perm_insertionSort _ l

theorem Rankable.rankCandidates (h : Rankable l) :
    (rankCandidates l).Pairwise fun a b => a.keys < b.keys := by
  refine List.Pairwise.lt_of_key RankedCandidate.keys (h.perm (rankCandidates_perm l)).keys ?_
  refine List.pairwise_insertionSort_key RankedCandidate.keys ?_ ?_
  · exact fun a ha b hb hn => h.keys_le ha hb hn
  · intro a ha b hb hn
    have hlt : b.keys < a.keys := by simpa [h.before_iff b hb a ha] using hn
    exact hlt.le

-- The ranking is the only list of the candidates that is sorted, so it does not depend on the order
-- in which they are given, nor on how they are sorted.
theorem rankCandidates_unique (l : List RankedCandidate)
    (ht : (l.map (·.target)).Nodup) (hn : ∀ c ∈ l, !c.confidence.isNaN) :
    StrictWeakOn (fun a b : RankedCandidate => a.before b) { c | c ∈ l } ∧
    (rankCandidates l).Perm l ∧
    (rankCandidates l).Pairwise (fun a b => a.before b) ∧
    (∀ l', l'.Perm l → rankCandidates l' = rankCandidates l) ∧
    ∀ l', l'.Perm l → l'.Pairwise (fun a b => !b.before a) → l' = rankCandidates l := by
  have h : Rankable l := ⟨ht, hn⟩
  have hp := rankCandidates_perm l
  refine ⟨.of_key RankedCandidate.keys h.before_iff, hp, ?_, ?_, ?_⟩
  · refine h.rankCandidates.imp_of_mem ?_
    intro a b ha hb hlt
    exact (h.before_iff a (hp.mem_iff.mp ha) b (hp.mem_iff.mp hb)).mpr hlt
  · intro l' hl
    refine List.Perm.eq_of_key RankedCandidate.keys ?_ (h.perm hl).rankCandidates h.rankCandidates
    exact (rankCandidates_perm l').trans (hl.trans hp.symm)
  · intro l' hl hs
    exact List.Perm.eq_of_key RankedCandidate.keys (hl.trans hp.symm) ((h.perm hl).sorted hs)
      h.rankCandidates

-- Two candidates that differ in nothing but their targets.
theorem rankCandidates_unique_of_tie :
    let a : RankedCandidate := { target := { value := 1 } }
    let b : RankedCandidate := { target := { value := 2 } }
    rankCandidates [a, b] = rankCandidates [b, a] :=
  (rankCandidates_unique _ (by decide) (by decide)).2.2.2.1 _ (.swap ..)

end Ranking
end NMC
