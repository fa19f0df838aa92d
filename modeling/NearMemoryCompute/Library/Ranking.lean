import Mathlib

section

variable {α κ : Type}

-- A comparison by which the elements of a set can be sorted: it is a strict order, and elements
-- that are not ordered by it fall into classes.
structure StrictWeakOn (r : α → α → Prop) (s : Set α) : Prop where
  irrefl       : ∀ a ∈ s, ¬r a a
  trans        : ∀ a ∈ s, ∀ b ∈ s, ∀ c ∈ s, r a b → r b c → r a c
  incomp_trans : ∀ a ∈ s, ∀ b ∈ s, ∀ c ∈ s, ¬r a b ∧ ¬r b a → ¬r b c ∧ ¬r c b → ¬r a c ∧ ¬r c a

-- Comparing keys from a linear order is such a comparison.
theorem StrictWeakOn.of_key [LinearOrder κ] {r : α → α → Prop} {s : Set α} (key : α → κ)
    (h : ∀ a ∈ s, ∀ b ∈ s, r a b ↔ key a < key b) : StrictWeakOn r s where
  irrefl a ha := by
    simp [h a ha a ha]
  trans a ha b hb c hc := by
    rw [h a ha b hb, h b hb c hc, h a ha c hc]
    exact lt_trans
  incomp_trans a ha b hb c hc := by
    rw [h a ha b hb, h b hb a ha, h b hb c hc, h c hc b hb, h a ha c hc, h c hc a ha]
    simp only [not_lt]
    intro hab hbc
    exact ⟨hbc.1.trans hab.1, hab.2.trans hbc.2⟩

section Sorting

-- The relation that is sorted by and its negation respect the order of the keys. The relation may
-- distinguish more than the keys do, and it need not be an order.
variable [Preorder κ] {r : α → α → Prop} [DecidableRel r] {l : List α} {a : α} (key : α → κ)

theorem List.Pairwise.orderedInsert_key (hr : ∀ b ∈ l, r a b → key a ≤ key b)
    (hn : ∀ b ∈ l, ¬r a b → key b ≤ key a) (hl : l.Pairwise fun a b => key a ≤ key b) :
    (l.orderedInsert r a).Pairwise fun a b => key a ≤ key b := by
  induction l
  case nil => simp
  case cons b l hi =>
    have ⟨hb, hl⟩ := List.pairwise_cons.mp hl
    have ⟨hrb, hr⟩ := List.forall_mem_cons.mp hr
    have ⟨hnb, hn⟩ := List.forall_mem_cons.mp hn
    rw [List.orderedInsert_cons]
    split
    case isTrue h =>
      have hab := hrb h
      refine List.pairwise_cons.mpr ⟨?_, List.pairwise_cons.mpr ⟨hb, hl⟩⟩
      exact List.forall_mem_cons.mpr ⟨hab, fun c hc => hab.trans (hb c hc)⟩
    case isFalse h =>
      refine List.pairwise_cons.mpr ⟨fun c hc => ?_, hi hr hn hl⟩
      rcases (List.mem_orderedInsert r).mp hc with rfl | hc
      · exact hnb h
      · exact hb c hc

theorem List.pairwise_insertionSort_key (hr : ∀ a ∈ l, ∀ b ∈ l, r a b → key a ≤ key b)
    (hn : ∀ a ∈ l, ∀ b ∈ l, ¬r a b → key b ≤ key a) :
    (l.insertionSort r).Pairwise fun a b => key a ≤ key b := by
  induction l
  case nil => simp
  case cons a l hi =>
    have hm {b : α} (hb : b ∈ l.insertionSort r) : b ∈ a :: l :=
      .tail _ ((mem_insertionSort r).mp hb)
    refine Pairwise.orderedInsert_key key (fun b hb => hr a (.head _) b (hm hb))
      (fun b hb => hn a (.head _) b (hm hb)) (hi ?_ ?_)
    · exact fun b hb c hc => hr b (.tail _ hb) c (.tail _ hc)
    · exact fun b hb c hc => hn b (.tail _ hb) c (.tail _ hc)

-- The first element of a sorted list has the least key.
theorem List.key_head_insertionSort_le {l' : List α} {m : α}
    (hr : ∀ a ∈ l, ∀ b ∈ l, r a b → key a ≤ key b)
    (hn : ∀ a ∈ l, ∀ b ∈ l, ¬r a b → key b ≤ key a) (hm : l.insertionSort r = m :: l') :
    ∀ a ∈ l, key m ≤ key a := by
  have hs := pairwise_insertionSort_key key hr hn
  rw [hm, pairwise_cons] at hs
  intro a ha
  have ha : a ∈ m :: l' := hm ▸ (mem_insertionSort r).mpr ha
  cases ha
  case head    => exact le_rfl
  case tail ha => exact hs.1 a ha

end Sorting

section Unique

variable [LinearOrder κ] {r : α → α → Prop} {l l' : List α} (key : α → κ)

-- A list that is sorted by keys which are all different can be sorted in one way only.
theorem List.Pairwise.lt_of_key (hd : (l.map key).Nodup)
    (hl : l.Pairwise fun a b => key a ≤ key b) : l.Pairwise fun a b => key a < key b := by
  have hd : l.Pairwise fun a b => key a ≠ key b := List.pairwise_map.mp hd
  exact hl.imp₂ (fun _ _ => lt_of_le_of_ne) hd

theorem List.Perm.eq_of_key (hp : l.Perm l') (hl : l.Pairwise fun a b => key a < key b)
    (hl' : l'.Pairwise fun a b => key a < key b) : l = l' :=
  hp.eq_of_pairwise (fun _ _ _ _ h h' => absurd h' h.asymm) hl hl'

end Unique
end
