import Mathlib

open Std

-- A finite map with ordered keys. Iteration runs through the keys in increasing order, and two
-- tables with the same entries are equal.
abbrev Table (κ : Type) [Ord κ] (α : Type) := ExtTreeMap κ α compare

namespace Table

variable {κ ι α β : Type} [Ord κ] [TransOrd κ] [LawfulEqOrd κ]

omit [LawfulEqOrd κ] in
theorem mem_of_some {m : Table κ α} {k : κ} {a : α} (h : m[k]? = some a) : k ∈ m :=
  ExtTreeMap.mem_iff_isSome_getElem?.mpr (by simp [h])

omit [LawfulEqOrd κ] in
theorem exists_of_mem {m : Table κ α} {k : κ} (h : k ∈ m) : ∃ a : α, m[k]? = some a :=
  Option.isSome_iff_exists.mp (ExtTreeMap.mem_iff_isSome_getElem?.mp h)

theorem getElem?_insert_self (m : Table κ α) (k : κ) (a : α) : (m.insert k a)[k]? = some a := by
  simp

theorem getElem?_insert_ne {k k' : κ} (m : Table κ α) (a : α) (h : k ≠ k') :
    (m.insert k a)[k']? = m[k']? := by
  rw [ExtTreeMap.getElem?_insert]
  simp [h]

theorem getElem?_insert_eq_some {m : Table κ α} {k k' : κ} {a b : α}
    (h : (m.insert k a)[k']? = some b) : (k = k' ∧ a = b) ∨ (k ≠ k' ∧ m[k']? = some b) := by
  rw [ExtTreeMap.getElem?_insert] at h
  by_cases hk : k = k' <;> simp_all

omit [LawfulEqOrd κ] in
theorem getElem?_map_eq_some {m : Table κ α} {f : α → β} {k : κ} {b : β}
    (h : (m.map fun _ => f)[k]? = some b) : ∃ a : α, m[k]? = some a ∧ f a = b := by
  simpa using h

theorem getElem?_erase_eq_some {m : Table κ α} {k k' : κ} {a : α} (h : (m.erase k)[k']? = some a) :
    k ≠ k' ∧ m[k']? = some a := by
  rw [ExtTreeMap.getElem?_erase] at h
  by_cases hk : k = k' <;> simp_all

theorem erase_of_none {m : Table κ α} {k : κ} (h : m[k]? = none) : m.erase k = m := by
  apply ExtTreeMap.ext_getElem?
  intro k'
  rw [ExtTreeMap.getElem?_erase]
  by_cases hk : k = k' <;> simp_all

omit [LawfulEqOrd κ] in
theorem getElem?_filter_eq_some {m : Table κ α} {p : α → Bool} {k : κ} {a : α} :
    (m.filter fun _ => p)[k]? = some a ↔ m[k]? = some a ∧ p a := by
  simp [Option.filter_eq_some_iff]

-- An entry after one value has been stored under many keys.
theorem getElem?_foldl_insert_eq_some {l : List β} {key : β → κ} {m : Table κ α} {k : κ} {a b : α}
    (h : (l.foldl (fun m e => m.insert (key e) a) m)[k]? = some b) :
    m[k]? = some b ∨ b = a ∧ ∃ e ∈ l, key e = k := by
  induction l generalizing m
  case nil => exact .inl h
  case cons e l hi =>
    cases hi h
    case inr h =>
      have ⟨hb, e', hm, hk⟩ := h
      exact .inr ⟨hb, e', .tail _ hm, hk⟩
    case inl h =>
      rcases getElem?_insert_eq_some h with ⟨hk, rfl⟩ | ⟨_, h⟩
      · exact .inr ⟨rfl, e, .head _, hk⟩
      · exact .inl h

-- Reading an entry that may be missing: the missing entry is created with the default value.
def subscript [Inhabited α] (m : Table κ α) (k : κ) : α × Table κ α :=
  (m.getD k default, m.insertIfNew k default)

section Subscript

variable [Inhabited α] (m : Table κ α) (k k' : κ)

omit [LawfulEqOrd κ] in
theorem subscript_fst_of_some {a : α} (h : m[k]? = some a) : (subscript m k).fst = a := by
  simp [subscript, ExtTreeMap.getD_eq_getD_getElem?, h]

theorem subscript_snd_of_some {a : α} (h : m[k]? = some a) : (subscript m k).snd = m := by
  have hm : k ∈ m := mem_of_some h
  apply ExtTreeMap.ext_getElem?
  intro k'
  rw [subscript, ExtTreeMap.getElem?_insertIfNew]
  simp [hm]

theorem subscript_snd_of_notMem (h : k ∉ m) : (subscript m k).snd = m.insert k default := by
  apply ExtTreeMap.ext_getElem?
  intro k'
  rw [subscript, ExtTreeMap.getElem?_insertIfNew, ExtTreeMap.getElem?_insert]
  by_cases hk : k = k' <;> simp_all

-- Creating the missing entry is invisible to a reader that falls back to the default itself.
theorem getD_subscript_snd :
    (subscript m k).snd[k']?.getD default = m[k']?.getD default := by
  rw [subscript, ExtTreeMap.getElem?_insertIfNew]
  split
  case isTrue h =>
    obtain ⟨he, hn⟩ := h
    have he := LawfulEqCmp.eq_of_compare he
    subst he
    simp [ExtTreeMap.getElem?_eq_none hn]
  case isFalse => rfl

end Subscript

-- Every entry has the property, which may look at the key.
def All (P : κ → α → Prop) (m : Table κ α) : Prop :=
  ∀ ⦃k a⦄, m[k]? = some a → P k a

namespace All

variable {P : κ → α → Prop} {m : Table κ α}

omit [LawfulEqOrd κ] in
theorem empty : All P (∅ : Table κ α) := by
  intro k a h
  simp at h

theorem insert (hm : All P m) {k : κ} {a : α} (h : P k a) : All P (m.insert k a) := by
  intro k' a' ha
  rcases getElem?_insert_eq_some ha with ⟨rfl, rfl⟩ | ⟨_, ha⟩
  · exact h
  · exact hm ha

omit [LawfulEqOrd κ] in
theorem map {f : α → α} (hm : All P m) (h : ∀ ⦃k a⦄, P k a → P k (f a)) :
    All P (m.map fun _ => f) := by
  intro k a ha
  obtain ⟨b, hb, rfl⟩ := getElem?_map_eq_some ha
  exact h (hm hb)

theorem erase (hm : All P m) (k : κ) : All P (m.erase k) :=
  fun _ _ h => hm (getElem?_erase_eq_some h).2

theorem foldl_insert {l : List β} {key : β → κ} {val : β → α} (hm : All P m)
    (h : ∀ e ∈ l, P (key e) (val e)) : All P (l.foldl (fun m e => m.insert (key e) (val e)) m) := by
  induction l generalizing m
  case nil => exact hm
  case cons e l hi => exact hi (hm.insert (h e (.head _))) fun e he => h e (.tail _ he)

theorem of_toList (h : ∀ e ∈ m.toList, P e.1 e.2) : All P m :=
  fun k a ha => h (k, a) (ExtTreeMap.mem_toList_iff_getElem?_eq_some.mpr ha)

end All

-- Every entry is still there, and it has moved along the relation.
def Grows (r : α → α → Prop) (m m' : Table κ α) : Prop :=
  ∀ ⦃k : κ⦄ ⦃a : α⦄, m[k]? = some a → ∃ a' : α, m'[k]? = some a' ∧ r a a'

namespace Grows

variable {r : α → α → Prop} {m m' m'' : Table κ α}

omit [LawfulEqOrd κ] in
theorem refl (hr : ∀ a, r a a) : Grows r m m :=
  fun _ a h => ⟨a, h, hr a⟩

omit [LawfulEqOrd κ] in
theorem trans (hr : ∀ {a b c}, r a b → r b c → r a c) (h : Grows r m m') (h' : Grows r m' m'') :
    Grows r m m'' := by
  intro k a ha
  have ⟨b, hb, hab⟩ := h ha
  have ⟨c, hc, hbc⟩ := h' hb
  exact ⟨c, hc, hr hab hbc⟩

omit [LawfulEqOrd κ] in
theorem map {f : α → α} (hf : ∀ a, r a (f a)) : Grows r m (m.map fun _ => f) := by
  intro k a ha
  exact ⟨f a, by simp [ha], hf a⟩

theorem insert_iff (hr : ∀ a, r a a) {k : κ} {b : α} :
    Grows r m (m.insert k b) ↔ ∀ a ∈ m[k]?, r a b := by
  constructor
  case mp =>
    intro h a ha
    have ⟨b', hb, hab⟩ := h ha
    rw [getElem?_insert_self] at hb
    exact Option.some.inj hb ▸ hab
  case mpr =>
    intro h k' a ha
    by_cases hk : k = k'
    case pos =>
      subst hk
      exact ⟨b, getElem?_insert_self _ _ _, h a ha⟩
    case neg => exact ⟨a, (getElem?_insert_ne _ _ hk).trans ha, hr a⟩

end Grows

-- Every entry is stored under its own key.
def Keyed (key : α → κ) (m : Table κ α) : Prop :=
  ∀ ⦃k a⦄, m[k]? = some a → key a = k

namespace Keyed

variable {key : α → κ} {m : Table κ α}

omit [LawfulEqOrd κ] in
theorem empty : Keyed key (∅ : Table κ α) :=
  All.empty

theorem insert (hm : Keyed key m) {k : κ} {a : α} (h : key a = k) : Keyed key (m.insert k a) :=
  All.insert hm h

end Keyed

-- The entries that `f` selects, each stored under the key `f` gives it. Of several entries with one
-- key the one that iteration meets last is kept.
def collect [Ord ι] [TransOrd ι] (f : α → Option (ι × β)) (m : Table κ α) : Table ι β :=
  m.foldl (fun acc _ a => match f a with | some e => acc.insert e.1 e.2 | none => acc) ∅

section Collect

variable [Ord ι] [TransOrd ι] [LawfulEqOrd ι] {m : Table κ α} {f : α → Option (ι × β)}

omit [LawfulEqOrd κ] [LawfulEqOrd ι] in
private theorem collect_eq_foldl :
    collect f m = m.toList.foldl
      (fun acc e => match f e.2 with | some e => acc.insert e.1 e.2 | none => acc) ∅ := by
  rw [collect, ExtTreeMap.foldl_eq_foldl_toList]

-- The two directions of what the collected table holds are inductions over the fold, in which the
-- table collected so far is arbitrary.
omit [Ord κ] [TransOrd κ] [LawfulEqOrd κ] in
private theorem foldl_some {l : List (κ × α)} {acc : Table ι β} {i : ι} {b : β}
    (h : (l.foldl
      (fun acc e => match f e.2 with | some e => acc.insert e.1 e.2 | none => acc)
      acc)[i]? = some b) :
    acc[i]? = some b ∨ ∃ e ∈ l, f e.2 = some (i, b) := by
  induction l generalizing acc
  case nil => exact .inl h
  case cons e l hi =>
    rw [List.foldl_cons] at h
    cases hi h
    case inr h =>
      obtain ⟨e', hm, h⟩ := h
      exact .inr ⟨e', .tail _ hm, h⟩
    case inl h =>
      cases he : f e.2 <;> simp only [he] at h
      case none => exact .inl h
      case some e' =>
        by_cases hk : e'.1 = i
        case pos =>
          subst hk
          simp at h
          exact .inr ⟨e, .head _, by rw [he, ← h]⟩
        case neg =>
          rw [getElem?_insert_ne acc e'.2 hk] at h
          exact .inl h

omit [Ord κ] [TransOrd κ] [LawfulEqOrd κ] in
private theorem foldl_isSome {l : List (κ × α)} {acc : Table ι β} {i : ι}
    (h : acc[i]?.isSome ∨ ∃ e ∈ l, ∃ b, f e.2 = some (i, b)) :
    (l.foldl (fun acc e => match f e.2 with | some e => acc.insert e.1 e.2 | none => acc)
      acc)[i]?.isSome := by
  induction l generalizing acc
  case nil => simpa using h
  case cons e l hi =>
    rw [List.foldl_cons]
    apply hi
    rcases h with h | ⟨e', hm, b, h⟩
    · left
      cases he : f e.2
      case none => simpa [he] using h
      case some e' =>
        by_cases hk : e'.1 = i
        · subst hk; simp
        · simpa [getElem?_insert_ne acc e'.2 hk] using h
    · cases hm
      case head => left; simp [h]
      case tail hm => exact .inr ⟨e', hm, b, h⟩

theorem collect_eq_some {i : ι} {b : β} (h : (collect f m)[i]? = some b) :
    ∃ (k : κ) (a : α), m[k]? = some a ∧ f a = some (i, b) := by
  rw [collect_eq_foldl] at h
  cases foldl_some h
  case inl h => simp at h
  case inr h =>
    obtain ⟨⟨k, a⟩, hm, hf⟩ := h
    exact ⟨k, a, ExtTreeMap.mem_toList_iff_getElem?_eq_some.mp hm, hf⟩

theorem isSome_collect {k : κ} {a : α} {i : ι} {b : β} (ha : m[k]? = some a)
    (hf : f a = some (i, b)) : (collect f m)[i]?.isSome := by
  rw [collect_eq_foldl]
  exact foldl_isSome <| .inr ⟨(k, a), ExtTreeMap.mem_toList_iff_getElem?_eq_some.mpr ha, b, hf⟩

end Collect

theorem nodup_map_fst_toList (m : Table κ α) : (m.toList.map Prod.fst).Nodup := by
  refine List.pairwise_map.mpr ?_
  refine (ExtTreeMap.distinct_keys_toList (t := m)).imp ?_
  intro a b hne hab
  exact hne (by simp [hab])

-- The sum of a measure over all entries.
def total (f : α → ℕ) (m : Table κ α) : ℕ :=
  (m.toList.map fun e => f e.2).sum

section Total

variable {f g : α → ℕ} {m : Table κ α} {k : κ}

theorem nodup_toList (m : Table κ α) : m.toList.Nodup :=
  (nodup_map_fst_toList m).of_map

theorem toList_insert_perm (a : α) (h : m[k]? = none) :
    (m.insert k a).toList.Perm ((k, a) :: m.toList) := by
  have hk : (k, a) ∉ m.toList := by
    simp [ExtTreeMap.mem_toList_iff_getElem?_eq_some, h]
  apply (List.perm_ext_iff_of_nodup (nodup_toList _) (by simp [hk, nodup_toList])).mpr
  rintro ⟨k', a'⟩
  rw [List.mem_cons, ExtTreeMap.mem_toList_iff_getElem?_eq_some,
    ExtTreeMap.mem_toList_iff_getElem?_eq_some]
  by_cases hk : k = k'
  case pos => subst hk; simp [h, eq_comm]
  case neg => simp [getElem?_insert_ne m a hk, Ne.symm hk]

theorem total_insert_of_none (a : α) (h : m[k]? = none) :
    total f (m.insert k a) = total f m + f a := by
  simp [total, ((toList_insert_perm a h).map _).sum_eq, Nat.add_comm]

theorem insert_erase_self (m : Table κ α) (k : κ) (a : α) :
    (m.erase k).insert k a = m.insert k a := by
  apply ExtTreeMap.ext_getElem?
  intro k'
  by_cases h : k = k'
  case pos => subst h; simp
  case neg => simp [getElem?_insert_ne _ _ h, ExtTreeMap.getElem?_erase, h]

theorem insert_of_some {a : α} (h : m[k]? = some a) : m.insert k a = m := by
  apply ExtTreeMap.ext_getElem?
  intro k'
  by_cases hk : k = k'
  case pos => subst hk; simp [h]
  case neg => rw [getElem?_insert_ne m a hk]

theorem map_eq_self {g : α → α} (h : ∀ (k : κ) (a : α), m[k]? = some a → g a = a) :
    m.map (fun _ => g) = m := by
  apply ExtTreeMap.ext_getElem?
  intro k'
  cases hk : m[k']?
  case none   => simp [hk]
  case some a => simp [hk, h k' a hk]

-- Replacing an entry takes the old measure out of the total and puts the new one in.
theorem total_insert_of_some {a b : α} (h : m[k]? = some b) :
    total f (m.insert k a) + f b = total f m + f a := by
  have hn : (m.erase k)[k]? = none := by simp
  rw [← insert_erase_self m k a, total_insert_of_none a hn, ← insert_of_some h,
    ← insert_erase_self m k b, total_insert_of_none b hn, insert_erase_self, insert_of_some h]
  omega

theorem le_total {a : α} (h : m[k]? = some a) : f a ≤ total f m :=
  List.single_le_sum (by simp) _
    (List.mem_map_of_mem (ExtTreeMap.mem_toList_iff_getElem?_eq_some.mpr h))

theorem total_insert_le (f : α → ℕ) (m : Table κ α) (k : κ) (a : α) :
    total f (m.insert k a) ≤ total f m + f a := by
  cases h : m[k]?
  case none   => exact (total_insert_of_none a h).le
  case some b =>
    have := total_insert_of_some (f := f) (a := a) h
    omega

theorem total_le_total (h : ∀ (k : κ) (a : α), m[k]? = some a → f a ≤ g a) :
    total f m ≤ total g m := by
  apply List.sum_le_sum
  rintro ⟨k, a⟩ hm
  exact h k a <| ExtTreeMap.mem_toList_iff_getElem?_eq_some.mp hm

theorem total_congr (h : ∀ (k : κ) (a : α), m[k]? = some a → f a = g a) : total f m = total g m :=
  Nat.le_antisymm (total_le_total fun k a ha => (h k a ha).le)
    (total_le_total fun k a ha => (h k a ha).ge)

omit [LawfulEqOrd κ] in
theorem total_map (h : β → α) (m : Table κ β) : total f (m.map fun _ => h) = total (f ∘ h) m := by
  simp [total, ExtTreeMap.toList_map, Function.comp_def]

theorem total_eq_zero (h : ∀ (k : κ) (a : α), m[k]? = some a → f a = 0) : total f m = 0 := by
  rw [total_congr (g := fun _ => 0) h]
  simp [total]

omit [LawfulEqOrd κ] in
theorem total_empty : total f (∅ : Table κ α) = 0 := by
  rfl

end Total

-- Stores the entries one after the other, each under its own key.
def store (key : α → κ) (l : List α) (m : Table κ α) : Table κ α :=
  l.foldl (fun m a => m.insert (key a) a) m

section Store

variable {key : α → κ} {l : List α} {m : Table κ α}

theorem mem_store {k : κ} : k ∈ store key l m ↔ k ∈ m ∨ k ∈ l.map key := by
  induction l generalizing m
  case nil => simp [store]
  case cons a l hi =>
    rw [store, List.foldl_cons, ← store, hi, ExtTreeMap.mem_insert, Std.compare_eq_iff_eq,
      List.map_cons, List.mem_cons, eq_comm (a := k)]
    tauto

theorem getElem?_store_eq_some {k : κ} {a : α} (h : (store key l m)[k]? = some a) :
    a ∈ l ∨ m[k]? = some a := by
  induction l generalizing m
  case nil => exact .inr h
  case cons b l hi =>
    rcases hi h with hl | hm
    · exact .inl (.tail _ hl)
    · rcases getElem?_insert_eq_some hm with ⟨_, rfl⟩ | ⟨_, hm⟩
      · exact .inl (.head _)
      · exact .inr hm

theorem getElem?_store_of_notMem {k : κ} (h : k ∉ l.map key) : (store key l m)[k]? = m[k]? := by
  induction l generalizing m
  case nil => rfl
  case cons a l hi =>
    have ⟨hk, hl⟩ := not_or.mp (List.mem_cons.not.mp h)
    rw [store, List.foldl_cons, ← store, hi hl, getElem?_insert_ne m a (Ne.symm hk)]

theorem getElem?_store_of_mem (hn : (l.map key).Nodup) {a : α} (h : a ∈ l) :
    (store key l m)[key a]? = some a := by
  induction l generalizing m
  case nil => simp at h
  case cons b l hi =>
    have ⟨hb, hn⟩ := List.nodup_cons.mp hn
    rw [store, List.foldl_cons, ← store]
    cases h
    case head   => rw [getElem?_store_of_notMem hb, getElem?_insert_self]
    case tail h => exact hi hn h

omit [LawfulEqOrd κ] in
theorem size_store_le : (store key l m).size ≤ m.size + l.length := by
  induction l generalizing m
  case nil => simp [store]
  case cons a l hi =>
    rw [store, List.foldl_cons, ← store, List.length_cons]
    have h := ExtTreeMap.size_insert_le (t := m) (k := key a) (v := a)
    have hl := hi (m := m.insert (key a) a)
    omega

theorem Keyed.store (h : Keyed key m) : Keyed key (store key l m) := by
  induction l generalizing m
  case nil => exact h
  case cons a l hi => exact hi (h.insert rfl)

theorem Keyed.getElem?_of_mem (h : Keyed key m) {a : α} (ha : a ∈ m.toList.map Prod.snd) :
    m[key a]? = some a := by
  obtain ⟨⟨k, a⟩, hm, rfl⟩ := List.mem_map.mp ha
  have hk := ExtTreeMap.mem_toList_iff_getElem?_eq_some.mp hm
  rwa [← h hk] at hk

theorem Keyed.map_toList (h : Keyed key m) :
    (m.toList.map Prod.snd).map key = m.toList.map Prod.fst := by
  rw [List.map_map]
  refine List.map_congr_left ?_
  rintro ⟨k, a⟩ hm
  exact h (ExtTreeMap.mem_toList_iff_getElem?_eq_some.mp hm)

-- A table is restored by storing its entries again.
theorem store_toList (h : Keyed key m) : store key (m.toList.map Prod.snd) ∅ = m := by
  have hn := nodup_map_fst_toList m
  rw [← h.map_toList] at hn
  apply ExtTreeMap.ext_getElem?
  intro k
  cases hk : m[k]?
  case some a =>
    have hm : (k, a) ∈ m.toList := ExtTreeMap.mem_toList_iff_getElem?_eq_some.mpr hk
    have ha : a ∈ m.toList.map Prod.snd := List.mem_map_of_mem hm
    rw [← h hk]
    exact getElem?_store_of_mem hn ha
  case none =>
    have hm : k ∉ (m.toList.map Prod.snd).map key := by
      rw [h.map_toList, List.mem_map]
      rintro ⟨⟨k', a⟩, hm, rfl⟩
      rw [ExtTreeMap.mem_toList_iff_getElem?_eq_some, hk] at hm
      cases hm
    rw [getElem?_store_of_notMem hm]
    simp

-- If as many entries are stored as there are keys afterwards, none is stored over another one.
theorem nodup_of_store {l' : List α} (hn : (l.map key).Nodup) (hl : l'.length ≤ l.length)
    (h : ∀ a ∈ l, key a ∈ store key l' ∅) : (l'.map key).Nodup := by
  have hs : l.map key ⊆ l'.map key := by
    intro k hk
    obtain ⟨a, ha, rfl⟩ := List.mem_map.mp hk
    simpa [mem_store] using h a ha
  have hp := (List.subperm_of_subset hn hs).perm_of_length_le (by simpa using hl)
  exact hp.nodup_iff.mp hn

end Store
end Table
