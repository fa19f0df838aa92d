import Mathlib

-- Lists that agree outside of a window and what a fold makes of them, ranges in blocks, and
-- computations over a list that may fail.
namespace List

variable {α β : Type*}

theorem exists_append_of_le_length {l : List α} {n : ℕ} (h : n ≤ l.length) :
    ∃ front rest, l = front ++ rest ∧ front.length = n :=
  ⟨_, _, (take_append_drop n l).symm, by simpa using h⟩

theorem take_drop_congr {l l' : List α} {i n : ℕ} (h : ∀ j, i ≤ j → j < i + n → l[j]? = l'[j]?) :
    (l.drop i).take n = (l'.drop i).take n := by
  apply ext_getElem?
  intro j
  simp only [getElem?_take, getElem?_drop]
  split_ifs with hj
  · exact h (i + j) (by omega) (by omega)
  · rfl

theorem exists_window_of_agree {l l' : List α} {i n : ℕ} (hl : l.length = l'.length)
    (h : ∀ j, j < i ∨ i + n ≤ j → l[j]? = l'[j]?) :
    ∃ pre mid mid' post, l = pre ++ mid ++ post ∧ l' = pre ++ mid' ++ post ∧
      mid.length = mid'.length ∧ mid.length ≤ n := by
  have split (m : List α) : m = m.take i ++ (m.drop i).take n ++ m.drop (i + n) := by
    rw [append_assoc, ← drop_drop, take_append_drop, take_append_drop]
  have ht : l'.take i = l.take i :=
    take_drop_congr (i := 0) fun j _ hj => (h j (.inl (by omega))).symm
  have hd : l'.drop (i + n) = l.drop (i + n) := by
    apply ext_getElem?
    intro j
    simp only [getElem?_drop]
    exact (h _ (.inr (Nat.le_add_right _ _))).symm
  refine ⟨l.take i, (l.drop i).take n, (l'.drop i).take n, l.drop (i + n), split l, ?_, ?_, ?_⟩
  · rw [← ht, ← hd]
    exact split l'
  · simp [hl]
  · simp

-- Two lists that differ in a single place.
theorem exists_eq_append_of_existsUnique {l l' : List α} (hl : l.length = l'.length)
    (h : ∃! i : ℕ, l[i]? ≠ l'[i]?) :
    ∃ pre a a' post, l = pre ++ a :: post ∧ l' = pre ++ a' :: post ∧ a ≠ a' := by
  have ⟨i, hi, hu⟩ := h
  have agree (j : ℕ) (hj : j < i ∨ i + 1 ≤ j) : l[j]? = l'[j]? := by
    by_contra hne
    have hj' := hu j hne
    omega
  obtain ⟨pre, mid, mid', post, rfl, rfl, hm, hn⟩ := exists_window_of_agree hl agree
  match mid, mid', hm with
  | [], [], _ => exact absurd rfl hi
  | [a], [a'], _ =>
    refine ⟨pre, a, a', post, by simp, by simp, ?_⟩
    rintro rfl
    exact hi rfl
  | _ :: _ :: _, _, _ => simp at hn

variable {f : β → α → β}

-- If no step of a fold forgets where it came from, then the fold does not either.
theorem foldl_injective (h : ∀ a, Function.Injective (f · a)) (l : List α) :
    Function.Injective fun b => l.foldl f b := by
  induction l
  case nil          => exact Function.injective_id
  case cons a l hi => exact hi.comp (h a)

-- Such a fold also tells lists apart that differ in a single place.
theorem foldl_ne (h : ∀ a, Function.Injective (f · a)) (h' : ∀ b, Function.Injective (f b))
    {pre post : List α} {a a' : α} (hne : a ≠ a') (b : β) :
    (pre ++ a :: post).foldl f b ≠ (pre ++ a' :: post).foldl f b := by
  intro heq
  simp only [foldl_append, foldl_cons] at heq
  exact hne (h' _ (foldl_injective h post heq))

-- Blocks of the same size one after the other.
theorem range_mul (m k : ℕ) :
    range (m * k) = (range m).flatMap fun b => (range k).map (b * k + ·) := by
  induction m
  case zero => simp
  case succ m hi => rw [Nat.succ_mul, range_add, hi, range_succ, flatMap_append, flatMap_singleton]

theorem flatMap_range_ite {m n : ℕ} (h : n ≤ m) (g : ℕ → α) :
    (range m).flatMap (fun k => if k < n then [g k] else []) = (range n).map g := by
  obtain ⟨r, rfl⟩ := Nat.exists_eq_add_of_le h
  have low : (range n).flatMap (fun k => if k < n then [g k] else []) =
      (range n).flatMap fun k => [g k] :=
    flatMap_congr fun k hk => if_pos (mem_range.mp hk)
  have high : ((range r).map (n + ·)).flatMap (fun k => if k < n then [g k] else []) = [] := by
    simp
  rw [range_add, flatMap_append, low, high, append_nil, map_eq_flatMap]

-- Computations that do not fail on any element.
theorem foldlM_eq_some {f : β → α → Option β} {g : β → α → β} {l : List α}
    (h : ∀ b, ∀ a ∈ l, f b a = some (g b a)) (b : β) : l.foldlM f b = some (l.foldl g b) := by
  induction l generalizing b
  case nil => rfl
  case cons a l hi =>
    rw [foldlM_cons, h b a (.head _)]
    exact hi (fun b a ha => h b a (.tail _ ha)) _

theorem mapM_eq_some {f : α → Option β} {g : α → β} {l : List α} (h : ∀ a ∈ l, f a = some (g a)) :
    l.mapM f = some (l.map g) := by
  induction l
  case nil => rfl
  case cons a l hi =>
    rw [mapM_cons, h a (.head _), hi fun a ha => h a (.tail _ ha)]
    rfl

theorem exists_of_mapM_eq_some {f : α → Option β} {l : List α} {l' : List β}
    (h : l.mapM f = some l') {a : α} (ha : a ∈ l) : ∃ b ∈ l', f a = some b := by
  induction l generalizing l'
  case nil => simp at ha
  case cons a' l hi =>
    rw [mapM_cons] at h
    obtain ⟨b, hb, h⟩ := Option.bind_eq_some_iff.mp h
    obtain ⟨bs, hbs, h⟩ := Option.bind_eq_some_iff.mp h
    cases h
    rcases mem_cons.mp ha with rfl | ha
    · exact ⟨b, .head _, hb⟩
    · have ⟨b', hm, hb'⟩ := hi hbs ha
      exact ⟨b', .tail _ hm, hb'⟩

end List
