import Mathlib

-- A reader takes what it needs from the front of a list of symbols, or it fails.
abbrev Parser (σ : Type) := StateT (List σ) Option

namespace Parser

variable {σ α β : Type} {get next : Parser σ α} {w w' : List σ} {ws : List (List σ)} {a : α}

-- After the word the reader goes on as the other one, whatever follows.
def Leads (get : Parser σ α) (w : List σ) (next : Parser σ α) : Prop :=
  ∀ rest, get (w ++ rest) = next rest

-- The reader turns the word into the value and leaves what follows.
abbrev Reads (get : Parser σ α) (w : List σ) (a : α) : Prop :=
  Leads get w (pure a)

-- The reader accepts nothing but the words that are written.
def Exact (get : Parser σ α) (put : α → List σ) : Prop :=
  ∀ ⦃w a rest⦄, get w = some (a, rest) → w = put a ++ rest

-- Whatever the reader reads successfully has the given property.
def Ensures (get : Parser σ α) (P : α → Prop) : Prop :=
  ∀ ⦃w a rest⦄, get w = some (a, rest) → P a

-- The reader reads back exactly the values with the given property.
structure Codec (get : Parser σ α) (put : α → List σ) (P : α → Prop) : Prop where
  reads   : ∀ ⦃a⦄, P a → Reads get (put a) a
  ensures : Ensures get P

theorem Reads.run (h : Reads get w a) (rest : List σ) : get (w ++ rest) = some (a, rest) :=
  h rest

theorem Leads.nil : Leads get [].flatten get :=
  fun _ => rfl

theorem Leads.trans {mid : Parser σ α} (h : Leads get w mid) (h' : Leads mid w' next) :
    Leads get (w ++ w') next := by
  intro rest
  rw [List.append_assoc, h, h']

theorem Leads.first {f : α → Parser σ β} (hg : Reads get w a) : Leads (get >>= f) w (f a) := by
  intro rest
  show (get (w ++ rest)).bind (fun r => f r.fst r.snd) = f a rest
  rw [hg.run]
  rfl

theorem Leads.bind {f : α → Parser σ β} {k : Parser σ β} (hg : Reads get w a)
    (hf : Leads (f a) w' k) : Leads (get >>= f) (w ++ w') k :=
  (Leads.first hg).trans hf

-- The rule for records, whose fields are written one after the other.
theorem Leads.cons {f : α → Parser σ β} {k : Parser σ β} (hg : Reads get w a)
    (hf : Leads (f a) ws.flatten k) : Leads (get >>= f) (w :: ws).flatten k :=
  .bind hg hf

theorem Reads.map {f : α → β} (h : Reads get w a) :
    Reads (get >>= fun a => pure (f a)) w (f a) :=
  .first h

theorem guard_bind {p : Prop} [Decidable p] {f : Unit → Parser σ α} (hp : p) :
    (guard p >>= f) = f () := by
  rw [guard, if_pos hp]
  rfl

theorem Leads.check {p : Prop} [Decidable p] {f : Unit → Parser σ α} {k : Parser σ α} (hp : p)
    (hf : Leads (f ()) w k) : Leads (guard p >>= f) w k := by
  rwa [guard_bind hp]

-- A computation that reads nothing.
theorem Leads.lift {o : Option α} {f : α → Parser σ β} {k : Parser σ β} (ho : o = some a)
    (hf : Leads (f a) w k) : Leads (liftM o >>= f) w k := by
  subst ho
  exact hf

theorem Leads.fails {f : α → Parser σ β} (h : Leads get w failure) :
    Leads (get >>= f) w failure := by
  intro rest
  show (get (w ++ rest)).bind (fun r => f r.fst r.snd) = none
  rw [h]
  rfl

-- What follows a word on which the reader fails is not read.
theorem Leads.fails_append (h : Leads get w failure) (w' : List σ) :
    Leads get (w ++ w') failure := by
  intro rest
  rw [List.append_assoc, h]
  rfl

theorem Leads.guard_fails {p : Prop} [Decidable p] {f : Unit → Parser σ α} (hp : ¬p) :
    Leads (guard p >>= f) w failure := by
  intro rest
  rw [guard, if_neg hp]
  rfl

theorem bind_some {f : α → Parser σ β} {b : β} {rest : List σ}
    (h : (get >>= f) w = some (b, rest)) :
    ∃ a w', get w = some (a, w') ∧ f a w' = some (b, rest) := by
  have ⟨⟨a, w'⟩, ha, hb⟩ := Option.bind_eq_some_iff.mp h
  exact ⟨a, w', ha, hb⟩

theorem guard_some {p : Prop} [Decidable p] {u : Unit} {rest : List σ}
    (h : (guard p : Parser σ Unit) w = some (u, rest)) : p ∧ rest = w := by
  unfold guard at h
  split at h
  case isTrue hp =>
    cases h
    exact ⟨hp, rfl⟩
  case isFalse => cases h

theorem lift_some {o : Option α} {rest : List σ}
    (h : (liftM o : Parser σ α) w = some (a, rest)) : o = some a ∧ rest = w := by
  cases o
  case none   => cases h
  case some _ =>
    cases h
    exact ⟨rfl, rfl⟩

theorem Exact.map {f : α → β} {put : α → List σ} {put' : β → List σ} (h : Exact get put)
    (hp : ∀ a, put' (f a) = put a) : Exact (get >>= fun a => pure (f a)) put' := by
  intro w b rest hb
  have ⟨a, rest', ha, he⟩ := bind_some hb
  cases he
  rw [hp]
  exact h ha

-- The reader takes so many symbols, whatever they are.
structure Width (get : Parser σ α) (n : ℕ) : Prop where
  enough : ∀ ⦃w⦄, n ≤ w.length → ∃ a, get w = some (a, w.drop n)
  short  : ∀ ⦃w⦄, w.length < n → get w = none

namespace Width

variable {f : α → Parser σ β} {n k : ℕ}

theorem pure (a : α) : Width (Pure.pure a : Parser σ α) 0 where
  enough _ _ := ⟨a, rfl⟩
  short  _ h := absurd h (Nat.not_lt_zero _)

-- The reader needs its own symbols and those for what comes after it.
theorem isSome_bind (h : Width get n) (hf : ∀ a, get w = some (a, w.drop n) →
      ((f a (w.drop n)).isSome ↔ k ≤ (w.drop n).length)) :
    ((get >>= f) w).isSome ↔ n + k ≤ w.length := by
  show ((get w).bind fun r => f r.fst r.snd).isSome ↔ _
  by_cases hn : n ≤ w.length
  case pos =>
    obtain ⟨a, ha⟩ := h.enough hn
    have hf := hf a ha
    rw [List.length_drop] at hf
    rw [ha, Option.bind_some, hf]
    omega
  case neg =>
    rw [h.short (by omega)]
    simp
    omega

theorem bind (h : Width get n) (hf : ∀ a, Width (f a) k) : Width (get >>= f) (n + k) where
  enough w hw := by
    obtain ⟨a, ha⟩ := h.enough (w := w) (by omega)
    obtain ⟨b, hb⟩ := (hf a).enough (w := w.drop n) (by rw [List.length_drop]; omega)
    refine ⟨b, ?_⟩
    show (get w).bind (fun r => f r.fst r.snd) = _
    rw [ha, Option.bind_some, hb, List.drop_drop]
  short w hw := by
    show (get w).bind (fun r => f r.fst r.snd) = none
    by_cases hn : n ≤ w.length
    case pos =>
      obtain ⟨a, ha⟩ := h.enough hn
      rw [ha]
      exact (hf a).short (by rw [List.length_drop]; omega)
    case neg =>
      rw [h.short (by omega)]
      rfl

theorem map {g : α → β} (h : Width get n) : Width (get >>= fun a => Pure.pure (g a)) n :=
  h.bind fun _ => .pure _

theorem isSome (h : Width get n) : (get w).isSome ↔ n ≤ w.length := by
  by_cases hn : n ≤ w.length
  case pos =>
    obtain ⟨a, ha⟩ := h.enough hn
    simp [ha, hn]
  case neg => simp [h.short (by omega : w.length < n), hn]

end Width

namespace Ensures

variable {P : α → Prop} {Q : β → Prop} {f : α → Parser σ β}

theorem pure (h : P a) : Ensures (Pure.pure a : Parser σ α) P := by
  intro w a' rest he
  cases he
  exact h

theorem bind (hp : Ensures get P) (hq : ∀ a, P a → Ensures (f a) Q) : Ensures (get >>= f) Q := by
  intro w b rest he
  have ⟨a, rest', ha, hb⟩ := bind_some he
  exact hq a (hp ha) hb

-- A read of which nothing needs to be known.
theorem skip (hq : ∀ a, Ensures (f a) Q) : Ensures (get >>= f) Q :=
  bind (P := fun _ => True) (fun _ _ _ _ => trivial) fun a _ => hq a

theorem check {p : Prop} [Decidable p] {f : Unit → Parser σ α} (h : p → Ensures (f ()) P) :
    Ensures (guard p >>= f) P := by
  intro w a rest hr
  have ⟨_, _, hg, hf⟩ := bind_some hr
  exact h (guard_some hg).1 hf

end Ensures
end Parser
