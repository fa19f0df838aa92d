import Mathlib

-- A receiver takes what it can from the front of a stream and leaves the rest.
abbrev Receiver (σ ρ : Type) := List σ → ρ × List σ

namespace Receiver

variable {σ ρ φ : Type} {recv : Receiver σ ρ} {wire : φ → List σ} {got : φ → ρ} {closed : ρ}
         {Cut : ρ → Prop}

-- What so many calls in a row return.
def calls (recv : Receiver σ ρ) : ℕ → List σ → List ρ
  | 0,     _      => []
  | n + 1, stream => (recv stream).fst :: calls recv n (recv stream).snd

-- The receiver takes a frame as a whole, whatever follows. If the stream ends inside of a frame, it
-- reports a cut and has used up the stream.
structure Delimits (recv : Receiver σ ρ) (wire : φ → List σ) (got : φ → ρ) (closed : ρ)
    (Cut : ρ → Prop) : Prop where
  whole  : ∀ (f : φ) (rest : List σ), recv (wire f ++ rest) = (got f, rest)
  cut    : ∀ ⦃f : φ⦄ ⦃part : List σ⦄, part <+: wire f → part ≠ wire f →
             ∃ r, Cut r ∧ recv part = (r, [])
  closed : recv [] = (closed, [])

namespace Delimits

theorem calls_nil (h : Delimits recv wire got closed Cut) (n : ℕ) :
    calls recv n [] = List.replicate n closed := by
  induction n
  case zero      => rfl
  case succ n hi => rw [calls, h.closed, hi, List.replicate_succ]

theorem calls_append (h : Delimits recv wire got closed Cut) (fs : List φ) (rest : List σ) (n : ℕ) :
    calls recv (fs.length + n) (fs.flatMap wire ++ rest) = fs.map got ++ calls recv n rest := by
  induction fs
  case nil          => simp
  case cons f fs hi =>
    rw [List.length_cons, Nat.add_right_comm, calls, List.flatMap_cons, List.append_assoc,
      h.whole, hi, List.map_cons, List.cons_append]

theorem calls_flatMap (h : Delimits recv wire got closed Cut) (fs : List φ) (n : ℕ) :
    calls recv (fs.length + n) (fs.flatMap wire) = fs.map got ++ List.replicate n closed := by
  rw [← h.calls_nil, ← h.calls_append, List.append_nil]

theorem calls_cut (h : Delimits recv wire got closed Cut) {f : φ} {part : List σ}
    (hp : part <+: wire f) (hn : part ≠ wire f) :
    ∃ r, Cut r ∧ ∀ n, calls recv (1 + n) part = r :: List.replicate n closed := by
  obtain ⟨r, hc, hr⟩ := h.cut hp hn
  refine ⟨r, hc, fun n => ?_⟩
  rw [Nat.add_comm, calls, hr, h.calls_nil]

end Delimits

-- A stream that is cut short ends inside of some frame.
theorem exists_cut (fs : List φ) {part : List σ} (hp : part <+: fs.flatMap wire)
    (hn : part ≠ fs.flatMap wire) :
    ∃ whole f rest piece, fs = whole ++ f :: rest ∧ part = whole.flatMap wire ++ piece ∧
      piece <+: wire f ∧ piece ≠ wire f := by
  induction fs generalizing part
  case nil          => exact absurd (List.prefix_nil.mp hp) hn
  case cons f fs hi =>
    rw [List.flatMap_cons] at hp hn
    by_cases hw : wire f <+: part
    case pos =>
      obtain ⟨part, rfl⟩ := hw
      have hne : part ≠ fs.flatMap wire := fun he => hn (he ▸ rfl)
      obtain ⟨whole, g, rest, piece, rfl, rfl, hg⟩ :=
        hi ((List.prefix_append_right_inj _).mp hp) hne
      exact ⟨f :: whole, g, rest, piece, rfl, by simp, hg⟩
    case neg =>
      have hf := (List.prefix_or_prefix_of_prefix hp (List.prefix_append _ _)).resolve_right hw
      exact ⟨[], f, fs, part, rfl, rfl, hf, fun he => hw (he ▸ List.prefix_refl _)⟩

-- From the beginning of a stream of frames the first frame is received, or none.
theorem Delimits.recv_part (h : Delimits recv wire got closed Cut) {fs : List φ} {part : List σ}
    (hp : part <+: fs.flatMap wire) :
    (∃ f fs' rest, fs = f :: fs' ∧ rest <+: fs'.flatMap wire ∧ recv part = (got f, rest)) ∨
    Cut (recv part).fst ∨ (recv part).fst = closed := by
  cases fs
  case nil =>
    rw [List.prefix_nil.mp hp, h.closed]
    exact .inr (.inr rfl)
  case cons f fs =>
    rw [List.flatMap_cons] at hp
    by_cases hw : wire f <+: part
    case pos =>
      obtain ⟨rest, rfl⟩ := hw
      exact .inl ⟨f, fs, rest, rfl, (List.prefix_append_right_inj _).mp hp, h.whole f rest⟩
    case neg =>
      have hf := (List.prefix_or_prefix_of_prefix hp (List.prefix_append _ _)).resolve_right hw
      obtain ⟨r, hc, hr⟩ := h.cut hf fun he => hw (he ▸ List.prefix_refl _)
      exact .inr (.inl (hr ▸ hc))

-- The frames that lie in the part of the stream as a whole are received, and then no other.
theorem Delimits.calls_part (h : Delimits recv wire got closed Cut) {fs : List φ}
    {part : List σ} (hp : part <+: fs.flatMap wire) (hn : part ≠ fs.flatMap wire) :
    ∃ whole f rest r, fs = whole ++ f :: rest ∧ whole.flatMap wire <+: part ∧
      ¬(whole ++ [f]).flatMap wire <+: part ∧ Cut r ∧
      ∀ n, calls recv (whole.length + (1 + n)) part =
        whole.map got ++ r :: List.replicate n closed := by
  obtain ⟨whole, f, rest, piece, rfl, rfl, hp, hn⟩ := exists_cut fs hp hn
  obtain ⟨r, hc, hr⟩ := h.calls_cut hp hn
  refine ⟨whole, f, rest, r, rfl, List.prefix_append _ _, ?_, hc, fun n => ?_⟩
  · intro hw
    rw [List.flatMap_append, List.flatMap_singleton, List.prefix_append_right_inj] at hw
    exact hn (List.IsPrefix.eq_of_length_le hp hw.length_le)
  · rw [h.calls_append, hr]

end Receiver
