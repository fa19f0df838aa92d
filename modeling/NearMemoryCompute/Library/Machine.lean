import Mathlib

-- A deterministic machine over a state, the inputs it is given and the outputs it answers with.
structure Machine (σ ι ο : Type) where
  step : ι → σ → ο × σ

structure Event (σ ι ο : Type) where
  input  : ι
  pre    : σ
  output : ο
  post   : σ

namespace Machine

variable {σ ι ο : Type} (M : Machine σ ι ο) (s₀ : σ)

-- Runs are lists of inputs with the latest input first, so a suffix of a run is an earlier run.
def after : List ι → σ
  | []     => s₀
  | i :: h => (M.step i (after h)).snd

def event (i : ι) (s : σ) : Event σ ι ο where
  input  := i
  pre    := s
  output := (M.step i s).fst
  post   := (M.step i s).snd

-- What happened in a run, the latest event first.
def events : List ι → List (Event σ ι ο)
  | []     => []
  | i :: h => M.event i (M.after s₀ h) :: events h

-- Every step of a run meets the condition, which may look at the run up to the step.
def EachStep (C : List ι → ι → Prop) (h : List ι) : Prop :=
  ∀ ⦃i h'⦄, i :: h' <:+ h → C h' i

section EachStep

variable {C : List ι → ι → Prop} {i : ι} {h h' : List ι}

theorem eachStep_nil : EachStep C [] := by
  intro i h' hs
  simp at hs

theorem eachStep_cons : EachStep C (i :: h) ↔ C h i ∧ EachStep C h := by
  constructor
  case mp =>
    intro hc
    exact ⟨hc (List.suffix_refl _), fun _ _ hs => hc (hs.trans (List.suffix_cons i h))⟩
  case mpr =>
    intro ⟨hi, hc⟩ j h' hs
    cases List.suffix_cons_iff.mp hs
    case inl he =>
      cases he
      exact hi
    case inr hs => exact hc hs

instance decidableEachStep [∀ h i, Decidable (C h i)] : (h : List ι) → Decidable (EachStep C h)
  | []     => isTrue eachStep_nil
  | _ :: h => @decidable_of_iff' _ _ eachStep_cons (@instDecidableAnd _ _ _ (decidableEachStep h))

theorem EachStep.suffix (hc : EachStep C h) (hs : h' <:+ h) : EachStep C h' :=
  fun _ _ hs' => hc (hs'.trans hs)

end EachStep

-- The rule for invariants: what holds initially and is preserved by every step that meets the
-- condition holds after every run whose steps all meet it. The invariant may speak about the run
-- as well as about the state that the run has reached.
theorem invariant_of_eachStep {C : List ι → ι → Prop} {I : List ι → σ → Prop} (init : I [] s₀)
    (step : ∀ h i, C h i → I h (M.after s₀ h) → I (i :: h) (M.step i (M.after s₀ h)).snd)
    {h : List ι} (hc : EachStep C h) : I h (M.after s₀ h) := by
  induction h
  case nil => exact init
  case cons i h hi =>
    have ⟨hc, hcs⟩ := eachStep_cons.mp hc
    exact step h i hc (hi hcs)

theorem invariant {I : List ι → σ → Prop} (init : I [] s₀)
    (step : ∀ h i, I h (M.after s₀ h) → I (i :: h) (M.step i (M.after s₀ h)).snd) (h : List ι) :
    I h (M.after s₀ h) :=
  M.invariant_of_eachStep (C := fun _ _ => True) s₀ init (fun h i _ => step h i)
    fun _ _ _ => trivial

-- The rule for stability: what every step preserves holds on from any point of a run.
theorem stable_of_eachStep {C : List ι → ι → Prop} {P : σ → Prop}
    (step : ∀ h i, C h i → P (M.after s₀ h) → P (M.step i (M.after s₀ h)).snd)
    {h h' : List ι} (hc : EachStep C h) (hs : h' <:+ h) (hp : P (M.after s₀ h')) :
    P (M.after s₀ h) := by
  induction h
  case nil =>
    cases List.suffix_nil.mp hs
    exact hp
  case cons i h hi =>
    have ⟨hci, hcs⟩ := eachStep_cons.mp hc
    cases List.suffix_cons_iff.mp hs
    case inl he => exact he ▸ hp
    case inr hs => exact step h i hci (hi hcs hs)

theorem after_append (h h' : List ι) : M.after s₀ (h' ++ h) = M.after (M.after s₀ h) h' := by
  induction h'
  case nil => rfl
  case cons i h' hi =>
    simp only [List.cons_append, after]
    rw [hi]

-- The rule for parts: if each step of a machine is, on a part of its state, a run of another
-- machine, then so is every run.
theorem after_part {σ' ι' ο' : Type} (N : Machine σ' ι' ο') (part : σ → σ') {P : ι' → Prop}
    {C : List ι → ι → Prop}
    (step : ∀ h i, C h i → ∃ h', (∀ i' ∈ h', P i') ∧
      part (M.step i (M.after s₀ h)).snd = N.after (part (M.after s₀ h)) h')
    {h : List ι} (hc : EachStep C h) :
    ∃ h', (∀ i' ∈ h', P i') ∧ part (M.after s₀ h) = N.after (part s₀) h' := by
  induction h
  case nil => exact ⟨[], by simp, rfl⟩
  case cons i h hi =>
    have ⟨hci, hcs⟩ := eachStep_cons.mp hc
    have ⟨h₁, hp₁, he₁⟩ := hi hcs
    have ⟨h₂, hp₂, he₂⟩ := step h i hci
    refine ⟨h₂ ++ h₁, List.forall_mem_append.mpr ⟨hp₂, hp₁⟩, ?_⟩
    rw [after, he₂, he₁, after_append]

-- The rule for termination: a run whose steps all lower a measure is not longer than the measure.
theorem length_add_le {C : List ι → ι → Prop} (μ : σ → ℕ)
    (step : ∀ h i, C h i → μ (M.step i (M.after s₀ h)).snd < μ (M.after s₀ h))
    {h : List ι} (hc : EachStep C h) : h.length + μ (M.after s₀ h) ≤ μ s₀ := by
  induction h
  case nil => simp [after]
  case cons i h hi =>
    obtain ⟨hci, hcs⟩ := eachStep_cons.mp hc
    have := step h i hci
    have := hi hcs
    simp only [List.length_cons, after]
    omega

-- If all steps of a kind that have an effect lower a measure, then some of them lead to where none
-- of them has an effect any more.
theorem exists_final (μ : σ → ℕ) {P : ι → Prop}
    (step : ∀ i s, P i → (M.step i s).snd = s ∨ μ (M.step i s).snd < μ s) :
    ∃ h, (∀ i ∈ h, P i) ∧ h.length ≤ μ s₀ ∧
      ∀ i, P i → (M.step i (M.after s₀ h)).snd = M.after s₀ h := by
  induction hm : μ s₀ using Nat.strong_induction_on generalizing s₀
  case h n hi =>
    by_cases hf : ∀ i, P i → (M.step i s₀).snd = s₀
    case pos => exact ⟨[], by simp, by simp, hf⟩
    case neg =>
      push Not at hf
      obtain ⟨i, hp, hne⟩ := hf
      have hlt := (step i s₀ hp).resolve_left hne
      obtain ⟨h, hh, hl, hfin⟩ := hi _ (hm ▸ hlt) (M.step i s₀).snd rfl
      have he : M.after s₀ (h ++ [i]) = M.after (M.step i s₀).snd h := M.after_append s₀ [i] h
      refine ⟨h ++ [i], List.forall_mem_append.mpr ⟨hh, by simpa using hp⟩, ?_, by rwa [he]⟩
      simp only [List.length_append, List.length_singleton]
      omega

theorem events_suffix {h h' : List ι} (hs : h' <:+ h) : M.events s₀ h' <:+ M.events s₀ h := by
  induction h
  case nil =>
    cases List.suffix_nil.mp hs
    exact List.suffix_refl _
  case cons i h hi =>
    cases List.suffix_cons_iff.mp hs
    case inl he => exact he ▸ List.suffix_refl _
    case inr hs => exact (hi hs).trans (List.suffix_cons _ _)

theorem mem_events {e : Event σ ι ο} {h : List ι} (he : e ∈ M.events s₀ h) :
    ∃ i h', i :: h' <:+ h ∧ e = M.event i (M.after s₀ h') := by
  induction h
  case nil => simp [events] at he
  case cons i h hi =>
    cases he
    case head => exact ⟨i, h, List.suffix_refl _, rfl⟩
    case tail he =>
      have ⟨j, h', hs, he⟩ := hi he
      exact ⟨j, h', hs.trans (List.suffix_cons i h), he⟩

end Machine

-- Something happened that `P` describes, and nothing that `Q` describes has happened since.
def Since {ε : Type} (P Q : ε → Prop) (h : List ε) : Prop :=
  ∃ h₁ e h₂, h = h₂ ++ e :: h₁ ∧ P e ∧ ∀ e' ∈ h₂, ¬Q e'

namespace Since

variable {ε : Type} {P Q P' Q' : ε → Prop} {e : ε} {h : List ε}

theorem cons_iff : Since P Q (e :: h) ↔ P e ∨ ¬Q e ∧ Since P Q h := by
  constructor
  case mp =>
    intro ⟨h₁, e', h₂, he, hp, hn⟩
    cases h₂
    case nil =>
      cases he
      exact .inl hp
    case cons e'' h₂ =>
      cases he
      exact .inr ⟨hn e (.head _), h₁, e', h₂, rfl, hp, fun e'' hm => hn e'' (.tail _ hm)⟩
  case mpr =>
    rintro (hp | ⟨hq, h₁, e', h₂, rfl, hp, hn⟩)
    · exact ⟨h, e, [], rfl, hp, by simp⟩
    · refine ⟨h₁, e', e :: h₂, rfl, hp, ?_⟩
      intro e'' hm
      cases hm
      case head    => exact hq
      case tail hm => exact hn e'' hm

theorem not_nil : ¬Since P Q [] := by
  intro ⟨h₁, e, h₂, he, _⟩
  simp at he

instance decidable [DecidablePred P] [DecidablePred Q] : (h : List ε) → Decidable (Since P Q h)
  | []     => isFalse not_nil
  | _ :: h => @decidable_of_iff' _ _ cons_iff
    (@instDecidableOr _ _ _ (@instDecidableAnd _ _ _ (decidable h)))

theorem now (hp : P e) : Since P Q (e :: h) :=
  cons_iff.mpr (.inl hp)

theorem later (hs : Since P Q h) (hq : ¬Q e) : Since P Q (e :: h) :=
  cons_iff.mpr (.inr ⟨hq, hs⟩)

end Since

-- The rule for what has begun and not ended: what an event of one kind establishes, and every step
-- preserves unless it is an event of the other kind, holds as long as there is none of these.
theorem Machine.of_since {σ ι ο : Type} {M : Machine σ ι ο} {s₀ : σ} {C : List ι → ι → Prop}
    {P Q : Event σ ι ο → Prop} {I : σ → Prop}
    (start : ∀ h i, C h i → P (M.event i (M.after s₀ h)) → I (M.step i (M.after s₀ h)).snd)
    (step : ∀ h i, C h i → Since P Q (M.events s₀ h) → ¬Q (M.event i (M.after s₀ h)) →
      I (M.after s₀ h) → I (M.step i (M.after s₀ h)).snd)
    {h : List ι} (hc : EachStep C h) (hs : Since P Q (M.events s₀ h)) : I (M.after s₀ h) := by
  induction h
  case nil => exact absurd hs Since.not_nil
  case cons i h hi =>
    have ⟨hci, hcs⟩ := eachStep_cons.mp hc
    cases Since.cons_iff.mp hs
    case inl hp => exact start h i hci hp
    case inr hq => exact step h i hci hq.2 hq.1 (hi hcs hq.2)

-- What holds now and has not held initially has been established by an event.
theorem Machine.since_of_after {σ ι ο : Type} {M : Machine σ ι ο} {s₀ : σ} {I : σ → Prop}
    {Q : Event σ ι ο → Prop} {h : List ι} (h₀ : ¬I s₀) (hi : I (M.after s₀ h)) :
    Since (fun e => I e.post) Q (M.events s₀ h) := by
  cases h
  case nil    => exact absurd hi h₀
  case cons i => exact .now hi
