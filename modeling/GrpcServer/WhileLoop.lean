import Mathlib.Tactic.Common

namespace while_loop

variable {σ : Type}

/-- A `while` loop from a state on: the states its body is entered in, and the one
it ends in. A round is `none` where the condition of the loop is false. -/
inductive Runs (round : σ → Option σ) : σ → List σ → σ → Prop where
  | stop {s : σ} (hstop : round s = none) : Runs round s [] s
  | next {s t final : σ} {visited : List σ} (hround : round s = some t) (hrest : Runs round t visited final) :
      Runs round s (s :: visited) final

/-- The loop comes to an end. -/
def Ends (round : σ → Option σ) (s : σ) : Prop := ∃ visited final, Runs round s visited final

variable {round : σ → Option σ}

theorem ends_of_stop {s : σ} (h : round s = none) : Ends round s := ⟨[], s, .stop h⟩

/-- A round may be taken off the front of a loop. -/
theorem ends_iff_next {s t : σ} (h : round s = some t) : Ends round s ↔ Ends round t := by
  constructor
  · rintro ⟨visited, final, hruns⟩
    cases hruns with
    | stop hstop =>
      rw [h] at hstop
      cases hstop
    | next hround hrest =>
      rw [h] at hround
      cases hround
      exact ⟨_, final, hrest⟩
  · rintro ⟨visited, final, hruns⟩
    exact ⟨s :: visited, final, .next h hruns⟩

/-- A loop with a measure that every round decreases comes to an end. -/
theorem ends_of_measure (measure : σ → ℕ) (hround : ∀ s t, round s = some t → measure t < measure s) (s : σ) :
    Ends round s := by
  induction hn : measure s using Nat.strongRecOn generalizing s with
  | ind n ih =>
    cases hs : round s with
    | none => exact ends_of_stop hs
    | some t =>
      have hlt : measure t < n := hn ▸ hround s t hs
      exact (ends_iff_next hs).mpr (ih (measure t) hlt t rfl)

/-- A loop never ends if its condition stays true under an invariant of its body. -/
theorem not_ends_of_invariant (inv : σ → Prop) (hround : ∀ s, inv s → ∃ t, round s = some t ∧ inv t) {s : σ}
    (hs : inv s) : ¬ Ends round s := by
  rintro ⟨visited, final, hruns⟩
  induction hruns with
  | stop hstop =>
    obtain ⟨t, ht, _⟩ := hround _ hs
    rw [hstop] at ht
    cases ht
  | next hnext _ ih =>
    obtain ⟨t, ht, hinv⟩ := hround _ hs
    rw [hnext] at ht
    cases ht
    exact ih hinv

end while_loop
