import Mathlib.Data.List.Basic
import Mathlib.Tactic.Common

namespace leftmost

/-- Tokens that can be recognised at the front of a text, whatever stands behind
them. -/
structure Tokens (α β : Type) where
  text : β → List α
  find : List α → Option β
  ne_nil : ∀ s b, find s = some b → text b ≠ []
  sound : ∀ s b, find s = some b → ∃ rest, s = text b ++ rest
  stable : ∀ s b, find s = some b → ∀ rest, find (text b ++ rest) = some b

variable {α β : Type} (T : Tokens α β)

/-- Replaces the tokens from left to right, without looking into what has been
inserted. `skip` is what is left of a token that has been replaced. -/
def replace (f : β → List α) : ℕ → List α → List α
  | _, [] => []
  | skip + 1, _ :: rest => replace f skip rest
  | 0, a :: rest => match T.find (a :: rest) with
    | some b => f b ++ replace f ((T.text b).length - 1) rest
    | none => a :: replace f 0 rest

/-- A text as a sequence of letters and tokens. -/
def render : List (α ⊕ β) → List α
  | [] => []
  | .inl a :: parts => a :: render parts
  | .inr b :: parts => T.text b ++ render parts

/-- The text with the tokens filled in. -/
def fill (f : β → List α) : List (α ⊕ β) → List α
  | [] => []
  | .inl a :: parts => a :: fill f parts
  | .inr b :: parts => f b ++ fill f parts

/-- Every token of the sequence can be recognised, and no other token starts at a
letter. -/
def Proper : List (α ⊕ β) → Prop
  | [] => True
  | .inl a :: parts => T.find (a :: render T parts) = none ∧ Proper parts
  | .inr b :: parts => T.find (T.text b) = some b ∧ Proper parts

section Replacement

variable {T}

theorem replace_skip (f : β → List α) (skip : ℕ) (s : List α) : replace T f skip s = replace T f 0 (s.drop skip) := by
  induction skip generalizing s with
  | zero => rw [List.drop_zero]
  | succ skip ih =>
    cases s with
    | nil => rfl
    | cons a rest => exact ih rest

theorem replace_token {s : List α} {b : β} (h : T.find s = some b) (f : β → List α) (rest : List α) :
    replace T f 0 (T.text b ++ rest) = f b ++ replace T f 0 rest := by
  have hfind := T.stable s b h rest
  cases htext : T.text b with
  | nil => exact absurd htext (T.ne_nil s b h)
  | cons a tail =>
    rw [htext, List.cons_append] at hfind
    simp only [List.cons_append, replace, hfind]
    rw [replace_skip, htext, List.length_cons, Nat.add_sub_cancel, List.drop_left]

/-- What is replaced in a text is what its parts are. -/
theorem replace_render (f : β → List α) {parts : List (α ⊕ β)} (h : Proper T parts) :
    replace T f 0 (render T parts) = fill f parts := by
  induction parts with
  | nil => rfl
  | cons part parts ih =>
    cases part with
    | inl a =>
      simp only [render, replace, h.1, fill]
      rw [ih h.2]
    | inr b =>
      simp only [render, fill]
      rw [replace_token h.1, ih h.2]

end Replacement

/-- A text has proper parts. -/
theorem exists_proper (s : List α) : ∃ parts, Proper T parts ∧ render T parts = s := by
  induction hlength : s.length using Nat.strongRecOn generalizing s with
  | ind n ih =>
    cases s with
    | nil => exact ⟨[], trivial, rfl⟩
    | cons a rest =>
      cases hfind : T.find (a :: rest) with
      | none =>
        obtain ⟨parts, hproper, rfl⟩ := ih _ (by rw [← hlength]; exact Nat.lt_succ_self _) rest rfl
        exact ⟨.inl a :: parts, ⟨hfind, hproper⟩, rfl⟩
      | some b =>
        obtain ⟨behind, hbehind⟩ := T.sound _ b hfind
        have hpos := List.length_pos_iff.mpr (T.ne_nil _ b hfind)
        have hlt : behind.length < n := by
          rw [← hlength, hbehind, List.length_append]
          omega
        obtain ⟨parts, hproper, rfl⟩ := ih _ hlt behind rfl
        refine ⟨.inr b :: parts, ⟨?_, hproper⟩, hbehind.symm⟩
        simpa using T.stable _ b hfind []

variable {T}

theorem find_render_inr {b : β} {parts : List (α ⊕ β)} (h : Proper T (.inr b :: parts)) :
    T.find (render T (.inr b :: parts)) = some b :=
  T.stable _ b h.1 _

/-- A text has no other proper parts. -/
theorem proper_unique {parts other : List (α ⊕ β)} (h : Proper T parts) (hother : Proper T other)
    (htext : render T parts = render T other) : parts = other := by
  induction parts generalizing other with
  | nil =>
    cases other with
    | nil => rfl
    | cons part rest =>
      cases part with
      | inl a => cases htext
      | inr b => exact absurd (List.append_eq_nil_iff.mp htext.symm).1 (T.ne_nil _ b hother.1)
  | cons part parts ih =>
    cases part with
    | inl a =>
      cases other with
      | nil => cases htext
      | cons part' rest =>
        cases part' with
        | inl a' =>
          obtain ⟨rfl, hrest⟩ := List.cons.inj htext
          rw [ih h.2 hother.2 hrest]
        | inr b =>
          have hfind := find_render_inr hother
          rw [← htext] at hfind
          exact absurd (h.1.symm.trans hfind) (Option.some_ne_none b).symm
    | inr b =>
      have hfind := find_render_inr h
      cases other with
      | nil => exact absurd (List.append_eq_nil_iff.mp htext).1 (T.ne_nil _ b h.1)
      | cons part' rest =>
        cases part' with
        | inl a =>
          rw [htext] at hfind
          exact absurd (hother.1.symm.trans hfind) (Option.some_ne_none b).symm
        | inr b' =>
          rw [htext, find_render_inr hother] at hfind
          obtain rfl := Option.some.inj hfind
          rw [ih h.2 hother.2 (List.append_cancel_left htext)]

end leftmost
