import Mathlib.Data.List.Basic
import Mathlib.Tactic.Common

namespace c_memory

variable {α : Type} {n : ℕ}

/-- The array after `a[i] = x`. -/
def set (a : Fin n → α) (i : ℕ) (x : α) : Fin n → α := fun k => if k.val = i then x else a k

/-- The array after `a[i++] = x` for every `x` of a list. -/
def fill (a : Fin n → α) : ℕ → List α → Fin n → α
  | _, [] => a
  | i, x :: rest => fill (set a i x) (i + 1) rest

/-- A run of writes behind which the array is blank. -/
theorem fill_apply {blank : α} {a : Fin n → α} {i : ℕ} (hblank : ∀ k : Fin n, i ≤ k.val → a k = blank)
    (l : List α) (k : Fin n) : fill a i l k = if k.val < i then a k else l.getD (k.val - i) blank := by
  induction l generalizing a i with
  | nil =>
    rw [fill, List.getD_nil]
    split
    · rfl
    · exact hblank k (by omega)
  | cons x rest ih =>
    have hset : ∀ j : Fin n, i + 1 ≤ j.val → set a i x j = blank := by
      intro j hj
      rw [set, if_neg (by omega)]
      exact hblank j (by omega)
    rw [fill, ih hset]
    obtain hlt | heq | hgt := Nat.lt_trichotomy k.val i
    · rw [if_pos (by omega), if_pos hlt, set, if_neg (by omega)]
    · rw [if_pos (by omega), if_neg (by omega), set, if_pos heq, heq, Nat.sub_self, List.getD_cons_zero]
    · obtain ⟨j, hj⟩ := Nat.exists_eq_add_of_lt hgt
      rw [if_neg (by omega), if_neg (by omega), hj, show i + j + 1 - (i + 1) = j by omega,
        show i + j + 1 - i = j + 1 by omega, List.getD_cons_succ]

/-- Writes past the end leave the array alone. -/
theorem fill_of_le {i : ℕ} (hi : n ≤ i) (a : Fin n → α) (l : List α) : fill a i l = a := by
  induction l generalizing i with
  | nil => rfl
  | cons x rest ih =>
    have hset : set a i x = a := by
      funext k
      exact if_neg (by omega)
    rw [fill, hset, ih (by omega)]

/-- Filling a blank array from the front. -/
theorem fill_blank (blank : α) (l : List α) (k : Fin n) : fill (fun _ => blank) 0 l k = l.getD k.val blank := by
  rw [fill_apply (fun _ _ => rfl), if_neg (Nat.not_lt_zero _), Nat.sub_zero]

/-- What is found in an array filled from the front: something of the list, or the
blank behind it. -/
theorem exists_getD_iff (p : α → Prop) (blank : α) (l : List α) :
    (∃ i < n, p (l.getD i blank)) ↔ (∃ x ∈ l.take n, p x) ∨ l.length < n ∧ p blank := by
  constructor
  · rintro ⟨i, hi, hp⟩
    rw [List.getD_eq_getElem?_getD] at hp
    by_cases hlt : i < l.length
    · rw [List.getElem?_eq_getElem hlt, Option.getD_some] at hp
      exact .inl ⟨l[i], List.mem_take_iff_getElem.mpr ⟨i, by omega, rfl⟩, hp⟩
    · rw [List.getElem?_eq_none (by omega), Option.getD_none] at hp
      exact .inr ⟨by omega, hp⟩
  · rintro (⟨x, hx, hp⟩ | ⟨hroom, hp⟩)
    · obtain ⟨i, hi, rfl⟩ := List.mem_take_iff_getElem.mp hx
      refine ⟨i, by omega, ?_⟩
      rwa [List.getD_eq_getElem?_getD, List.getElem?_eq_getElem (by omega), Option.getD_some]
    · refine ⟨l.length, hroom, ?_⟩
      rwa [List.getD_eq_getElem?_getD, List.getElem?_eq_none (Nat.le_refl _), Option.getD_none]

/-- Memory from an address on, `none` where nothing was written, after
`a[i++] = x` for every `x` of a list. No bound stops the writes. -/
def write (a : ℕ → Option α) : ℕ → List α → ℕ → Option α
  | _, [] => a
  | i, x :: rest => write (Function.update a i (some x)) (i + 1) rest

theorem write_apply (a : ℕ → Option α) (i : ℕ) (l : List α) (k : ℕ) :
    write a i l k = if k < i then a k else l[k - i]?.or (a k) := by
  induction l generalizing a i with
  | nil => simp [write]
  | cons x rest ih =>
    rw [write, ih]
    obtain hlt | rfl | hgt := Nat.lt_trichotomy k i
    · rw [if_pos (by omega), if_pos hlt, Function.update_of_ne (Nat.ne_of_lt hlt)]
    · simp
    · obtain ⟨j, hj⟩ := Nat.exists_eq_add_of_lt hgt
      rw [if_neg (by omega), if_neg (by omega), Function.update_of_ne (Nat.ne_of_gt hgt), hj,
        show i + j + 1 - (i + 1) = j by omega, show i + j + 1 - i = j + 1 by omega, List.getElem?_cons_succ]

/-- Writing to fresh memory from the front. -/
theorem write_fresh (l : List α) (k : ℕ) : write (fun _ => none) 0 l k = l[k]? := by
  rw [write_apply, if_neg (Nat.not_lt_zero k), Nat.sub_zero, Option.or_none]

end c_memory
