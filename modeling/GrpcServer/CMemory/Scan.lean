import Mathlib.Data.List.TakeWhile
import Mathlib.Data.List.FinRange
import Mathlib.Logic.Function.Basic
import Mathlib.Tactic.Common

namespace c_memory

/-- A search that gives up at the first sentinel: the loop `if (stop) break; if
(hit) return true;` over an array without a stored length. -/
def scan {α : Type} (stop hit : α → Bool) : List α → Bool
  | [] => false
  | a :: rest => if stop a then false else if hit a then true else scan stop hit rest

theorem scan_eq_any_takeWhile {α : Type} (stop hit : α → Bool) (l : List α) :
    scan stop hit l = (l.takeWhile (!stop ·)).any hit := by
  induction l with
  | nil => rfl
  | cons a rest ih =>
    by_cases hstop : stop a = true
    · simp [scan, hstop]
    · by_cases hhit : hit a = true
      · simp [scan, hstop, hhit]
      · simp [scan, hstop, hhit, ih]

theorem scan_map {α β : Type} (f : α → β) (stop hit : β → Bool) (l : List α) :
    scan stop hit (l.map f) = scan (fun a => stop (f a)) (fun a => hit (f a)) l := by
  induction l with
  | nil => rfl
  | cons a rest ih => simp only [scan, List.map_cons, ih]

/-- The scan succeeds at an index in front of which, itself included, nothing
stops it. -/
theorem scan_finRange_iff {n : ℕ} (stop hit : Fin n → Bool) :
    scan stop hit (List.finRange n) = true ↔ ∃ i, (∀ j ≤ i, stop j = false) ∧ hit i = true := by
  induction n with
  | zero =>
    simp only [List.finRange_zero, scan, Bool.false_eq_true, false_iff]
    exact fun ⟨i, _⟩ => i.elim0
  | succ n ih =>
    rw [List.finRange_succ, scan, scan_map]
    cases hstop : stop 0 with
    | true =>
      simp only [if_true, Bool.false_eq_true, false_iff]
      rintro ⟨i, hfree, _⟩
      have hzero := hfree 0 (Fin.zero_le i)
      rw [hstop] at hzero
      cases hzero
    | false =>
      cases hhit : hit 0 with
      | true =>
        simp only [Bool.false_eq_true, if_false, if_true, true_iff]
        refine ⟨0, ?_, hhit⟩
        intro j hj
        rwa [Fin.le_zero_iff.mp hj]
      | false =>
        simp only [Bool.false_eq_true, if_false, ih]
        constructor
        · rintro ⟨i, hfree, hi⟩
          refine ⟨i.succ, ?_, hi⟩
          intro j hj
          cases j using Fin.cases with
          | zero => exact hstop
          | succ j => exact hfree j (Fin.succ_le_succ_iff.mp hj)
        · rintro ⟨i, hfree, hi⟩
          cases i using Fin.cases with
          | zero =>
            rw [hhit] at hi
            cases hi
          | succ i => exact ⟨i, fun j hj => hfree j.succ (Fin.succ_le_succ_iff.mpr hj), hi⟩

/-- A search does not miss what it found after a slot at which it stops has been
filled. -/
theorem scan_update {α : Type} {n : ℕ} {slots : Fin n → α} (stop hit : α → Bool) {i : Fin n}
    (hfree : stop (slots i) = true) (entry : α)
    (h : scan (fun j => stop (slots j)) (fun j => hit (slots j)) (List.finRange n) = true) :
    scan (fun j => stop (Function.update slots i entry j)) (fun j => hit (Function.update slots i entry j))
      (List.finRange n) = true := by
  obtain ⟨found, hreached, hhit⟩ := (scan_finRange_iff _ _).mp h
  have hother : ∀ j ≤ found, Function.update slots i entry j = slots j := by
    intro j hj
    apply Function.update_of_ne
    rintro rfl
    rw [hreached j hj] at hfree
    cases hfree
  refine (scan_finRange_iff _ _).mpr ⟨found, fun j hj => ?_, ?_⟩
  · rw [hother j hj]
    exact hreached j hj
  · rwa [hother found (Nat.le_refl _)]

/-- The scan of a densely packed array: `entries` fill the array from the front
and every slot behind them is a sentinel. Entries behind a sentinel among
`entries` themselves are not seen. -/
theorem scan_packed {α : Type} {n : ℕ} (slots : Fin n → α) (blank : α) (stop hit : α → Bool)
    (hblank : stop blank = true) (entries : List α) (hfit : entries.length ≤ n)
    (hslots : ∀ i : Fin n, slots i = entries.getD i.val blank) :
    scan (fun i => stop (slots i)) (fun i => hit (slots i)) (List.finRange n) =
      (entries.takeWhile (!stop ·)).any hit := by
  have hmap : (List.finRange n).map slots = entries ++ List.replicate (n - entries.length) blank := by
    apply List.ext_getElem
    · simp
      omega
    · intro k hk _
      simp only [List.length_map, List.length_finRange] at hk
      simp only [List.getElem_map, List.getElem_finRange, hslots, Fin.val_cast, List.getD_eq_getElem?_getD,
        List.getElem_append]
      split
      · rename_i hlt
        rw [List.getElem?_eq_getElem hlt, Option.getD_some]
      · rename_i hge
        rw [List.getElem?_eq_none (by omega), Option.getD_none, List.getElem_replicate]
  rw [← scan_map slots, hmap, scan_eq_any_takeWhile, List.takeWhile_append]
  split
  · rename_i hlen
    have hself : entries.takeWhile (!stop ·) = entries :=
      (List.takeWhile_prefix _).eq_of_length hlen
    rw [hself, List.any_append]
    cases hrest : n - entries.length with
    | zero => simp
    | succ rest => simp [List.replicate_succ, hblank]
  · rfl

/-- The elements a loop looks at that returns at its first hit. -/
def examined {α : Type} (hit : α → Bool) : List α → List α
  | [] => []
  | a :: rest => a :: if hit a then [] else examined hit rest

theorem examined_append {α : Type} (hit : α → Bool) (l rest : List α) :
    examined hit (l ++ rest) = if l.any hit then examined hit l else l ++ examined hit rest := by
  induction l with
  | nil => rfl
  | cons a l ih =>
    rw [List.cons_append, examined, ih, examined, List.any_cons]
    cases hit a with
    | true => rfl
    | false => cases l.any hit <;> rfl

theorem examined_subset {α : Type} (hit : α → Bool) (l : List α) : examined hit l ⊆ l := by
  induction l with
  | nil => exact List.Subset.refl _
  | cons a l ih =>
    rw [examined, List.cons_subset]
    refine ⟨List.mem_cons_self, ?_⟩
    split
    · exact List.nil_subset _
    · exact List.Subset.trans ih (List.subset_cons_self a l)

/-- A search through more indices than an array has stays inside it only by a hit. -/
theorem examined_range_lt_iff (hit : ℕ → Bool) {size n : ℕ} (hsize : size < n) :
    (∀ i ∈ examined hit (List.range n), i < size) ↔ ∃ i < size, hit i = true := by
  obtain ⟨rest, rfl⟩ := Nat.exists_eq_add_of_lt hsize
  have hsplit : List.range (size + rest + 1) = List.range size ++ (List.range (rest + 1)).map (size + ·) := by
    rw [Nat.add_assoc, List.range_add]
  have hany : (List.range size).any hit = true ↔ ∃ i < size, hit i = true := by
    simp only [List.any_eq_true, List.mem_range]
  rw [hsplit, examined_append, ← hany]
  split
  · rename_i hhit
    refine iff_of_true (fun i hi => ?_) hhit
    exact List.mem_range.mp (examined_subset hit _ hi)
  · rename_i hhit
    refine iff_of_false (fun hinside => ?_) hhit
    have hnext : size ∈ examined hit ((List.range (rest + 1)).map (size + ·)) := by
      rw [List.range_succ_eq_map, List.map_cons, examined]
      exact List.mem_cons_self
    exact Nat.lt_irrefl size (hinside size (List.mem_append_right _ hnext))

end c_memory
