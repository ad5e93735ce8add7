import Mathlib.Data.List.OfFn
import Mathlib.Data.List.TakeWhile
import Mathlib.Tactic.Common

namespace c_memory

/-- A byte string without its terminator, as `strcmp` and `c_str` users see it. -/
abbrev Str := List UInt8

/-- The C string at `off` of a memory image, reading at most `fuel` bytes. The
end of the object counts as a terminator. -/
def cstr (mem : ℕ → UInt8) : ℕ → ℕ → Str
  | _, 0 => []
  | off, fuel + 1 => if mem off = 0 then [] else mem off :: cstr mem (off + 1) fuel

/-- The bytes of a `std::string` or Go string that survive `c_str`. -/
def cut (s : Str) : Str := s.takeWhile (· != 0)

/-- A fixed-size character array. -/
abbrev Slot (w : ℕ) := Fin w → UInt8

/-- The array holds a terminator. -/
def Slot.Terminated {w : ℕ} (s : Slot w) : Prop := ∃ k, s k = 0

instance {w : ℕ} (s : Slot w) : Decidable s.Terminated := inferInstanceAs (Decidable (∃ k, s k = 0))

/-- The string stored in an array, cut at its first terminator. -/
def Slot.str {w : ℕ} (s : Slot w) : Str := cut (List.ofFn s)

/-- `strncpy(dst, src, n)`: the source up to its terminator, then zeroes up to
`n`; the bytes from `n` on keep their contents. -/
def strncpy {w : ℕ} (dst : Slot w) (src : Str) (n : ℕ) : Slot w :=
  fun k => if k.val < n then (cut src).getD k.val 0 else dst k

theorem cut_ne_zero {s : Str} {b : UInt8} (h : b ∈ cut s) : b ≠ 0 := by
  simpa using List.mem_takeWhile_imp h

theorem cut_eq_self {s : Str} (h : ∀ b ∈ s, b ≠ 0) : cut s = s := by
  rw [cut, List.takeWhile_eq_self_iff]
  simpa using h

@[simp] theorem cut_cut (s : Str) : cut (cut s) = cut s :=
  cut_eq_self fun _ hb => cut_ne_zero hb

theorem cut_append_of_ne_zero {front : Str} (hfront : ∀ b ∈ front, b ≠ 0) (back : Str) :
    cut (front ++ back) = front ++ cut back := by
  rw [cut, cut, List.takeWhile_append_of_pos (by simpa using hfront)]

theorem cut_append_zero {front : Str} (hfront : ∀ b ∈ front, b ≠ 0) (back : Str) :
    cut (front ++ 0 :: back) = front := by
  rw [cut_append_of_ne_zero hfront]
  simp [cut]

theorem cstr_eq_cut (mem : ℕ → UInt8) (off fuel : ℕ) :
    cstr mem off fuel = cut ((List.range fuel).map fun k => mem (off + k)) := by
  induction fuel generalizing off with
  | zero => rfl
  | succ fuel ih =>
    rw [List.range_succ_eq_map, List.map_cons, List.map_map, cstr]
    have htail : (fun k => mem (off + k)) ∘ Nat.succ = fun k => mem (off + 1 + k) := by
      funext k
      simp only [Function.comp_apply, Nat.succ_eq_add_one]
      congr 1
      omega
    rw [htail, ih]
    by_cases hzero : mem off = 0
    · simp [hzero, cut]
    · simp [hzero, cut]

theorem cstr_congr {mem other : ℕ → UInt8} {off fuel : ℕ} (h : ∀ k < fuel, mem (off + k) = other (off + k)) :
    cstr mem off fuel = cstr other off fuel := by
  rw [cstr_eq_cut, cstr_eq_cut, List.map_congr_left fun k hk => h k (List.mem_range.mp hk)]

/-- A string depends on the bytes up to a zero. -/
theorem cstr_congr_of_zero {mem other : ℕ → UInt8} {off last : ℕ} (hlast : mem last = 0) (hoff : off ≤ last)
    (h : ∀ k, off ≤ k → k ≤ last → other k = mem k) (fuel : ℕ) : cstr other off fuel = cstr mem off fuel := by
  induction fuel generalizing off with
  | zero => rfl
  | succ fuel ih =>
    rw [cstr, cstr, h off (Nat.le_refl off) hoff]
    split
    · rfl
    · rename_i hne
      have hnext : off ≠ last := by
        rintro rfl
        exact hne hlast
      rw [ih (by omega) fun k hk => h k (by omega)]

theorem cstr_eq_nil {mem : ℕ → UInt8} {off : ℕ} (h : mem off = 0) (fuel : ℕ) : cstr mem off fuel = [] := by
  cases fuel with
  | zero => rfl
  | succ fuel => rw [cstr, if_pos h]

theorem cstr_ne_nil {mem : ℕ → UInt8} {off fuel : ℕ} (h : mem off ≠ 0) (hfuel : 0 < fuel) :
    cstr mem off fuel ≠ [] := by
  obtain ⟨fuel, rfl⟩ := Nat.exists_eq_succ_of_ne_zero (Nat.ne_of_gt hfuel)
  rw [cstr, if_neg h]
  exact List.cons_ne_nil _ _

/-- Reading a string over an array: it ends inside the array when the array
holds a terminator and otherwise runs on into the bytes that follow. -/
theorem cstr_slot {mem : ℕ → UInt8} {off fuel w : ℕ} {s : Slot w} (hmem : ∀ k, mem (off + k.val) = s k)
    (hfuel : w ≤ fuel) :
    cstr mem off fuel = if s.Terminated then s.str else List.ofFn s ++ cstr mem (off + w) (fuel - w) := by
  obtain ⟨rest, rfl⟩ := Nat.exists_eq_add_of_le hfuel
  have hsplit : (List.range (w + rest)).map (fun k => mem (off + k)) =
      List.ofFn s ++ (List.range rest).map fun k => mem (off + w + k) := by
    rw [List.range_add, List.map_append, List.map_map]
    congr 1
    · apply List.ext_getElem
      · simp
      · intro k hk _
        simp only [List.length_map, List.length_range] at hk
        simpa using hmem ⟨k, hk⟩
    · simp [Function.comp_def, Nat.add_assoc]
  rw [cstr_eq_cut, cstr_eq_cut, hsplit, Nat.add_sub_cancel_left]
  by_cases hterm : s.Terminated
  · rw [if_pos hterm]
    obtain ⟨k, hk⟩ := hterm
    rw [Slot.str, cut, cut, List.takeWhile_append]
    have hshort : ((List.ofFn s).takeWhile (· != 0)).length ≠ (List.ofFn s).length := by
      intro heq
      have hall : ∀ b ∈ List.ofFn s, (b != 0) = true :=
        List.takeWhile_eq_self_iff.mp (List.takeWhile_prefix _ |>.eq_of_length heq)
      have hb := hall (s k) (List.mem_ofFn.mpr ⟨k, rfl⟩)
      simp [hk] at hb
    rw [if_neg hshort]
  · rw [if_neg hterm]
    apply cut_append_of_ne_zero
    intro b hb hzero
    obtain ⟨k, rfl⟩ := List.mem_ofFn.mp hb
    exact hterm ⟨k, hzero⟩

/-- An array that holds a string and zeroes behind it. -/
theorem Slot.str_of_getD {w : ℕ} {s : Slot w} {l : Str} (hl : ∀ b ∈ l, b ≠ 0)
    (hs : ∀ k, s k = l.getD k.val 0) (hlen : l.length ≤ w) : s.str = l := by
  have hfill : List.ofFn s = l ++ List.replicate (w - l.length) 0 := by
    apply List.ext_getElem
    · simp
      omega
    · intro k hk _
      simp only [List.length_ofFn] at hk
      simp only [List.getElem_ofFn, hs, List.getD_eq_getElem?_getD, List.getElem_append]
      split
      · rename_i hlt
        rw [List.getElem?_eq_getElem hlt, Option.getD_some]
      · rename_i hge
        rw [List.getElem?_eq_none (by omega), Option.getD_none, List.getElem_replicate]
  rw [Slot.str, hfill]
  cases hrest : w - l.length with
  | zero => simpa using cut_eq_self hl
  | succ rest => exact cut_append_zero hl _

/-- What `strncpy` leaves in a zeroed array. -/
theorem str_strncpy_zero {w n : ℕ} (hn : n ≤ w) (src : Str) :
    (strncpy (fun _ => 0 : Slot w) src n).str = (cut src).take n := by
  apply Slot.str_of_getD
  · intro b hb
    exact cut_ne_zero (List.mem_of_mem_take hb)
  · intro k
    rw [strncpy, List.getD_eq_getElem?_getD, List.getD_eq_getElem?_getD, List.getElem?_take]
    split <;> rfl
  · exact (List.length_take_le _ _).trans hn

/-- Copying the copy of a string once more changes nothing. -/
theorem strncpy_str_strncpy_zero {w n : ℕ} (hn : n ≤ w) (src : Str) :
    strncpy (fun _ => 0 : Slot w) (strncpy (fun _ => 0 : Slot w) src n).str n = strncpy (fun _ => 0) src n := by
  have hcut : cut ((cut src).take n) = (cut src).take n :=
    cut_eq_self fun _ hb => cut_ne_zero (List.mem_of_mem_take hb)
  funext k
  rw [str_strncpy_zero hn, strncpy, strncpy, hcut]
  split
  · rename_i hk
    rw [List.getD_eq_getElem?_getD, List.getD_eq_getElem?_getD, List.getElem?_take_of_lt hk]
  · rfl

theorem strncpy_zero_terminated {w n : ℕ} (hn : n < w) (src : Str) :
    (strncpy (fun _ => 0 : Slot w) src n).Terminated :=
  ⟨⟨n, hn⟩, if_neg (Nat.lt_irrefl n)⟩

/-- A copy that is terminated by hand in its last byte. -/
theorem update_strncpy {w n : ℕ} (hn : w ≤ n) (dst : Slot (w + 1)) (src : Str) :
    Function.update (strncpy dst src n) (Fin.last w) 0 = strncpy (fun _ => 0) src w := by
  funext k
  by_cases hlast : k = Fin.last w
  · subst hlast
    rw [Function.update_self, strncpy, Fin.val_last, if_neg (Nat.lt_irrefl w)]
  · have hk : k.val < w := Fin.val_lt_last hlast
    rw [Function.update_of_ne hlast, strncpy, strncpy, if_pos (hk.trans_le hn), if_pos hk]

theorem cstr_terminated_slot {mem : ℕ → UInt8} {off fuel w : ℕ} {s : Slot w}
    (hmem : ∀ k, mem (off + k.val) = s k) (hfuel : w ≤ fuel) (hterm : s.Terminated) :
    cstr mem off fuel = s.str := by
  rw [cstr_slot hmem hfuel, if_pos hterm]

end c_memory
