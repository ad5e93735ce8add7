import GrpcServer.CMemory.CString
import Mathlib.Algebra.GroupWithZero.Nat
import Mathlib.Data.Finset.Card

namespace c_memory

theorem Slot.Terminated.length_str_lt {w : ℕ} {s : Slot w} (h : s.Terminated) : s.str.length < w := by
  obtain ⟨k, hk⟩ := h
  have hle : s.str.length ≤ (List.ofFn s).length := (List.takeWhile_prefix _).length_le
  rw [List.length_ofFn] at hle
  refine lt_of_le_of_ne hle fun hlen => ?_
  have hall : s.str = List.ofFn s := (List.takeWhile_prefix _).eq_of_length (by simpa [Slot.str, cut] using hlen)
  have hmem : s k ∈ s.str := by
    rw [hall]
    exact List.mem_ofFn.mpr ⟨k, rfl⟩
  exact cut_ne_zero hmem hk

theorem Slot.str_eq_nil_iff {w : ℕ} [NeZero w] (s : Slot w) : s.str = [] ↔ s 0 = 0 := by
  obtain ⟨n, rfl⟩ := Nat.exists_eq_succ_of_ne_zero (NeZero.ne w)
  rw [Slot.str, List.ofFn_succ, cut, List.takeWhile_cons]
  split <;> simp_all

theorem Slot.str_of_not_terminated {w : ℕ} {s : Slot w} (h : ¬ s.Terminated) : s.str = List.ofFn s := by
  apply cut_eq_self
  intro b hb hzero
  obtain ⟨k, rfl⟩ := List.mem_ofFn.mp hb
  exact h ⟨k, hzero⟩

/-- A string read up to the end of the array's own object. -/
theorem cstr_whole {mem : ℕ → UInt8} {off w : ℕ} {s : Slot w} (hmem : ∀ k, mem (off + k.val) = s k) :
    cstr mem off w = s.str := by
  rw [cstr_slot hmem le_rfl]
  split
  · rfl
  · rename_i hterm
    rw [Nat.sub_self, cstr, List.append_nil, Slot.str_of_not_terminated hterm]

/-- The array filled with a string and zeroes. -/
def Slot.ofStr {w : ℕ} (s : Str) : Slot w := fun k => s.getD k.val 0

theorem Slot.ofStr_short {w : ℕ} {s : Str} (hs : ∀ b ∈ s, b ≠ 0) (hlen : s.length < w) :
    (Slot.ofStr s : Slot w).Terminated ∧ (Slot.ofStr s : Slot w).str = s := by
  refine ⟨⟨⟨s.length, hlen⟩, ?_⟩, Slot.str_of_getD hs (fun _ => rfl) hlen.le⟩
  rw [Slot.ofStr, List.getD_eq_getElem?_getD, List.getElem?_eq_none le_rfl, Option.getD_none]

theorem Slot.ofStr_full {w : ℕ} {s : Str} (hs : ∀ b ∈ s, b ≠ 0) (hlen : s.length = w) :
    ¬ (Slot.ofStr s : Slot w).Terminated ∧ List.ofFn (Slot.ofStr s : Slot w) = s := by
  have hget : ∀ k : Fin w, (Slot.ofStr s : Slot w) k = s.get ⟨k.val, k.isLt.trans_eq hlen.symm⟩ := by
    intro k
    rw [Slot.ofStr, List.getD_eq_getElem?_getD, List.getElem?_eq_getElem (k.isLt.trans_eq hlen.symm),
      Option.getD_some, List.get_eq_getElem]
  constructor
  · rintro ⟨k, hk⟩
    rw [hget] at hk
    exact hs _ (List.get_mem _ _) hk
  · apply List.ext_getElem
    · rw [List.length_ofFn, hlen]
    · intro k _ hk
      rw [List.getElem_ofFn, hget, List.get_eq_getElem]

/-- A source that ends in front of the bound is stored like a string and zeroes. -/
theorem strncpy_eq_ofStr {w n : ℕ} {src : Str} (hs : ∀ b ∈ src, b ≠ 0) (hlen : src.length ≤ n) :
    strncpy (fun _ => 0 : Slot w) src n = Slot.ofStr src := by
  funext k
  rw [strncpy, cut_eq_self hs, Slot.ofStr]
  split
  · rfl
  · rename_i hk
    rw [List.getD_eq_getElem?_getD, List.getElem?_eq_none (hlen.trans (Nat.le_of_not_lt hk)), Option.getD_none]

/-- An array that holds a string and its terminator, and anything behind it. -/
theorem Slot.str_of_terminator {w : ℕ} {s : Slot w} {l : Str} (hl : ∀ b ∈ l, b ≠ 0) (hlen : l.length < w)
    (hs : ∀ k : Fin w, k.val < l.length → s k = l.getD k.val 0) (hend : s ⟨l.length, hlen⟩ = 0) : s.str = l := by
  have hsize : l.length < (List.ofFn s).length := by rwa [List.length_ofFn]
  have htake : (List.ofFn s).take l.length = l := by
    apply List.ext_getElem
    · rw [List.length_take, Nat.min_eq_left hsize.le]
    · intro k _ hk
      simp only [List.getElem_take, List.getElem_ofFn, hs ⟨k, hk.trans hlen⟩ hk, List.getD_eq_getElem?_getD,
        List.getElem?_eq_getElem hk, Option.getD_some]
  rw [Slot.str, ← List.take_append_drop l.length (List.ofFn s), htake, List.drop_eq_getElem_cons hsize,
    List.getElem_ofFn, hend]
  exact cut_append_zero hl _

/-- A source that ends before the last byte is stored whole, whatever the array
held. -/
theorem strncpy_short {n : ℕ} (dst : Slot (n + 1)) {src : Str} (h : (cut src).length < n) :
    (strncpy dst src n).Terminated ∧ (strncpy dst src n).str = cut src := by
  have hend : strncpy dst src n ⟨(cut src).length, h.trans (Nat.lt_succ_self n)⟩ = 0 := by
    simp [strncpy, h]
  refine ⟨⟨_, hend⟩, Slot.str_of_terminator (fun _ => cut_ne_zero) _ ?_ hend⟩
  intro k hk
  exact if_pos (hk.trans h)

/-- A longer source fills the array up to its last byte, which keeps its old
contents. -/
theorem ofFn_strncpy_long {n : ℕ} (dst : Slot (n + 1)) {src : Str} (h : n ≤ (cut src).length) :
    List.ofFn (strncpy dst src n) = (cut src).take n ++ [dst (Fin.last n)] := by
  rw [List.ofFn_succ', List.concat_eq_append]
  congr 1
  · apply List.ext_getElem
    · simp [h]
    · intro k hk _
      have hlt : k < n := by simpa using hk
      simp [strncpy, List.getD_eq_getElem?_getD, List.getElem?_eq_getElem (hlt.trans_le h)]
  · simp [strncpy]

theorem strncpy_long_terminated_iff {n : ℕ} (dst : Slot (n + 1)) {src : Str} (h : n ≤ (cut src).length) :
    (strncpy dst src n).Terminated ↔ dst (Fin.last n) = 0 := by
  have hmem : (strncpy dst src n).Terminated ↔ 0 ∈ List.ofFn (strncpy dst src n) := by
    rw [List.mem_ofFn]
    rfl
  rw [hmem, ofFn_strncpy_long dst h, List.mem_append, List.mem_singleton]
  constructor
  · rintro (hfront | hlast)
    · exact absurd rfl (cut_ne_zero (List.mem_of_mem_take hfront))
    · exact hlast.symm
  · exact fun hzero => .inr hzero.symm

theorem strncpy_long_str {n : ℕ} (dst : Slot (n + 1)) {src : Str} (h : n ≤ (cut src).length)
    (hlast : dst (Fin.last n) = 0) : (strncpy dst src n).str = (cut src).take n := by
  rw [Slot.str, ofFn_strncpy_long dst h, hlast]
  exact cut_append_zero (fun b hb => cut_ne_zero (List.mem_of_mem_take hb)) []

/-- Fewer than 255 bytes leave one that is neither among them nor zero. -/
theorem exists_byte_not_mem {bytes : List UInt8} (h : bytes.length < 255) : ∃ b, b ≠ 0 ∧ b ∉ bytes := by
  have hcard : ((bytes.map fun b => b.toNat - 1).toFinset).card < (Finset.range 255).card := by
    rw [Finset.card_range]
    exact (List.toFinset_card_le _).trans_lt (by rwa [List.length_map])
  obtain ⟨n, hn, hfree⟩ := Finset.exists_mem_notMem_of_card_lt_card hcard
  rw [Finset.mem_range] at hn
  have hnat : (UInt8.ofNat (n + 1)).toNat = n + 1 := UInt8.toNat_ofNat_of_lt (Nat.succ_lt_succ hn)
  refine ⟨UInt8.ofNat (n + 1), fun hzero => ?_, fun hmem => hfree ?_⟩
  · rw [hzero] at hnat
    cases hnat
  · rw [List.mem_toFinset, List.mem_map]
    exact ⟨_, hmem, by rw [hnat, Nat.add_sub_cancel]⟩

end c_memory
