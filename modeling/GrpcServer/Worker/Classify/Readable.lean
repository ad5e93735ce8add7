import GrpcServer.CMemory.Strncpy
import GrpcServer.Worker.Classify

open c_memory grpc_server.dpdk_filter

namespace grpc_server.worker

/-- A category runs on into the next slot when its own holds no terminator. -/
theorem category_eq (req : RequestedClassification) (i : Fin MAX_CATEGORIES) :
    req.category i.val = if (req.get_categories i).Terminated then (req.get_categories i).str
      else List.ofFn (req.get_categories i) ++ req.category (i.val + 1) := by
  have hi : i.val < 100 := i.isLt
  rw [RequestedClassification.category, cstr_slot (req.image_category i) (by simp only [CATEGORY_MAX_LEN]; omega),
    RequestedClassification.category, Nat.mul_add, Nat.mul_one, Nat.sub_sub]

/-- Behind the last slot stands the trust level. -/
theorem category_end (req : RequestedClassification) :
    req.category MAX_CATEGORIES = (leBytes req.get_trust_level).str := by
  apply cstr_whole
  intro k
  have hk : k.val < 4 := k.isLt
  change req.image (6400 + k.val) = _
  rw [RequestedClassification.image, member_add, member_of_lt _ _ hk, bytesOf_apply]

/-- A category depends on the slots from its own on. -/
theorem category_congr {first second : RequestedClassification}
    (htrust : first.get_trust_level = second.get_trust_level) {i : ℕ} (hi : i ≤ MAX_CATEGORIES)
    (hslots : ∀ j : Fin MAX_CATEGORIES, i ≤ j.val → first.get_categories j = second.get_categories j) :
    first.category i = second.category i := by
  induction hi using Nat.decreasingInduction with
  | self => rw [category_end, category_end, htrust]
  | of_succ i hi ih =>
    have hrest := ih fun j hj => hslots j (Nat.le_of_succ_le hj)
    have heq := hslots ⟨i, hi⟩ le_rfl
    have hfirst := category_eq first ⟨i, hi⟩
    have hsecond := category_eq second ⟨i, hi⟩
    simp only at hfirst hsecond
    rw [hfirst, hsecond, heq, hrest]

/-- What the slot of a short category reads as does not depend on the old
contents. -/
theorem category_short {resp : ClassifyResponse} {i : Fin MAX_CATEGORIES} {category : Str}
    (hcategory : resp.categories[i.val]? = some category) (hshort : (cut category).length < 63)
    (out_req : RequestedClassification) : (classify resp out_req).category i.val = cut category := by
  have hslot : (classify resp out_req).get_categories i = strncpy (out_req.get_categories i) category 63 := by
    simp only [classify, hcategory]
    rfl
  obtain ⟨hterm, hstr⟩ := strncpy_short (out_req.get_categories i) hshort
  rw [category_eq, hslot, if_pos hterm, hstr]

/-- A category of 63 bytes or more ends there only if the old last byte of its
slot was zero. -/
theorem category_long {resp : ClassifyResponse} {i : Fin MAX_CATEGORIES} {category : Str}
    (hcategory : resp.categories[i.val]? = some category) (hlong : 63 ≤ (cut category).length)
    (out_req : RequestedClassification) :
    (classify resp out_req).category i.val =
      if out_req.get_categories i 63 = 0 then (cut category).take 63
      else (cut category).take 63 ++ out_req.get_categories i 63 :: (classify resp out_req).category (i.val + 1) := by
  have hslot : (classify resp out_req).get_categories i = strncpy (out_req.get_categories i) category 63 := by
    simp only [classify, hcategory]
    rfl
  have hterm : ((classify resp out_req).get_categories i).Terminated ↔ out_req.get_categories i 63 = 0 := by
    rw [hslot]
    exact strncpy_long_terminated_iff (out_req.get_categories i) hlong
  rw [category_eq, hslot]
  by_cases hlast : out_req.get_categories i 63 = 0
  · rw [if_pos (hslot ▸ hterm.mpr hlast), if_pos hlast]
    exact strncpy_long_str (out_req.get_categories i) hlong hlast
  · rw [if_neg fun h => hlast (hterm.mp (hslot ▸ h)), if_neg hlast]
    refine (congrArg (· ++ _) (ofFn_strncpy_long (out_req.get_categories i) hlong)).trans ?_
    rw [List.append_assoc]
    rfl

theorem category_free {resp : ClassifyResponse} {i : Fin MAX_CATEGORIES} (hfree : resp.categories[i.val]? = none)
    (out_req : RequestedClassification) :
    (classify resp out_req).category i.val =
      if (out_req.get_categories i).Terminated then (out_req.get_categories i).str
      else List.ofFn (out_req.get_categories i) ++ (classify resp out_req).category (i.val + 1) := by
  have hslot : (classify resp out_req).get_categories i = out_req.get_categories i := by
    simp only [classify, hfree]
  rw [category_eq, hslot]

/-- The strings that old contents of the buffer can make readable `n` slots
before its end. -/
def mayRead (resp : ClassifyResponse) : ℕ → Str → Prop
  | 0, s => s = (leBytes resp.trust_level).str
  | n + 1, s =>
    match resp.categories[MAX_CATEGORIES - (n + 1)]? with
    | some category =>
      if (cut category).length < 63 then s = cut category
      else s = (cut category).take 63 ∨
        ∃ b rest, b ≠ 0 ∧ s = (cut category).take 63 ++ b :: rest ∧ mayRead resp n rest
    | none =>
      (s.length < CATEGORY_MAX_LEN ∧ ∀ b ∈ s, b ≠ 0) ∨
        ∃ front rest, front.length = CATEGORY_MAX_LEN ∧ (∀ b ∈ front, b ≠ 0) ∧ s = front ++ rest ∧
          mayRead resp n rest

theorem mayRead_of_empty {resp : ClassifyResponse} (hempty : resp.categories = []) (n : ℕ) {s : Str}
    (hlen : s.length < CATEGORY_MAX_LEN) (hbytes : ∀ b ∈ s, b ≠ 0) : mayRead resp (n + 1) s := by
  simp only [mayRead, hempty, List.getElem?_nil]
  exact .inl ⟨hlen, hbytes⟩

theorem mayRead_category (resp : ClassifyResponse) (out_req : RequestedClassification) {n : ℕ}
    (hn : n ≤ MAX_CATEGORIES) : mayRead resp n ((classify resp out_req).category (MAX_CATEGORIES - n)) := by
  induction n with
  | zero => exact category_end _
  | succ n ih =>
    have ih := ih (Nat.le_of_succ_le hn)
    have hi : MAX_CATEGORIES - (n + 1) < MAX_CATEGORIES := by omega
    have hnext : MAX_CATEGORIES - (n + 1) + 1 = MAX_CATEGORIES - n := by omega
    cases hcategory : resp.categories[MAX_CATEGORIES - (n + 1)]? with
    | some category =>
      simp only [mayRead, hcategory]
      by_cases hshort : (cut category).length < 63
      · rw [if_pos hshort]
        exact category_short (i := ⟨_, hi⟩) hcategory hshort out_req
      · rw [if_neg hshort]
        have hread := category_long (i := ⟨_, hi⟩) hcategory (Nat.le_of_not_lt hshort) out_req
        simp only [hnext] at hread
        by_cases hlast : out_req.get_categories ⟨_, hi⟩ 63 = 0
        · rw [if_pos hlast] at hread
          exact .inl hread
        · rw [if_neg hlast] at hread
          exact .inr ⟨_, _, hlast, hread, ih⟩
    | none =>
      simp only [mayRead, hcategory]
      have hread := category_free (i := ⟨_, hi⟩) hcategory out_req
      simp only [hnext] at hread
      by_cases hterm : (out_req.get_categories ⟨_, hi⟩).Terminated
      · rw [if_pos hterm] at hread
        rw [hread]
        exact .inl ⟨hterm.length_str_lt, fun _ => cut_ne_zero⟩
      · rw [if_neg hterm] at hread
        refine .inr ⟨_, _, List.length_ofFn, ?_, hread, ih⟩
        rw [← Slot.str_of_not_terminated hterm]
        exact fun _ => cut_ne_zero

/-- The buffer with other contents in one slot. -/
def set_slot (out_req : RequestedClassification) (i : Fin MAX_CATEGORIES) (slot : Slot CATEGORY_MAX_LEN) :
    RequestedClassification :=
  { out_req with get_categories := Function.update out_req.get_categories i slot }

@[simp] theorem set_slot_self (out_req : RequestedClassification) (i : Fin MAX_CATEGORIES)
    (slot : Slot CATEGORY_MAX_LEN) : (set_slot out_req i slot).get_categories i = slot := Function.update_self ..

theorem set_slot_of_ne (out_req : RequestedClassification) {i j : Fin MAX_CATEGORIES} (hne : j ≠ i)
    (slot : Slot CATEGORY_MAX_LEN) : (set_slot out_req i slot).get_categories j = out_req.get_categories j :=
  Function.update_of_ne hne ..

/-- Old contents that differ in one slot leave the later categories alone. -/
theorem category_set_slot (resp : ClassifyResponse) (out_req : RequestedClassification) (i : Fin MAX_CATEGORIES)
    (slot : Slot CATEGORY_MAX_LEN) :
    (classify resp (set_slot out_req i slot)).category (i.val + 1) = (classify resp out_req).category (i.val + 1) := by
  apply category_congr
  · rfl
  · exact i.isLt
  · intro j hj
    have hne : j ≠ i := fun h => by
      rw [h] at hj
      exact Nat.not_succ_le_self _ hj
    simp only [classify, set_slot_of_ne out_req hne]

def blank : RequestedClassification := ⟨fun _ _ => 0, 0⟩

/-- Every readable string is read for some old contents, which may be zero in
front of it. -/
theorem exists_of_mayRead (resp : ClassifyResponse) {n : ℕ} (hn : n ≤ MAX_CATEGORIES) {s : Str}
    (h : mayRead resp n s) : ∃ out_req : RequestedClassification,
      (∀ j : Fin MAX_CATEGORIES, j.val < MAX_CATEGORIES - n → out_req.get_categories j = fun _ => 0) ∧
      (classify resp out_req).category (MAX_CATEGORIES - n) = s := by
  induction n generalizing s with
  | zero => exact ⟨blank, fun _ _ => rfl, (category_end _).trans h.symm⟩
  | succ n ih =>
    have hlt : MAX_CATEGORIES - (n + 1) < MAX_CATEGORIES := by omega
    obtain ⟨i, hi⟩ : ∃ i : Fin MAX_CATEGORIES, i.val = MAX_CATEGORIES - (n + 1) := ⟨⟨_, hlt⟩, rfl⟩
    have hnext : MAX_CATEGORIES - n = i.val + 1 := by omega
    have hset : ∀ {out_req : RequestedClassification} (slot : Slot CATEGORY_MAX_LEN),
        (∀ j : Fin MAX_CATEGORIES, j.val < MAX_CATEGORIES - n → out_req.get_categories j = fun _ => 0) →
        ∀ j : Fin MAX_CATEGORIES, j.val < i.val → (set_slot out_req i slot).get_categories j = fun _ => 0 := by
      intro out_req slot hzero j hj
      rw [set_slot_of_ne out_req (Fin.ne_of_lt hj), hzero j (by omega)]
    rw [mayRead, ← hi] at h
    rw [← hi]
    cases hcategory : resp.categories[i.val]? with
    | some category =>
      simp only [hcategory] at h
      by_cases hshort : (cut category).length < 63
      · rw [if_pos hshort] at h
        exact ⟨blank, fun _ _ => rfl, (category_short hcategory hshort blank).trans h.symm⟩
      · rw [if_neg hshort] at h
        have hlong := Nat.le_of_not_lt hshort
        obtain rfl | ⟨b, rest, hb, rfl, hrest⟩ := h
        · exact ⟨blank, fun _ _ => rfl, (category_long hcategory hlong blank).trans (if_pos rfl)⟩
        · obtain ⟨out_req, hzero, hread⟩ := ih (Nat.le_of_succ_le hn) hrest
          refine ⟨set_slot out_req i fun _ => b, hset _ hzero, ?_⟩
          rw [category_long hcategory hlong, set_slot_self, if_neg hb, category_set_slot, ← hnext, hread]
    | none =>
      simp only [hcategory] at h
      obtain ⟨hlen, hbytes⟩ | ⟨front, rest, hlen, hbytes, rfl, hrest⟩ := h
      · obtain ⟨hterm, hstr⟩ := Slot.ofStr_short hbytes hlen
        refine ⟨set_slot blank i (Slot.ofStr s), hset _ fun _ _ => rfl, ?_⟩
        rw [category_free hcategory, set_slot_self, if_pos hterm, hstr]
      · obtain ⟨hterm, hfront⟩ := Slot.ofStr_full hbytes hlen
        obtain ⟨out_req, hzero, hread⟩ := ih (Nat.le_of_succ_le hn) hrest
        refine ⟨set_slot out_req i (Slot.ofStr front), hset _ hzero, ?_⟩
        rw [category_free hcategory, set_slot_self, if_neg hterm, hfront, category_set_slot, ← hnext, hread]

end grpc_server.worker
