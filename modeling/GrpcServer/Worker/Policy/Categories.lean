import GrpcServer.DpdkFilter.FiltrPackets
import GrpcServer.Worker.Classify.Readable
import GrpcServer.Worker.Policy.Encoding

open c_memory grpc_server.dpdk_filter grpc_server.communication

namespace grpc_server.worker

variable {S : Type} {pol : WorkerPolicy S} {policy : BasePolicy} {inet : Inet}
  {trust : List (Sigma fun _ : Str => Int32)}

/-- A category name as the arrays of the worker hold it: up to its terminator, and
63 bytes of it. -/
def stored_name (name : Str) : Str := (cut name).take (CATEGORY_MAX_LEN - 1)

theorem stored_name_eq_nil_iff {name : Str} : stored_name name = [] ↔ cut name = [] := by
  rw [stored_name, List.take_eq_nil_iff]
  exact or_iff_right (by decide)

theorem copy_category_terminated (name : Str) : (copy_str name : Slot CATEGORY_MAX_LEN).Terminated :=
  copy_str_terminated (by decide) name

theorem str_copy_category (name : Str) : (copy_str name : Slot CATEGORY_MAX_LEN).str = stored_name name :=
  str_copy_str name

theorem getD_map_stored_name (names : List Str) (i : ℕ) :
    (names.map stored_name).getD i [] = stored_name (names.getD i []) :=
  List.getD_map names [] stored_name

/-- The category a slot of the zeroed buffer reads as after `classify`. -/
theorem category_blank (resp : ClassifyResponse) {i : ℕ} (hi : i < MAX_CATEGORIES) :
    (classify resp blank).category i = (resp.categories.map stored_name).getD i [] := by
  have hslot : (classify resp blank).get_categories ⟨i, hi⟩ = copy_str (resp.categories.getD i []) := by
    rw [List.getD_eq_getElem?_getD]
    cases hname : resp.categories[i]? with
    | none => simp only [classify, hname, blank, Option.getD_none, copy_str_nil]
    | some name => simp only [classify, hname, blank, Option.getD_some, copy_str_eq]
  have hread := category_eq (classify resp blank) ⟨i, hi⟩
  rw [hslot, if_pos (copy_category_terminated _), str_copy_category] at hread
  rw [hread, getD_map_stored_name]

/-- The locked category an index reads as once the policy is stored. -/
theorem locked_category_encoding (inet : Inet) (trust : List (Sigma fun _ : Str => Int32)) (pol : WorkerPolicy S)
    {i : ℕ} (hi : i < MAX_CATEGORIES) :
    (encoding inet trust pol).locked_category i = (pol.block_categories.map stored_name).getD i [] := by
  have hslot : (encoding inet trust pol).locked_categories ⟨i, hi⟩ = copy_str (pol.block_categories.getD i []) :=
    getD_map_copy_str pol.block_categories i
  have hread : (encoding inet trust pol).locked_category i =
      ((encoding inet trust pol).locked_categories ⟨i, hi⟩).str :=
    BasePolicy.locked_category_of_terminated (hslot ▸ copy_category_terminated _)
  rw [hread, hslot, str_copy_category, getD_map_stored_name]

theorem image_trust_category (p : BasePolicy) (i : Fin MAX_CATEGORIES_BY_TRUST_LVL) (k : Fin CATEGORY_MAX_LEN) :
    p.image (6400 + 68 * i.val + k.val) = (p.categories_with_lvl i).locked_by_trust_category k := by
  have hi : i.val < 64 := i.isLt
  have hk : k.val < 64 := k.isLt
  have hrow : rows (fun i => (p.categories_with_lvl i).bytes) (68 * i.val + k.val) =
      (p.categories_with_lvl i).bytes ⟨k.val, by omega⟩ :=
    rows_apply (fun i => (p.categories_with_lvl i).bytes) i ⟨k.val, by omega⟩
  rw [BasePolicy.image, Nat.add_assoc, member_add, member_of_lt _ _ (by omega), hrow, TrustCategoriesWithLvl.bytes,
    member_of_lt _ _ hk, bytesOf_apply]

/-- An entry whose name is terminated reads the same whatever stands around the
table. -/
theorem trust_category_eq {p : BasePolicy} {i : Fin MAX_CATEGORIES_BY_TRUST_LVL}
    (h : (p.categories_with_lvl i).locked_by_trust_category.Terminated) :
    p.trust_category i.val = (p.categories_with_lvl i).locked_by_trust_category.str := by
  have hi : i.val < 64 := i.isLt
  exact cstr_terminated_slot (image_trust_category p i) (by simp only [CATEGORY_MAX_LEN]; omega) h

/-- Some category of the response is a locked one, as the arrays hold them. -/
def LocksCategory (resp : ClassifyResponse) (pol : WorkerPolicy S) : Prop :=
  ∃ category ∈ resp.categories, ∃ locked ∈ pol.block_categories, stored_name category = stored_name locked

/-- Two arrays of strings that share an entry share one of their lists, or both
have an empty one. -/
theorem exists_shared_slot_iff {n : ℕ} {first second : List Str} (hfirst : first.length ≤ n)
    (hsecond : second.length ≤ n) :
    (∃ i < n, ∃ j < n, first.getD i [] = second.getD j []) ↔
      (∃ s ∈ first, s ∈ second) ∨ (first.length < n ∨ [] ∈ first) ∧ (second.length < n ∨ [] ∈ second) := by
  have hinner : ∀ s, (∃ j < n, s = second.getD j []) ↔ s ∈ second ∨ second.length < n ∧ s = [] := by
    intro s
    rw [exists_getD_iff (s = ·) [] second, List.take_of_length_le hsecond, exists_eq_right']
  rw [exists_getD_iff (fun s => ∃ j < n, s = second.getD j []) [] first, List.take_of_length_le hfirst]
  simp only [hinner, and_true]
  constructor
  · rintro (⟨s, hs, hshared | ⟨hroom', rfl⟩⟩ | ⟨hroom, hshared | hroom'⟩)
    · exact .inl ⟨s, hs, hshared⟩
    · exact .inr ⟨.inr hs, .inl hroom'⟩
    · exact .inr ⟨.inl hroom, .inr hshared⟩
    · exact .inr ⟨.inl hroom, .inl hroom'⟩
  · rintro (⟨s, hs, hshared⟩ | ⟨hroom | hnil, hempty⟩)
    · exact .inl ⟨s, hs, .inl hshared⟩
    · exact .inr ⟨hroom, hempty.symm⟩
    · exact .inl ⟨[], hnil, hempty.symm.imp_right fun hroom' => ⟨hroom', rfl⟩⟩

/-- An array of names has a slot that reads as the empty string. -/
def EmptySlot (names : List Str) : Prop := names.length < MAX_CATEGORIES ∨ ∃ name ∈ names, cut name = []

theorem emptySlot_iff (names : List Str) :
    (names.map stored_name).length < MAX_CATEGORIES ∨ [] ∈ names.map stored_name ↔ EmptySlot names := by
  simp only [List.length_map, List.mem_map, stored_name_eq_nil_iff, EmptySlot]

/-- The scan of all pairs finds a locked category, or two empty slots. -/
theorem check_categories_stored (hstore : store_policy inet trust pol = some policy) {resp : ClassifyResponse}
    (hcount : resp.categories.length ≤ MAX_CATEGORIES) :
    check_categories (classify resp blank) policy = false ↔
      LocksCategory resp pol ∨ EmptySlot resp.categories ∧ EmptySlot pol.block_categories := by
  obtain ⟨hfits, rfl⟩ := fits_of_store hstore
  have hpairs : (∃ i < MAX_CATEGORIES, ∃ j < MAX_CATEGORIES,
      (classify resp blank).category i = (encoding inet trust pol).locked_category j) ↔
      ∃ i < MAX_CATEGORIES, ∃ j < MAX_CATEGORIES, (resp.categories.map stored_name).getD i [] =
        (pol.block_categories.map stored_name).getD j [] := by
    refine exists_congr fun i => and_congr_right fun hi => exists_congr fun j => and_congr_right fun hj => ?_
    rw [category_blank resp hi, locked_category_encoding inet trust pol hj]
  have hshared : (∃ s ∈ resp.categories.map stored_name, s ∈ pol.block_categories.map stored_name) ↔
      LocksCategory resp pol := by
    simp only [List.mem_map, LocksCategory]
    constructor
    · rintro ⟨s, ⟨category, hcategory, rfl⟩, locked, hlocked, heq⟩
      exact ⟨category, hcategory, locked, hlocked, heq.symm⟩
    · rintro ⟨category, hcategory, locked, hlocked, heq⟩
      exact ⟨_, ⟨category, hcategory, rfl⟩, locked, hlocked, heq.symm⟩
  rw [check_categories_eq_false_iff, hpairs, exists_shared_slot_iff (by simpa using hcount) (by simpa using hfits.1),
    hshared, emptySlot_iff, emptySlot_iff]

/-- The check is exact when a locked category is there, and otherwise only when
one of the two arrays has no empty slot. -/
theorem category_blocking_exact_iff (hstore : store_policy inet trust pol = some policy) {resp : ClassifyResponse}
    (hcount : resp.categories.length ≤ MAX_CATEGORIES) :
    (check_categories (classify resp blank) policy = false ↔ LocksCategory resp pol) ↔
      LocksCategory resp pol ∨ ¬ EmptySlot resp.categories ∨ ¬ EmptySlot pol.block_categories := by
  rw [check_categories_stored hstore hcount, ← not_and_or]
  by_cases hmatch : LocksCategory resp pol
  · simp only [hmatch, true_or]
  · simp only [hmatch, false_or, iff_false]

/-- A policy that locks one category. -/
def locking (category : Str) : WorkerPolicy Unit := { WorkerPolicy.empty with block_categories := [category] }

theorem store_locking (category : Str) :
    store_policy Inet.mute [] (locking category) = some (encoding Inet.mute [] (locking category)) :=
  store_policy_of_fits ⟨Nat.le_of_ble_eq_true rfl, Nat.zero_le _, Nat.zero_le _⟩ Inet.mute []

/-- The category `a` is blocked where only `b` is locked. -/
theorem unlocked_category_blocked :
    store_policy Inet.mute [] (locking [98]) = some (encoding Inet.mute [] (locking [98])) ∧
    ¬ LocksCategory ⟨[[97]], 0⟩ (locking [98]) ∧
    check_categories (classify ⟨[[97]], 0⟩ blank) (encoding Inet.mute [] (locking [98])) = false := by
  refine ⟨store_locking [98], ?_, ?_⟩
  · simp [LocksCategory, locking, stored_name, cut]
  · rw [check_categories_stored (store_locking [98]) (by decide)]
    exact .inr ⟨.inl (by decide), .inl (by decide)⟩

theorem locked_category_blocked :
    check_categories (classify ⟨[[97]], 0⟩ blank) (encoding Inet.mute [] (locking [97])) = false ↔
      LocksCategory ⟨[[97]], 0⟩ (locking [97]) :=
  (category_blocking_exact_iff (store_locking [97]) (by decide)).mpr
    (.inl (by simp [LocksCategory, locking]))

/-- The comparison `check_categories_with_lvl` makes for one entry of the table. -/
def entry_rejects (req_clas : RequestedClassification) (policy : BasePolicy) (i : ℕ) : Bool :=
  (List.range MAX_CATEGORIES).any fun j =>
    req_clas.category j == policy.trust_category i && req_clas.get_trust_level < policy.trust_lvl i

/-- The indices of `categories_with_lvl` that `check_categories_with_lvl` uses. -/
def lvl_indices (req_clas : RequestedClassification) (policy : BasePolicy) : List ℕ :=
  examined (entry_rejects req_clas policy) (List.range MAX_CATEGORIES)

theorem check_categories_with_lvl_eq (req_clas : RequestedClassification) (policy : BasePolicy) :
    check_categories_with_lvl req_clas policy =
      !(List.range MAX_CATEGORIES).any (entry_rejects req_clas policy) := rfl

/-- Some entry of the stored table has a category of the classification and a
level above its trust level. -/
def LevelRejects (resp : ClassifyResponse) (trust : List (Sigma fun _ : Str => Int32)) : Prop :=
  ∃ entry ∈ trust.take MAX_CATEGORIES_BY_TRUST_LVL, ∃ category ∈ resp.categories.take MAX_CATEGORIES,
    stored_name category = stored_name entry.1 ∧ resp.trust_level < entry.2

theorem check_categories_with_lvl_eq_false_of_entry {req_clas : RequestedClassification} {policy : BasePolicy}
    (h : ∃ i < MAX_CATEGORIES_BY_TRUST_LVL, entry_rejects req_clas policy i = true) :
    check_categories_with_lvl req_clas policy = false := by
  obtain ⟨i, hi, hreject⟩ := h
  rw [check_categories_with_lvl_eq, Bool.not_eq_false', List.any_eq_true]
  exact ⟨i, List.mem_range.mpr (Nat.lt_trans hi (by decide)), hreject⟩

/-- A rejecting entry of the table is found, whatever stands around the table. -/
theorem exists_entry_rejects (inet : Inet) (pol : WorkerPolicy S) {resp : ClassifyResponse}
    (h : LevelRejects resp trust) {other : BasePolicy}
    (htable : other.categories_with_lvl = (encoding inet trust pol).categories_with_lvl) :
    ∃ i < MAX_CATEGORIES_BY_TRUST_LVL, entry_rejects (classify resp blank) other i = true := by
  obtain ⟨entry, hentry, category, hcategory, hname, hlevel⟩ := h
  obtain ⟨i, hi, rfl⟩ := List.mem_take_iff_getElem.mp hentry
  obtain ⟨j, hj, rfl⟩ := List.mem_take_iff_getElem.mp hcategory
  have hi64 : i < MAX_CATEGORIES_BY_TRUST_LVL := by omega
  have hj100 : j < MAX_CATEGORIES := by omega
  have hstored : other.categories_with_lvl ⟨i, hi64⟩ = trust_entry trust[i] := by
    rw [htable]
    change (trust.map trust_entry).getD i _ = _
    rw [List.getD_eq_getElem?_getD, List.getElem?_map, List.getElem?_eq_getElem (by omega)]
    rfl
  have hread : other.trust_category i = stored_name trust[i].1 := by
    have hterm : (other.categories_with_lvl ⟨i, hi64⟩).locked_by_trust_category.Terminated := by
      rw [hstored]
      exact copy_category_terminated _
    refine (trust_category_eq hterm).trans ?_
    rw [hstored]
    exact str_copy_category _
  have hlvl : other.trust_lvl i = trust[i].2 := by
    rw [BasePolicy.trust_lvl, dif_pos hi64, hstored]
    rfl
  have hfound : (classify resp blank).category j = stored_name resp.categories[j] := by
    rw [category_blank resp hj100, List.getD_eq_getElem?_getD, List.getElem?_map, List.getElem?_eq_getElem (by omega)]
    rfl
  refine ⟨i, hi64, ?_⟩
  rw [entry_rejects, List.any_eq_true]
  refine ⟨j, List.mem_range.mpr hj100, ?_⟩
  rw [hfound, hread, hlvl, hname, beq_self_eq_true, Bool.true_and]
  exact decide_eq_true hlevel

/-- The thresholds are read from their own table, and exactly, only for a
classification that an entry of the table rejects: without one the scan leaves
the table. -/
theorem trust_thresholds_exact_iff (hstore : store_policy inet trust pol = some policy) (resp : ClassifyResponse) :
    ((∀ i ∈ lvl_indices (classify resp blank) policy, i < MAX_CATEGORIES_BY_TRUST_LVL) ∧
      (check_categories_with_lvl (classify resp blank) policy = false ↔ LevelRejects resp trust) ∧
      ∀ other : BasePolicy, other.categories_with_lvl = policy.categories_with_lvl →
        check_categories_with_lvl (classify resp blank) other =
          check_categories_with_lvl (classify resp blank) policy) ↔
    LevelRejects resp trust := by
  obtain ⟨-, rfl⟩ := fits_of_store hstore
  rw [lvl_indices, examined_range_lt_iff _ (by decide)]
  constructor
  · rintro ⟨hentry, hexact, -⟩
    exact hexact.mp (check_categories_with_lvl_eq_false_of_entry hentry)
  · intro hreject
    have hentry := exists_entry_rejects inet pol hreject rfl
    have hfalse := check_categories_with_lvl_eq_false_of_entry hentry
    refine ⟨hentry, iff_of_true hfalse hreject, fun other htable => ?_⟩
    rw [hfalse, check_categories_with_lvl_eq_false_of_entry (exists_entry_rejects inet pol hreject htable)]

/-- A policy without thresholds. Its `ttl_ip` of 99 seconds reads as the category
`c`, and four letters of the blocked name as its level. -/
def no_thresholds : WorkerPolicy Unit :=
  { WorkerPolicy.empty with block_domains := [List.replicate 60 97], ttl_ip := 99 }

/-- The members behind the table reject the category `c`. -/
theorem trust_scan_leaves_table :
    store_policy Inet.mute [] no_thresholds = some (encoding Inet.mute [] no_thresholds) ∧
    ¬ LevelRejects ⟨[[99]], 0⟩ [] ∧
    ¬ (∀ i ∈ lvl_indices (classify ⟨[[99]], 0⟩ blank) (encoding Inet.mute [] no_thresholds),
      i < MAX_CATEGORIES_BY_TRUST_LVL) ∧
    check_categories_with_lvl (classify ⟨[[99]], 0⟩ blank) (encoding Inet.mute [] no_thresholds) = false := by
  refine ⟨store_policy_of_fits ⟨by decide, by decide, by decide⟩ Inet.mute [], by simp [LevelRejects], ?_, ?_⟩
  · rw [lvl_indices, examined_range_lt_iff _ (by decide)]
    rintro ⟨i, hi, hreject⟩
    obtain ⟨j, -, hlevel⟩ := List.any_eq_true.mp hreject
    have hzero : (encoding Inet.mute [] no_thresholds).trust_lvl i = 0 := dif_pos hi
    rw [hzero, Bool.and_eq_true, decide_eq_true_eq] at hlevel
    exact absurd hlevel.2 (by decide)
  · rw [check_categories_with_lvl_eq_false_iff]
    refine ⟨64, by decide, 0, by decide, ?_, ?_⟩
    · rw [category_blank _ (by decide)]
      decide +kernel
    · decide +kernel

/-- A threshold for the category `a`. -/
def one_threshold : WorkerPolicy Unit := { WorkerPolicy.empty with block_by_trust := Finmap.singleton [97] 5 }

theorem trust_thresholds_exact_letter :
    check_categories_with_lvl (classify ⟨[[97]], 0⟩ blank) (encoding Inet.mute [⟨[97], 5⟩] one_threshold) = false ↔
      LevelRejects ⟨[[97]], 0⟩ [⟨[97], 5⟩] :=
  ((trust_thresholds_exact_iff (store_policy_of_fits ⟨by decide, by decide, by decide⟩ Inet.mute [⟨[97], 5⟩])
    ⟨[[97]], 0⟩).mpr ⟨⟨[97], 5⟩, by simp, [97], by simp, rfl, by decide⟩).2.1

end grpc_server.worker
