import GrpcServer.DpdkFilter.Cache.Persistence

open c_memory ttl_cache

namespace grpc_server.dpdk_filter

/-- The names the loop over the slots leaves for a text, behind those `seen`: it
stops at an empty name and at one that is there. -/
def inserted (seen : List Str) : List Str → List Str
  | [] => seen
  | name :: rest => if name.isEmpty || seen.contains name then seen else inserted (seen ++ [name]) rest

/-- The names that saving a node leaves. -/
def NodeCache.saved_categories (node : NodeCache) : List Str :=
  inserted [] ((List.finRange MAX_CATEGORIES).map node.category)

/-- What the SELECT for a text returns. -/
def Database.categories_of (db : Database) (text : Str) : List Str :=
  (db.categories_table.filter fun row => row.1 = text).map Prod.snd

/-- The tables hold the same rows. SQLite may return those of `categories_table` in
another order. -/
structure Database.SameRows (db other : Database) : Prop where
  main_table : other.main_table = db.main_table
  categories_table : other.categories_table.Perm db.categories_table

/-- Names read into the memory are followed by their end: each fits its slot, and
the slot behind the last holds an empty string or one of them. -/
def EndsBehind (memory : Fin MAX_CATEGORIES → Slot CATEGORY_MAX_LEN) (names : List Str) : Prop :=
  (∀ name ∈ names, name.length < CATEGORY_MAX_LEN) ∧
    ∀ i : Fin MAX_CATEGORIES, i.val = names.length →
      (memory i).Terminated ∧ ((memory i).str = [] ∨ (memory i).str ∈ names)

theorem EndsBehind.congr {memory : Fin MAX_CATEGORIES → Slot CATEGORY_MAX_LEN} {names other : List Str}
    (h : names.Perm other) : EndsBehind memory names ↔ EndsBehind memory other := by
  simp only [EndsBehind, h.mem_iff, h.length_eq]

section Inserted

variable {seen names back : List Str}

theorem inserted_cons (seen : List Str) (name : Str) (rest : List Str) :
    inserted seen (name :: rest) = if name = [] ∨ name ∈ seen then seen else inserted (seen ++ [name]) rest := by
  simp only [inserted, Bool.or_eq_true, List.isEmpty_iff, List.contains_iff_mem]

theorem inserted_eq (seen names : List Str) : ∃ more, inserted seen names = seen ++ more ∧ more <+: names := by
  induction names generalizing seen with
  | nil => exact ⟨[], (List.append_nil seen).symm, List.prefix_rfl⟩
  | cons name rest ih =>
    rw [inserted_cons]
    split
    · exact ⟨[], (List.append_nil seen).symm, List.nil_prefix⟩
    · obtain ⟨more, hmore, hstart⟩ := ih (seen ++ [name])
      exact ⟨name :: more, by rw [hmore, List.append_assoc]; rfl, List.cons_prefix_cons.mpr ⟨rfl, hstart⟩⟩

theorem inserted_isPrefix (names : List Str) : inserted [] names <+: names := by
  obtain ⟨more, hmore, hstart⟩ := inserted_eq [] names
  rwa [hmore]

theorem inserted_nodup (h : seen.Nodup) (names : List Str) : (inserted seen names).Nodup := by
  induction names generalizing seen with
  | nil => exact h
  | cons name rest ih =>
    rw [inserted_cons]
    split
    · exact h
    · rename_i hnew
      exact ih (List.nodup_append_comm.mp (List.nodup_cons.mpr ⟨fun hmem => hnew (.inr hmem), h⟩))

theorem nil_notMem_inserted (h : [] ∉ seen) (names : List Str) : [] ∉ inserted seen names := by
  induction names generalizing seen with
  | nil => exact h
  | cons name rest ih =>
    rw [inserted_cons]
    split
    · exact h
    · rename_i hnew
      apply ih
      simp only [List.mem_append, List.mem_singleton, not_or]
      exact ⟨h, fun heq => hnew (.inl heq.symm)⟩

theorem inserted_append (hnodup : (seen ++ names).Nodup) (hnil : [] ∉ names) (back : List Str) :
    inserted seen (names ++ back) = inserted (seen ++ names) back := by
  induction names generalizing seen with
  | nil => rw [List.nil_append, List.append_nil]
  | cons name rest ih =>
    obtain ⟨hname, hrest⟩ := List.ne_and_not_mem_of_not_mem_cons hnil
    have hfresh : name ∉ seen := fun hmem =>
      (List.disjoint_of_nodup_append hnodup) hmem List.mem_cons_self
    rw [List.cons_append, inserted_cons, if_neg (not_or.mpr ⟨fun h => hname h.symm, hfresh⟩), ih _ hrest]
    · rw [List.append_assoc, List.singleton_append]
    · rwa [List.append_assoc, List.singleton_append]

theorem inserted_eq_self_iff :
    inserted seen back = seen ↔ ∀ name, back.head? = some name → name = [] ∨ name ∈ seen := by
  cases back with
  | nil => simp [inserted]
  | cons name rest =>
    rw [inserted_cons, List.head?_cons]
    split
    · rename_i hstop
      simpa using hstop
    · rename_i hnew
      obtain ⟨more, hmore, -⟩ := inserted_eq (seen ++ [name]) rest
      refine iff_of_false (fun heq => ?_) (fun h => hnew (h name rfl))
      rw [hmore] at heq
      simpa using congrArg List.length heq

/-- Names that were cut to the width of a slot, and what follows them, give the
names back exactly when none was cut and the first that follows stops the loop. -/
theorem inserted_cut_perm_iff (hnodup : names.Nodup) (hnil : [] ∉ names) (n : ℕ) (back : List Str) :
    (inserted [] (names.map (·.take n) ++ back)).Perm names ↔
      (∀ name ∈ names, name.length ≤ n) ∧ ∀ name, back.head? = some name → name = [] ∨ name ∈ names := by
  have hwhole : (∀ name ∈ names, name.length ≤ n) →
      inserted [] (names.map (·.take n) ++ back) = inserted names back ∧ names.map (·.take n) = names := by
    intro hlen
    have hsame : names.map (·.take n) = names :=
      (List.map_congr_left fun name hname => List.take_of_length_le (hlen name hname)).trans (List.map_id names)
    refine ⟨?_, hsame⟩
    rw [hsame, inserted_append (by simpa using hnodup) hnil, List.nil_append]
  constructor
  · intro hperm
    -- as many names as before are the cut ones
    have hfront : inserted [] (names.map (·.take n) ++ back) = names.map (·.take n) := by
      rw [List.prefix_iff_eq_take.mp (inserted_isPrefix (names.map (·.take n) ++ back)), hperm.length_eq]
      exact List.take_left' (List.length_map _)
    have hlen : ∀ name ∈ names, name.length ≤ n := by
      intro name hname
      rw [hfront] at hperm
      obtain ⟨source, -, rfl⟩ := List.mem_map.mp (hperm.mem_iff.mpr hname)
      exact List.length_take_le _ _
    rw [(hwhole hlen).1, (hwhole hlen).2] at hfront
    exact ⟨hlen, inserted_eq_self_iff.mp hfront⟩
  · rintro ⟨hlen, hstop⟩
    rw [(hwhole hlen).1, inserted_eq_self_iff.mpr hstop]

/-- The string of the first slot behind the first `n`. -/
theorem forall_head_drop_iff (n : ℕ) (category : Fin MAX_CATEGORIES → Str) (P : Str → Prop) :
    (∀ name, (((List.finRange MAX_CATEGORIES).drop n).map category).head? = some name → P name) ↔
      ∀ i : Fin MAX_CATEGORIES, i.val = n → P (category i) := by
  rw [List.head?_map, List.head?_drop]
  constructor
  · intro h i hi
    apply h
    rw [← hi, List.getElem?_eq_getElem (by rw [List.length_finRange]; exact i.isLt), List.getElem_finRange]
    rfl
  · intro h name hname
    obtain ⟨i, hi, rfl⟩ := Option.map_eq_some_iff.mp hname
    obtain ⟨hlt, rfl⟩ := List.getElem?_eq_some_iff.mp hi
    rw [List.getElem_finRange]
    exact h _ rfl

end Inserted

/-- The node has these categories: they are distinct, none is empty, and they stand
in front of the first empty slot. -/
structure NodeCache.Lists (node : NodeCache) (names : List Str) : Prop where
  nodup : names.Nodup
  nil_notMem : [] ∉ names
  length_le : names.length ≤ MAX_CATEGORIES
  category_eq : ∀ i : Fin MAX_CATEGORIES, i.val ≤ names.length → node.category i = names.getD i.val []

/-- All categories of a node are saved. -/
theorem NodeCache.Lists.saved_categories_eq {node : NodeCache} {names : List Str} (h : node.Lists names) :
    node.saved_categories = names := by
  have hle := h.length_le
  have hfront : ((List.finRange MAX_CATEGORIES).map node.category).take names.length = names := by
    apply List.ext_getElem
    · rw [List.length_take, List.length_map, List.length_finRange, Nat.min_eq_left hle]
    · intro i _ hi
      rw [List.getElem_take, List.getElem_map, List.getElem_finRange]
      refine (h.category_eq _ hi.le).trans ?_
      rw [List.getD_eq_getElem?_getD, Fin.val_cast, List.getElem?_eq_getElem hi, Option.getD_some]
  have hstop : ∀ i : Fin MAX_CATEGORIES, i.val = names.length → node.category i = [] ∨ node.category i ∈ names := by
    intro i hi
    refine .inl ((h.category_eq i hi.le).trans ?_)
    rw [hi, List.getD_eq_getElem?_getD, List.getElem?_eq_none (Nat.le_refl _), Option.getD_none]
  rw [NodeCache.saved_categories, ← List.take_append_drop names.length ((List.finRange MAX_CATEGORIES).map _), hfront,
    inserted_append (by simpa using h.nodup) h.nil_notMem, List.nil_append, inserted_eq_self_iff, ← List.map_drop]
  exact (forall_head_drop_iff _ _ _).mpr hstop

section Save

local instance : NeZero CATEGORY_MAX_LEN := ⟨by decide⟩

theorem category_eq_nil_iff (node : NodeCache) (i : Fin MAX_CATEGORIES) :
    node.category i = [] ↔ node.categories i 0 = 0 := by
  have hfirst : node.image (CATEGORY_MAX_LEN * i.val) = node.categories i 0 := node.image_category i 0
  constructor
  · intro hnil
    by_contra hne
    have hi : i.val < 100 := i.isLt
    exact cstr_ne_nil (hfirst.trans_ne hne) (by simp only [CATEGORY_MAX_LEN]; omega) hnil
  · exact fun hzero => cstr_eq_nil (hfirst.trans hzero) _

/-- A slot without a terminator gives a name that is longer than any that fits one. -/
theorem category_eq_ite (node : NodeCache) (i : Fin MAX_CATEGORIES) :
    ∃ behind, node.category i =
      if (node.categories i).Terminated then (node.categories i).str else List.ofFn (node.categories i) ++ behind := by
  have hi : i.val < 100 := i.isLt
  exact ⟨_, cstr_slot (node.image_category i) (by simp only [CATEGORY_MAX_LEN]; omega)⟩

theorem category_of_terminated {node : NodeCache} {i : Fin MAX_CATEGORIES} (h : (node.categories i).Terminated) :
    node.category i = (node.categories i).str := by
  obtain ⟨behind, hcategory⟩ := category_eq_ite node i
  rw [hcategory, if_pos h]

theorem category_stops_iff (node : NodeCache) (i : Fin MAX_CATEGORIES) {names : List Str}
    (hlen : ∀ name ∈ names, name.length < CATEGORY_MAX_LEN) :
    (node.category i = [] ∨ node.category i ∈ names) ↔
      (node.categories i).Terminated ∧ ((node.categories i).str = [] ∨ (node.categories i).str ∈ names) := by
  by_cases hterminated : (node.categories i).Terminated
  · rw [category_of_terminated hterminated, and_iff_right hterminated]
  · obtain ⟨behind, hcategory⟩ := category_eq_ite node i
    rw [if_neg hterminated] at hcategory
    have hlong : CATEGORY_MAX_LEN ≤ (node.category i).length := by
      rw [hcategory, List.length_append, List.length_ofFn]
      exact Nat.le_add_right _ _
    refine iff_of_false ?_ fun h => hterminated h.1
    rintro (hnil | hmem)
    · rw [hnil] at hlong
      exact absurd hlong (by decide)
    · exact absurd (hlen _ hmem) (Nat.not_lt.mpr hlong)

theorem insert_categories_eq {text : Str} {others : List (Str × Str)} (hothers : ∀ row ∈ others, row.1 ≠ text)
    (node : NodeCache) (slots : List (Fin MAX_CATEGORIES)) (main_table : Table Str MainRow) (seen : List Str) :
    insert_categories text node slots ⟨main_table, others ++ seen.map (Prod.mk text)⟩ =
      ⟨main_table, others ++ (inserted seen (slots.map node.category)).map (Prod.mk text)⟩ := by
  induction slots generalizing seen with
  | nil => rfl
  | cons i rest ih =>
    have hmem : (text, node.category i) ∈ others ++ seen.map (Prod.mk text) ↔ node.category i ∈ seen := by
      rw [List.mem_append, List.mem_map_of_injective (Prod.mk_right_injective text)]
      exact or_iff_right fun h => hothers _ h rfl
    rw [insert_categories, List.map_cons, inserted_cons]
    simp only [hmem, ← category_eq_nil_iff]
    split
    · rfl
    · rw [List.append_assoc, ← List.map_singleton, ← List.map_append]
      exact ih _

theorem save_node_categories_table (text : Str) (node : NodeCache) (db : Database) :
    (save_node text node db).categories_table =
      db.categories_table.filter (fun row => row.1 ≠ text) ++ node.saved_categories.map (Prod.mk text) := by
  have hothers : ∀ row ∈ db.categories_table.filter (fun row => row.1 ≠ text), row.1 ≠ text := by
    intro row hrow
    simpa using (List.mem_filter.mp hrow).2
  have hinsert := insert_categories_eq hothers node (List.finRange MAX_CATEGORIES)
    (db.main_table.insert text (main_row node)) []
  rw [List.map_nil, List.append_nil] at hinsert
  exact congrArg Database.categories_table hinsert

theorem categories_of_save_node (text other : Str) (node : NodeCache) (db : Database) :
    (save_node text node db).categories_of other =
      if other = text then node.saved_categories else db.categories_of other := by
  rw [Database.categories_of, save_node_categories_table, List.filter_append, List.map_append, List.filter_filter]
  split
  · rename_i heq
    subst heq
    simp [List.filter_map, Function.comp_def]
  · rename_i hne
    simp only [List.filter_map, Function.comp_def, Ne.symm hne, decide_false, List.filter_false, List.map_nil,
      List.append_nil, Database.categories_of]
    congr 1
    refine List.filter_congr fun row _ => ?_
    by_cases hrow : row.1 = other <;> simp [hrow, hne]

theorem Database.sameRows_iff {db other : Database} :
    db.SameRows other ↔ other.main_table = db.main_table ∧
      ∀ text, (other.categories_of text).Perm (db.categories_of text) := by
  constructor
  · rintro ⟨hmain, hperm⟩
    exact ⟨hmain, fun text => (hperm.filter _).map _⟩
  · rintro ⟨hmain, hperm⟩
    refine ⟨hmain, List.perm_iff_count.mpr ?_⟩
    rintro ⟨text, name⟩
    have hcount : ∀ db : Database, db.categories_table.count (text, name) = (db.categories_of text).count name := by
      intro db
      rw [Database.categories_of, List.count, List.count, List.countP_map, List.countP_filter]
      refine List.countP_congr fun row _ => ?_
      simp [Prod.ext_iff, and_comm]
    rw [hcount, hcount, (hperm text).count_eq]

/-- Names as saving leaves them. -/
structure SavedNames (names : List Str) : Prop where
  nodup : names.Nodup
  nil_notMem : [] ∉ names
  length_le : names.length ≤ MAX_CATEGORIES
  cut_eq : ∀ name ∈ names, cut name = name

theorem savedNames_nil : SavedNames [] := ⟨List.nodup_nil, List.not_mem_nil, Nat.zero_le _, nofun⟩

theorem SavedNames.perm {names other : List Str} (h : SavedNames names) (hperm : names.Perm other) :
    SavedNames other :=
  ⟨hperm.nodup h.nodup, fun hnil => h.nil_notMem (hperm.mem_iff.mpr hnil), hperm.length_eq ▸ h.length_le,
    fun name hname => h.cut_eq name (hperm.mem_iff.mpr hname)⟩

theorem NodeCache.savedNames (node : NodeCache) : SavedNames node.saved_categories := by
  have hstart := inserted_isPrefix ((List.finRange MAX_CATEGORIES).map node.category)
  refine ⟨inserted_nodup List.nodup_nil _, nil_notMem_inserted List.not_mem_nil _, ?_, ?_⟩
  · exact hstart.length_le.trans (by rw [List.length_map, List.length_finRange])
  · intro name hname
    obtain ⟨i, -, rfl⟩ := List.mem_map.mp (hstart.subset hname)
    rw [NodeCache.category, cstr_eq_cut, cut_cut]

variable {K : Type} {text : K → Str} {entries : List (Sigma fun _ : K => NodeCache)} {db : Database}

theorem savedNames_save_nodes (h : ∀ t, SavedNames (db.categories_of t)) (t : Str) :
    SavedNames ((save_nodes text entries db).categories_of t) := by
  refine List.foldlRecOn (motive := fun db : Database => ∀ t, SavedNames (db.categories_of t)) entries _ h ?_ t
  intro db h entry _ t
  rw [categories_of_save_node]
  split
  · exact entry.2.savedNames
  · exact h t

theorem categories_of_save_nodes_of_notMem {t : Str} (h : ∀ entry ∈ entries, text entry.1 ≠ t) :
    (save_nodes text entries db).categories_of t = db.categories_of t := by
  induction entries generalizing db with
  | nil => rfl
  | cons entry rest ih =>
    obtain ⟨hentry, hrest⟩ := List.forall_mem_cons.mp h
    rw [save_nodes, List.foldl_cons, ← save_nodes, ih hrest, categories_of_save_node, if_neg hentry.symm]

/-- The text of an entry that no other entry shares. -/
theorem categories_of_save_nodes_of_mem {entry : Sigma fun _ : K => NodeCache} (hentry : entry ∈ entries)
    (hunique : ∀ other ∈ entries, text other.1 = text entry.1 → other = entry) :
    (save_nodes text entries db).categories_of (text entry.1) = entry.2.saved_categories := by
  induction entries generalizing db with
  | nil => cases hentry
  | cons head rest ih =>
    rw [save_nodes, List.foldl_cons, ← save_nodes]
    by_cases hrest : entry ∈ rest
    · exact ih hrest fun other hother => hunique other (List.mem_cons_of_mem _ hother)
    · obtain rfl := (List.mem_cons.mp hentry).resolve_right hrest
      have hlater : ∀ other ∈ rest, text other.1 ≠ text entry.1 := by
        intro other hother heq
        exact hrest (hunique other (List.mem_cons_of_mem _ hother) heq ▸ hother)
      rw [categories_of_save_nodes_of_notMem hlater, categories_of_save_node, if_pos rfl]

end Save

section Load

theorem category_of_copy {node : NodeCache} {i : Fin MAX_CATEGORIES} {dst : Slot CATEGORY_MAX_LEN} {name : Str}
    (hslot : node.categories i = Function.update (strncpy dst name (CATEGORY_MAX_LEN - 1)) 63 0) :
    node.category i = (cut name).take (CATEGORY_MAX_LEN - 1) := by
  have hcopy : node.categories i = strncpy (fun _ => 0) name (CATEGORY_MAX_LEN - 1) :=
    hslot.trans (update_strncpy (Nat.le_refl 63) dst name)
  rw [category_of_terminated (hcopy ▸ strncpy_zero_terminated (by decide) name), hcopy, str_strncpy_zero (by decide)]

theorem load_categories_of_some {db : Database} {t category : Str} {i : Fin MAX_CATEGORIES}
    (h : (db.categories_of t)[i.val]? = some category) (memory : Fin MAX_CATEGORIES → Slot CATEGORY_MAX_LEN) :
    load_categories db t memory i = Function.update (strncpy (memory i) category (CATEGORY_MAX_LEN - 1)) 63 0 := by
  rw [load_categories, ← Database.categories_of, h]

theorem load_categories_of_none {db : Database} {t : Str} {i : Fin MAX_CATEGORIES}
    (h : (db.categories_of t)[i.val]? = none) (memory : Fin MAX_CATEGORIES → Slot CATEGORY_MAX_LEN) :
    load_categories db t memory i = memory i := by
  rw [load_categories, ← Database.categories_of, h]

/-- The strings in a node that was loaded for a text: its names, cut to the width of
a slot, and behind them those of the slots the load left alone. -/
theorem loaded_categories {db : Database} {t : Str} (hnames : SavedNames (db.categories_of t)) {node : NodeCache}
    {memory : Fin MAX_CATEGORIES → Slot CATEGORY_MAX_LEN} (hnode : node.categories = load_categories db t memory) :
    (List.finRange MAX_CATEGORIES).map node.category =
      (db.categories_of t).map (·.take (CATEGORY_MAX_LEN - 1)) ++
        ((List.finRange MAX_CATEGORIES).drop (db.categories_of t).length).map node.category := by
  have hle := hnames.length_le
  rw [← List.take_append_drop (db.categories_of t).length (List.finRange MAX_CATEGORIES), List.map_append,
    List.take_append_drop]
  congr 1
  apply List.ext_getElem
  · simp only [List.length_map, List.length_take, List.length_finRange]
    omega
  · intro i hi hin
    rw [List.length_map] at hin
    have hcopy := load_categories_of_some (i := ⟨i, by omega⟩) (List.getElem?_eq_getElem hin) memory
    rw [← hnode] at hcopy
    rw [List.getElem_map, List.getElem_map, List.getElem_take, List.getElem_finRange]
    refine (category_of_copy hcopy).trans ?_
    rw [hnames.cut_eq _ (List.getElem_mem hin)]

/-- Saving the node that was loaded for a text gives the names of the text again
exactly when they end in it. -/
theorem resaved_perm_iff {db : Database} {t : Str} (hnames : SavedNames (db.categories_of t)) (node : NodeCache)
    (memory : Fin MAX_CATEGORIES → Slot CATEGORY_MAX_LEN) (hnode : node.categories = load_categories db t memory) :
    node.saved_categories.Perm (db.categories_of t) ↔ EndsBehind memory (db.categories_of t) := by
  rw [NodeCache.saved_categories, loaded_categories hnames hnode,
    inserted_cut_perm_iff hnames.nodup hnames.nil_notMem, EndsBehind, forall_head_drop_iff]
  have hfits : (∀ name ∈ db.categories_of t, name.length ≤ CATEGORY_MAX_LEN - 1) ↔
      ∀ name ∈ db.categories_of t, name.length < CATEGORY_MAX_LEN :=
    forall₂_congr fun name _ => Nat.lt_succ_iff.symm
  rw [hfits]
  refine and_congr_right fun hlen => forall₂_congr fun i hi => ?_
  have hslot : node.categories i = memory i := by
    rw [hnode, load_categories_of_none (List.getElem?_eq_none hi.ge)]
  rw [category_stops_iff node i hlen, hslot]

end Load

section Reload

variable {K : Type}

/-- A save into empty tables, a load of what SQLite returns from them into an empty
cache, and the iteration over that cache. The calls succeed, no entry has expired
and the cache has room for all. -/
structure Reload (hz : UInt64) (env : LoadEnv K)
    (save_all_cache : List (Sigma fun _ : K => NodeCache) → Database → Database)
    (load_cache : Database → List (Sigma fun _ : Str => MainRow) → Table K NodeCache → Table K NodeCache)
    (entries : List (Sigma fun _ : K => NodeCache)) (read : Database) (rows : List (Sigma fun _ : Str => MainRow))
    (again : List (Sigma fun _ : K => NodeCache)) : Prop where
  succeeds : env.Succeeds
  size : entries.length ≤ CACHE_SIZE
  fresh : ∀ entry ∈ entries, entry.2.expired hz env.now_cycles = false
  same : (save_all_cache entries Database.empty).SameRows read
  enumerates : Enumerates rows read.main_table
  iterates : Enumerates again (load_cache read rows ∅)

variable {hz : UInt64} {env : LoadEnv K} {text : K → Str} {to_key : Str → Option K}
  {entries again : List (Sigma fun _ : K => NodeCache)} {read : Database} {rows : List (Sigma fun _ : Str => MainRow)}

/-- A row of the first save is the row of an entry. -/
theorem Reload.row_eq {load_cache} (h : Reload hz env (save_nodes text) load_cache entries read rows again) {t : Str}
    {row : MainRow} (hrow : read.main_table.lookup t = some row) :
    ∃ entry ∈ entries, text entry.1 = t ∧ main_row entry.2 = row := by
  rw [h.same.main_table, save_nodes_main_table] at hrow
  rcases lookup_save_cases hrow with hentry | ⟨-, hempty⟩
  · exact hentry
  · rw [Database.empty, Finmap.lookup_empty] at hempty
    cases hempty

variable [DecidableEq K]
  (h : Reload hz env (save_nodes text) (fun db => load_rows (create_node hz env db to_key)) entries read rows again)
  (hkeys : ∀ source, ∃ key, to_key (text source) = some key ∧ text key = text source)

include h hkeys

/-- The loaded cache: an entry for each row, under the key of the row's text. -/
theorem Reload.mem_again_iff (key : K) (node : NodeCache) :
    ⟨key, node⟩ ∈ again ↔ to_key (text key) = some key ∧
      ∃ row, read.main_table.lookup (text key) = some row ∧
        node = row.node (load_categories read (text key) (env.node_memory (text key))) (env.node_pad (text key)) := by
  have hsize : rows.length ≤ CACHE_SIZE := by
    rw [h.enumerates.length_eq, h.same.main_table, save_nodes_main_table]
    refine (card_save_le text main_row entries _).trans ?_
    rw [Database.empty, Finmap.keys_empty, Finset.card_empty, Nat.zero_add]
    exact h.size
  have htext : ∀ t ∈ read.main_table, ∀ key, to_key t = some key → text key = t := by
    intro t ht key hkey
    obtain ⟨row, hrow⟩ := Finmap.mem_iff.mp ht
    obtain ⟨entry, -, rfl, -⟩ := h.row_eq hrow
    obtain ⟨found, hfound, hsame⟩ := hkeys entry.1
    rw [hkey] at hfound
    cases hfound
    exact hsame
  rw [h.iterates.mem_iff, lookup_load_rows_iff h.succeeds h.enumerates hsize htext]
  refine and_congr_right fun _ => and_iff_right_of_imp ?_
  rintro ⟨row, hrow, rfl⟩
  obtain ⟨entry, hentry, -, rfl⟩ := h.row_eq hrow
  rw [main_row_node]
  exact h.fresh entry hentry

/-- The only entry of the loaded cache for a row. -/
theorem Reload.exists_entry {t : Str} {row : MainRow} (hrow : read.main_table.lookup t = some row) :
    ∃ key node, ⟨key, node⟩ ∈ again ∧ text key = t ∧ node.categories = load_categories read t (env.node_memory t) ∧
      ∀ other ∈ again, text other.1 = t → other = ⟨key, node⟩ := by
  obtain ⟨source, -, rfl, -⟩ := h.row_eq hrow
  obtain ⟨key, hkey, htext⟩ := hkeys source.1
  have hmem := h.mem_again_iff hkeys
  rw [← htext] at hkey hrow ⊢
  refine ⟨key, _, (hmem key _).mpr ⟨hkey, row, hrow, rfl⟩, rfl, rfl, ?_⟩
  rintro ⟨other, value⟩ hother heq
  obtain ⟨hparsed, found, hfound, rfl⟩ := (hmem other value).mp hother
  rw [heq, hkey] at hparsed
  cases hparsed
  rw [hrow] at hfound
  cases hfound
  rfl

/-- The rows of `main_table` survive. -/
theorem Reload.main_table_eq :
    (save_nodes text again (save_nodes text entries Database.empty)).main_table =
      (save_nodes text entries Database.empty).main_table := by
  rw [save_nodes_main_table]
  apply save_eq_self
  intro entry hentry
  obtain ⟨-, row, hrow, hnode⟩ := (h.mem_again_iff hkeys entry.1 entry.2).mp hentry
  obtain ⟨source, -, -, rfl⟩ := h.row_eq hrow
  rw [← h.same.main_table, hrow, hnode, main_row_node]
  rfl

/-- The categories of a text survive if the text has no row or they end in the
memory of its node. -/
theorem Reload.categories_perm_iff (t : Str) :
    let db := save_nodes text entries Database.empty
    ((save_nodes text again db).categories_of t).Perm (db.categories_of t) ↔
      (t ∈ db.main_table → EndsBehind (env.node_memory t) (db.categories_of t)) := by
  intro db
  have hmain : read.main_table = db.main_table := h.same.main_table
  have hread : (read.categories_of t).Perm (db.categories_of t) := (Database.sameRows_iff.mp h.same).2 t
  by_cases ht : t ∈ db.main_table
  · obtain ⟨row, hrow⟩ := Finmap.mem_iff.mp ht
    rw [← hmain] at hrow
    obtain ⟨key, node, hentry, rfl, hnode, hunique⟩ := h.exists_entry hkeys hrow
    have hsaved : (save_nodes text again db).categories_of (text key) = node.saved_categories :=
      categories_of_save_nodes_of_mem hentry hunique
    have hempty : ∀ t, SavedNames (Database.empty.categories_of t) := fun _ => savedNames_nil
    have hnames : SavedNames (read.categories_of (text key)) := (savedNames_save_nodes hempty _).perm hread.symm
    rw [hsaved, ← EndsBehind.congr hread, ← resaved_perm_iff hnames node (env.node_memory (text key)) hnode]
    exact ⟨fun hperm _ => hperm.trans hread.symm, fun hperm => (hperm ht).trans hread⟩
  · have hother : ∀ entry ∈ again, text entry.1 ≠ t := by
      rintro entry hentry rfl
      obtain ⟨-, row, hrow, -⟩ := (h.mem_again_iff hkeys entry.1 entry.2).mp hentry
      exact ht (hmain ▸ Finmap.mem_of_lookup_eq_some hrow)
    rw [categories_of_save_nodes_of_notMem hother]
    exact iff_of_true (List.Perm.refl _) fun hrow => absurd hrow ht

/-- What is saved again, when every text is read back as a key of that text. -/
theorem Reload.sameRows_iff :
    let db := save_nodes text entries Database.empty
    db.SameRows (save_nodes text again db) ↔
      ∀ t ∈ db.main_table, EndsBehind (env.node_memory t) (db.categories_of t) := by
  intro db
  rw [Database.sameRows_iff, and_iff_right (h.main_table_eq hkeys)]
  exact forall_congr' (h.categories_perm_iff hkeys)

end Reload

/-- The text of a domain gives a key of the same text. -/
theorem loaded_domain_text (source : DomainKey) :
    (snapshot_key (loaded_dns_key (snapshot_key source).str)).str = (snapshot_key source).str := by
  rw [snapshot_key_eq source, loaded_dns_key_of_text, snapshot_key_eq, dns_key_copy_idem]

theorem loaded_ip_text {inet : Inet} (hinet : inet.Inverse) (stack : Str → IpKey) (source : IpKey) :
    ∃ key, ip_str_to_key inet (ip_text inet source) (stack (ip_text inet source)) = some key ∧
      ip_text inet key = ip_text inet source := by
  have hparsed : ∃ key, ip_str_to_key inet (ip_text inet source) (stack (ip_text inet source)) = some key := by
    by_cases hversion : source.version = 4
    · have htext : ip_text inet source = inet.ntop4 source.ip4 := if_pos hversion
      rw [htext]
      exact ⟨_, ip_str_to_key_ntop4 hinet _ _⟩
    · have htext : ip_text inet source = inet.ntop6 source.addr := if_neg hversion
      rw [htext]
      exact ⟨_, ip_str_to_key_ntop6 hinet _ _⟩
  obtain ⟨key, hkey⟩ := hparsed
  exact ⟨key, hkey, ip_text_of_ip_str_to_key hinet hkey⟩

/-- Whatever a cache holds, saving it, loading it and saving it again leaves the
tables as the first save left them, if and only if the categories of each row end in
the memory its node is loaded into. -/
theorem saved_again_iff {inet : Inet} (hinet : inet.Inverse) (hz : UInt64) :
    (∀ env entries read rows again,
      Reload hz env save_all_cache_to_sqlite (load_cache_from_sqlite hz env) entries read rows again →
      let db := save_all_cache_to_sqlite entries Database.empty
      (db.SameRows (save_all_cache_to_sqlite again db) ↔
        ∀ domain ∈ db.main_table, EndsBehind (env.node_memory domain) (db.categories_of domain))) ∧
    (∀ env stack entries read rows again,
      Reload hz env (save_all_cache_ip_to_sqlite inet) (load_cache_ip_from_sqlite inet hz env stack) entries read rows
        again →
      let db := save_all_cache_ip_to_sqlite inet entries Database.empty
      (db.SameRows (save_all_cache_ip_to_sqlite inet again db) ↔
        ∀ ip_str ∈ db.main_table, EndsBehind (env.node_memory ip_str) (db.categories_of ip_str))) := by
  constructor
  · intro env entries read rows again h
    have hreload : Reload hz env (save_nodes fun key : DomainKey => (snapshot_key key).str)
        (fun db => load_rows (create_node hz env db fun domain => some (loaded_dns_key domain))) entries read rows
        again := h
    exact hreload.sameRows_iff fun source => ⟨_, rfl, loaded_domain_text source⟩
  · intro env stack entries read rows again h
    have hreload : Reload hz env (save_nodes (ip_text inet))
        (fun db => load_rows (create_node hz env db fun ip_str => ip_str_to_key inet ip_str (stack ip_str))) entries read
        rows again := h
    exact hreload.sameRows_iff (loaded_ip_text hinet stack)

/-- A load at second 20 into the given memory. -/
def letter_env (memory : UInt8) : LoadEnv DomainKey := { loaded_at 20 DomainKey with node_memory := fun _ _ _ => memory }

/-- The cache that is loaded from the tables of one node. -/
def single_again (node : NodeCache) (memory : UInt8) : List (Sigma fun _ : DomainKey => NodeCache) :=
  [⟨letter_key, { node with
    categories := load_categories (save_all_cache_to_sqlite [⟨letter_key, node⟩] Database.empty) letter_key.str
      fun _ _ => memory
    pad := fun _ => 0 }⟩]

theorem reload_single {node : NodeCache} (hfresh : node.expired 1 20 = false) (memory : UInt8) :
    Reload 1 (letter_env memory) save_all_cache_to_sqlite (load_cache_from_sqlite 1 (letter_env memory))
      [⟨letter_key, node⟩] (save_all_cache_to_sqlite [⟨letter_key, node⟩] Database.empty)
      [⟨letter_key.str, main_row node⟩] (single_again node memory) where
  succeeds := ⟨fun _ => rfl, fun _ => rfl, fun _ => rfl, fun _ _ _ => rfl⟩
  size := (by decide : 1 ≤ CACHE_SIZE)
  fresh := by
    intro entry hentry
    obtain rfl := List.mem_singleton.mp hentry
    exact hfresh
  same := ⟨rfl, List.Perm.refl _⟩
  enumerates := single_row_enumerates node
  iterates := by
    have hkey : loaded_dns_key letter_key.str = letter_key := loaded_dns_key_of_text _
    have hloaded : ∀ categories pad, NodeCache.expired 1 20 { node with categories, pad } = false := fun _ _ => hfresh
    rw [load_cache_from_sqlite, load_rows, List.foldl_cons, List.foldl_nil, create_domain_node_from_db_row, create_node]
    simp only [main_row_node, hkey, letter_env, loaded_at, hloaded]
    rfl

theorem letter_node_lists : letter_node.Lists [] := by
  refine ⟨List.nodup_nil, List.not_mem_nil, Nat.zero_le _, fun i hi => ?_⟩
  obtain rfl : i = 0 := Fin.ext (Nat.le_zero.mp hi)
  exact (category_eq_nil_iff letter_node 0).mpr rfl

/-- What is saved for a node under its text. -/
theorem NodeCache.Lists.categories_table_eq {node : NodeCache} {names : List Str} (h : node.Lists names) :
    (save_all_cache_to_sqlite [⟨letter_key, node⟩] Database.empty).categories_table =
      names.map (Prod.mk letter_key.str) := by
  rw [save_all_cache_to_sqlite, List.foldl_cons, List.foldl_nil, save_single_node_to_sqlite, snapshot_letter_key,
    save_node_categories_table, h.saved_categories_eq]
  rfl

/-- The cache holds a verdict without categories. Its node is loaded into memory
that is not zero, and the second save stores that memory as a category. -/
theorem garbage_saved_as_category :
    Reload 1 (letter_env 255) save_all_cache_to_sqlite (load_cache_from_sqlite 1 (letter_env 255)) letter_entries
        letter_db letter_rows (single_again letter_node 255) ∧
      letter_db.categories_table = [] ∧
      (save_all_cache_to_sqlite (single_again letter_node 255) letter_db).categories_table ≠ [] := by
  refine ⟨reload_single (by decide) 255, letter_node_lists.categories_table_eq, ?_⟩
  rw [save_all_cache_to_sqlite, single_again, List.foldl_cons, List.foldl_nil, save_single_node_to_sqlite,
    save_node_categories_table]
  intro hnil
  obtain ⟨-, hnone⟩ := List.append_eq_nil_iff.mp hnil
  have hstop := inserted_eq_self_iff.mp (List.map_eq_nil_iff.mp hnone) _ rfl
  have hzero := (category_eq_nil_iff _ 0).mp (hstop.resolve_right List.not_mem_nil)
  have hnone : (letter_db.categories_of letter_key.str)[(0 : Fin MAX_CATEGORIES).val]? = none := by
    rw [Database.categories_of, show letter_db.categories_table = [] from letter_node_lists.categories_table_eq]
    rfl
  have hkept := load_categories_of_none hnone fun _ _ => 255
  exact absurd ((congrFun hkept 0).symm.trans hzero) (by decide)

/-- A node with two categories. -/
def games_node : NodeCache :=
  { letter_node with
    categories := fun i => if i = 0 then Slot.ofStr [103] else if i = 1 then Slot.ofStr [97, 100] else fun _ => 0 }

theorem games_node_lists : games_node.Lists [[103], [97, 100]] := by
  refine ⟨by decide, by decide, by decide, fun i hi => ?_⟩
  have hslot : ∀ name : Str, (∀ b ∈ name, b ≠ 0) → name.length < CATEGORY_MAX_LEN →
      games_node.categories i = Slot.ofStr name → games_node.category i = name := by
    intro name hname hlen hcategory
    obtain ⟨hterminated, hstr⟩ := Slot.ofStr_short hname hlen
    rw [← hcategory] at hterminated hstr
    exact (category_of_terminated hterminated).trans hstr
  obtain ⟨_ | _ | _ | i, hlt⟩ := i
  · exact hslot [103] (by simp) (by decide) rfl
  · exact hslot [97, 100] (by simp) (by decide) rfl
  · exact hslot [] (by simp) (by decide) rfl
  · exact absurd hi (by simp)

/-- Zeroed memory ends the categories. -/
theorem saved_again_zeroed :
    let db := save_all_cache_to_sqlite [⟨letter_key, games_node⟩] Database.empty
    db.categories_table = [(letter_key.str, [103]), (letter_key.str, [97, 100])] ∧
      db.SameRows (save_all_cache_to_sqlite (single_again games_node 0) db) := by
  intro db
  have htable : db.categories_table = [(letter_key.str, [103]), (letter_key.str, [97, 100])] :=
    games_node_lists.categories_table_eq
  refine ⟨htable, ((saved_again_iff plain_inet_inverse 1).1 _ _ _ _ _ (reload_single (by decide) 0)).mpr ?_⟩
  intro domain _
  have hnames : ∀ name ∈ db.categories_of domain, name.length < CATEGORY_MAX_LEN := by
    intro name hname
    obtain ⟨row, hrow, rfl⟩ := List.mem_map.mp hname
    have hmem := (List.mem_filter.mp hrow).1
    rw [htable] at hmem
    obtain rfl | rfl := List.mem_pair.mp hmem <;> decide
  exact ⟨hnames, fun i _ => ⟨⟨0, rfl⟩, .inl rfl⟩⟩

end grpc_server.dpdk_filter
