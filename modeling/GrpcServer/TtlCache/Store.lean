import GrpcServer.TtlCache

namespace ttl_cache

variable {K V T R : Type} [DecidableEq K] [DecidableEq T]

/-- The list holds every entry of the table once, in some order. -/
def Enumerates (entries : List (Sigma fun _ : K => V)) (table : Table K V) : Prop :=
  (entries : Multiset (Sigma fun _ : K => V)) = table.entries

section Enumerates

variable {entries : List (Sigma fun _ : K => V)} {table : Table K V}

omit [DecidableEq K] in
theorem Enumerates.nodupKeys (h : Enumerates entries table) : entries.NodupKeys := by
  have hnodup := table.nodupKeys
  rwa [← h, Multiset.coe_nodupKeys] at hnodup

theorem Enumerates.mem_iff (h : Enumerates entries table) {key : K} {value : V} :
    ⟨key, value⟩ ∈ entries ↔ table.lookup key = some value := by
  rw [Finmap.lookup_eq_some_iff, ← h, Multiset.mem_coe]

omit [DecidableEq K] in
theorem Enumerates.length_eq (h : Enumerates entries table) : entries.length = table.keys.card := by
  have hkeys : table.keys.val = entries.keys := by
    rw [← Multiset.coe_keys, h]
    rfl
  rw [Finset.card, hkeys, Multiset.coe_card, List.keys, List.length_map]

end Enumerates

theorem keys_insert (key : K) (value : V) (table : Table K V) :
    (table.insert key value).keys = insert key table.keys := by
  ext other
  rw [Finmap.mem_keys, Finmap.mem_insert, Finset.mem_insert, Finmap.mem_keys]

theorem card_insert_le (key : K) (value : V) (table : Table K V) :
    (table.insert key value).keys.card ≤ table.keys.card + 1 := by
  rw [keys_insert]
  exact Finset.card_insert_le _ _

section Save

variable (key : K → T) (row : V → R)

/-- Writes every entry as a row; a row that is there is replaced and rows of other
entries stay. -/
def save (entries : List (Sigma fun _ : K => V)) (rows : Table T R) : Table T R :=
  entries.foldl (fun rows entry => rows.insert (key entry.1) (row entry.2)) rows

variable {key row} {entries : List (Sigma fun _ : K => V)} {rows : Table T R}

omit [DecidableEq K] in
theorem lookup_save_of_not_mem {text : T} (h : ∀ entry ∈ entries, key entry.1 ≠ text) :
    (save key row entries rows).lookup text = rows.lookup text := by
  induction entries generalizing rows with
  | nil => rfl
  | cons entry rest ih =>
    rw [save, List.foldl_cons, ← save, ih fun e he => h e (List.mem_cons_of_mem _ he),
      Finmap.lookup_insert_of_ne _ (Ne.symm (h entry List.mem_cons_self))]

omit [DecidableEq K] in
/-- A row after saving was written from an entry or was there before. -/
theorem lookup_save_cases {text : T} {found : R} (h : (save key row entries rows).lookup text = some found) :
    (∃ entry ∈ entries, key entry.1 = text ∧ row entry.2 = found) ∨
      (∀ entry ∈ entries, key entry.1 ≠ text) ∧ rows.lookup text = some found := by
  induction entries generalizing rows with
  | nil => exact .inr ⟨nofun, h⟩
  | cons entry rest ih =>
    rcases ih h with ⟨later, hlater, hkey, hrow⟩ | ⟨hrest, hfound⟩
    · exact .inl ⟨later, List.mem_cons_of_mem _ hlater, hkey, hrow⟩
    · simp only at hfound
      by_cases heq : key entry.1 = text
      · rw [heq, Finmap.lookup_insert] at hfound
        exact .inl ⟨entry, List.mem_cons_self, heq, Option.some.inj hfound⟩
      · rw [Finmap.lookup_insert_of_ne _ (Ne.symm heq)] at hfound
        refine .inr ⟨?_, hfound⟩
        intro other hother
        rcases List.mem_cons.mp hother with rfl | hother
        · exact heq
        · exact hrest other hother

omit [DecidableEq K] in
theorem mem_save {text : T} (h : text ∈ save key row entries rows) :
    (∃ entry ∈ entries, key entry.1 = text) ∨ text ∈ rows := by
  obtain ⟨found, hfound⟩ := Finmap.mem_iff.mp h
  rcases lookup_save_cases hfound with ⟨entry, hentry, hkey, _⟩ | ⟨_, hbefore⟩
  · exact .inl ⟨entry, hentry, hkey⟩
  · exact .inr (Finmap.mem_of_lookup_eq_some hbefore)

omit [DecidableEq K] in
/-- An entry whose row no other entry writes is found as it was saved. -/
theorem lookup_save_of_mem (key : K → T) (row : V → R) {k : K} {v : V} (hentry : ⟨k, v⟩ ∈ entries)
    (hunique : ∀ other ∈ entries, key other.1 = key k → other = ⟨k, v⟩) :
    (save key row entries rows).lookup (key k) = some (row v) := by
  induction entries generalizing rows with
  | nil => cases hentry
  | cons head rest ih =>
    by_cases hrest : ⟨k, v⟩ ∈ rest
    · exact ih hrest fun other hother => hunique other (List.mem_cons_of_mem _ hother)
    · obtain rfl := (List.mem_cons.mp hentry).resolve_right hrest
      have hlater : ∀ other ∈ rest, key other.1 ≠ key k := by
        intro other hother heq
        exact hrest (hunique other (List.mem_cons_of_mem _ hother) heq ▸ hother)
      rw [save, List.foldl_cons, ← save, lookup_save_of_not_mem hlater, Finmap.lookup_insert]

omit [DecidableEq K] in
theorem card_save_le (key : K → T) (row : V → R) (entries : List (Sigma fun _ : K => V)) (rows : Table T R) :
    (save key row entries rows).keys.card ≤ rows.keys.card + entries.length := by
  induction entries generalizing rows with
  | nil => exact Nat.le_refl _
  | cons entry rest ih =>
    have hinsert := card_insert_le (key entry.1) (row entry.2) rows
    have hrest := ih (rows.insert (key entry.1) (row entry.2))
    rw [save, List.foldl_cons, ← save, List.length_cons]
    omega

omit [DecidableEq K] in
/-- Writing the rows that are there changes nothing. -/
theorem save_eq_self (h : ∀ entry ∈ entries, rows.lookup (key entry.1) = some (row entry.2)) :
    save key row entries rows = rows := by
  induction entries with
  | nil => rfl
  | cons entry rest ih =>
    obtain ⟨hentry, hrest⟩ := List.forall_mem_cons.mp h
    have hsame : rows.insert (key entry.1) (row entry.2) = rows := by
      refine Finmap.ext_lookup fun text => ?_
      by_cases heq : text = key entry.1
      · rw [heq, Finmap.lookup_insert, hentry]
      · rw [Finmap.lookup_insert_of_ne _ heq]
    rw [save, List.foldl_cons, hsame]
    exact ih hrest

/-- Saving a table whose keys have different texts gives every entry its row. -/
theorem Enumerates.lookup_save (key : K → T) (row : V → R) {table : Table K V} (h : Enumerates entries table)
    (hinj : ∀ k ∈ table, ∀ other ∈ table, key other = key k → other = k) {k : K} {v : V}
    (hfound : table.lookup k = some v) : (save key row entries rows).lookup (key k) = some (row v) := by
  refine lookup_save_of_mem key row (h.mem_iff.mpr hfound) ?_
  rintro ⟨other, value⟩ hother hkey
  have hvalue := h.mem_iff.mp hother
  obtain rfl := hinj k (Finmap.mem_of_lookup_eq_some hfound) other (Finmap.mem_of_lookup_eq_some hvalue) hkey
  rw [Option.some.inj (hvalue.symm.trans hfound)]

end Save

section Load

variable (entry : T → R → Option (K × V)) (room : Table K V → K → Bool)

/-- Fills a table from rows. A row gives an entry or is skipped, and the table may
refuse an entry. -/
def load (rows : List (Sigma fun _ : T => R)) (table : Table K V) : Table K V :=
  rows.foldl (fun table row =>
    match entry row.1 row.2 with
    | some (key, value) => add (room table key) key value table
    | none => table) table

variable {entry room} {rows : List (Sigma fun _ : T => R)} {table : Table K V}

omit [DecidableEq T] in
theorem load_cons (row : Sigma fun _ : T => R) :
    load entry room (row :: rows) table =
      load entry room rows (match entry row.1 row.2 with
        | some (key, value) => add (room table key) key value table
        | none => table) := rfl

omit [DecidableEq T] in
/-- Whatever is loaded comes from a row or was there before. -/
theorem lookup_load_cases {key : K} {value : V} (h : (load entry room rows table).lookup key = some value) :
    (∃ row ∈ rows, entry row.1 row.2 = some (key, value)) ∨ table.lookup key = some value := by
  induction rows generalizing table with
  | nil => exact .inr h
  | cons row rest ih =>
    rw [load_cons] at h
    rcases ih h with ⟨later, hlater, hentry⟩ | hfound
    · exact .inl ⟨later, List.mem_cons_of_mem _ hlater, hentry⟩
    · split at hfound
      · rename_i stored node hentry
        unfold add at hfound
        split at hfound
        · by_cases heq : key = stored
          · subst heq
            rw [Finmap.lookup_insert] at hfound
            cases hfound
            exact .inl ⟨row, List.mem_cons_self, hentry⟩
          · rw [Finmap.lookup_insert_of_ne _ heq] at hfound
            exact .inr hfound
        · exact .inr hfound
      · exact .inr hfound

omit [DecidableEq T] in
theorem lookup_load_of_not_mem {key : K} (h : ∀ row ∈ rows, ∀ value, entry row.1 row.2 ≠ some (key, value)) :
    (load entry room rows table).lookup key = table.lookup key := by
  induction rows generalizing table with
  | nil => rfl
  | cons row rest ih =>
    rw [load_cons, ih fun later hlater => h later (List.mem_cons_of_mem _ hlater)]
    split
    · rename_i stored value hentry
      have hne : key ≠ stored := by
        rintro rfl
        exact h row List.mem_cons_self value hentry
      unfold add
      split
      · rw [Finmap.lookup_insert_of_ne _ hne]
      · rfl
    · rfl

theorem card_add_le (stored : Bool) (key : K) (value : V) (table : Table K V) :
    (add stored key value table).keys.card ≤ table.keys.card + 1 := by
  unfold add
  split
  · exact card_insert_le key value table
  · exact Nat.le_succ _

omit [DecidableEq T] in
/-- A table with room for all rows takes every entry that no other row gives. -/
theorem lookup_load_of_mem {capacity : ℕ}
    (hroom : ∀ table key, table.keys.card < capacity → room table key = true)
    (hfits : table.keys.card + rows.length ≤ capacity) (hnodup : rows.Nodup) {row : Sigma fun _ : T => R} {key : K}
    {value : V} (hrow : row ∈ rows) (hentry : entry row.1 row.2 = some (key, value))
    (hunique : ∀ other ∈ rows, ∀ found, entry other.1 other.2 = some (key, found) → other = row) :
    (load entry room rows table).lookup key = some value := by
  induction rows generalizing table with
  | nil => cases hrow
  | cons head rest ih =>
    obtain ⟨hfresh, hrest⟩ := List.nodup_cons.mp hnodup
    rw [List.length_cons] at hfits
    rw [load_cons]
    by_cases heq : row = head
    · subst heq
      rw [lookup_load_of_not_mem]
      · simp only [hentry, add, hroom table key (by omega), if_true, Finmap.lookup_insert]
      · intro other hother found hfound
        exact hfresh (hunique other (List.mem_cons_of_mem _ hother) found hfound ▸ hother)
    · refine ih ?_ hrest ((List.mem_cons.mp hrow).resolve_left heq)
        fun other hother => hunique other (List.mem_cons_of_mem _ hother)
      split
      · have hcard := card_add_le (room table ‹K›) ‹K› ‹V› table
        omega
      · omega

end Load

end ttl_cache
