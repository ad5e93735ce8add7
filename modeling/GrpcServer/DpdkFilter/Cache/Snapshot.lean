import GrpcServer.CMemory.Fill
import GrpcServer.DpdkFilter.Cache.Persistence
import GrpcServer.Transition

open c_memory ttl_cache transition

namespace grpc_server.dpdk_filter

/-- The memory from `snapt` on, `none` where nothing has been written since
`malloc`. -/
abbrev Snapshot (K : Type) := ℕ → Option (K × NodeCache)

section Copy

variable {K : Type}

/-- The loop over `rte_hash_iterate`, which does not know how many slots there
are. -/
def copy_to_snapshot (copy : K → K) (entries : List (Sigma fun _ : K => NodeCache)) (snapt : Snapshot K) : Snapshot K :=
  write snapt 0 (entries.map fun entry => (copy entry.1, entry.2))

/-- The loop over the slots below `count`; a slot that was not written holds what
`malloc` found there. -/
def save_snapshot (save_single_node : K → NodeCache → Database → Database) (memory : ℕ → K × NodeCache) (count : ℕ)
    (snapt : Snapshot K) (db : Database) : Database :=
  (List.range count).foldl (fun db i =>
    let slot := (snapt i).getD (memory i)
    save_single_node slot.1 slot.2 db) db

end Copy

def copy_data_from_hash_to_snapshot : List (Sigma fun _ : DomainKey => NodeCache) → Snapshot DomainKey →
    Snapshot DomainKey :=
  copy_to_snapshot snapshot_key

def copy_data_from_hash_to_snapshot_ip : List (Sigma fun _ : IpKey => NodeCache) → Snapshot IpKey → Snapshot IpKey :=
  copy_to_snapshot id

/-- The functions of `domain_cache.c` and `ip_cache.c` that differ. -/
structure CacheFile (K : Type) where
  hash : Caches → Table K NodeCache
  add_to_cache : CacheEnv → K → NodeCache → Int32 → Caches → Caches
  lookup_cache : UInt64 → CacheEnv → K → Caches → Lookup NodeCache × Caches
  clear_cache : Caches → Caches
  snapshot_key : K → K
  save_single_node : K → NodeCache → Database → Database

def domain_cache : CacheFile DomainKey :=
  { hash := Caches.dns_hash, add_to_cache := add_to_dns_cache, lookup_cache := lookup_dns_cache
    clear_cache := clear_dns_cache, snapshot_key, save_single_node := save_single_node_to_sqlite }

def ip_cache (inet : Inet) : CacheFile IpKey :=
  { hash := Caches.ip_hash, add_to_cache := add_to_ip_cache, lookup_cache := lookup_ip_cache
    clear_cache := clear_ip_cache, snapshot_key := id, save_single_node := save_single_node_ip_to_sqlite inet }

/-- Where `save_all_cache_*_to_sqlite` is in a thread that runs it. -/
inductive SaveThread (K : Type) where
  | counted (count : ℕ)
  | copied (count : ℕ) (snapt : Snapshot K)

/-- A cache, its database and the threads that save it, by number. -/
structure Saving (K : Type) where
  caches : Caches
  db : Database
  threads : ℕ → Option (SaveThread K)

/-- No thread is saving. -/
def Saving.start (K : Type) (caches : Caches) (db : Database) : Saving K := ⟨caches, db, fun _ => none⟩

def Saving.set_thread {K : Type} (s : Saving K) (id : ℕ) (thread : Option (SaveThread K)) : Saving K :=
  { s with threads := Function.update s.threads id thread }

/-- What the main loop does to the cache, and what a thread does between two
points at which others can run. -/
inductive SavingAction (K : Type) where
  | add (env : CacheEnv) (key : K) (node : NodeCache) (ttl : Int32)
  | lookup (env : CacheEnv) (key : K)
  | clear
  | count (id : ℕ)
  | copy (id : ℕ) (entries : List (Sigma fun _ : K => NodeCache))
  | save (id : ℕ) (begin_ok : Bool) (memory : ℕ → K × NodeCache)

variable {K : Type} (file : CacheFile K) (hz : UInt64)

def saving_step (s : Saving K) : SavingAction K → Option (Saving K)
  | .add env key node ttl => some { s with caches := file.add_to_cache env key node ttl s.caches }
  | .lookup env key => some { s with caches := (file.lookup_cache hz env key s.caches).2 }
  | .clear => some { s with caches := file.clear_cache s.caches }
  | .count id =>
    match s.threads id with
    | none => some (s.set_thread id (some (.counted (file.hash s.caches).keys.card)))
    | some _ => none
  | .copy id entries =>
    match s.threads id with
    | some (.counted count) =>
      some (s.set_thread id (some (.copied count (copy_to_snapshot file.snapshot_key entries fun _ => none))))
    | _ => none
  | .save id begin_ok memory =>
    match s.threads id with
    | some (.copied count snapt) =>
      -- without a transaction the thread returns
      let db := if begin_ok then save_snapshot file.save_single_node memory count snapt s.db else s.db
      some ({ s with db }.set_thread id none)
    | _ => none

/-- The iteration names every entry once. -/
def Saving.Possible (s : Saving K) : SavingAction K → Prop
  | .copy _ entries => Enumerates entries (file.hash s.caches)
  | _ => True

/-- The table a thread copies has as many entries as when the thread counted
them. -/
def Saving.Steady (s : Saving K) : SavingAction K → Prop
  | .copy id _ => ∀ count, s.threads id = some (.counted count) → (file.hash s.caches).keys.card = count
  | _ => True

/-- A thread that has copied the table has written only slots below `count`, and
the slots below `count`, which it is going to save, have been written. -/
def Saving.Consistent (s : Saving K) : Prop :=
  ∀ id count snapt, s.threads id = some (.copied count snapt) →
    (∀ i, (snapt i).isSome → i < count) ∧ ∀ i < count, (snapt i).isSome

/-- The snapshot is the copy that the thread made in the run. -/
def CopiedFrom (first : Saving K) (acts : List (SavingAction K)) (id count : ℕ) (snapt : Snapshot K) : Prop :=
  ∃ done rest entries t, acts = done ++ .copy id entries :: rest ∧
    run (saving_step file hz) first done = some t ∧ t.threads id = some (.counted count) ∧
    snapt = copy_to_snapshot file.snapshot_key entries fun _ => none

section Copy

variable {copy : K → K} {entries : List (Sigma fun _ : K => NodeCache)}

theorem copy_to_snapshot_fresh (i : ℕ) :
    copy_to_snapshot copy entries (fun _ => none) i = entries[i]?.map fun entry => (copy entry.1, entry.2) := by
  rw [copy_to_snapshot, write_fresh, List.getElem?_map]

theorem isSome_copy_to_snapshot (i : ℕ) :
    (copy_to_snapshot copy entries (fun _ => none) i).isSome ↔ i < entries.length := by
  rw [copy_to_snapshot_fresh, Option.isSome_map, isSome_getElem?]

/-- A copy fits its slots exactly when there are as many slots as entries. -/
theorem copy_fits_iff {count : ℕ} :
    ((∀ i, (copy_to_snapshot copy entries (fun _ => none) i).isSome → i < count) ∧
      ∀ i < count, (copy_to_snapshot copy entries (fun _ => none) i).isSome) ↔ entries.length = count := by
  simp only [isSome_copy_to_snapshot]
  constructor
  · rintro ⟨hwritten, hsaved⟩
    exact le_antisymm (le_of_forall_lt hwritten) (le_of_forall_lt hsaved)
  · rintro rfl
    exact ⟨fun i hi => hi, fun i hi => hi⟩

/-- Saving a snapshot with a slot for each entry saves the entries. -/
theorem save_snapshot_copy (save_single_node : K → NodeCache → Database → Database) (memory : ℕ → K × NodeCache)
    (db : Database) :
    save_snapshot save_single_node memory entries.length (copy_to_snapshot copy entries fun _ => none) db =
      entries.foldl (fun db entry => save_single_node (copy entry.1) entry.2 db) db := by
  have hslots : (List.range entries.length).map
      (fun i => ((copy_to_snapshot copy entries fun _ => none) i).getD (memory i)) =
      entries.map fun entry => (copy entry.1, entry.2) := by
    apply List.ext_getElem
    · simp
    · intro i hi _
      simp only [List.length_map, List.length_range] at hi
      simp [copy_to_snapshot_fresh, hi]
  have hfold := congrArg (List.foldl (fun db slot => save_single_node slot.1 slot.2 db) db) hslots
  rwa [List.foldl_map, List.foldl_map] at hfold

end Copy

/-- Uninterrupted, the steps of a thread are `save_all_cache_to_sqlite` and
`save_all_cache_ip_to_sqlite`. -/
theorem save_snapshot_files (inet : Inet) (db : Database) :
    (∀ entries memory, save_snapshot domain_cache.save_single_node memory entries.length
      (copy_data_from_hash_to_snapshot entries fun _ => none) db = save_all_cache_to_sqlite entries db) ∧
    (∀ entries memory, save_snapshot (ip_cache inet).save_single_node memory entries.length
      (copy_data_from_hash_to_snapshot_ip entries fun _ => none) db = save_all_cache_ip_to_sqlite inet entries db) :=
  ⟨fun _ _ => save_snapshot_copy _ _ _, fun _ _ => save_snapshot_copy _ _ _⟩

section Step

variable {file hz} {s next : Saving K}

theorem threads_set_thread {id other : ℕ} {thread : Option (SaveThread K)} :
    (s.set_thread id thread).threads other = if other = id then thread else s.threads other := by
  simp [Saving.set_thread, Function.update_apply]

/-- The only step that writes a snapshot is a thread's copy. -/
theorem saving_step_cases {a : SavingAction K} (hstep : saving_step file hz s a = some next) :
    (∃ id entries count, a = .copy id entries ∧ s.threads id = some (.counted count) ∧
      next = s.set_thread id (some (.copied count (copy_to_snapshot file.snapshot_key entries fun _ => none)))) ∨
    (s.Steady file a ∧
      ∀ id count snapt, next.threads id = some (.copied count snapt) → s.threads id = some (.copied count snapt)) := by
  cases a with
  | add env key node ttl =>
    cases hstep
    exact .inr ⟨trivial, fun _ _ _ h => h⟩
  | lookup env key =>
    cases hstep
    exact .inr ⟨trivial, fun _ _ _ h => h⟩
  | clear =>
    cases hstep
    exact .inr ⟨trivial, fun _ _ _ h => h⟩
  | count id =>
    simp only [saving_step] at hstep
    split at hstep
    · cases hstep
      refine .inr ⟨trivial, ?_⟩
      intro other count snapt hthread
      rw [threads_set_thread] at hthread
      split at hthread
      · cases hthread
      · exact hthread
    · cases hstep
  | copy id entries =>
    simp only [saving_step] at hstep
    split at hstep
    · rename_i count hcounted
      cases hstep
      exact .inl ⟨id, entries, count, rfl, hcounted, rfl⟩
    · cases hstep
  | save id begin_ok memory =>
    simp only [saving_step] at hstep
    split at hstep
    · cases hstep
      refine .inr ⟨trivial, ?_⟩
      intro other count snapt hthread
      rw [threads_set_thread] at hthread
      split at hthread
      · cases hthread
      · exact hthread
    · cases hstep

theorem steady_of_disabled {a : SavingAction K} (h : saving_step file hz s a = none) : s.Steady file a := by
  cases a with
  | copy id entries =>
    intro count hthread
    simp [saving_step, hthread] at h
  | _ => trivial

/-- A step keeps the snapshots consistent exactly when it is steady. -/
theorem consistent_step_iff {a : SavingAction K} (hs : s.Consistent) (hpossible : s.Possible file a)
    (hstep : saving_step file hz s a = some next) : next.Consistent ↔ s.Steady file a := by
  obtain ⟨id, entries, count, rfl, hcounted, rfl⟩ | ⟨hsteady, hold⟩ := saving_step_cases hstep
  · have hcount : s.Steady file (.copy id entries) ↔ entries.length = count := by
      simp [Saving.Steady, hcounted, hpossible.length_eq]
    rw [hcount, ← copy_fits_iff]
    constructor
    · intro h
      exact h id count _ (by rw [threads_set_thread, if_pos rfl])
    · intro h other otherCount snapt hthread
      rw [threads_set_thread] at hthread
      split at hthread
      · cases hthread
        exact h
      · exact hs other otherCount snapt hthread
  · refine iff_of_true ?_ hsteady
    intro id count snapt hthread
    exact hs id count snapt (hold id count snapt hthread)

theorem CopiedFrom.snoc {first : Saving K} {acts : List (SavingAction K)} {id count : ℕ} {snapt : Snapshot K}
    (h : CopiedFrom file hz first acts id count snapt) (a : SavingAction K) :
    CopiedFrom file hz first (acts ++ [a]) id count snapt := by
  obtain ⟨done, rest, entries, t, rfl, hdone⟩ := h
  exact ⟨done, rest ++ [a], entries, t, List.append_assoc _ _ _, hdone⟩

theorem copied_from {caches : Caches} {db : Database} {acts : List (SavingAction K)}
    (hrun : run (saving_step file hz) (Saving.start K caches db) acts = some s) {id count : ℕ} {snapt : Snapshot K}
    (hthread : s.threads id = some (.copied count snapt)) :
    CopiedFrom file hz (Saving.start K caches db) acts id count snapt := by
  refine run_history (fun past s => s.threads id = some (.copied count snapt) →
    CopiedFrom file hz (Saving.start K caches db) past id count snapt) ?_ ?_ hrun hthread
  · intro hstart
    cases hstart
  · intro past last a next hlast ih hstep hcopied
    obtain ⟨other, entries, counted, rfl, hcounted, rfl⟩ | ⟨_, hold⟩ := saving_step_cases hstep
    · -- the copy is this thread's, or it is another's and the snapshot is older
      rw [threads_set_thread] at hcopied
      split at hcopied
      · rename_i hid
        subst hid
        cases hcopied
        exact ⟨past, [], entries, last, rfl, hlast, hcounted, rfl⟩
      · exact (ih hcopied).snoc _
    · exact (ih (hold id count snapt hcopied)).snoc _

end Step

variable (caches : Caches) (db : Database)

/-- In all states of a run the snapshots fit, exactly when every thread of the run
copies as many entries as it has counted. -/
theorem snapshot_consistent_iff (acts : List (SavingAction K))
    (hpossible : Meets (saving_step file hz) (Saving.Possible file) (Saving.start K caches db) acts) :
    (∀ done rest s, acts = done ++ rest →
      run (saving_step file hz) (Saving.start K caches db) done = some s → s.Consistent) ↔
    Meets (saving_step file hz) (Saving.Steady file) (Saving.start K caches db) acts := by
  refine forall_good_iff_meets (fun _ => True) Saving.Consistent ?_ ?_ trivial ?_ hpossible
  · intro s a hdisabled
    exact steady_of_disabled hdisabled
  · intro s a next _ hs ha hstep
    exact ⟨trivial, consistent_step_iff hs ha hstep⟩
  · intro id count snapt hthread
    cases hthread

/-- In a steady run a thread saves the table as it was when the thread copied it,
as if the save had been one step. -/
theorem saves_copied_table {acts : List (SavingAction K)} {s next : Saving K} {id : ℕ} {memory : ℕ → K × NodeCache}
    (hpossible : Meets (saving_step file hz) (Saving.Possible file) (Saving.start K caches db) acts)
    (hsteady : Meets (saving_step file hz) (Saving.Steady file) (Saving.start K caches db) acts)
    (hrun : run (saving_step file hz) (Saving.start K caches db) acts = some s)
    (hsave : saving_step file hz s (.save id true memory) = some next) :
    ∃ done rest entries t, acts = done ++ .copy id entries :: rest ∧
      run (saving_step file hz) (Saving.start K caches db) done = some t ∧ Enumerates entries (file.hash t.caches) ∧
      next.db = entries.foldl (fun db entry => file.save_single_node (file.snapshot_key entry.1) entry.2 db) s.db := by
  simp only [saving_step] at hsave
  split at hsave
  · rename_i count snapt hthread
    cases hsave
    obtain ⟨done, rest, entries, t, rfl, hdone, hcounted, rfl⟩ := copied_from hrun hthread
    have henumerates : Enumerates entries (file.hash t.caches) := (hpossible.of_run hdone).1
    have hcount : (file.hash t.caches).keys.card = count := (hsteady.of_run hdone).1 count hcounted
    -- as many slots as entries, so that no slot is read from `memory`
    rw [← henumerates.length_eq] at hcount
    subst hcount
    exact ⟨done, rest, entries, t, rfl, hdone, henumerates, save_snapshot_copy _ _ _⟩
  · cases hsave

/-- The main loop stores its verdict on `a`. -/
def add_letter : SavingAction DomainKey :=
  .add ⟨0, true, true, 5, true⟩ (Slot.ofStr [97]) (NodeCache.fresh true) 60

/-- A thread counts one verdict, and the main loop removes it before it is copied. -/
def shrunk (remove : SavingAction DomainKey) : List (SavingAction DomainKey) :=
  [add_letter, .count 0, remove, .copy 0 []]

def counted_letter : Saving DomainKey :=
  { caches := ⟨∅, (∅ : Table DomainKey NodeCache).insert letter_key letter_node⟩, db := Database.empty
    threads := Function.update (fun _ => none) 0 (some (.counted 1)) }

/-- `a` is looked up when its verdict has expired. -/
def evict_letter : SavingAction DomainKey := .lookup ⟨100, true, true, 0, true⟩ letter_key

theorem step_evict_letter :
    saving_step domain_cache 1 counted_letter evict_letter = some { counted_letter with caches := Caches.empty } := by
  have hexpired : letter_node.expired 1 100 = true := by decide
  have hevicted : (lookup (NodeCache.expired 1 100) true letter_key
      ((∅ : Table DomainKey NodeCache).insert letter_key letter_node)).2 = ∅ := by
    simp only [lookup, Finmap.lookup_insert, hexpired, if_true]
    exact erase_insert_of_notMem Finmap.notMem_empty
  simp only [saving_step, evict_letter, domain_cache, counted_letter, lookup_dns_cache_snd, hevicted, Caches.empty]

theorem possible_shrunk {remove : SavingAction DomainKey} (hpossible : counted_letter.Possible domain_cache remove)
    (hremove : saving_step domain_cache 1 counted_letter remove =
      some { counted_letter with caches := Caches.empty }) :
    Meets (saving_step domain_cache 1) (Saving.Possible domain_cache)
      (Saving.start DomainKey Caches.empty Database.empty) (shrunk remove) := by
  have htail : Meets (saving_step domain_cache 1) (Saving.Possible domain_cache) counted_letter [remove, .copy 0 []] :=
    .cons hpossible hremove (.cons rfl rfl trivial)
  exact .cons trivial rfl (.cons trivial rfl htail)

theorem run_shrunk {remove : SavingAction DomainKey}
    (hremove : saving_step domain_cache 1 counted_letter remove =
      some { counted_letter with caches := Caches.empty }) :
    run (saving_step domain_cache 1) (Saving.start DomainKey Caches.empty Database.empty) (shrunk remove) =
      saving_step domain_cache 1 { counted_letter with caches := Caches.empty } (.copy 0 []) := by
  have htail : run (saving_step domain_cache 1) counted_letter [remove, .copy 0 []] =
      saving_step domain_cache 1 { counted_letter with caches := Caches.empty } (.copy 0 []) := by
    rw [run, hremove]
    rfl
  exact htail

/-- A verdict stored between the count and the copy is written behind the last
slot. For one that is cleared or evicted between them, the thread saves what the
memory held. -/
theorem snapshot_overrun :
    (Meets (saving_step domain_cache 1) (Saving.Possible domain_cache)
        (Saving.start DomainKey Caches.empty Database.empty) [.count 0, add_letter, .copy 0 letter_entries] ∧
      ∃ s snapt, run (saving_step domain_cache 1) (Saving.start DomainKey Caches.empty Database.empty)
        [.count 0, add_letter, .copy 0 letter_entries] = some s ∧
        s.threads 0 = some (.copied 0 snapt) ∧ (snapt 0).isSome) ∧
    ∀ remove ∈ [.clear, evict_letter],
      Meets (saving_step domain_cache 1) (Saving.Possible domain_cache)
        (Saving.start DomainKey Caches.empty Database.empty) (shrunk remove) ∧
      ∃ s snapt, run (saving_step domain_cache 1) (Saving.start DomainKey Caches.empty Database.empty)
        (shrunk remove) = some s ∧ s.threads 0 = some (.copied 1 snapt) ∧ snapt 0 = none ∧
        ∀ memory, ∃ next, saving_step domain_cache 1 s (.save 0 true memory) = some next ∧
          next.db = save_single_node_to_sqlite (memory 0).1 (memory 0).2 Database.empty := by
  refine ⟨⟨?_, _, _, rfl, rfl, rfl⟩, ?_⟩
  · exact .cons trivial rfl (.cons trivial rfl (.cons letter_entries_enumerates rfl trivial))
  · intro remove hmem
    have hremove : counted_letter.Possible domain_cache remove ∧
        saving_step domain_cache 1 counted_letter remove = some { counted_letter with caches := Caches.empty } := by
      simp only [List.mem_cons, List.not_mem_nil, or_false] at hmem
      obtain rfl | rfl := hmem
      · exact ⟨trivial, rfl⟩
      · exact ⟨trivial, step_evict_letter⟩
    exact ⟨possible_shrunk hremove.1 hremove.2, _, _, run_shrunk hremove.2, rfl, rfl, fun memory => ⟨_, rfl, rfl⟩⟩

/-- A verdict that is counted and then copied is saved. -/
theorem snapshot_consistent_letter :
    ∃ s, run (saving_step domain_cache 1) (Saving.start DomainKey Caches.empty Database.empty)
      [add_letter, .count 0, .copy 0 letter_entries] = some s ∧ s.Consistent := by
  have hpossible : Meets (saving_step domain_cache 1) (Saving.Possible domain_cache)
      (Saving.start DomainKey Caches.empty Database.empty) [add_letter, .count 0, .copy 0 letter_entries] :=
    .cons trivial rfl (.cons trivial rfl (.cons letter_entries_enumerates rfl trivial))
  have hsteady : Meets (saving_step domain_cache 1) (Saving.Steady domain_cache)
      (Saving.start DomainKey Caches.empty Database.empty) [add_letter, .count 0, .copy 0 letter_entries] := by
    refine .cons trivial rfl (.cons trivial rfl (.cons ?_ rfl trivial))
    rintro count ⟨⟩
    rfl
  exact ⟨_, rfl, (snapshot_consistent_iff domain_cache 1 Caches.empty Database.empty _ hpossible).mpr hsteady _ [] _
    (List.append_nil _).symm rfl⟩

/-- And it is saved as it was copied. -/
theorem saves_copied_table_letter :
    ∃ s next, run (saving_step domain_cache 1) (Saving.start DomainKey Caches.empty Database.empty)
        [add_letter, .count 0, .copy 0 letter_entries] = some s ∧
      saving_step domain_cache 1 s (.save 0 true fun _ => (letter_key, letter_node)) = some next ∧
      ∃ done rest entries t, [add_letter, .count 0, .copy 0 letter_entries] = done ++ .copy 0 entries :: rest ∧
        run (saving_step domain_cache 1) (Saving.start DomainKey Caches.empty Database.empty) done = some t ∧
        Enumerates entries (domain_cache.hash t.caches) ∧ next.db = entries.foldl
          (fun db entry => domain_cache.save_single_node (domain_cache.snapshot_key entry.1) entry.2 db) s.db := by
  refine ⟨_, _, rfl, rfl, saves_copied_table domain_cache 1 Caches.empty Database.empty ?_ ?_ rfl rfl⟩
  · exact .cons trivial rfl (.cons trivial rfl (.cons letter_entries_enumerates rfl trivial))
  · refine .cons trivial rfl (.cons trivial rfl (.cons ?_ rfl trivial))
    rintro count ⟨⟩
    rfl

end grpc_server.dpdk_filter
