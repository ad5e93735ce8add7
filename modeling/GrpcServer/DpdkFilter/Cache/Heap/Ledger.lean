import GrpcServer.DpdkFilter.Cache.Heap
import GrpcServer.DpdkFilter.Cache.Persistence

open c_memory ttl_cache transition

namespace grpc_server.dpdk_filter

section Free

variable {K : Type} {s : CacheHeap K} {p q b : ℕ}

theorem lookup_nodes_free_entry (hq : q ≠ p) : (s.free_entry p).nodes.lookup q = s.nodes.lookup q := by
  unfold CacheHeap.free_entry
  split
  · rename_i block _
    cases hkey : block.key <;> simp [CacheHeap.free_node, CacheHeap.free_key, Finmap.lookup_erase_ne hq]
  · rfl

theorem not_mem_nodes_free_entry : p ∉ (s.free_entry p).nodes := by
  unfold CacheHeap.free_entry
  split
  · exact Finmap.notMem_erase_self
  · rename_i hnone
    exact Finmap.lookup_eq_none.mp hnone

theorem mem_keys_free_entry (hb : b ∈ (s.free_entry p).keys) :
    b ∈ s.keys ∧ ∀ node, s.nodes.lookup p ≠ some ⟨node, some b⟩ := by
  unfold CacheHeap.free_entry at hb
  split at hb
  · rename_i block hblock
    obtain ⟨stored, key⟩ := block
    cases key with
    | none => exact ⟨hb, fun node hnode => by simp [hblock] at hnode⟩
    | some a =>
      obtain ⟨hne, hmem⟩ := Finmap.mem_erase.mp hb
      refine ⟨hmem, fun node hnode => hne ?_⟩
      rw [hblock] at hnode
      cases hnode
      rfl
  · rename_i hnone
    exact ⟨hb, fun node hnode => by simp [hnone] at hnode⟩

/-- The loop of `free_*_cache` frees every node it visits and the copy of the key
each of them points to. -/
theorem mem_free_entries (entries : List (Sigma fun _ : K => ℕ)) (s : CacheHeap K) :
    (∀ q, q ∈ (entries.foldl (fun s entry => s.free_entry entry.2) s).nodes →
      q ∈ s.nodes ∧ ∀ entry ∈ entries, entry.2 ≠ q) ∧
    (∀ b, b ∈ (entries.foldl (fun s entry => s.free_entry entry.2) s).keys →
      b ∈ s.keys ∧ ∀ entry ∈ entries, ∀ node, s.nodes.lookup entry.2 ≠ some ⟨node, some b⟩) := by
  induction entries generalizing s with
  | nil => simp
  | cons entry rest ih =>
    obtain ⟨hnodes, hkeys⟩ := ih (s.free_entry entry.2)
    constructor
    · intro q hq
      obtain ⟨hmem, hrest⟩ := hnodes q hq
      have hne : q ≠ entry.2 := by
        rintro rfl
        exact not_mem_nodes_free_entry hmem
      obtain ⟨block, hblock⟩ := Finmap.mem_iff.mp hmem
      rw [lookup_nodes_free_entry hne] at hblock
      refine ⟨Finmap.mem_of_lookup_eq_some hblock, ?_⟩
      intro other hother
      rcases List.mem_cons.mp hother with rfl | hother
      · exact hne.symm
      · exact hrest other hother
    · intro b hb
      obtain ⟨hmem, hrest⟩ := hkeys b hb
      obtain ⟨hmem, hfirst⟩ := mem_keys_free_entry hmem
      refine ⟨hmem, ?_⟩
      intro other hother node hnode
      -- the copy of a key goes at the first visit of its node
      by_cases hsame : other.2 = entry.2
      · exact hfirst node (hsame ▸ hnode)
      · rcases List.mem_cons.mp hother with rfl | hother
        · exact hsame rfl
        · exact hrest other hother node ((lookup_nodes_free_entry hsame).trans hnode)

end Free

variable {K : Type} [DecidableEq K]

/-- The nodes and the copies of keys that are allocated are those the hash table
leads to. -/
structure CacheHeap.Ledger (s : CacheHeap K) : Prop where
  nodes : ∀ q, q ∈ s.nodes ↔ ∃ k, s.Refers k q
  keys : ∀ b, b ∈ s.keys ↔ ∃ k q, s.Owns k q b

section Step

variable {s : CacheHeap K} {table : Table K ℕ} {key : K} {p a : ℕ} {node : NodeCache}

/-- A stored entry is accounted for exactly when it replaces none. -/
theorem ledger_store_iff (hs : s.Sound) (hl : s.Ledger) (hhash : s.hash = some table) (hp : p ∉ s.nodes) :
    (s.store table key p a node).Ledger ↔ key ∉ table := by
  constructor
  · intro hnext hkey
    -- the node that was replaced stays allocated, and no entry leads to it any more
    obtain ⟨q, hq⟩ := Finmap.mem_iff.mp hkey
    have hrefers := (refers_iff hhash).mpr hq
    have hmem : q ∈ (s.store table key p a node).nodes := Finmap.mem_insert.mpr (.inr (hs.mem_nodes hrefers))
    obtain ⟨k, hk⟩ := (hnext.nodes q).mp hmem
    obtain ⟨_, rfl⟩ | ⟨hne, hold⟩ := (refers_store_iff hhash).mp hk
    · exact hp (hs.mem_nodes hrefers)
    · exact hne (hs.node_inj k key q hold hrefers)
  · intro hkey
    have hne : ∀ {k q}, s.Refers k q → k ≠ key := by
      rintro k q hrefers rfl
      exact hkey (Finmap.mem_of_lookup_eq_some ((refers_iff hhash).mp hrefers))
    constructor
    · intro q
      refine Finmap.mem_insert.trans ⟨?_, ?_⟩
      · rintro (rfl | hq)
        · exact ⟨key, (refers_store_iff hhash).mpr (.inl ⟨rfl, rfl⟩)⟩
        · obtain ⟨k, hk⟩ := (hl.nodes q).mp hq
          exact ⟨k, (refers_store_iff hhash).mpr (.inr ⟨hne hk, hk⟩)⟩
      · rintro ⟨k, hk⟩
        obtain ⟨_, rfl⟩ | ⟨_, hold⟩ := (refers_store_iff hhash).mp hk
        · exact .inl rfl
        · exact .inr (hs.mem_nodes hold)
    · intro b
      refine Finmap.mem_insert.trans ⟨?_, ?_⟩
      · rintro (rfl | hb)
        · exact ⟨key, p, owns_store hhash⟩
        · obtain ⟨k, q, hk⟩ := (hl.keys b).mp hb
          exact ⟨k, q, owns_store_of_ne hs hhash hp (hne hk.1) hk⟩
      · rintro ⟨k, q, hk⟩
        obtain ⟨_, _, rfl⟩ | ⟨_, hold⟩ := owns_store_cases hs hhash hp hk
        · exact .inl rfl
        · exact .inr (hs.mem_keys hold)

theorem CacheHeap.Ledger.evict (hs : s.Sound) (hl : s.Ledger) (hhash : s.hash = some table)
    (howns : s.Owns key p a) : (s.evict table key p a).Ledger := by
  constructor
  · intro q
    refine Finmap.mem_erase.trans ⟨?_, ?_⟩
    · rintro ⟨hq, hmem⟩
      obtain ⟨k, hk⟩ := (hl.nodes q).mp hmem
      refine ⟨k, (refers_evict_iff hhash).mpr ⟨?_, hk⟩⟩
      rintro rfl
      exact hq (Option.some.inj (((refers_iff hhash).mp hk).symm.trans ((refers_iff hhash).mp howns.1)))
    · rintro ⟨k, hk⟩
      obtain ⟨hne, hold⟩ := (refers_evict_iff hhash).mp hk
      refine ⟨?_, hs.mem_nodes hold⟩
      rintro rfl
      exact hne (hs.node_inj k key q hold howns.1)
  · intro b
    refine Finmap.mem_erase.trans ⟨?_, ?_⟩
    · rintro ⟨hb, hmem⟩
      obtain ⟨k, q, hk⟩ := (hl.keys b).mp hmem
      refine ⟨k, q, (owns_evict_iff hs hhash howns.1).mpr ⟨?_, hk⟩⟩
      rintro rfl
      obtain rfl : q = p :=
        Option.some.inj (((refers_iff hhash).mp hk.1).symm.trans ((refers_iff hhash).mp howns.1))
      exact hb (hk.key_eq howns)
    · rintro ⟨k, q, hk⟩
      obtain ⟨hne, hold⟩ := (owns_evict_iff hs hhash howns.1).mp hk
      refine ⟨?_, hs.mem_keys hold⟩
      rintro rfl
      exact hne (hs.key_inj k key q p b hold howns)

theorem ledger_of_empty (hnodes : ∀ q, q ∉ s.nodes) (hkeys : ∀ b, b ∉ s.keys) (h : ∀ k q, ¬ s.Refers k q) :
    s.Ledger := by
  constructor
  · intro q
    simp [hnodes q, h]
  · intro b
    simp [hkeys b, CacheHeap.Owns, h]

/-- A step keeps the ledger exactly when it is tidy. -/
theorem ledger_moves_iff {next : CacheHeap K} {tidy : Prop} (hs : s.Sound) (hl : s.Ledger)
    (h : HeapMoves s next tidy) : next.Ledger ↔ tidy := by
  cases h with
  | same => exact iff_true_intro hl
  | stored node hhash hp ha => exact ledger_store_iff hs hl hhash hp
  | evicted hhash hfound =>
    obtain ⟨a, howns, _⟩ := hs.owns _ _ ((refers_iff hhash).mpr hfound)
    rw [free_entry_of_owns howns]
    exact iff_true_intro (hl.evict hs hhash howns)
  | @cleared table hhash =>
    constructor
    · intro hnext
      -- an entry of the old table would have left its node behind
      apply Finmap.ext_lookup
      intro k
      rw [Finmap.lookup_empty, ← Option.not_isSome_iff_eq_none, Option.isSome_iff_exists]
      rintro ⟨q, hq⟩
      obtain ⟨other, hother⟩ := (hnext.nodes q).mp (hs.mem_nodes ((refers_iff hhash).mpr hq))
      exact not_refers_of_empty rfl hother
    · rintro rfl
      rw [← hhash]
      exact hl
  | created hhash =>
    have hnodes : ∀ q, q ∉ s.nodes := by
      intro q hq
      obtain ⟨k, hk⟩ := (hl.nodes q).mp hq
      exact not_refers_of_none hhash hk
    have hkeys : ∀ b, b ∉ s.keys := by
      intro b hb
      obtain ⟨k, q, hk⟩ := (hl.keys b).mp hb
      exact not_refers_of_none hhash hk.1
    exact iff_true_intro (ledger_of_empty hnodes hkeys fun _ _ => not_refers_of_empty rfl)
  | @freed table entries hhash hentries =>
    obtain ⟨hnodes, hkeys⟩ := mem_free_entries entries s
    have hvisited : ∀ {k q}, s.Refers k q → ⟨k, q⟩ ∈ entries := fun hrefers =>
      hentries.mem_iff.mpr ((refers_iff hhash).mp hrefers)
    refine iff_true_intro (ledger_of_empty ?_ ?_ fun _ _ => not_refers_of_none rfl)
    · intro q hq
      obtain ⟨hmem, hfreed⟩ := hnodes q hq
      obtain ⟨k, hk⟩ := (hl.nodes q).mp hmem
      exact hfreed _ (hvisited hk) rfl
    · intro b hb
      obtain ⟨hmem, hfreed⟩ := hkeys b hb
      obtain ⟨k, q, hk, node, hnode⟩ := (hl.keys b).mp hmem
      exact hfreed _ (hvisited hk) node hnode

end Step

/-- In all states of a run the allocated nodes and copies of keys are those the hash
table leads to, exactly when every successful insertion of the run finds its key
absent and every clear an empty table. -/
theorem heap_ledger_iff (copy : K → K) (acts : List (HeapAction K))
    (hpossible : Meets (fun s a => some (heap_step copy s a)) CacheHeap.Possible (CacheHeap.start K) acts) :
    (∀ done rest s, acts = done ++ rest →
      run (fun s a => some (heap_step copy s a)) (CacheHeap.start K) done = some s → s.Ledger) ↔
    Meets (fun s a => some (heap_step copy s a)) (CacheHeap.Tidy copy) (CacheHeap.start K) acts := by
  have hnone : ∀ k q, ¬ (CacheHeap.start K).Refers k q := fun _ _ => not_refers_of_none rfl
  refine forall_good_iff_meets CacheHeap.Sound CacheHeap.Ledger ?_ ?_ (sound_of_not_refers hnone)
    (ledger_of_empty (fun _ => Finmap.notMem_empty) (fun _ => Finmap.notMem_empty) hnone) hpossible
  · intro s a hnone
    cases hnone
  · rintro s a next hs hl ha ⟨⟩
    obtain ⟨tidy, hmoves, htidy⟩ := heapMoves_of_step ha
    exact ⟨hs.moves hmoves, (ledger_moves_iff hs hl hmoves).trans htidy.symm⟩

/-- The verdict on `a` in the node at address `p`, with the copy of its key at
`key_copy`. -/
def letter_block (p key_copy : ℕ) : HeapAddition DomainKey :=
  { key := Slot.ofStr [97], p, node := NodeCache.fresh true, cycles := 5, ttl := 60, key_copy := some key_copy
    add_ok := true }

theorem add_letter_block {s : CacheHeap DomainKey} {table : Table DomainKey ℕ} (p key_copy : ℕ)
    (hhash : s.hash = some table) (hp : p ∉ s.nodes) (hkey : key_copy ∉ s.keys) :
    heap_step dns_key_copy s (.add (letter_block p key_copy)) = s.store table letter_key p key_copy letter_node := by
  have hfresh : ∀ a, some key_copy = some a → a ∉ s.keys := by
    rintro a ⟨⟩
    exact hkey
  obtain ⟨other, a, hother, hcopy, _, heq⟩ | ⟨hfailed, _⟩ :=
    insert_node_cases letter_key ⟨NodeCache.fresh true, none⟩ letter_node true hp hfresh
  · obtain rfl : table = other := Option.some.inj (hhash.symm.trans hother)
    cases hcopy
    exact heq
  · exact absurd ⟨by simp [hhash], rfl, rfl⟩ hfailed

/-- A table with one entry. -/
def one_block : CacheHeap DomainKey := (⟨some ∅, ∅, ∅⟩ : CacheHeap DomainKey).store ∅ letter_key 1 2 letter_node

theorem created_one_block :
    heap_step dns_key_copy ⟨some ∅, ∅, ∅⟩ (.add (letter_block 1 2)) = one_block :=
  add_letter_block 1 2 rfl Finmap.notMem_empty Finmap.notMem_empty

theorem run_one_block (a : HeapAction DomainKey) :
    run (fun s a => some (heap_step dns_key_copy s a)) (CacheHeap.start DomainKey)
      [.init true, .add (letter_block 1 2), a] = some (heap_step dns_key_copy one_block a) :=
  congrArg (fun s => some (heap_step dns_key_copy s a)) created_one_block

theorem meets_one_block {allowed : CacheHeap DomainKey → HeapAction DomainKey → Prop} {a : HeapAction DomainKey}
    (hinit : allowed (CacheHeap.start DomainKey) (.init true))
    (hadd : allowed ⟨some ∅, ∅, ∅⟩ (.add (letter_block 1 2))) (ha : allowed one_block a) :
    Meets (fun s a => some (heap_step dns_key_copy s a)) allowed (CacheHeap.start DomainKey)
      [.init true, .add (letter_block 1 2), a] := by
  refine meets_total_cons.mpr ⟨hinit, meets_total_cons.mpr ⟨hadd, ?_⟩⟩
  exact meets_total_cons.mpr ⟨created_one_block ▸ ha, trivial⟩

/-- The action can follow the addition of a verdict and leaves its node allocated
without a reference. -/
def Leaks (a : HeapAction DomainKey) : Prop :=
  Meets (fun s a => some (heap_step dns_key_copy s a)) CacheHeap.Possible (CacheHeap.start DomainKey)
    [.init true, .add (letter_block 1 2), a] ∧
  ∃ s, run (fun s a => some (heap_step dns_key_copy s a)) (CacheHeap.start DomainKey)
    [.init true, .add (letter_block 1 2), a] = some s ∧ 1 ∈ s.nodes ∧ ∀ k, ¬ s.Refers k 1

theorem leaks_of_step {a : HeapAction DomainKey} (hpossible : one_block.Possible a)
    (hmem : 1 ∈ (heap_step dns_key_copy one_block a).nodes)
    (hrefers : ∀ k, ¬ (heap_step dns_key_copy one_block a).Refers k 1) : Leaks a :=
  ⟨meets_one_block trivial ⟨Finmap.notMem_empty, fun _ _ => Finmap.notMem_empty⟩ hpossible,
    heap_step dns_key_copy one_block a, run_one_block a, hmem, hrefers⟩

/-- A policy update that clears the table leaks the node, and so does storing the
verdict a second time. -/
theorem heap_ledger_broken : Leaks .clear ∧ Leaks (.add (letter_block 3 4)) := by
  have hmem : 1 ∈ one_block.nodes := Finmap.mem_insert.mpr (.inl rfl)
  have hnode : 3 ∉ one_block.nodes := by decide
  have hkey : 4 ∉ one_block.keys := by decide
  have hstored := add_letter_block 3 4 rfl hnode hkey
  constructor
  · exact leaks_of_step trivial hmem fun k => not_refers_of_empty rfl
  · refine leaks_of_step ⟨hnode, ?_⟩ ?_ ?_
    · rintro b ⟨⟩
      exact hkey
    · rw [hstored]
      exact Finmap.mem_insert.mpr (.inr hmem)
    · intro k hrefers
      rw [hstored] at hrefers
      obtain ⟨_, hp⟩ | ⟨hk, hold⟩ := (refers_store_iff rfl).mp hrefers
      · cases hp
      · obtain ⟨heq, _⟩ | ⟨_, hempty⟩ := (refers_store_iff rfl).mp hold
        · exact hk heq
        · exact not_refers_of_empty rfl hempty

/-- A verdict that is stored once is accounted for, also after the cache is freed. -/
theorem heap_ledger_freed :
    one_block.Ledger ∧ (heap_step dns_key_copy one_block (.free [⟨letter_key, 1⟩])).Ledger := by
  have hpossible : Meets (fun s a => some (heap_step dns_key_copy s a)) CacheHeap.Possible
      (CacheHeap.start DomainKey) [.init true, .add (letter_block 1 2), .free [⟨letter_key, 1⟩]] := by
    refine meets_one_block trivial ⟨Finmap.notMem_empty, fun _ _ => Finmap.notMem_empty⟩ ?_
    rintro table ⟨⟩
    rfl
  have htidy : Meets (fun s a => some (heap_step dns_key_copy s a)) (CacheHeap.Tidy dns_key_copy)
      (CacheHeap.start DomainKey) [.init true, .add (letter_block 1 2), .free [⟨letter_key, 1⟩]] := by
    refine meets_one_block trivial ?_ trivial
    rintro table ⟨⟩ _ _
    exact Finmap.notMem_empty
  have hledger := (heap_ledger_iff dns_key_copy _ hpossible).mpr htidy
  exact ⟨hledger [.init true, .add (letter_block 1 2)] _ one_block rfl (congrArg some created_one_block),
    hledger _ [] _ (List.append_nil _).symm (run_one_block _)⟩

end grpc_server.dpdk_filter
