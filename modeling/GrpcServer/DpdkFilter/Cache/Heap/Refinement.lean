import GrpcServer.DpdkFilter.Cache.Heap.Ledger

open c_memory ttl_cache transition

namespace grpc_server.dpdk_filter

/-- After any sequence of insertions, lookups and clears of a cache that has been
created, whatever allocations and insertions fail, whatever expires and whatever has
leaked: a lookup finds nothing where the table of nodes has nothing, and otherwise a
node that is still allocated and holds what the table holds. -/
theorem heap_refines_table {K : Type} [DecidableEq K] (copy : K → K) (acts : List (HeapAction K))
    (hmeets : Meets (fun s a => some (heap_step copy s a)) (fun s a => s.Possible a ∧ a.Serves)
      (init_cache true (CacheHeap.start K)) acts)
    (expired : NodeCache → Bool) (del_key_ok : Bool) (key : K) :
    let s := acts.foldl (heap_step copy) (init_cache true (CacheHeap.start K))
    let answer := (lookup_cache expired del_key_ok key s).1
    let expected := (ttl_cache.lookup expired del_key_ok key (acts.foldl (cache_step copy) ∅)).1
    (answer = .enoent ∧ expected = .enoent) ∨
      ∃ p block, answer = .hit p ∧ s.nodes.lookup p = some block ∧ expected = .hit block.node := by
  intro s answer expected
  have hempty : (init_cache true (CacheHeap.start K)).Shows ∅ := ⟨∅, rfl, fun _ => rfl⟩
  obtain ⟨hsound, hshows⟩ := CacheHeap.Shows.run
    (sound_of_not_refers fun _ _ => not_refers_of_empty rfl) hempty hmeets (run_total _ acts)
  obtain ⟨_, ⟨hanswer, hexpected⟩ | ⟨p, node, hanswer, hnode, hexpected⟩⟩ :=
    hshows.lookup hsound expired del_key_ok key
  · exact .inl ⟨hanswer, hexpected⟩
  · obtain ⟨block, hblock, rfl⟩ := Option.map_eq_some_iff.mp hnode
    exact .inr ⟨p, block, hanswer, hblock, hexpected⟩

/-- The verdict on `a` is found behind its pointer. -/
theorem heap_refines_table_letter :
    let s := [HeapAction.add (letter_block 1 2)].foldl (heap_step dns_key_copy)
      (init_cache true (CacheHeap.start DomainKey))
    ∃ p block, (lookup_cache (fun _ => false) true letter_key s).1 = .hit p ∧ s.nodes.lookup p = some block ∧
      block.node = letter_node := by
  have hexpected : (ttl_cache.lookup (fun _ => false) true letter_key
      ([HeapAction.add (letter_block 1 2)].foldl (cache_step dns_key_copy) ∅)).1 = .hit letter_node := by
    change (ttl_cache.lookup _ _ _ (Finmap.insert letter_key letter_node ∅)).1 = _
    simp [ttl_cache.lookup]
  obtain ⟨_, hnone⟩ | ⟨p, block, hanswer, hblock, hfound⟩ := heap_refines_table dns_key_copy [.add (letter_block 1 2)]
    (meets_total_cons.mpr ⟨⟨⟨Finmap.notMem_empty, fun _ _ => Finmap.notMem_empty⟩, trivial⟩, trivial⟩)
    (fun _ => false) true letter_key
  · rw [hexpected] at hnone
    cases hnone
  · rw [hexpected] at hfound
    exact ⟨p, block, hanswer, hblock, (Lookup.hit.inj hfound).symm⟩

/-- A cache that two threads use. `held` is the pointer with which the main thread
came back from its last call, and what it pointed to then: the lock is no longer
held when the main thread follows it. -/
structure SharedCache (K : Type) where
  heap : CacheHeap K
  held : Option (ℕ × Option NodeCache)

/-- The main thread makes its calls one after the other. The thread of a policy
update clears the cache at any time. -/
inductive SharedAction (K : Type) where
  | main (a : HeapAction K)
  | policy_update

def SharedCache.start (K : Type) : SharedCache K := ⟨CacheHeap.start K, none⟩

/-- The pointer a call leaves the main thread with. -/
def held_after {K : Type} [DecidableEq K] (heap : CacheHeap K) : HeapAction K → Option (ℕ × Option NodeCache)
  | .lookup expired del_key_ok key =>
    match (lookup_cache expired del_key_ok key heap).1 with
    | .hit p => some (p, (heap.nodes.lookup p).map HeapNode.node)
    | _ => none
  | _ => none

def shared_step {K : Type} [DecidableEq K] (copy : K → K) (s : SharedCache K) : SharedAction K → SharedCache K
  | .main a => { heap := heap_step copy s.heap a, held := held_after s.heap a }
  | .policy_update => { s with heap := clear_cache s.heap }

/-- Allocations return free memory, and an iteration names every entry once. -/
def SharedCache.Possible {K : Type} [DecidableEq K] (s : SharedCache K) : SharedAction K → Prop
  | .main a => s.heap.Possible a
  | .policy_update => True

section Shared

variable {K : Type} [DecidableEq K] {s : SharedCache K}

/-- No pointer dangles, neither in the table nor in the hands of the main thread. -/
structure SharedCache.Valid (s : SharedCache K) : Prop where
  sound : s.heap.Sound
  held : ∀ p seen, s.held = some (p, seen) → ∃ block, s.heap.nodes.lookup p = some block ∧ seen = some block.node

theorem lookup_cache_of_hit {expired : NodeCache → Bool} {del_key_ok : Bool} {key : K} {heap : CacheHeap K} {p : ℕ}
    (h : (lookup_cache expired del_key_ok key heap).1 = .hit p) :
    heap.Refers key p ∧ (lookup_cache expired del_key_ok key heap).2 = heap := by
  unfold lookup_cache at h ⊢
  split at h
  · cases h
  · rename_i table hhash
    split at h
    · cases h
    · rename_i q hfound
      split at h
      · cases h
      · rename_i hfresh
        cases h
        refine ⟨(refers_iff hhash).mpr hfound, ?_⟩
        rw [if_neg hfresh]

/-- What a lookup comes back with is allocated. -/
theorem held_after_valid {copy : K → K} {heap : CacheHeap K} (hs : heap.Sound) {a : HeapAction K} {p : ℕ}
    {seen : Option NodeCache} (h : held_after heap a = some (p, seen)) :
    ∃ block, (heap_step copy heap a).nodes.lookup p = some block ∧ seen = some block.node := by
  cases a with
  | lookup expired del_key_ok key =>
    simp only [held_after] at h
    split at h
    · rename_i q hhit
      cases h
      obtain ⟨hrefers, hsame⟩ := lookup_cache_of_hit hhit
      obtain ⟨_, ⟨_, node, hnode⟩, _⟩ := hs.owns key p hrefers
      refine ⟨_, by rw [heap_step, hsame]; exact hnode, ?_⟩
      rw [hnode]
      rfl
    · cases h
  | init | load | add | clear | free => cases h

theorem SharedCache.Valid.step {copy : K → K} {a : SharedAction K} (h : s.Valid) (hpossible : s.Possible a) :
    (shared_step copy s a).Valid := by
  cases a with
  | main a =>
    obtain ⟨_, hmoves, _⟩ : ∃ tidy, HeapMoves s.heap (heap_step copy s.heap a) tidy ∧ (s.heap.Tidy copy a ↔ tidy) :=
      heapMoves_of_step hpossible
    exact ⟨h.sound.moves hmoves, fun p seen hheld => held_after_valid h.sound hheld⟩
  | policy_update =>
    obtain ⟨_, hmoves, _⟩ : ∃ tidy, HeapMoves s.heap (heap_step copy s.heap .clear) tidy ∧
      (s.heap.Tidy copy .clear ↔ tidy) := heapMoves_of_step trivial
    refine ⟨h.sound.moves hmoves, fun p seen hheld => ?_⟩
    -- the table is emptied and its nodes leak, so that the pointer is good for another read
    have hnodes : (clear_cache s.heap).nodes = s.heap.nodes := by
      unfold clear_cache
      split <;> rfl
    simp only [shared_step, hnodes]
    exact h.held p seen hheld

end Shared

/-- Over the life of a cache, with policy updates that clear it at any time, also
between a lookup and the use of its result: the node that the main thread reads is
allocated and as the lookup found it, and every node that the table leads to, and a
saving thread copies, is allocated. -/
theorem no_use_after_free {K : Type} [DecidableEq K] (copy : K → K) (acts : List (SharedAction K))
    (hpossible : Meets (fun s a => some (shared_step copy s a)) SharedCache.Possible (SharedCache.start K) acts) :
    let s := acts.foldl (shared_step copy) (SharedCache.start K)
    (∀ p seen, s.held = some (p, seen) → ∃ block, s.heap.nodes.lookup p = some block ∧ seen = some block.node) ∧
      ∀ key p, s.heap.Refers key p → p ∈ s.heap.nodes := by
  intro s
  have hvalid : s.Valid := by
    refine run_invariant SharedCache.Valid ?_ ?_ hpossible (run_total _ acts)
    · rintro t a next ht ha ⟨⟩
      exact ht.step ha
    · refine ⟨sound_of_not_refers fun _ _ => not_refers_of_none rfl, ?_⟩
      intro p seen hheld
      cases hheld
  exact ⟨hvalid.held, fun key p hrefers => hvalid.sound.mem_nodes hrefers⟩

/-- A verdict on `a` is found, and the cache cleared before the verdict is read. -/
def cleared_lookup : List (SharedAction DomainKey) :=
  [.main (.init true), .main (.add (letter_block 1 2)), .main (.lookup (fun _ => false) true letter_key), .policy_update]

theorem foldl_cleared_lookup : cleared_lookup.foldl (shared_step dns_key_copy) (SharedCache.start DomainKey) =
    ⟨clear_cache one_block, some (1, some letter_node)⟩ := by
  have hadded : [SharedAction.main (.init true), .main (.add (letter_block 1 2))].foldl (shared_step dns_key_copy)
      (SharedCache.start DomainKey) = ⟨one_block, none⟩ := congrArg (SharedCache.mk · none) created_one_block
  have hnode : one_block.nodes.lookup 1 = some ⟨letter_node, some 2⟩ := Finmap.lookup_insert _
  have hlookup : lookup_cache (fun _ => false) true letter_key one_block = (.hit 1, one_block) := by
    simp [lookup_cache, one_block, CacheHeap.store]
  have hheld : held_after one_block (.lookup (fun _ => false) true letter_key) = some (1, some letter_node) := by
    rw [held_after, hlookup]
    simp [hnode]
  rw [show cleared_lookup = [.main (.init true), .main (.add (letter_block 1 2))] ++
    [.main (.lookup (fun _ => false) true letter_key), .policy_update] from rfl, List.foldl_append, hadded]
  simp only [List.foldl_cons, List.foldl_nil, shared_step, heap_step, hlookup, hheld]

/-- The verdict is read from a node that the table no longer leads to. -/
theorem no_use_after_free_cleared :
    let s := cleared_lookup.foldl (shared_step dns_key_copy) (SharedCache.start DomainKey)
    s.held = some (1, some letter_node) ∧ (∀ key, ¬ s.heap.Refers key 1) ∧
      ∃ block, s.heap.nodes.lookup 1 = some block ∧ some letter_node = some block.node := by
  intro s
  have hs : s = ⟨clear_cache one_block, some (1, some letter_node)⟩ := foldl_cleared_lookup
  have hheld : s.held = some (1, some letter_node) := by rw [hs]
  refine ⟨hheld, ?_, ?_⟩
  · intro key
    rw [hs]
    exact not_refers_of_empty rfl
  · refine (no_use_after_free dns_key_copy cleared_lookup ?_).1 1 _ hheld
    refine meets_total_cons.mpr ⟨trivial, meets_total_cons.mpr ⟨?_, ?_⟩⟩
    · exact ⟨Finmap.notMem_empty, fun _ _ => Finmap.notMem_empty⟩
    · exact meets_total_cons.mpr ⟨trivial, meets_total_cons.mpr ⟨trivial, trivial⟩⟩

end grpc_server.dpdk_filter
