import GrpcServer.DpdkFilter.Cache.Sqlite
import GrpcServer.Transition

open c_memory ttl_cache transition

namespace grpc_server.dpdk_filter

/-- A node in memory. `key` is the member that points to the copy of the key,
`none` if it is NULL or was never written. -/
structure HeapNode where
  node : NodeCache
  key : Option ℕ

/-- A cache as pointers: the hash table, NULL before `init_*_cache` and after
`free_*_cache`, maps keys to addresses of nodes; `nodes` and `keys` are the blocks
that are allocated and not yet freed. -/
structure CacheHeap (K : Type) where
  hash : Option (Table K ℕ)
  nodes : Table ℕ HeapNode
  keys : Table ℕ K

def CacheHeap.start (K : Type) : CacheHeap K := ⟨none, ∅, ∅⟩

variable {K : Type} [DecidableEq K]

/-- `rte_hash_add_key_data`: replaces the data of a present key; fails on a NULL
table. -/
def rte_hash_add_key_data (ok : Bool) (key : K) (data : ℕ) : Option (Table K ℕ) → Bool × Option (Table K ℕ)
  | some table => if ok then (true, some (table.insert key data)) else (false, some table)
  | none => (false, none)

def CacheHeap.free_node (p : ℕ) (s : CacheHeap K) : CacheHeap K := { s with nodes := s.nodes.erase p }

/-- `rte_free` of a pointer to a copy of a key. -/
def CacheHeap.free_key (s : CacheHeap K) : Option ℕ → CacheHeap K
  | some a => { s with keys := s.keys.erase a }
  | none => s

/-- What `add_to_*_cache` and `insert_loaded_node_*` with its caller do with an
allocated node: copy the key, insert, and free both on failure. -/
def insert_node (key : K) (p : ℕ) (node : NodeCache) (key_copy : Option ℕ) (add_ok : Bool) (s : CacheHeap K) :
    CacheHeap K :=
  match key_copy with
  | none => s.free_node p
  | some a =>
    let s := { s with nodes := s.nodes.insert p ⟨node, some a⟩, keys := s.keys.insert a key }
    match rte_hash_add_key_data add_ok key p s.hash with
    | (true, hash) => { s with hash }
    | (false, _) => (s.free_key (some a)).free_node p

/-- The node `pakage_processing` allocates for a verdict, and what the calls of
`add_to_*_cache` return. -/
structure HeapAddition (K : Type) where
  key : K
  p : ℕ
  node : NodeCache
  cycles : UInt64
  ttl : Int32
  key_copy : Option ℕ
  add_ok : Bool

/-- `copy` is the key that is stored for a key: `dns_key_copy` for domains, the key
itself for addresses. -/
def add_to_cache (copy : K → K) (a : HeapAddition K) (s : CacheHeap K) : CacheHeap K :=
  insert_node (copy a.key) a.p (a.node.stamped a.cycles a.ttl) a.key_copy a.add_ok
    { s with nodes := s.nodes.insert a.p ⟨a.node, none⟩ }

/-- A row for `create_*_node_from_db_row`: whether it has expired, the node
`rte_malloc` returns, and what the calls behind it return. -/
structure HeapRow (K : Type) where
  expired : Bool
  p : Option ℕ
  node : NodeCache
  select_ok : Bool
  key : Option K
  key_copy : Option ℕ
  add_ok : Bool

def load_row (r : HeapRow K) (s : CacheHeap K) : CacheHeap K :=
  if r.expired then s
  else
    match r.p with
    | none => s
    | some p =>
      let s := { s with nodes := s.nodes.insert p ⟨r.node, none⟩ }
      if r.select_ok then
        match r.key with
        | none => s.free_node p
        | some key => insert_node key p r.node r.key_copy r.add_ok s
      else s.free_node p

/-- `rte_free` of a node and of its copy of the key. -/
def CacheHeap.free_entry (s : CacheHeap K) (p : ℕ) : CacheHeap K :=
  match s.nodes.lookup p with
  | some block => (s.free_key block.key).free_node p
  | none => s

def lookup_cache (expired : NodeCache → Bool) (del_key_ok : Bool) (key : K) (s : CacheHeap K) :
    Lookup ℕ × CacheHeap K :=
  match s.hash with
  | none => (.error, s)
  | some table =>
    match table.lookup key with
    | none => (.enoent, s)
    | some p =>
      -- a pointer to a freed node is never read, see `CacheHeap.Sound`
      if (s.nodes.lookup p).any fun block => expired block.node then
        (.enoent, if del_key_ok then { s.free_entry p with hash := some (table.erase key) } else s)
      else (.hit p, s)

def clear_cache (s : CacheHeap K) : CacheHeap K :=
  match s.hash with
  | none => s
  | some _ => { s with hash := some ∅ }

/-- `entries` are the entries in the order of `rte_hash_iterate`. -/
def free_cache (entries : List (Sigma fun _ : K => ℕ)) (s : CacheHeap K) : CacheHeap K :=
  match s.hash with
  | none => s
  | some _ => { entries.foldl (fun s entry => s.free_entry entry.2) s with hash := none }

/-- `rte_hash_create` in `init_*_cache`; the rows are loaded one by one. -/
def init_cache (create_ok : Bool) (s : CacheHeap K) : CacheHeap K :=
  match s.hash with
  | some _ => s
  | none => if create_ok then { s with hash := some ∅ } else s

inductive HeapAction (K : Type) where
  | init (create_ok : Bool)
  | load (row : HeapRow K)
  | add (addition : HeapAddition K)
  | lookup (expired : NodeCache → Bool) (del_key_ok : Bool) (key : K)
  | clear
  | free (entries : List (Sigma fun _ : K => ℕ))

def heap_step (copy : K → K) (s : CacheHeap K) : HeapAction K → CacheHeap K
  | .init create_ok => init_cache create_ok s
  | .load row => load_row row s
  | .add addition => add_to_cache copy addition s
  | .lookup expired del_key_ok key => (lookup_cache expired del_key_ok key s).2
  | .clear => clear_cache s
  | .free entries => free_cache entries s

/-- Allocations return free memory, and an iteration names every entry once. -/
def CacheHeap.Possible (s : CacheHeap K) : HeapAction K → Prop
  | .load row => (∀ p, row.p = some p → p ∉ s.nodes) ∧ ∀ a, row.key_copy = some a → a ∉ s.keys
  | .add addition => addition.p ∉ s.nodes ∧ ∀ a, addition.key_copy = some a → a ∉ s.keys
  | .free entries => ∀ table, s.hash = some table → Enumerates entries table
  | _ => True

/-- The successful insertion of a node. -/
def CacheHeap.store (s : CacheHeap K) (table : Table K ℕ) (key : K) (p a : ℕ) (node : NodeCache) : CacheHeap K :=
  { hash := some (table.insert key p), nodes := s.nodes.insert p ⟨node, some a⟩, keys := s.keys.insert a key }

/-- A node that was allocated for the insertion is stored, or everything is freed
again. -/
theorem insert_node_cases {s : CacheHeap K} (key : K) {p : ℕ} (block : HeapNode) (node : NodeCache)
    {key_copy : Option ℕ} (add_ok : Bool) (hp : p ∉ s.nodes) (ha : ∀ a, key_copy = some a → a ∉ s.keys) :
    (∃ table a, s.hash = some table ∧ key_copy = some a ∧ add_ok = true ∧
      insert_node key p node key_copy add_ok { s with nodes := s.nodes.insert p block } =
        s.store table key p a node) ∨
    (¬ (s.hash.isSome ∧ key_copy.isSome ∧ add_ok) ∧
      insert_node key p node key_copy add_ok { s with nodes := s.nodes.insert p block } = s) := by
  obtain ⟨hash, nodes, keys⟩ := s
  cases key_copy with
  | none => exact .inr ⟨by simp, by simp [insert_node, CacheHeap.free_node, erase_insert_of_notMem hp]⟩
  | some a =>
    have ha := ha a rfl
    cases hash with
    | none =>
      refine .inr ⟨by simp, ?_⟩
      simp [insert_node, rte_hash_add_key_data, CacheHeap.free_key, CacheHeap.free_node, erase_insert_of_notMem ha,
        Finmap.insert_insert, erase_insert_of_notMem hp]
    | some table =>
      cases add_ok with
      | false =>
        refine .inr ⟨by simp, ?_⟩
        simp [insert_node, rte_hash_add_key_data, CacheHeap.free_key, CacheHeap.free_node, erase_insert_of_notMem ha,
          Finmap.insert_insert, erase_insert_of_notMem hp]
      | true =>
        refine .inl ⟨table, a, rfl, rfl, rfl, ?_⟩
        simp [insert_node, rte_hash_add_key_data, CacheHeap.store, Finmap.insert_insert]

theorem lookup_cache_cases (expired : NodeCache → Bool) (del_key_ok : Bool) (key : K) (s : CacheHeap K) :
    (lookup_cache expired del_key_ok key s).2 = s ∨
    ∃ table p, s.hash = some table ∧ table.lookup key = some p ∧
      (lookup_cache expired del_key_ok key s).2 = { s.free_entry p with hash := some (table.erase key) } := by
  unfold lookup_cache
  split
  · exact .inl rfl
  · rename_i table hhash
    split
    · exact .inl rfl
    · rename_i p hfound
      split
      · cases del_key_ok with
        | true => exact .inr ⟨table, p, hhash, hfound, rfl⟩
        | false => exact .inl rfl
      · exact .inl rfl

/-- The hash table points to the node under the key. -/
def CacheHeap.Refers (s : CacheHeap K) (k : K) (p : ℕ) : Prop := ∃ table, s.hash = some table ∧ table.lookup k = some p

/-- That node is allocated and points to the copy of its key. -/
def CacheHeap.Owns (s : CacheHeap K) (k : K) (p a : ℕ) : Prop :=
  s.Refers k p ∧ ∃ node, s.nodes.lookup p = some ⟨node, some a⟩

/-- No pointer dangles, and no two entries share a node or a copy of a key. -/
structure CacheHeap.Sound (s : CacheHeap K) : Prop where
  owns : ∀ k p, s.Refers k p → ∃ a, s.Owns k p a ∧ a ∈ s.keys
  node_inj : ∀ k k' p, s.Refers k p → s.Refers k' p → k = k'
  key_inj : ∀ k k' p p' a, s.Owns k p a → s.Owns k' p' a → k = k'

/-- What a step can do, and when it leaves nothing behind. -/
inductive HeapMoves (s : CacheHeap K) : CacheHeap K → Prop → Prop
  | same : HeapMoves s s True
  | stored {table : Table K ℕ} {key : K} {p a : ℕ} (node : NodeCache) (hhash : s.hash = some table)
      (hp : p ∉ s.nodes) (ha : a ∉ s.keys) : HeapMoves s (s.store table key p a node) (key ∉ table)
  | evicted {table : Table K ℕ} {key : K} {p : ℕ} (hhash : s.hash = some table) (hfound : table.lookup key = some p) :
      HeapMoves s { s.free_entry p with hash := some (table.erase key) } True
  | cleared {table : Table K ℕ} (hhash : s.hash = some table) : HeapMoves s { s with hash := some ∅ } (table = ∅)
  | created (hhash : s.hash = none) : HeapMoves s { s with hash := some ∅ } True
  | freed {table : Table K ℕ} {entries : List (Sigma fun _ : K => ℕ)} (hhash : s.hash = some table)
      (hentries : Enumerates entries table) :
      HeapMoves s { entries.foldl (fun s entry => s.free_entry entry.2) s with hash := none } True

/-- An insertion that succeeds finds its key absent, and only an empty table is
cleared. -/
def CacheHeap.Tidy (copy : K → K) (s : CacheHeap K) : HeapAction K → Prop
  | .load row =>
    ∀ table key, row.expired = false → row.p.isSome → row.select_ok → row.key = some key →
      s.hash = some table → row.key_copy.isSome → row.add_ok → key ∉ table
  | .add addition =>
    ∀ table, s.hash = some table → addition.key_copy.isSome → addition.add_ok → copy addition.key ∉ table
  | .clear => ∀ table, s.hash = some table → table = ∅
  | _ => True

theorem heapMoves_of_insert {s : CacheHeap K} (key : K) {p : ℕ} (block : HeapNode) (node : NodeCache)
    {key_copy : Option ℕ} (add_ok : Bool) (hp : p ∉ s.nodes) (ha : ∀ a, key_copy = some a → a ∉ s.keys) :
    ∃ tidy, HeapMoves s (insert_node key p node key_copy add_ok { s with nodes := s.nodes.insert p block }) tidy ∧
      ((∀ table, s.hash = some table → key_copy.isSome → add_ok → key ∉ table) ↔ tidy) := by
  obtain ⟨table, a, hhash, hcopy, hok, heq⟩ | ⟨hfailed, heq⟩ :=
    insert_node_cases key block node add_ok hp ha
  · rw [heq]
    refine ⟨key ∉ table, .stored node hhash hp (ha a hcopy), ?_⟩
    constructor
    · intro h
      exact h table hhash (by simp [hcopy]) hok
    · rintro h other hother _ _
      obtain rfl : table = other := Option.some.inj (hhash.symm.trans hother)
      exact h
  · rw [heq]
    refine ⟨True, .same, iff_true_intro ?_⟩
    intro table hhash hcopy hok
    exact absurd ⟨by simp [hhash], hcopy, hok⟩ hfailed

theorem heapMoves_of_step {copy : K → K} {s : CacheHeap K} {a : HeapAction K} (hpossible : s.Possible a) :
    ∃ tidy, HeapMoves s (heap_step copy s a) tidy ∧ (s.Tidy copy a ↔ tidy) := by
  cases a with
  | init create_ok =>
    refine ⟨True, ?_, Iff.rfl⟩
    simp only [heap_step, init_cache]
    cases hhash : s.hash with
    | some table => exact .same
    | none =>
      cases create_ok with
      | true => exact .created hhash
      | false => exact .same
  | load row =>
    obtain ⟨hp, ha⟩ := hpossible
    obtain ⟨expired, p, node, select_ok, key, key_copy, add_ok⟩ := row
    simp only [heap_step, load_row, CacheHeap.Tidy]
    cases expired with
    | true => exact ⟨True, .same, by simp⟩
    | false =>
      cases p with
      | none => exact ⟨True, .same, by simp⟩
      | some p =>
        have hfreed : ({ s with nodes := s.nodes.insert p ⟨node, none⟩ } : CacheHeap K).free_node p = s := by
          simp [CacheHeap.free_node, erase_insert_of_notMem (hp p rfl)]
        cases select_ok with
        | false => exact ⟨True, by simpa [hfreed] using .same, by simp⟩
        | true =>
          cases key with
          | none => exact ⟨True, by simpa [hfreed] using .same, by simp⟩
          | some key => simpa using heapMoves_of_insert key ⟨node, none⟩ node add_ok (hp p rfl) ha
  | add addition => exact heapMoves_of_insert _ _ _ _ hpossible.1 hpossible.2
  | lookup expired del_key_ok key =>
    refine ⟨True, ?_, Iff.rfl⟩
    simp only [heap_step]
    obtain hsame | ⟨table, p, hhash, hfound, hevicted⟩ := lookup_cache_cases expired del_key_ok key s
    · rw [hsame]
      exact .same
    · rw [hevicted]
      exact .evicted hhash hfound
  | clear =>
    simp only [heap_step, clear_cache, CacheHeap.Tidy]
    cases hhash : s.hash with
    | none => exact ⟨True, .same, by simp⟩
    | some table => exact ⟨table = ∅, .cleared hhash, by simp⟩
  | free entries =>
    refine ⟨True, ?_, Iff.rfl⟩
    simp only [heap_step, free_cache]
    cases hhash : s.hash with
    | none => exact .same
    | some table => exact .freed hhash (hpossible table hhash)

section Sound

variable {s : CacheHeap K} {table : Table K ℕ} {key k : K} {p q a b : ℕ} {node : NodeCache}

theorem not_refers_of_none (h : s.hash = none) : ¬ s.Refers k q := by
  rintro ⟨table, hhash, _⟩
  rw [h] at hhash
  cases hhash

theorem not_refers_of_empty (h : s.hash = some ∅) : ¬ s.Refers k q := by
  rintro ⟨table, hhash, hfound⟩
  obtain rfl : ∅ = table := Option.some.inj (h.symm.trans hhash)
  simp at hfound

theorem refers_iff (h : s.hash = some table) : s.Refers k q ↔ table.lookup k = some q := by
  simp [CacheHeap.Refers, h]

theorem refers_store_iff (h : s.hash = some table) :
    (s.store table key p a node).Refers k q ↔ k = key ∧ q = p ∨ k ≠ key ∧ s.Refers k q := by
  rw [refers_iff rfl, refers_iff h]
  by_cases hk : k = key
  · subst hk
    simp [eq_comm]
  · simp [hk]

theorem CacheHeap.Sound.mem_nodes (hs : s.Sound) (h : s.Refers k q) : q ∈ s.nodes := by
  obtain ⟨b, ⟨_, block, hblock⟩, _⟩ := hs.owns k q h
  exact Finmap.mem_of_lookup_eq_some hblock

theorem CacheHeap.Owns.key_eq (h : s.Owns k q b) (hother : s.Owns key q a) : b = a := by
  obtain ⟨_, first, hfirst⟩ := h
  obtain ⟨_, second, hsecond⟩ := hother
  rw [hfirst] at hsecond
  cases hsecond
  rfl

theorem CacheHeap.Sound.mem_keys (hs : s.Sound) (h : s.Owns k q b) : b ∈ s.keys := by
  obtain ⟨a, hother, ha⟩ := hs.owns k q h.1
  rwa [h.key_eq hother]

theorem owns_store (h : s.hash = some table) : (s.store table key p a node).Owns key p a :=
  ⟨(refers_store_iff h).mpr (.inl ⟨rfl, rfl⟩), node, Finmap.lookup_insert _⟩

theorem owns_store_of_ne (hs : s.Sound) (h : s.hash = some table) (hp : p ∉ s.nodes) (hk : k ≠ key)
    (howns : s.Owns k q b) : (s.store table key p a node).Owns k q b := by
  obtain ⟨hrefers, block, hblock⟩ := howns
  have hq : q ≠ p := fun heq => hp (heq ▸ hs.mem_nodes hrefers)
  exact ⟨(refers_store_iff h).mpr (.inr ⟨hk, hrefers⟩), block, (Finmap.lookup_insert_of_ne _ hq).trans hblock⟩

theorem owns_store_cases (hs : s.Sound) (h : s.hash = some table) (hp : p ∉ s.nodes)
    (howns : (s.store table key p a node).Owns k q b) :
    k = key ∧ q = p ∧ b = a ∨ k ≠ key ∧ s.Owns k q b := by
  obtain ⟨rfl, rfl⟩ | ⟨hk, hrefers⟩ := (refers_store_iff h).mp howns.1
  · exact .inl ⟨rfl, rfl, howns.key_eq (owns_store h)⟩
  · obtain ⟨c, hc, _⟩ := hs.owns k q hrefers
    have hb := howns.key_eq (owns_store_of_ne hs h hp hk hc)
    exact .inr ⟨hk, hb ▸ hc⟩

theorem CacheHeap.Sound.store (hs : s.Sound) (h : s.hash = some table) (hp : p ∉ s.nodes) (ha : a ∉ s.keys) :
    (s.store table key p a node).Sound := by
  refine ⟨?_, ?_, ?_⟩
  · intro k q hrefers
    obtain ⟨rfl, rfl⟩ | ⟨hk, hold⟩ := (refers_store_iff h).mp hrefers
    · exact ⟨a, owns_store h, Finmap.mem_insert.mpr (.inl rfl)⟩
    · obtain ⟨b, howns, hb⟩ := hs.owns k q hold
      exact ⟨b, owns_store_of_ne hs h hp hk howns, Finmap.mem_insert.mpr (.inr hb)⟩
  · intro k k' q hrefers hrefers'
    obtain ⟨rfl, rfl⟩ | ⟨_, hold⟩ := (refers_store_iff h).mp hrefers
    · obtain ⟨rfl, _⟩ | ⟨_, hold'⟩ := (refers_store_iff h).mp hrefers'
      · rfl
      · exact absurd (hs.mem_nodes hold') hp
    · obtain ⟨_, rfl⟩ | ⟨_, hold'⟩ := (refers_store_iff h).mp hrefers'
      · exact absurd (hs.mem_nodes hold) hp
      · exact hs.node_inj k k' q hold hold'
  · intro k k' q q' b howns howns'
    obtain ⟨rfl, _, rfl⟩ | ⟨_, hold⟩ := owns_store_cases hs h hp howns
    · obtain ⟨rfl, _, _⟩ | ⟨_, hold'⟩ := owns_store_cases hs h hp howns'
      · rfl
      · exact absurd (hs.mem_keys hold') ha
    · obtain ⟨_, _, rfl⟩ | ⟨_, hold'⟩ := owns_store_cases hs h hp howns'
      · exact absurd (hs.mem_keys hold) ha
      · exact hs.key_inj k k' q q' b hold hold'

/-- The removal of an entry with its node and its copy of the key. -/
def CacheHeap.evict (s : CacheHeap K) (table : Table K ℕ) (key : K) (p a : ℕ) : CacheHeap K :=
  { hash := some (table.erase key), nodes := s.nodes.erase p, keys := s.keys.erase a }

theorem free_entry_of_owns (h : s.Owns key p a) :
    s.free_entry p = { s with nodes := s.nodes.erase p, keys := s.keys.erase a } := by
  obtain ⟨_, block, hblock⟩ := h
  rw [CacheHeap.free_entry, hblock]
  rfl

theorem refers_evict_iff (h : s.hash = some table) :
    (s.evict table key p a).Refers k q ↔ k ≠ key ∧ s.Refers k q := by
  rw [refers_iff rfl, refers_iff h]
  by_cases hk : k = key
  · subst hk
    simp
  · simp [hk]

theorem owns_evict_iff (hs : s.Sound) (h : s.hash = some table) (hkey : s.Refers key p) :
    (s.evict table key p a).Owns k q b ↔ k ≠ key ∧ s.Owns k q b := by
  rw [CacheHeap.Owns, CacheHeap.Owns, refers_evict_iff h, and_assoc]
  refine and_congr_right fun hk => and_congr_right fun hrefers => ?_
  have hq : q ≠ p := by
    rintro rfl
    exact hk (hs.node_inj k key q hrefers hkey)
  rw [CacheHeap.evict, Finmap.lookup_erase_ne hq]

theorem CacheHeap.Sound.evict (hs : s.Sound) (h : s.hash = some table) (howns : s.Owns key p a) :
    (s.evict table key p a).Sound := by
  refine ⟨?_, ?_, ?_⟩
  · intro k q hrefers
    obtain ⟨hk, hold⟩ := (refers_evict_iff h).mp hrefers
    obtain ⟨b, hb, hmem⟩ := hs.owns k q hold
    have hne : b ≠ a := by
      rintro rfl
      exact hk (hs.key_inj k key q p b hb howns)
    exact ⟨b, (owns_evict_iff hs h howns.1).mpr ⟨hk, hb⟩, Finmap.mem_erase.mpr ⟨hne, hmem⟩⟩
  · intro k k' q hrefers hrefers'
    exact hs.node_inj k k' q ((refers_evict_iff h).mp hrefers).2 ((refers_evict_iff h).mp hrefers').2
  · intro k k' q q' b hb hb'
    exact hs.key_inj k k' q q' b ((owns_evict_iff hs h howns.1).mp hb).2 ((owns_evict_iff hs h howns.1).mp hb').2

theorem sound_of_not_refers (h : ∀ k q, ¬ s.Refers k q) : s.Sound :=
  ⟨fun k q hrefers => absurd hrefers (h k q), fun k _ q hrefers => absurd hrefers (h k q),
    fun k _ q _ _ howns => absurd howns.1 (h k q)⟩

/-- No step leaves a dangling pointer. -/
theorem CacheHeap.Sound.moves {next : CacheHeap K} {tidy : Prop} (hs : s.Sound) (h : HeapMoves s next tidy) :
    next.Sound := by
  cases h with
  | same => exact hs
  | stored node hhash hp ha => exact hs.store hhash hp ha
  | evicted hhash hfound =>
    obtain ⟨a, howns, _⟩ := hs.owns _ _ ((refers_iff hhash).mpr hfound)
    rw [free_entry_of_owns howns]
    exact hs.evict hhash howns
  | cleared hhash => exact sound_of_not_refers fun _ _ => not_refers_of_empty rfl
  | created hhash => exact sound_of_not_refers fun _ _ => not_refers_of_empty rfl
  | freed hhash hentries => exact sound_of_not_refers fun _ _ => not_refers_of_none rfl

/-- The table of nodes that the pointers stand for. -/
def CacheHeap.Shows (s : CacheHeap K) (cache : Table K NodeCache) : Prop :=
  ∃ table, s.hash = some table ∧
    ∀ k, cache.lookup k = (table.lookup k).bind fun p => (s.nodes.lookup p).map HeapNode.node

variable {cache : Table K NodeCache}

theorem CacheHeap.Shows.store (hs : s.Sound) (h : s.Shows cache) (hhash : s.hash = some table) (hp : p ∉ s.nodes) :
    (s.store table key p a node).Shows (cache.insert key node) := by
  obtain ⟨other, hother, hshows⟩ := h
  obtain rfl : table = other := Option.some.inj (hhash.symm.trans hother)
  refine ⟨table.insert key p, rfl, fun k => ?_⟩
  by_cases hk : k = key
  · subst hk
    simp [CacheHeap.store]
  · rw [Finmap.lookup_insert_of_ne _ hk, Finmap.lookup_insert_of_ne _ hk, hshows k]
    cases hfound : table.lookup k with
    | none => rfl
    | some q =>
      have hq : q ≠ p := fun heq => hp (heq ▸ hs.mem_nodes ((refers_iff hhash).mpr hfound))
      simp [CacheHeap.store, Finmap.lookup_insert_of_ne _ hq]

theorem CacheHeap.Shows.evict (hs : s.Sound) (h : s.Shows cache) (hhash : s.hash = some table)
    (hkey : s.Refers key p) : (s.evict table key p a).Shows (cache.erase key) := by
  obtain ⟨other, hother, hshows⟩ := h
  obtain rfl : table = other := Option.some.inj (hhash.symm.trans hother)
  refine ⟨table.erase key, rfl, fun k => ?_⟩
  by_cases hk : k = key
  · subst hk
    simp
  · rw [Finmap.lookup_erase_ne hk, Finmap.lookup_erase_ne hk, hshows k]
    cases hfound : table.lookup k with
    | none => rfl
    | some q =>
      have hq : q ≠ p := by
        rintro rfl
        exact hk (hs.node_inj k key q ((refers_iff hhash).mpr hfound) hkey)
      simp [CacheHeap.evict, Finmap.lookup_erase_ne hq]

/-- `add_to_cache` refines the insertion of `add_to_dns_cache` and
`add_to_ip_cache`. -/
theorem CacheHeap.Shows.add {copy : K → K} {addition : HeapAddition K} (hs : s.Sound) (h : s.Shows cache)
    (hpossible : s.Possible (.add addition)) :
    (add_to_cache copy addition s).Shows
      (ttl_cache.add (addition.key_copy.isSome && addition.add_ok) (copy addition.key)
        (addition.node.stamped addition.cycles addition.ttl) cache) := by
  obtain ⟨table, a, hhash, hcopy, hok, heq⟩ | ⟨hfailed, heq⟩ := insert_node_cases (copy addition.key)
    ⟨addition.node, none⟩ (addition.node.stamped addition.cycles addition.ttl) addition.add_ok hpossible.1 hpossible.2
  · rw [add_to_cache, heq, hcopy, hok]
    exact h.store hs hhash hpossible.1
  · have hsome : s.hash.isSome := by
      obtain ⟨table, hhash, _⟩ := h
      simp [hhash]
    have hstored : (addition.key_copy.isSome && addition.add_ok) = false := by
      rw [Bool.and_eq_false_imp]
      intro hcopy
      exact Bool.eq_false_of_not_eq_true fun hok => hfailed ⟨hsome, hcopy, hok⟩
    rw [add_to_cache, heq, hstored]
    exact h

/-- `lookup_cache` refines the lookup of `lookup_dns_cache` and `lookup_ip_cache`:
it answers with the node or `-ENOENT` alike and evicts alike. -/
theorem CacheHeap.Shows.lookup (hs : s.Sound) (h : s.Shows cache) (expired : NodeCache → Bool) (del_key_ok : Bool)
    (key : K) :
    (lookup_cache expired del_key_ok key s).2.Shows (ttl_cache.lookup expired del_key_ok key cache).2 ∧
    ((lookup_cache expired del_key_ok key s).1 = .enoent ∧
        (ttl_cache.lookup expired del_key_ok key cache).1 = .enoent ∨
      ∃ p node, (lookup_cache expired del_key_ok key s).1 = .hit p ∧
        (s.nodes.lookup p).map HeapNode.node = some node ∧
        (ttl_cache.lookup expired del_key_ok key cache).1 = .hit node) := by
  obtain ⟨table, hhash, hshows⟩ := id h
  have hkey := hshows key
  cases hfound : table.lookup key with
  | none =>
    rw [hfound, Option.bind_none] at hkey
    simp only [lookup_cache, hhash, hfound, ttl_cache.lookup, hkey]
    exact ⟨h, .inl ⟨trivial, trivial⟩⟩
  | some p =>
    have hrefers := (refers_iff hhash).mpr hfound
    obtain ⟨a, howns, _⟩ := hs.owns key p hrefers
    obtain ⟨_, node, hnode⟩ := id howns
    rw [hfound, Option.bind_some, hnode, Option.map_some] at hkey
    simp only [lookup_cache, hhash, hfound, hnode, Option.any_some, ttl_cache.lookup, hkey]
    cases hexpired : expired node with
    | false => exact ⟨h, .inr ⟨p, node, rfl, by rw [hnode]; rfl, rfl⟩⟩
    | true =>
      cases del_key_ok with
      | false => exact ⟨h, .inl ⟨rfl, rfl⟩⟩
      | true =>
        rw [free_entry_of_owns howns]
        exact ⟨h.evict hs hhash hrefers, .inl ⟨rfl, rfl⟩⟩

theorem CacheHeap.Shows.clear (h : s.Shows cache) : (clear_cache s).Shows ∅ := by
  obtain ⟨table, hhash, _⟩ := h
  rw [clear_cache, hhash]
  exact ⟨∅, rfl, fun k => by simp⟩

end Sound

/-- What the main loop asks of a cache between `init_*_cache` and `free_*_cache`. -/
def HeapAction.Serves : HeapAction K → Prop
  | .add _ | .lookup _ _ _ | .clear => True
  | .init _ | .load _ | .free _ => False

/-- The same on the table of nodes. -/
def cache_step (copy : K → K) (cache : Table K NodeCache) : HeapAction K → Table K NodeCache
  | .add addition =>
    ttl_cache.add (addition.key_copy.isSome && addition.add_ok) (copy addition.key)
      (addition.node.stamped addition.cycles addition.ttl) cache
  | .lookup expired del_key_ok key => (ttl_cache.lookup expired del_key_ok key cache).2
  | .clear => ∅
  | .init _ | .load _ | .free _ => cache

theorem CacheHeap.Shows.step {copy : K → K} {s : CacheHeap K} {cache : Table K NodeCache} {a : HeapAction K}
    (hs : s.Sound) (h : s.Shows cache) (hpossible : s.Possible a) (hserves : a.Serves) :
    (heap_step copy s a).Shows (cache_step copy cache a) := by
  cases a with
  | add addition => exact h.add hs hpossible
  | lookup expired del_key_ok key => exact (h.lookup hs expired del_key_ok key).1
  | clear => exact h.clear
  | init | load | free => exact hserves.elim

/-- Over whole runs the pointers stand for the table of nodes, whatever has leaked. -/
theorem CacheHeap.Shows.run {copy : K → K} {s final : CacheHeap K} {cache : Table K NodeCache}
    {acts : List (HeapAction K)} (hs : s.Sound) (h : s.Shows cache)
    (hmeets : Meets (fun s a => some (heap_step copy s a)) (fun s a => s.Possible a ∧ a.Serves) s acts)
    (hrun : transition.run (fun s a => some (heap_step copy s a)) s acts = some final) :
    final.Sound ∧ final.Shows (acts.foldl (cache_step copy) cache) := by
  induction acts generalizing s cache with
  | nil =>
    cases hrun
    exact ⟨hs, h⟩
  | cons a rest ih =>
    obtain ⟨⟨hpossible, hserves⟩, hrest⟩ := meets_total_cons.mp hmeets
    obtain ⟨tidy, hmoves, _⟩ := heapMoves_of_step hpossible
    exact ih (hs.moves hmoves) (h.step hs hpossible hserves) hrest hrun

end grpc_server.dpdk_filter
