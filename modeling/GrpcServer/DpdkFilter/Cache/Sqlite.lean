import GrpcServer.DpdkFilter.Cache
import GrpcServer.TtlCache.Store

open c_memory ttl_cache

namespace grpc_server.dpdk_filter

abbrev CACHE_SIZE : ℕ := 1024

/-- A row of `main_table` or `ip_main_table` behind its key. SQLite keeps integers
as signed 64-bit values. -/
structure MainRow where
  solution_is_send : Int64
  trust_lvl : Int64
  timestamp : Int64
  ttl_seconds : Int64

/-- `cache.db` or `ip_cache.db`. Texts are compared byte by byte. -/
structure Database where
  main_table : Table Str MainRow
  categories_table : List (Str × Str)

def Database.empty : Database := ⟨∅, []⟩

/-- The values bound in `insert_domain_main_record` and `insert_ip_main_record`. -/
def main_row (node : NodeCache) : MainRow :=
  { solution_is_send := if node.solution_is_send then 1 else 0
    trust_lvl := node.trust_lvl.toInt64
    timestamp := node.timestamp.toInt64
    ttl_seconds := node.ttl_seconds.toInt32.toInt64 }

def insert_main_record (text : Str) (node : NodeCache) (db : Database) : Database :=
  { db with main_table := db.main_table.insert text (main_row node) }

def delete_categories (text : Str) (db : Database) : Database :=
  { db with categories_table := db.categories_table.filter fun row => row.1 ≠ text }

local instance : NeZero CATEGORY_MAX_LEN := ⟨by decide⟩

/-- Inserts the categories up to the first empty slot. A pair that is there
violates the primary key and ends the loop. -/
def insert_categories (text : Str) (node : NodeCache) : List (Fin MAX_CATEGORIES) → Database → Database
  | [], db => db
  | i :: rest, db =>
    if node.categories i 0 = 0 ∨ (text, node.category i) ∈ db.categories_table then db
    else insert_categories text node rest
      { db with categories_table := db.categories_table ++ [(text, node.category i)] }

/-- What saving a node of either cache does. -/
def save_node (text : Str) (node : NodeCache) (db : Database) : Database :=
  insert_categories text node (List.finRange MAX_CATEGORIES) (delete_categories text (insert_main_record text node db))

def save_single_node_to_sqlite (domain : DomainKey) (node : NodeCache) (db : Database) : Database :=
  save_node domain.str node db

/-- The IPv4 address in a key. -/
def IpKey.ip4 (key : IpKey) : Ip4 := fun k => key.addr ⟨k.val, k.isLt.trans (by decide)⟩

/-- The text under which a key is saved. -/
def ip_text (inet : Inet) (key : IpKey) : Str :=
  if key.version = 4 then inet.ntop4 key.ip4 else inet.ntop6 key.addr

def save_single_node_ip_to_sqlite (inet : Inet) (key : IpKey) (node : NodeCache) (db : Database) : Database :=
  save_node (ip_text inet key) node db

/-- The copy of a key in the snapshot. -/
def snapshot_key (key : DomainKey) : DomainKey :=
  Function.update (strncpy (fun _ => 0) key.str (DOMAIN_MAX_LEN - 1)) 259 0

/-- `save_all_cache_to_sqlite` on the snapshot of a table, in the order
`rte_hash_iterate` takes. -/
def save_all_cache_to_sqlite (entries : List (Sigma fun _ : DomainKey => NodeCache)) (db : Database) : Database :=
  entries.foldl (fun db entry => save_single_node_to_sqlite (snapshot_key entry.1) entry.2 db) db

def save_all_cache_ip_to_sqlite (inet : Inet) (entries : List (Sigma fun _ : IpKey => NodeCache)) (db : Database) :
    Database :=
  entries.foldl (fun db entry => save_single_node_ip_to_sqlite inet entry.1 entry.2 db) db

/-- What the calls made while the rows are loaded return, by the text of the row.
`node_memory` and `node_pad` are what `rte_malloc` hands out. -/
structure LoadEnv (K : Type) where
  now_cycles : UInt64
  node_alloc_ok : Str → Bool
  node_memory : Str → Fin MAX_CATEGORIES → Slot CATEGORY_MAX_LEN
  node_pad : Str → Slot 3
  select_ok : Str → Bool
  key_alloc_ok : Str → Bool
  add_key_ok : Table K NodeCache → K → Bool

inductive LoadResult where
  | ok
  | expired
  | error

/-- `load_domain_categories` and `load_ip_categories`: slots without a row keep
what the memory held. -/
def load_categories (db : Database) (text : Str) (memory : Fin MAX_CATEGORIES → Slot CATEGORY_MAX_LEN)
    (i : Fin MAX_CATEGORIES) : Slot CATEGORY_MAX_LEN :=
  match ((db.categories_table.filter fun row => row.1 = text).map Prod.snd)[i.val]? with
  | some category => Function.update (strncpy (memory i) category (CATEGORY_MAX_LEN - 1)) 63 0
  | none => memory i

/-- The node read back from a row. -/
def MainRow.node (row : MainRow) (categories : Fin MAX_CATEGORIES → Slot CATEGORY_MAX_LEN) (pad : Slot 3) :
    NodeCache :=
  { categories
    solution_is_send := row.solution_is_send.toInt32 ≠ 0
    pad
    trust_lvl := row.trust_lvl.toInt32
    timestamp := row.timestamp.toUInt64
    ttl_seconds := row.ttl_seconds.toInt32.toUInt32 }

section Load

variable {K : Type} [DecidableEq K]

/-- What loading a row of either cache does. -/
def create_node (hz : UInt64) (env : LoadEnv K) (db : Database) (to_key : Str → Option K) (text : Str) (row : MainRow)
    (table : Table K NodeCache) : LoadResult × Table K NodeCache :=
  let node := row.node (load_categories db text (env.node_memory text)) (env.node_pad text)
  if node.expired hz env.now_cycles then (.expired, table)
  else if ¬ (env.node_alloc_ok text ∧ env.select_ok text) then (.error, table)
  else
    match to_key text with
    | none => (.error, table)
    | some key =>
      if env.key_alloc_ok text ∧ env.add_key_ok table key then (.ok, table.insert key node) else (.error, table)

/-- The loop over the rows, in the order SQLite returns them. -/
def load_rows (create : Str → MainRow → Table K NodeCache → LoadResult × Table K NodeCache)
    (rows : List (Sigma fun _ : Str => MainRow)) (table : Table K NodeCache) : Table K NodeCache :=
  rows.foldl (fun table row => (create row.1 row.2 table).2) table

end Load

/-- The key `insert_loaded_node_domain` stores. -/
def loaded_dns_key (domain : Str) : DomainKey := Function.update (strncpy (fun _ => 0) domain DOMAIN_MAX_LEN) 259 0

def create_domain_node_from_db_row (hz : UInt64) (env : LoadEnv DomainKey) (db : Database) (domain : Str)
    (row : MainRow) (table : Table DomainKey NodeCache) : LoadResult × Table DomainKey NodeCache :=
  create_node hz env db (fun domain => some (loaded_dns_key domain)) domain row table

def load_cache_from_sqlite (hz : UInt64) (env : LoadEnv DomainKey) (db : Database)
    (rows : List (Sigma fun _ : Str => MainRow)) (table : Table DomainKey NodeCache) : Table DomainKey NodeCache :=
  load_rows (create_domain_node_from_db_row hz env db) rows table

/-- `inet_pton` writes the four bytes of an IPv4 address into the union; those
behind them keep what the stack held. -/
def IpKey.write_ip4 (key : IpKey) (ip4 : Ip4) : Ip6 := fun k => if h : k.val < 4 then ip4 ⟨k.val, h⟩ else key.addr k

def ip_str_to_key (inet : Inet) (ip_str : Str) (key : IpKey) : Option IpKey :=
  match inet.pton4 ip_str with
  | some ip4 => some ⟨4, key.write_ip4 ip4⟩
  | none =>
    match inet.pton6 ip_str with
    | some ip6 => some ⟨6, ip6⟩
    | none => none

/-- `stack` is what the variable `key` holds when the row is reached. -/
def create_node_from_db_row (inet : Inet) (hz : UInt64) (env : LoadEnv IpKey) (stack : Str → IpKey) (db : Database)
    (ip_str : Str) (row : MainRow) (table : Table IpKey NodeCache) : LoadResult × Table IpKey NodeCache :=
  create_node hz env db (fun ip_str => ip_str_to_key inet ip_str (stack ip_str)) ip_str row table

def load_cache_ip_from_sqlite (inet : Inet) (hz : UInt64) (env : LoadEnv IpKey) (stack : Str → IpKey) (db : Database)
    (rows : List (Sigma fun _ : Str => MainRow)) (table : Table IpKey NodeCache) : Table IpKey NodeCache :=
  load_rows (create_node_from_db_row inet hz env stack db) rows table

/-- The casts to SQLite's integers and back lose nothing. -/
theorem main_row_node (node : NodeCache) (categories : Fin MAX_CATEGORIES → Slot CATEGORY_MAX_LEN) (pad : Slot 3) :
    (main_row node).node categories pad = { node with categories, pad } := by
  obtain ⟨_, solution_is_send, _, trust_lvl, timestamp, ttl_seconds⟩ := node
  cases solution_is_send <;> simp [main_row, MainRow.node]

@[simp] theorem insert_categories_main_table (text : Str) (node : NodeCache) (slots : List (Fin MAX_CATEGORIES))
    (db : Database) : (insert_categories text node slots db).main_table = db.main_table := by
  induction slots generalizing db with
  | nil => rfl
  | cons i rest ih =>
    rw [insert_categories]
    split
    · rfl
    · exact ih _

theorem save_node_main_table (text : Str) (node : NodeCache) (db : Database) :
    (save_node text node db).main_table = db.main_table.insert text (main_row node) := by
  simp [save_node, delete_categories, insert_main_record]

/-- What saving a snapshot of either cache does. -/
def save_nodes {K : Type} (text : K → Str) (entries : List (Sigma fun _ : K => NodeCache)) (db : Database) : Database :=
  entries.foldl (fun db entry => save_node (text entry.1) entry.2 db) db

theorem save_nodes_main_table {K : Type} (text : K → Str) (entries : List (Sigma fun _ : K => NodeCache))
    (db : Database) : (save_nodes text entries db).main_table = save text main_row entries db.main_table := by
  induction entries generalizing db with
  | nil => rfl
  | cons entry rest ih =>
    rw [save_nodes, List.foldl_cons, ← save_nodes, ih, save_node_main_table]
    rfl

theorem save_all_cache_to_sqlite_main_table (entries : List (Sigma fun _ : DomainKey => NodeCache)) (db : Database) :
    (save_all_cache_to_sqlite entries db).main_table =
      save (fun key => (snapshot_key key).str) main_row entries db.main_table :=
  save_nodes_main_table (fun key => (snapshot_key key).str) entries db

theorem save_all_cache_ip_to_sqlite_main_table (inet : Inet) (entries : List (Sigma fun _ : IpKey => NodeCache))
    (db : Database) :
    (save_all_cache_ip_to_sqlite inet entries db).main_table = save (ip_text inet) main_row entries db.main_table :=
  save_nodes_main_table (ip_text inet) entries db

section Loaded

variable {K : Type} [DecidableEq K] {hz : UInt64} {env : LoadEnv K} {db : Database} {to_key : Str → Option K}

/-- The entry a row gives: none if it has expired, memory is short or the text is
no key. -/
def loaded_entry (hz : UInt64) (env : LoadEnv K) (db : Database) (to_key : Str → Option K) (text : Str)
    (row : MainRow) : Option (K × NodeCache) :=
  let node := row.node (load_categories db text (env.node_memory text)) (env.node_pad text)
  if node.expired hz env.now_cycles = false ∧ env.node_alloc_ok text ∧ env.select_ok text ∧ env.key_alloc_ok text then
    (to_key text).map fun key => (key, node)
  else none

theorem create_node_snd (text : Str) (row : MainRow) (table : Table K NodeCache) :
    (create_node hz env db to_key text row table).2 =
      match loaded_entry hz env db to_key text row with
      | some (key, node) => add (env.add_key_ok table key) key node table
      | none => table := by
  simp only [create_node, loaded_entry, add]
  cases (row.node (load_categories db text (env.node_memory text)) (env.node_pad text)).expired hz env.now_cycles
  case true => simp
  case false =>
    cases env.node_alloc_ok text <;> cases env.select_ok text <;> cases env.key_alloc_ok text <;>
      cases to_key text <;> simp
    split <;> rfl

theorem load_rows_create_node (rows : List (Sigma fun _ : Str => MainRow)) (table : Table K NodeCache) :
    load_rows (create_node hz env db to_key) rows table =
      load (loaded_entry hz env db to_key) env.add_key_ok rows table := by
  unfold load_rows load
  congr 1
  funext table row
  rw [create_node_snd]
  cases loaded_entry hz env db to_key row.1 row.2 <;> rfl

omit [DecidableEq K] in
theorem loaded_entry_eq_some {text : Str} {row : MainRow} {key : K} {node : NodeCache}
    (h : loaded_entry hz env db to_key text row = some (key, node)) :
    to_key text = some key ∧ node = row.node (load_categories db text (env.node_memory text)) (env.node_pad text) ∧
      node.expired hz env.now_cycles = false := by
  simp only [loaded_entry] at h
  split at h
  · rename_i hok
    obtain ⟨found, hfound, heq⟩ := Option.map_eq_some_iff.mp h
    cases heq
    exact ⟨hfound, rfl, hok.1⟩
  · cases h

/-- The check both loading functions make on a row. -/
def MainRow.expired (hz now : UInt64) (row : MainRow) : Bool := (row.node (fun _ _ => 0) fun _ => 0).expired hz now

/-- Whatever is loaded into an empty table comes from a row that passes the
check. -/
theorem lookup_load_rows {rows : List (Sigma fun _ : Str => MainRow)} (hrows : Enumerates rows db.main_table)
    {key : K} {node : NodeCache}
    (h : (load_rows (create_node hz env db to_key) rows ∅).lookup key = some node) :
    ∃ text row, db.main_table.lookup text = some row ∧ row.expired hz env.now_cycles = false ∧
      to_key text = some key ∧ node = row.node (load_categories db text (env.node_memory text)) (env.node_pad text) := by
  rw [load_rows_create_node] at h
  rcases lookup_load_cases h with ⟨⟨text, row⟩, hrow, hentry⟩ | hempty
  · obtain ⟨hkey, hnode, hfresh⟩ := loaded_entry_eq_some hentry
    subst hnode
    exact ⟨text, row, hrows.mem_iff.mp hrow, hfresh, hkey, rfl⟩
  · rw [Finmap.lookup_empty] at hempty
    cases hempty

/-- Memory suffices, and the table takes a key while it holds fewer than
`CACHE_SIZE`, as its extendable buckets guarantee. -/
structure LoadEnv.Succeeds (env : LoadEnv K) : Prop where
  node_alloc_ok : ∀ text, env.node_alloc_ok text = true
  select_ok : ∀ text, env.select_ok text = true
  key_alloc_ok : ∀ text, env.key_alloc_ok text = true
  add_key_ok : ∀ table key, table.keys.card < CACHE_SIZE → env.add_key_ok table key = true

omit [DecidableEq K] in
theorem LoadEnv.Succeeds.loaded_entry (henv : env.Succeeds) {text : Str} {row : MainRow} {key : K}
    (hkey : to_key text = some key)
    (hfresh : (row.node (load_categories db text (env.node_memory text)) (env.node_pad text)).expired hz env.now_cycles = false) :
    loaded_entry hz env db to_key text row =
      some (key, row.node (load_categories db text (env.node_memory text)) (env.node_pad text)) := by
  simp [dpdk_filter.loaded_entry, hfresh, henv.node_alloc_ok, henv.select_ok, henv.key_alloc_ok, hkey]

/-- The table after loading all rows into an empty one, when the key of a row
gives back its text. -/
theorem lookup_load_rows_iff {rows : List (Sigma fun _ : Str => MainRow)} {text_of : K → Str} (henv : env.Succeeds)
    (hrows : Enumerates rows db.main_table) (hsize : rows.length ≤ CACHE_SIZE)
    (htext : ∀ text ∈ db.main_table, ∀ key, to_key text = some key → text_of key = text) (key : K)
    (found : NodeCache) :
    (load_rows (create_node hz env db to_key) rows ∅).lookup key = some found ↔
      to_key (text_of key) = some key ∧ found.expired hz env.now_cycles = false ∧
        ∃ row, db.main_table.lookup (text_of key) = some row ∧
          found = row.node (load_categories db (text_of key) (env.node_memory (text_of key)))
            (env.node_pad (text_of key)) := by
  constructor
  · intro h
    obtain ⟨text, row, hrow, hfresh, hkey, rfl⟩ := lookup_load_rows hrows h
    obtain rfl := htext text (Finmap.mem_of_lookup_eq_some hrow) key hkey
    exact ⟨hkey, hfresh, row, hrow, rfl⟩
  · rintro ⟨hkey, hfresh, row, hrow, rfl⟩
    rw [load_rows_create_node]
    refine lookup_load_of_mem henv.add_key_ok (by simpa using hsize) hrows.nodupKeys.nodup
      (hrows.mem_iff.mpr hrow) (henv.loaded_entry hkey hfresh) ?_
    rintro ⟨other, value⟩ hother node hentry
    have hlookup := hrows.mem_iff.mp hother
    obtain rfl := htext other (Finmap.mem_of_lookup_eq_some hlookup) key (loaded_entry_eq_some hentry).1
    rw [hrow] at hlookup
    cases hlookup
    rfl

/-- The entry loaded from the row of a saved node. -/
theorem lookup_load_saved_iff {rows : List (Sigma fun _ : Str => MainRow)} {text_of : K → Str} (henv : env.Succeeds)
    (hrows : Enumerates rows db.main_table) (hsize : rows.length ≤ CACHE_SIZE)
    (htext : ∀ text ∈ db.main_table, ∀ key, to_key text = some key → text_of key = text) {key : K} {node : NodeCache}
    (hrow : db.main_table.lookup (text_of key) = some (main_row node)) (found : NodeCache) :
    (load_rows (create_node hz env db to_key) rows ∅).lookup key = some found ↔
      to_key (text_of key) = some key ∧ node.expired hz env.now_cycles = false ∧
        found = { node with
          categories := load_categories db (text_of key) (env.node_memory (text_of key))
          pad := env.node_pad (text_of key) } := by
  rw [lookup_load_rows_iff henv hrows hsize htext, hrow]
  constructor
  · rintro ⟨hkey, hfresh, row, hsome, rfl⟩
    cases hsome
    rw [main_row_node] at hfresh ⊢
    exact ⟨hkey, hfresh, rfl⟩
  · rintro ⟨hkey, hfresh, rfl⟩
    exact ⟨hkey, hfresh, main_row node, rfl, (main_row_node _ _ _).symm⟩

end Loaded

end grpc_server.dpdk_filter
