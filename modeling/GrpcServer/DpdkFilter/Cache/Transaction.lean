import GrpcServer.DpdkFilter.Cache.Sqlite
import GrpcServer.Transition

open c_memory ttl_cache transition

namespace grpc_server.dpdk_filter

/-- What SQLite answers to the statements that save one node. A statement that fails
changes nothing, unless SQLite rolls back on its own, which is left out here. -/
structure RowResults where
  main_ok : Bool
  delete_ok : Bool
  prepare_ok : Bool
  insert_ok : Fin MAX_CATEGORIES → Bool

def RowResults.ok : RowResults := ⟨true, true, true, fun _ => true⟩

namespace RowResults

local instance : NeZero CATEGORY_MAX_LEN := ⟨by decide⟩

/-- The loop over the categories, with whether it gets to `SQLITE_OK`. -/
def insert_categories (results : RowResults) (text : Str) (node : NodeCache) :
    List (Fin MAX_CATEGORIES) → Database → Bool × Database
  | [], db => (true, db)
  | i :: rest, db =>
    if node.categories i 0 = 0 then (true, db)
    else if !results.insert_ok i || db.categories_table.contains (text, node.category i) then (false, db)
    else results.insert_categories text node rest
      { db with categories_table := db.categories_table ++ [(text, node.category i)] }

/-- The three steps of saving a node; each one that fails ends it. -/
def save_node (results : RowResults) (text : Str) (node : NodeCache) (db : Database) : Bool × Database :=
  if ¬ results.main_ok then (false, db)
  else
    let db := insert_main_record text node db
    if ¬ results.delete_ok then (false, db)
    else
      let db := delete_categories text db
      if ¬ results.prepare_ok then (false, db)
      else results.insert_categories text node (List.finRange MAX_CATEGORIES) db

def save_single_node_to_sqlite (results : RowResults) (domain : DomainKey) (node : NodeCache) (db : Database) :
    Bool × Database :=
  results.save_node domain.str node db

def save_single_node_ip_to_sqlite (inet : Inet) (results : RowResults) (key : IpKey) (node : NodeCache)
    (db : Database) : Bool × Database :=
  results.save_node (ip_text inet key) node db

end RowResults

/-- `cache_table` or `ip_cache_table`: what readers of the file see, and what the
open transaction has made of it. -/
structure Connection where
  committed : Database
  transaction : Option Database

/-- A call of `save_all_cache_to_sqlite` or `save_all_cache_ip_to_sqlite`: the
snapshot with what SQLite answers for each of its slots. The call is `ready` when
the hash table and the connection exist. -/
structure SaveCall (K : Type) where
  ready : Bool
  begin_ok : Bool
  rows : List (RowResults × Sigma fun _ : K => NodeCache)
  commit_ok : Bool

/-- What a call logs. -/
inductive SaveLog where
  | not_ready
  | begin_failed
  | commit_failed
  | saved (count errors : ℕ)
  deriving DecidableEq

section Save

variable {K : Type}

/-- The loop over the snapshot, which counts the nodes that were not saved. -/
def save_rows (save_single_node : RowResults → K → NodeCache → Database → Bool × Database)
    (rows : List (RowResults × Sigma fun _ : K => NodeCache)) (db : Database) : ℕ × Database :=
  rows.foldl (fun (errors, db) (results, entry) =>
    let (saved, db) := save_single_node results entry.1 entry.2 db
    (if saved then errors else errors + 1, db)) (0, db)

namespace Connection

/-- What a transaction starts from; `BEGIN TRANSACTION` fails while one is open. -/
def begin_transaction (ok : Bool) (c : Connection) : Option Database :=
  if ok ∧ c.transaction.isNone then some c.committed else none

/-- What saving either cache does to its connection. -/
def save_all (save_single_node : RowResults → K → NodeCache → Database → Bool × Database) (call : SaveCall K)
    (c : Connection) : SaveLog × Connection :=
  if ¬ call.ready then (.not_ready, c)
  else
    match c.begin_transaction call.begin_ok with
    | none => (.begin_failed, c)
    | some db =>
      let (errors, db) := save_rows save_single_node call.rows db
      if call.commit_ok then (.saved call.rows.length errors, { committed := db, transaction := none })
      -- no ROLLBACK: the transaction stays open
      else (.commit_failed, { c with transaction := some db })

def save_all_cache_to_sqlite (call : SaveCall DomainKey) (c : Connection) : SaveLog × Connection :=
  c.save_all (fun results key => results.save_single_node_to_sqlite (snapshot_key key)) call

def save_all_cache_ip_to_sqlite (inet : Inet) (call : SaveCall IpKey) (c : Connection) : SaveLog × Connection :=
  c.save_all (fun results => results.save_single_node_ip_to_sqlite inet) call

end Connection

/-- The connection after the calls, one after another. -/
def after_calls (save : SaveCall K → Connection → SaveLog × Connection) (calls : List (SaveCall K)) (c : Connection) :
    Connection :=
  calls.foldl (fun c call => (save call c).2) c

/-- No call returns with a transaction open. -/
def ClosesTransactions (save : SaveCall K → Connection → SaveLog × Connection) (calls : List (SaveCall K))
    (c : Connection) : Prop :=
  ∀ done rest, calls = done ++ rest → (after_calls save done c).transaction = none

/-- The call commits what it begins. -/
def SaveCall.Commits (call : SaveCall K) : Prop := call.ready ∧ call.begin_ok → call.commit_ok

/-- After any number of calls the connection is as it was, and the next one is
refused whatever SQLite answers to it. -/
def Stuck (save : SaveCall K → Connection → SaveLog × Connection) (c : Connection) : Prop :=
  ∀ calls, after_calls save calls c = c ∧
    ∀ call, (save call (after_calls save calls c)).1 = .not_ready ∨
      (save call (after_calls save calls c)).1 = .begin_failed

variable {save_single_node : RowResults → K → NodeCache → Database → Bool × Database} {call : SaveCall K}
  {c : Connection}

namespace Connection

/-- A call that gets its transaction. -/
theorem save_all_of_begin (hready : call.ready = true) (hbegin : call.begin_ok = true) (hclosed : c.transaction = none) :
    c.save_all save_single_node call =
      let (errors, db) := save_rows save_single_node call.rows c.committed
      if call.commit_ok then (.saved call.rows.length errors, ⟨db, none⟩)
      else (.commit_failed, ⟨c.committed, some db⟩) := by
  simp [save_all, begin_transaction, hready, hbegin, hclosed]

/-- A call that does not get its transaction. -/
theorem save_all_refused (h : ¬ (call.ready = true ∧ call.begin_ok = true ∧ c.transaction = none)) :
    (c.save_all save_single_node call).2 = c ∧
      ((c.save_all save_single_node call).1 = .not_ready ∨ (c.save_all save_single_node call).1 = .begin_failed) := by
  by_cases hready : call.ready = true
  · have hbegin : c.begin_transaction call.begin_ok = none := by
      rw [begin_transaction, if_neg]
      rintro ⟨hok, hnone⟩
      exact h ⟨hready, hok, Option.isNone_iff_eq_none.mp hnone⟩
    simp [save_all, hready, hbegin]
  · simp [save_all, hready]

theorem stuck_of_open (committed working : Database) :
    Stuck (fun call c => c.save_all save_single_node call) ⟨committed, some working⟩ := by
  have hopen : ∀ call : SaveCall K, ¬ (call.ready = true ∧ call.begin_ok = true ∧
      (⟨committed, some working⟩ : Connection).transaction = none) := by
    rintro call ⟨-, -, hnone⟩
    cases hnone
  intro calls
  have hkept : after_calls (fun call c => c.save_all save_single_node call) calls ⟨committed, some working⟩ =
      ⟨committed, some working⟩ := by
    induction calls with
    | nil => rfl
    | cons call rest ih => rwa [after_calls, List.foldl_cons, (save_all_refused (hopen call)).1]
  refine ⟨hkept, fun call => ?_⟩
  rw [hkept]
  exact (save_all_refused (hopen call)).2

/-- From a connection without a transaction. -/
theorem closed_after_iff (hclosed : c.transaction = none) :
    (c.save_all save_single_node call).2.transaction = none ↔ call.Commits := by
  by_cases hbegins : call.ready = true ∧ call.begin_ok = true
  · obtain ⟨hready, hbegin⟩ := hbegins
    rw [save_all_of_begin hready hbegin hclosed]
    cases hcommit : call.commit_ok <;> simp [SaveCall.Commits, hready, hbegin, hcommit]
  · have hkept : (c.save_all save_single_node call).2 = c :=
      (save_all_refused fun h => hbegins ⟨h.1, h.2.1⟩).1
    rw [hkept]
    exact iff_of_true hclosed fun h => absurd h hbegins

theorem closesTransactions_iff (hclosed : c.transaction = none) (calls : List (SaveCall K)) :
    ClosesTransactions (fun call c => c.save_all save_single_node call) calls c ↔ ∀ call ∈ calls, call.Commits := by
  have hpossible : Meets (fun c call => some (save_all save_single_node call c).2) (fun _ _ => True) c calls :=
    meets_total_forall.mpr fun _ _ => trivial
  have hcloses : _ ↔ Meets _ (fun _ call => call.Commits) c calls :=
    forall_good_iff_meets (fun _ => True) (fun c => c.transaction = none) nofun
      (fun c call next _ hc _ hstep => ⟨trivial, Option.some.inj hstep ▸ closed_after_iff hc⟩) trivial hclosed hpossible
  rw [← meets_total_forall, ← hcloses]
  simp only [run_total, Option.some.injEq]
  constructor
  · rintro h done rest t heq rfl
    exact h done rest heq
  · intro h done rest heq
    exact h done rest _ heq rfl

end Connection

theorem RowResults.insert_categories_ok (text : Str) (node : NodeCache) (slots : List (Fin MAX_CATEGORIES))
    (db : Database) :
    (RowResults.ok.insert_categories text node slots db).2 = dpdk_filter.insert_categories text node slots db := by
  induction slots generalizing db with
  | nil => rfl
  | cons i rest ih =>
    rw [RowResults.insert_categories, dpdk_filter.insert_categories]
    by_cases hempty : node.categories i 0 = 0
    · rw [if_pos hempty, if_pos (.inl hempty)]
    · by_cases hdouble : (text, node.category i) ∈ db.categories_table
      · rw [if_neg hempty, if_pos (by simp [hdouble]), if_pos (.inr hdouble)]
      · rw [if_neg hempty, if_neg (by simp [RowResults.ok, hdouble]), if_neg (by simp [hempty, hdouble]), ih]

theorem RowResults.save_node_ok (text : Str) (node : NodeCache) (db : Database) :
    (RowResults.ok.save_node text node db).2 = dpdk_filter.save_node text node db :=
  RowResults.insert_categories_ok ..

theorem save_rows_ok (save_single_node : RowResults → K → NodeCache → Database → Bool × Database)
    (entries : List (Sigma fun _ : K => NodeCache)) (db : Database) :
    (save_rows save_single_node (entries.map fun entry => (RowResults.ok, entry)) db).2 =
      entries.foldl (fun db entry => (save_single_node RowResults.ok entry.1 entry.2 db).2) db := by
  rw [save_rows, List.foldl_map]
  generalize (0 : ℕ) = errors
  induction entries generalizing errors db with
  | nil => rfl
  | cons entry rest ih => exact ih _ _

/-- A call to which SQLite has nothing against. -/
def SaveCall.of_entries (entries : List (Sigma fun _ : K => NodeCache)) : SaveCall K :=
  ⟨true, true, entries.map fun entry => (RowResults.ok, entry), true⟩

end Save

/-- A call that succeeds throughout commits what the plain functions compute. -/
theorem save_of_entries (inet : Inet) (db : Database) :
    (∀ entries, (Connection.save_all_cache_to_sqlite (.of_entries entries) ⟨db, none⟩).2 =
      ⟨save_all_cache_to_sqlite entries db, none⟩) ∧
    ∀ entries, (Connection.save_all_cache_ip_to_sqlite inet (.of_entries entries) ⟨db, none⟩).2 =
      ⟨save_all_cache_ip_to_sqlite inet entries db, none⟩ := by
  constructor
  · intro entries
    rw [Connection.save_all_cache_to_sqlite, Connection.save_all_of_begin rfl rfl rfl]
    simp only [SaveCall.of_entries, save_rows_ok, if_true]
    simp only [RowResults.save_single_node_to_sqlite, RowResults.save_node_ok]
    rfl
  · intro entries
    rw [Connection.save_all_cache_ip_to_sqlite, Connection.save_all_of_begin rfl rfl rfl]
    simp only [SaveCall.of_entries, save_rows_ok, if_true]
    simp only [RowResults.save_single_node_ip_to_sqlite, RowResults.save_node_ok]
    rfl

/-- On either connection no call of a sequence returns with a transaction open, if and
only if each call commits what it begins. A connection with an open transaction
refuses every later call, and the file stays as it is. -/
theorem transactions_closed_iff (inet : Inet) (committed : Database) :
    (∀ calls, ClosesTransactions (fun call c => c.save_all_cache_to_sqlite call) calls ⟨committed, none⟩ ↔
      ∀ call ∈ calls, call.Commits) ∧
    (∀ calls, ClosesTransactions (fun call c => c.save_all_cache_ip_to_sqlite inet call) calls ⟨committed, none⟩ ↔
      ∀ call ∈ calls, call.Commits) ∧
    ∀ working, Stuck (fun call c => c.save_all_cache_to_sqlite call) ⟨committed, some working⟩ ∧
      Stuck (fun call c => c.save_all_cache_ip_to_sqlite inet call) ⟨committed, some working⟩ := by
  refine ⟨?_, ?_, ?_⟩
  · exact Connection.closesTransactions_iff rfl
  · exact Connection.closesTransactions_iff rfl
  · intro working
    exact ⟨Connection.stuck_of_open committed working, Connection.stuck_of_open committed working⟩

/-- A call with an empty snapshot whose statements succeed, up to the last. -/
def busy_call : SaveCall DomainKey := ⟨true, true, [], false⟩

/-- The database is busy at one COMMIT, and the save after it, to whose statements
SQLite has nothing against, fails too. -/
theorem failed_commit_blocks_saves :
    let c := (Connection.save_all_cache_to_sqlite busy_call ⟨Database.empty, none⟩).2
    c.transaction = some Database.empty ∧
      (Connection.save_all_cache_to_sqlite { busy_call with commit_ok := true } c).1 = .begin_failed :=
  ⟨rfl, rfl⟩

end grpc_server.dpdk_filter
