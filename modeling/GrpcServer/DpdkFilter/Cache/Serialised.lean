import GrpcServer.DpdkFilter.Cache.Persistence
import GrpcServer.DpdkFilter.Cache.Transaction

open c_memory ttl_cache transition

namespace grpc_server.dpdk_filter

/-- Where a thread is in saving a node: in front of a statement, or at the
`return`. -/
inductive RowPoint where
  | main
  | delete
  | prepare
  | insert (slots : List (Fin MAX_CATEGORIES))
  | returned (saved : Bool)

namespace RowResults

local instance : NeZero CATEGORY_MAX_LEN := ⟨by decide⟩

variable (results : RowResults) (text : Str) (node : NodeCache)

/-- The statements of `save_node`, one at a time. -/
def statement : RowPoint → Database → RowPoint × Database
  | .main, db => if results.main_ok then (.delete, insert_main_record text node db) else (.returned false, db)
  | .delete, db => if results.delete_ok then (.prepare, delete_categories text db) else (.returned false, db)
  | .prepare, db =>
    if results.prepare_ok then (.insert (List.finRange MAX_CATEGORIES), db) else (.returned false, db)
  | .insert [], db => (.returned true, db)
  | .insert (i :: rest), db =>
    if node.categories i 0 = 0 then (.returned true, db)
    else if !results.insert_ok i || db.categories_table.contains (text, node.category i) then (.returned false, db)
    else (.insert rest, { db with categories_table := db.categories_table ++ [(text, node.category i)] })
  | .returned saved, db => (.returned saved, db)

/-- What is left of `save_node`. -/
def finish_node : RowPoint → Database → Bool × Database
  | .main, db => results.save_node text node db
  | .delete, db =>
    if ¬ results.delete_ok then (false, db)
    else if ¬ results.prepare_ok then (false, delete_categories text db)
    else results.insert_categories text node (List.finRange MAX_CATEGORIES) (delete_categories text db)
  | .prepare, db =>
    if ¬ results.prepare_ok then (false, db)
    else results.insert_categories text node (List.finRange MAX_CATEGORIES) db
  | .insert slots, db => results.insert_categories text node slots db
  | .returned saved, db => (saved, db)

theorem finish_statement (point : RowPoint) (db : Database) :
    results.finish_node text node (results.statement text node point db).1 (results.statement text node point db).2 =
      results.finish_node text node point db := by
  cases point with
  | main => cases hok : results.main_ok <;> simp [statement, finish_node, save_node, hok]
  | delete => cases hok : results.delete_ok <;> simp [statement, finish_node, hok]
  | prepare => cases hok : results.prepare_ok <;> simp [statement, finish_node, hok]
  | insert slots =>
    cases slots with
    | nil => rfl
    | cons i rest =>
      by_cases hempty : node.categories i 0 = 0
      · simp only [statement, finish_node, insert_categories, if_pos hempty]
      · by_cases hrefused : (!results.insert_ok i || db.categories_table.contains (text, node.category i)) = true
        · simp only [statement, finish_node, insert_categories, if_neg hempty, if_pos hrefused]
        · simp only [statement, finish_node, insert_categories, if_neg hempty, if_neg hrefused]
  | returned saved => rfl

/-- Whether the next step of `save_node` executes a statement. -/
def executes (node : NodeCache) : RowPoint → Bool
  | .main | .delete | .prepare => true
  | .insert [] => false
  | .insert (i :: _) => node.categories i 0 ≠ 0
  | .returned _ => false

end RowResults

/-- Bounds the statements that are left. -/
def RowPoint.left : RowPoint → ℕ
  | .main => MAX_CATEGORIES + 4
  | .delete => MAX_CATEGORIES + 3
  | .prepare => MAX_CATEGORIES + 2
  | .insert slots => slots.length + 1
  | .returned _ => 0

theorem RowResults.left_statement (results : RowResults) (text : Str) (node : NodeCache) {point : RowPoint}
    (db : Database) (hpoint : ∀ saved, point ≠ .returned saved) :
    (results.statement text node point db).1.left < point.left := by
  cases point with
  | main => cases hok : results.main_ok <;> simp [statement, RowPoint.left, hok]
  | delete => cases hok : results.delete_ok <;> simp [statement, RowPoint.left, hok]
  | prepare => cases hok : results.prepare_ok <;> simp [statement, RowPoint.left, hok]
  | insert slots =>
    cases slots with
    | nil => exact Nat.one_pos
    | cons i rest =>
      simp only [statement]
      split
      · exact Nat.succ_pos _
      · split
        · exact Nat.succ_pos _
        · exact Nat.lt_succ_self _
  | returned saved => exact absurd rfl (hpoint saved)

namespace Connection

/-- A statement works on what the open transaction has made of the file, and
without one on the file. -/
def exec {α : Type} (statement : Database → α × Database) (c : Connection) : α × Connection :=
  match c.transaction with
  | some db => ((statement db).1, { c with transaction := some (statement db).2 })
  | none => ((statement c.committed).1, { c with committed := (statement c.committed).2 })

/-- `COMMIT` fails without a transaction. -/
def commit (ok : Bool) (c : Connection) : Bool × Connection :=
  match c.transaction with
  | some db => if ok then (true, { committed := db, transaction := none }) else (false, c)
  | none => (false, c)

/-- The file is left as it was before the transaction. -/
def rollback (c : Connection) : Connection := { c with transaction := none }

end Connection

/-- A slot of the snapshot with what SQLite answers for it. -/
abbrev Row (K : Type) := RowResults × Sigma fun _ : K => NodeCache

/-- Where a thread is in `save_all_cache_to_sqlite` or
`save_all_cache_ip_to_sqlite`, after the copy. -/
inductive SavePoint (K : Type) where
  | entered (call : SaveCall K)
  | rows (call : SaveCall K) (errors : ℕ) (rest : List (Row K))
  | row (call : SaveCall K) (errors : ℕ) (slot : Row K) (point : RowPoint) (rest : List (Row K))
  | returned (log : SaveLog)

section Savers

variable {K : Type} (text : K → Str)

/-- What a thread does between two points at which others can run, none when it
has returned. -/
def SavePoint.step (c : Connection) : SavePoint K → Option (SavePoint K × Connection)
  | .entered call =>
    if ¬ call.ready then some (.returned .not_ready, c)
    else
      match c.begin_transaction call.begin_ok with
      | none => some (.returned .begin_failed, c)
      | some db => some (.rows call 0 call.rows, { c with transaction := some db })
  | .rows call errors (slot :: rest) => some (.row call errors slot .main rest, c)
  | .row call errors _ (.returned saved) rest => some (.rows call (if saved then errors else errors + 1) rest, c)
  | .row call errors slot point rest =>
    let (point, c) := c.exec (slot.1.statement (text slot.2.1) slot.2.2 point)
    some (.row call errors slot point rest, c)
  | .rows call errors [] =>
    let (committed, c) := c.commit call.commit_ok
    some (.returned (if committed then .saved call.rows.length errors else .commit_failed), c)
  | .returned _ => none

/-- For some errors (`SQLITE_FULL`, `SQLITE_IOERR`, `SQLITE_NOMEM`, `SQLITE_BUSY`,
`SQLITE_INTERRUPT`), SQLite rolls back on its own when a statement fails. The thread
does not find out: what it executes next is outside a transaction, or in one that
another thread begins. -/
def SavePoint.rolls_back (c : Connection) : SavePoint K → Option (SavePoint K × Connection)
  | .entered call => if call.ready then some (.returned .begin_failed, c.rollback) else none
  | .row call errors slot point rest =>
    if RowResults.executes slot.2.2 point then some (.row call errors slot (.returned false) rest, c.rollback) else none
  | .rows _ _ [] => some (.returned .commit_failed, c.rollback)
  | .rows _ _ (_ :: _) => none
  | .returned _ => none

/-- A connection and the threads that save over it, by number. -/
structure Savers (K : Type) where
  connection : Connection
  threads : ℕ → Option (SavePoint K)

def Savers.start (K : Type) (c : Connection) : Savers K := ⟨c, fun _ => none⟩

/-- A thread goes to a point and leaves the connection like this. -/
def Savers.set {K : Type} (s : Savers K) (id : ℕ) (point : SavePoint K) (c : Connection) : Savers K :=
  ⟨c, Function.update s.threads id (some point)⟩

/-- The timer starts a thread, or the destructor makes its call; a thread goes on, or
the statement it is at fails and SQLite rolls back. -/
inductive SaversAction (K : Type) where
  | start (id : ℕ) (call : SaveCall K)
  | step (id : ℕ)
  | rollback (id : ℕ)

/-- SQLite does not roll back on its own. -/
def NoRollback (acts : List (SaversAction K)) : Prop := ∀ id, .rollback id ∉ acts

def savers_step (s : Savers K) : SaversAction K → Option (Savers K)
  | .start id call =>
    match s.threads id with
    | none => some (s.set id (.entered call) s.connection)
    | some _ => none
  | .step id =>
    match s.threads id with
    | none => none
    | some point => (point.step text s.connection).map fun (point, c) => s.set id point c
  | .rollback id =>
    match s.threads id with
    | none => none
    | some point => (point.rolls_back s.connection).map fun (point, c) => s.set id point c

/-- The call whose `COMMIT` is next. -/
def SavePoint.at_commit : SavePoint K → Option (SaveCall K)
  | .rows call _ [] => some call
  | _ => none

/-- The call whose `COMMIT` an action executes. -/
def Savers.commits (s : Savers K) : SaversAction K → Option (ℕ × SaveCall K)
  | .start .. => none
  | .step id | .rollback id => ((s.threads id).bind SavePoint.at_commit).map fun call => (id, call)

/-- The calls that execute their `COMMIT` in a run, in that order. -/
def commit_order : Savers K → List (SaversAction K) → List (ℕ × SaveCall K)
  | _, [] => []
  | s, a :: rest =>
    (s.commits a).toList ++
      match savers_step text s a with
      | some next => commit_order next rest
      | none => []

/-- `save_all_cache_to_sqlite` or `save_all_cache_ip_to_sqlite`, uninterrupted. -/
def save_uninterrupted (call : SaveCall K) (c : Connection) : SaveLog × Connection :=
  c.save_all (fun results key => results.save_node (text key)) call

end Savers

/-- The file, and what the threads have returned, are as if the calls had been
made one after another in the order. -/
structure Serialised {K : Type} (save : SaveCall K → Connection → SaveLog × Connection) (c : Connection)
    (acts : List (SaversAction K)) (order : List (ℕ × SaveCall K)) (s : Savers K) : Prop where
  committed : s.connection.committed = (after_calls save (order.map Prod.snd) c).committed
  once : (order.map Prod.fst).Nodup
  started : ∀ entry ∈ order, .start entry.1 entry.2 ∈ acts
  returned : ∀ id log, s.threads id = some (.returned log) →
    (id ∉ order.map Prod.fst ∧ (log = .not_ready ∨ log = .begin_failed)) ∨
      ∃ done call rest, order = done ++ (id, call) :: rest ∧
        log = (save call (after_calls save (done.map Prod.snd) c)).1

section Step

variable {K : Type} {text : K → Str}

/-- The call a thread has not returned from. -/
def SavePoint.call : SavePoint K → Option (SaveCall K)
  | .entered call => some call
  | .rows call _ _ => some call
  | .row call _ _ _ _ => some call
  | .returned _ => none

/-- The call a thread has a transaction for. -/
def SavePoint.writing : SavePoint K → Option (SaveCall K)
  | .rows call _ _ => some call
  | .row call _ _ _ _ => some call
  | _ => none

/-- Bounds the steps that are left. -/
def SavePoint.left : SavePoint K → ℕ
  | .entered call => call.rows.length * (MAX_CATEGORIES + 6) + 2
  | .rows _ _ rest => rest.length * (MAX_CATEGORIES + 6) + 1
  | .row _ _ _ point rest => point.left + rest.length * (MAX_CATEGORIES + 6) + 2
  | .returned _ => 0

/-- One turn of the loop of `save_rows`. -/
def save_row (text : K → Str) (state : ℕ × Database) (slot : Row K) : ℕ × Database :=
  let (saved, db) := slot.1.save_node (text slot.2.1) slot.2.2 state.2
  (if saved then state.1 else state.1 + 1, db)

/-- The errors and the database with which a thread comes to its `COMMIT`. -/
def SavePoint.finish (text : K → Str) (db : Database) : SavePoint K → ℕ × Database
  | .rows _ errors rest => rest.foldl (save_row text) (errors, db)
  | .row _ errors slot point rest =>
    let (saved, db) := slot.1.finish_node (text slot.2.1) slot.2.2 point db
    rest.foldl (save_row text) (if saved then errors else errors + 1, db)
  | _ => (0, db)

/-- All that a step of a thread can be. -/
inductive SavePoint.Moves (text : K → Str) : SavePoint K → Connection → SavePoint K → Connection → Prop where
  | refused {call c log} : log = .not_ready ∨ log = .begin_failed → Moves text (.entered call) c (.returned log) c
  | begun {call c} : call.ready = true → call.begin_ok = true → c.transaction = none →
      Moves text (.entered call) c (.rows call 0 call.rows) { c with transaction := some c.committed }
  | works {point c next after call} : point.writing = some call → next.writing = some call →
      point.at_commit = none → next.left < point.left →
      (∀ db, c.transaction = some db → ∃ db', after = { c with transaction := some db' } ∧
        next.finish text db' = point.finish text db) → Moves text point c next after
  | ended {call c errors} : Moves text (.rows call errors []) c
      (.returned (if (c.commit call.commit_ok).1 then .saved call.rows.length errors else .commit_failed))
      (c.commit call.commit_ok).2

theorem Connection.begin_transaction_eq_some {ok : Bool} {c : Connection} {db : Database} :
    c.begin_transaction ok = some db ↔ ok = true ∧ c.transaction = none ∧ c.committed = db := by
  simp [begin_transaction, and_assoc]

namespace SavePoint

variable {c after : Connection} {point next : SavePoint K}

/-- In front of a statement of a node. -/
theorem step_row {call : SaveCall K} {errors : ℕ} {slot : Row K} {point : RowPoint} {rest : List (Row K)}
    (hpoint : ∀ saved, point ≠ .returned saved) :
    (SavePoint.row call errors slot point rest).step text c =
      some (.row call errors slot (c.exec (slot.1.statement (text slot.2.1) slot.2.2 point)).1 rest,
        (c.exec (slot.1.statement (text slot.2.1) slot.2.2 point)).2) := by
  cases point with
  | returned saved => exact absurd rfl (hpoint saved)
  | _ => rfl

theorem moves (h : point.step text c = some (next, after)) : point.Moves text c next after := by
  cases point with
  | entered call =>
    simp only [step] at h
    split at h
    · cases h
      exact .refused (.inl rfl)
    · rename_i hready
      split at h
      · cases h
        exact .refused (.inr rfl)
      · rename_i db hbegin
        obtain ⟨hok, hclosed, rfl⟩ := Connection.begin_transaction_eq_some.mp hbegin
        cases h
        exact .begun (not_not.mp hready) hok hclosed
  | rows call errors rest =>
    cases rest with
    | nil =>
      cases h
      exact .ended
    | cons slot rest =>
      cases h
      refine .works rfl rfl rfl ?_ ?_
      · simp only [left, RowPoint.left, List.length_cons, Nat.succ_mul]
        omega
      · intro db hopen
        exact ⟨db, by rw [← hopen], rfl⟩
  | row call errors slot point rest =>
    by_cases hreturned : ∃ saved, point = .returned saved
    · obtain ⟨saved, rfl⟩ := hreturned
      cases h
      refine .works rfl rfl rfl ?_ ?_
      · simp only [left, RowPoint.left]
        omega
      · intro db hopen
        exact ⟨db, by rw [← hopen], rfl⟩
    · have hpoint : ∀ saved, point ≠ .returned saved := not_exists.mp hreturned
      cases (step_row hpoint).symm.trans h
      refine .works rfl rfl rfl ?_ ?_
      · have hless : (c.exec (slot.1.statement (text slot.2.1) slot.2.2 point)).1.left < point.left := by
          simp only [Connection.exec]
          split <;> exact slot.1.left_statement _ _ _ hpoint
        simp only [left]
        omega
      · intro db hopen
        refine ⟨(slot.1.statement (text slot.2.1) slot.2.2 point db).2, ?_, ?_⟩
        · simp only [Connection.exec, hopen]
        · simp only [Connection.exec, hopen, finish, RowResults.finish_statement]
  | returned log => cases h

theorem Moves.left_lt (h : point.Moves text c next after) : next.left < point.left := by
  cases h with
  | refused _ => exact Nat.succ_pos _
  | begun _ _ _ => exact Nat.lt_succ_self _
  | works _ _ _ hless _ => exact hless
  | ended => exact Nat.succ_pos _

/-- A thread never waits. -/
theorem step_eq_none (h : point.step text c = none) : ∃ log, point = .returned log := by
  cases point with
  | entered call =>
    simp only [step] at h
    split at h
    · cases h
    · split at h <;> cases h
  | rows call errors rest => cases rest <;> cases h
  | row call errors slot point rest =>
    cases point with
    | returned saved => cases h
    | _ => cases h
  | returned log => exact ⟨log, rfl⟩

theorem call_of_writing {call : SaveCall K} (h : point.writing = some call) : point.call = some call := by
  cases point <;> first | exact h | cases h

end SavePoint

variable {c : Connection} {s next : Savers K}

theorem threads_set_self {id : ℕ} {point : SavePoint K} : (s.set id point c).threads id = some point :=
  Function.update_self ..

theorem threads_set_of_ne {id other : ℕ} {point : SavePoint K} (hne : other ≠ id) :
    (s.set id point c).threads other = s.threads other :=
  Function.update_of_ne hne ..

theorem forall_threads_set {P : ℕ → SavePoint K → Prop} {id : ℕ} {point : SavePoint K} :
    (∀ other q, (s.set id point c).threads other = some q → P other q) ↔
      P id point ∧ ∀ other q, other ≠ id → s.threads other = some q → P other q := by
  constructor
  · intro h
    exact ⟨h id point threads_set_self, fun other q hne hq => h other q ((threads_set_of_ne hne).trans hq)⟩
  · rintro ⟨hself, hothers⟩ other q hq
    obtain rfl | hne := eq_or_ne other id
    · obtain rfl : point = q := Option.some.inj (threads_set_self.symm.trans hq)
      exact hself
    · exact hothers other q hne ((threads_set_of_ne hne).symm.trans hq)

theorem savers_step_cases {a : SaversAction K} (ha : ∀ id, a ≠ .rollback id) (h : savers_step text s a = some next) :
    (∃ id call, a = .start id call ∧ s.threads id = none ∧ next = s.set id (.entered call) s.connection) ∨
    ∃ id point moved after, a = .step id ∧ s.threads id = some point ∧
      point.Moves text s.connection moved after ∧ next = s.set id moved after := by
  cases a with
  | start id call =>
    simp only [savers_step] at h
    split at h
    · rename_i hnone
      cases h
      exact .inl ⟨id, call, rfl, hnone, rfl⟩
    · cases h
  | step id =>
    simp only [savers_step] at h
    split at h
    · cases h
    · rename_i point hthread
      obtain ⟨⟨moved, after⟩, hstep, rfl⟩ := Option.map_eq_some_iff.mp h
      exact .inr ⟨id, point, moved, after, rfl, hthread, SavePoint.moves hstep, rfl⟩
  | rollback id => exact absurd rfl (ha id)

/-- Whatever the other threads wait at, a thread that goes on returns. -/
def Savers.Returns (text : K → Str) (s : Savers K) : Prop :=
  ∀ id point, s.threads id = some point → ∃ n ≤ point.left, ∃ t log,
    run (savers_step text) s (List.replicate n (.step id)) = some t ∧ t.threads id = some (.returned log)

theorem returns (s : Savers K) : s.Returns text := by
  intro id point hthread
  induction hleft : point.left using Nat.strong_induction_on generalizing s point with
  | _ left ih =>
    subst hleft
    cases hstep : point.step text s.connection with
    | none =>
      obtain ⟨log, rfl⟩ := SavePoint.step_eq_none hstep
      exact ⟨0, Nat.zero_le _, s, log, rfl, hthread⟩
    | some result =>
      obtain ⟨moved, after⟩ := result
      have hless : moved.left < point.left := (SavePoint.moves hstep).left_lt
      obtain ⟨n, hn, t, log, hrun, hreturned⟩ := ih moved.left hless (s.set id moved after) moved threads_set_self rfl
      refine ⟨n + 1, Nat.succ_le_of_lt (hn.trans_lt hless), t, log, ?_, hreturned⟩
      rw [List.replicate_succ, run_cons_eq_some]
      exact ⟨_, by simp only [savers_step, hthread, hstep, Option.map_some], hrun⟩

/-- No thread has a transaction and the connection is `base`, or one thread has
one, in which its call makes of the file of `base` what it is going to commit. -/
inductive Serial (text : K → Str) (base : Connection) (s : Savers K) : Prop where
  | idle (hnone : ∀ id point, s.threads id = some point → point.writing = none) (hbase : s.connection = base)
  | busy {id : ℕ} {point : SavePoint K} {call : SaveCall K} {db : Database} (hthread : s.threads id = some point)
      (hwriting : point.writing = some call)
      (honly : ∀ other q, other ≠ id → s.threads other = some q → q.writing = none)
      (hready : call.ready = true) (hbegin : call.begin_ok = true) (hclosed : base.transaction = none)
      (hopen : s.connection = ⟨base.committed, some db⟩)
      (hfinish : point.finish text db = call.rows.foldl (save_row text) (0, base.committed))

namespace Serial

variable {base after : Connection} {id : ℕ} {point moved : SavePoint K} {call : SaveCall K}

theorem committed (h : Serial text base s) : s.connection.committed = base.committed := by
  cases h with
  | idle _ hbase => rw [hbase]
  | busy _ _ _ _ _ _ hopen _ => rw [hopen]

/-- A thread without a transaction moves on without one. -/
theorem aside (h : Serial text base s) (hold : ∀ q, s.threads id = some q → q.writing = none)
    (hmoved : moved.writing = none) : Serial text base (s.set id moved s.connection) := by
  cases h with
  | idle hnone hbase =>
    exact .idle (forall_threads_set.mpr ⟨hmoved, fun other q _ hq => hnone other q hq⟩) hbase
  | @busy writer p call db hthread hwriting honly hready hbegin hclosed hopen hfinish =>
    have hne : writer ≠ id := by
      rintro rfl
      simp [hold p hthread] at hwriting
    have honlySet : ∀ other q, (s.set id moved s.connection).threads other = some q →
        other ≠ writer → q.writing = none :=
      forall_threads_set.mpr ⟨fun _ => hmoved, fun other q _ hq hother => honly other q hother hq⟩
    exact .busy ((threads_set_of_ne hne).trans hthread) hwriting
      (fun other q hother hq => honlySet other q hq hother) hready hbegin hclosed hopen hfinish

/-- A transaction begins only when no thread has one. -/
theorem begins (h : Serial text base s) (hready : call.ready = true) (hbegin : call.begin_ok = true)
    (hclosed : s.connection.transaction = none) :
    Serial text base (s.set id (.rows call 0 call.rows)
      { s.connection with transaction := some s.connection.committed }) := by
  cases h with
  | idle hnone hbase =>
    subst hbase
    refine .busy threads_set_self rfl ?_ hready hbegin hclosed rfl rfl
    intro other q hother hq
    exact hnone other q ((threads_set_of_ne hother).symm.trans hq)
  | busy _ _ _ _ _ _ hopen _ => simp [hopen] at hclosed

/-- The transaction of a thread that writes is its own. -/
theorem owner (h : Serial text base s) (hthread : s.threads id = some point) (hwriting : point.writing = some call) :
    (∀ other q, other ≠ id → s.threads other = some q → q.writing = none) ∧
    call.ready = true ∧ call.begin_ok = true ∧ base.transaction = none ∧
    ∃ db, s.connection = ⟨base.committed, some db⟩ ∧
      point.finish text db = call.rows.foldl (save_row text) (0, base.committed) := by
  cases h with
  | idle hnone _ => simp [hnone id point hthread] at hwriting
  | @busy writer p called db hwriter hp honly hready hbegin hclosed hopen hfinish =>
    have heq : id = writer := by
      by_contra hne
      simp [honly id point hne hthread] at hwriting
    subst heq
    obtain rfl : p = point := Option.some.inj (hwriter.symm.trans hthread)
    obtain rfl : called = call := Option.some.inj (hp.symm.trans hwriting)
    exact ⟨honly, hready, hbegin, hclosed, db, hopen, hfinish⟩

theorem works (h : Serial text base s) (hthread : s.threads id = some point) (hwriting : point.writing = some call)
    (hmoved : moved.writing = some call)
    (hwork : ∀ db, s.connection.transaction = some db → ∃ db', after = { s.connection with transaction := some db' } ∧
      moved.finish text db' = point.finish text db) : Serial text base (s.set id moved after) := by
  obtain ⟨honly, hready, hbegin, hclosed, db, hopen, hfinish⟩ := h.owner hthread hwriting
  obtain ⟨db', rfl, hsame⟩ := hwork db (by rw [hopen])
  refine .busy threads_set_self hmoved ?_ hready hbegin hclosed ?_ (hsame.trans hfinish)
  · intro other q hother hq
    exact honly other q hother ((threads_set_of_ne hother).symm.trans hq)
  · rw [hopen]
    rfl

/-- At its `COMMIT` a thread returns what the call would have, made in one step
from `base`, and leaves the same connection. -/
theorem commits (h : Serial text base s) {errors : ℕ} (hthread : s.threads id = some (.rows call errors [])) :
    (if (s.connection.commit call.commit_ok).1 then .saved call.rows.length errors else .commit_failed,
      (s.connection.commit call.commit_ok).2) = save_uninterrupted text call base := by
  obtain ⟨-, hready, hbegin, hclosed, db, hopen, hfinish⟩ := h.owner hthread rfl
  have hrows : save_rows (fun results key => results.save_node (text key)) call.rows base.committed = (errors, db) :=
    hfinish.symm
  rw [save_uninterrupted, Connection.save_all_of_begin hready hbegin hclosed, hrows, hopen]
  cases hcommit : call.commit_ok <;> simp [Connection.commit]

theorem ends (h : Serial text base s) {errors : ℕ} (hthread : s.threads id = some (.rows call errors []))
    (log : SaveLog) :
    Serial text (save_uninterrupted text call base).2
      (s.set id (.returned log) (s.connection.commit call.commit_ok).2) :=
  .idle (forall_threads_set.mpr ⟨rfl, (h.owner hthread rfl).1⟩) (congrArg Prod.snd (h.commits hthread))

end Serial

theorem after_calls_concat {save : SaveCall K → Connection → SaveLog × Connection} (calls : List (SaveCall K))
    (call : SaveCall K) : after_calls save (calls ++ [call]) c = (save call (after_calls save calls c)).2 :=
  List.foldl_concat ..

theorem commit_order_concat {first last : Savers K} {acts : List (SaversAction K)} (a : SaversAction K)
    (hrun : run (savers_step text) first acts = some last) (hstep : savers_step text last a = some next) :
    commit_order text first (acts ++ [a]) = commit_order text first acts ++ (last.commits a).toList := by
  induction acts generalizing first with
  | nil =>
    cases hrun
    simp [commit_order, hstep]
  | cons b rest ih =>
    obtain ⟨second, hsecond, hrest⟩ := run_cons_eq_some.mp hrun
    simp [commit_order, hsecond, ih hrest]

/-- What is known of the threads beside `Serialised`. -/
structure SerialRun (text : K → Str) (c : Connection) (acts : List (SaversAction K)) (order : List (ℕ × SaveCall K))
    (s : Savers K) : Prop extends Serialised (save_uninterrupted text) c acts order s where
  serial : Serial text (after_calls (save_uninterrupted text) (order.map Prod.snd) c) s
  ended : ∀ entry ∈ order, ∃ log, s.threads entry.1 = some (.returned log)
  calls : ∀ id point, s.threads id = some point → ∀ call, point.call = some call → .start id call ∈ acts

namespace SerialRun

variable {acts : List (SaversAction K)} {order : List (ℕ × SaveCall K)} {a : SaversAction K} {id : ℕ}

theorem start (text : K → Str) (c : Connection) : SerialRun text c [] [] (Savers.start K c) where
  committed := rfl
  once := List.nodup_nil
  started _ hentry := absurd hentry List.not_mem_nil
  returned _ _ hthread := by cases hthread
  serial := .idle (fun _ _ hthread => by cases hthread) rfl
  ended _ hentry := absurd hentry List.not_mem_nil
  calls _ _ hthread := by cases hthread

theorem notMem_order (h : SerialRun text c acts order s) (hlive : ∀ log, s.threads id ≠ some (.returned log)) :
    id ∉ order.map Prod.fst := by
  intro hmem
  obtain ⟨entry, hentry, rfl⟩ := List.mem_map.mp hmem
  obtain ⟨log, hlog⟩ := h.ended entry hentry
  exact hlive log hlog

theorem ended_set (h : SerialRun text c acts order s) (hlive : ∀ log, s.threads id ≠ some (.returned log))
    (moved : SavePoint K) (after : Connection) {entry : ℕ × SaveCall K} (hentry : entry ∈ order) :
    ∃ log, (s.set id moved after).threads entry.1 = some (.returned log) := by
  have hne : entry.1 ≠ id := by
    rintro rfl
    exact h.notMem_order hlive (List.mem_map_of_mem hentry)
  obtain ⟨log, hlog⟩ := h.ended entry hentry
  exact ⟨log, (threads_set_of_ne hne).trans hlog⟩

/-- A thread moves on, and not by a `COMMIT`. -/
theorem set (h : SerialRun text c acts order s) {moved : SavePoint K} {after : Connection}
    (hlive : ∀ log, s.threads id ≠ some (.returned log))
    (hserial : Serial text (after_calls (save_uninterrupted text) (order.map Prod.snd) c) (s.set id moved after))
    (hcall : ∀ call, moved.call = some call → .start id call ∈ acts ++ [a])
    (hrefused : ∀ log, moved = .returned log → log = .not_ready ∨ log = .begin_failed) :
    SerialRun text c (acts ++ [a]) order (s.set id moved after) where
  committed := hserial.committed
  once := h.once
  started entry hentry := List.mem_append_left [a] (h.started entry hentry)
  returned := by
    intro other log hlog
    obtain rfl | hne := eq_or_ne other id
    · have hmoved : moved = .returned log := Option.some.inj (threads_set_self.symm.trans hlog)
      exact .inl ⟨h.notMem_order hlive, hrefused log hmoved⟩
    · exact h.returned other log ((threads_set_of_ne hne).symm.trans hlog)
  serial := hserial
  ended entry hentry := h.ended_set hlive moved after hentry
  calls := forall_threads_set.mpr ⟨hcall, fun other q _ hq call hcall =>
    List.mem_append_left [a] (h.calls other q hq call hcall)⟩

/-- A thread executes its `COMMIT`. -/
theorem commit (h : SerialRun text c acts order s) {call : SaveCall K} {errors : ℕ}
    (hthread : s.threads id = some (.rows call errors [])) :
    SerialRun text c (acts ++ [a]) (order ++ [(id, call)]) (s.set id
      (.returned (if (s.connection.commit call.commit_ok).1 then .saved call.rows.length errors else .commit_failed))
      (s.connection.commit call.commit_ok).2) := by
  have hlive : ∀ log, s.threads id ≠ some (.returned log) := by
    intro log hlog
    cases hthread.symm.trans hlog
  have hbase : after_calls (save_uninterrupted text) ((order ++ [(id, call)]).map Prod.snd) c =
      (save_uninterrupted text call (after_calls (save_uninterrupted text) (order.map Prod.snd) c)).2 := by
    rw [List.map_append]
    exact after_calls_concat _ _
  have hserial := h.serial.ends hthread
    (if (s.connection.commit call.commit_ok).1 then .saved call.rows.length errors else .commit_failed)
  rw [← hbase] at hserial
  refine
    { committed := hserial.committed, serial := hserial, once := ?_, started := ?_
      returned := ?_, ended := ?_, calls := ?_ }
  · rw [List.map_append, List.nodup_append_comm]
    exact List.nodup_cons.mpr ⟨h.notMem_order hlive, h.once⟩
  · intro entry hentry
    apply List.mem_append_left
    obtain hentry | hentry := List.mem_append.mp hentry
    · exact h.started entry hentry
    · obtain rfl := List.mem_singleton.mp hentry
      exact h.calls id _ hthread call rfl
  · intro other log hlog
    obtain rfl | hne := eq_or_ne other id
    · cases threads_set_self.symm.trans hlog
      exact .inr ⟨order, call, [], rfl, congrArg Prod.fst (h.serial.commits hthread)⟩
    · obtain ⟨hnot, hrefused⟩ | ⟨done, earlier, rest, rfl, heq⟩ :=
        h.returned other log ((threads_set_of_ne hne).symm.trans hlog)
      · refine .inl ⟨?_, hrefused⟩
        simpa [hne] using hnot
      · exact .inr ⟨done, earlier, rest ++ [(id, call)], List.append_assoc .., heq⟩
  · intro entry hentry
    obtain hentry | hentry := List.mem_append.mp hentry
    · exact h.ended_set hlive _ _ hentry
    · obtain rfl := List.mem_singleton.mp hentry
      exact ⟨_, threads_set_self⟩
  · refine forall_threads_set.mpr ⟨?_, ?_⟩
    · intro other hother
      cases hother
    · intro other q _ hq earlier hearlier
      exact List.mem_append_left [a] (h.calls other q hq earlier hearlier)

theorem step (h : SerialRun text c acts order s) (ha : ∀ id, a ≠ .rollback id)
    (hstep : savers_step text s a = some next) :
    SerialRun text c (acts ++ [a]) (order ++ (s.commits a).toList) next := by
  obtain ⟨id, call, rfl, hnone, rfl⟩ | ⟨id, point, moved, after, rfl, hthread, hmoves, rfl⟩ :=
    savers_step_cases ha hstep
  · simp only [Savers.commits, Option.toList_none, List.append_nil]
    refine h.set ?_ (h.serial.aside ?_ rfl) ?_ ?_
    · simp [hnone]
    · simp [hnone]
    · rintro called ⟨⟩
      exact List.mem_append_right acts List.mem_cons_self
    · intro log hlog
      cases hlog
  · have hcommits : s.commits (.step id) = point.at_commit.map fun call => (id, call) := by
      rw [Savers.commits, hthread, Option.bind_some]
    have hstarted : ∀ call, point.call = some call → .start id call ∈ acts ++ [.step id] := fun call hcall =>
      List.mem_append_left _ (h.calls id point hthread call hcall)
    have hwaits : point.writing = none → ∀ q, s.threads id = some q → q.writing = none := by
      intro hnone q hq
      obtain rfl : point = q := Option.some.inj (hthread.symm.trans hq)
      exact hnone
    have hlive : ∀ log, s.threads id ≠ some (.returned log) := by
      intro log hlog
      cases hthread.symm.trans hlog
      cases hmoves with
      | works hwriting _ _ _ _ => cases hwriting
    cases hmoves with
    | refused hlog =>
      simp only [hcommits, SavePoint.at_commit, Option.map_none, Option.toList_none, List.append_nil]
      refine h.set hlive (h.serial.aside (hwaits rfl) rfl) ?_ ?_
      · intro other hother
        cases hother
      · rintro other ⟨⟩
        exact hlog
    | begun hready hbegin hclosed =>
      simp only [hcommits, SavePoint.at_commit, Option.map_none, Option.toList_none, List.append_nil]
      refine h.set hlive (h.serial.begins hready hbegin hclosed) hstarted ?_
      intro log hlog
      cases hlog
    | works hwriting hmoved hcommit _ hwork =>
      simp only [hcommits, hcommit, Option.map_none, Option.toList_none, List.append_nil]
      refine h.set hlive (h.serial.works hthread hwriting hmoved hwork) ?_ ?_
      · intro call hcall
        rw [SavePoint.call_of_writing hmoved, ← SavePoint.call_of_writing hwriting] at hcall
        exact hstarted call hcall
      · rintro log rfl
        cases hmoved
    | ended =>
      simp only [hcommits, SavePoint.at_commit, Option.map_some, Option.toList_some]
      exact h.commit hthread

theorem of_run (hno : NoRollback acts) (hrun : run (savers_step text) (Savers.start K c) acts = some s) :
    SerialRun text c acts (commit_order text (Savers.start K c) acts) s := by
  refine run_history (fun past s => NoRollback past →
    SerialRun text c past (commit_order text (Savers.start K c) past) s) (fun _ => start text c) ?_ hrun hno
  intro past last a next hlast ih hnext hno
  have hpast : NoRollback past := fun id hmem => hno id (List.mem_append_left [a] hmem)
  have ha : ∀ id, a ≠ .rollback id := by
    rintro id rfl
    exact hno id (List.mem_append_right past List.mem_cons_self)
  rw [commit_order_concat a hlast hnext]
  exact (ih hpast).step ha hnext

end SerialRun

end Step

/-- The text of a row, from the key in the snapshot. -/
def domain_row_text (key : DomainKey) : Str := (snapshot_key key).str

/-- However the statements of several calls interleave on a connection, none of them
waits for another. While SQLite does not roll back on its own, readers see at every
moment what the calls make of the file one after another, in the order of their
`COMMIT`s. A call returns what it would return there, or it is refused and leaves no
trace. -/
theorem saves_serialised (inet : Inet) (c : Connection) :
    (∀ acts s, run (savers_step domain_row_text) (Savers.start DomainKey c) acts = some s →
      s.Returns domain_row_text ∧ (NoRollback acts → Serialised (fun call c => c.save_all_cache_to_sqlite call) c acts
        (commit_order domain_row_text (Savers.start DomainKey c) acts) s)) ∧
    ∀ acts s, run (savers_step (ip_text inet)) (Savers.start IpKey c) acts = some s →
      s.Returns (ip_text inet) ∧ (NoRollback acts → Serialised (fun call c => c.save_all_cache_ip_to_sqlite inet call) c
        acts (commit_order (ip_text inet) (Savers.start IpKey c) acts) s) := by
  constructor
  · intro acts s hrun
    exact ⟨returns s, fun hno => (SerialRun.of_run hno hrun).toSerialised⟩
  · intro acts s hrun
    exact ⟨returns s, fun hno => (SerialRun.of_run hno hrun).toSerialised⟩

/-- The destructor saves while the hourly thread has its transaction. -/
def save_at_shutdown : List (SaversAction DomainKey) :=
  [.start 0 (.of_entries letter_entries), .step 0, .start 1 (.of_entries letter_entries), .step 1] ++
    List.replicate 7 (.step 0)

/-- The hourly thread saves its copy, and the destructor nothing. -/
theorem saves_serialised_shutdown :
    ∃ s, run (savers_step domain_row_text) (Savers.start DomainKey ⟨Database.empty, none⟩) save_at_shutdown = some s ∧
      s.threads 0 = some (.returned (.saved 1 0)) ∧ s.threads 1 = some (.returned .begin_failed) ∧
      Serialised (fun call c => c.save_all_cache_to_sqlite call) ⟨Database.empty, none⟩ save_at_shutdown
        [(0, .of_entries letter_entries)] s := by
  have hno : NoRollback save_at_shutdown := by simp [NoRollback, save_at_shutdown]
  exact ⟨_, rfl, rfl, rfl, ((saves_serialised Inet.mute ⟨Database.empty, none⟩).1 save_at_shutdown _ rfl).2 hno⟩

/-- SQLite rolls back at the first statement of a call for two domains, which goes on
with the second. -/
def save_rolled_back : List (SaversAction DomainKey) :=
  [.start 0 (.of_entries (letter_entries ++ [⟨dns_key_copy (Slot.ofStr [98]), letter_node⟩])), .step 0, .step 0,
    .rollback 0, .step 0, .step 0, .step 0]

/-- The second domain is in the file before any `COMMIT`. -/
theorem rollback_not_serialised :
    ∃ s, run (savers_step domain_row_text) (Savers.start DomainKey ⟨Database.empty, none⟩) save_rolled_back = some s ∧
      ¬ Serialised (fun call c => c.save_all_cache_to_sqlite call) ⟨Database.empty, none⟩ save_rolled_back
        (commit_order domain_row_text (Savers.start DomainKey ⟨Database.empty, none⟩) save_rolled_back) s := by
  refine ⟨_, rfl, ?_⟩
  intro h
  have hempty := congrArg (fun db => db.main_table.lookup [98]) h.committed
  cases hempty

end grpc_server.dpdk_filter
