import GrpcServer.Manager.Manager
import GrpcServer.Transition
import GrpcServer.Worker.MainLoop
import GrpcServer.Worker.Policy

open c_memory transition grpc_server.dpdk_filter grpc_server.communication grpc_server.manager grpc_server.worker

namespace grpc_server.protocol

/-- A call of `GetPolicy`. `polled` tells the polls of running workers from other
clients' requests; `life` and `begun` are the controller's lifetime and version
when the call began. -/
structure Call (S : Type) where
  worker_id : UInt64
  requested : UInt64
  polled : Bool
  life : ℕ
  begun : UInt64
  stage : Stage S

/-- A running worker. `current_policy` is `none` once a store has left its arrays;
`adopted` is the last provided policy and `local_version` the version
`local_policy` was copied at. -/
structure Worker (S : Type) where
  current_config_version : UInt64
  current_policy : Option BasePolicy
  enable : Bool
  adopted : WorkerPolicy S
  waiting : Option ℕ
  local_policy : Option BasePolicy
  local_version : UInt64

/-- The controller, the calls made so far and the workers. `installed` are the
configurations of the controller's present lifetime. -/
structure State (V S : Type) where
  manager : Manager V
  installed : List (TOMLConfig V)
  life : ℕ
  calls : ℕ → Option (Call S)
  workers : UInt64 → Worker S

inductive Action where
  | load_config (config_data : Str)
  | toggle_filtering (worker_id : UInt64) (enabled : Bool)
  | restart
  | request (n : ℕ) (worker_id config_version : UInt64)
  | poll (n : ℕ) (worker_id : UInt64)
  | register (n : ℕ)
  | read_version (n : ℕ)
  | build_policy (n : ℕ)
  | finish (n : ℕ)
  | deliver (worker_id : UInt64) (trust : List (Sigma fun _ : Str => Int32))
  | give_up (worker_id : UInt64)
  | copy_policy (worker_id : UInt64)

variable {V S : Type}

/-- A call the controller is still working on. -/
def Call.Open (c : Call S) : Prop := ∀ resp, c.stage ≠ .answered resp

/-- A restart ends the calls under way with an error; answers already sent may
still arrive. -/
def Call.interrupt (c : Call S) : Call S :=
  match c.stage with
  | .answered _ => c
  | _ => { c with stage := .answered none }

def State.version (s : State V S) : UInt64 := s.manager.policy_manager.version

def State.set_call (s : State V S) (n : ℕ) (c : Call S) : State V S :=
  { s with calls := Function.update s.calls n (some c) }

def State.set_worker (s : State V S) (worker_id : UInt64) (w : Worker S) : State V S :=
  { s with workers := Function.update s.workers worker_id w }

def State.new_call (s : State V S) (worker_id requested : UInt64) (polled : Bool) : Call S :=
  { worker_id, requested, polled, life := s.life, begun := s.version, stage := .entered }

def State.begin_call (s : State V S) (n : ℕ) (worker_id requested : UInt64) (polled : Bool) : State V S :=
  s.set_call n (s.new_call worker_id requested polled)

def Worker.wait_for (w : Worker S) (n : ℕ) : Worker S := { w with waiting := some n }

def Worker.give_up (w : Worker S) : Worker S := { w with waiting := none }

/-- The top of an iteration of `MainLoop`. -/
def Worker.copy_policy (w : Worker S) : Worker S :=
  { w with
    local_policy := w.current_policy.map grpc_server.worker.copy_policy
    local_version := w.current_config_version }

/-- What `requestPolicyFromController` does with an answer. -/
def Worker.receive (inet : Inet) (trust : List (Sigma fun _ : Str => Int32)) (w : Worker S) :
    Option (GetPolicyResponse S) → Worker S
  | none => w.give_up
  | some ⟨.unchanged, filtering_enabled⟩ => { w.give_up with enable := filtering_enabled }
  | some ⟨.provided pol, filtering_enabled⟩ =>
    { w with
      enable := filtering_enabled
      current_policy := store_policy inet trust pol
      current_config_version := pol.config_version
      adopted := pol
      waiting := none }

/-- Only a provided policy changes more than `enable` and `waiting`. -/
theorem Worker.receive_cases (inet : Inet) (trust : List (Sigma fun _ : Str => Int32)) (w : Worker S)
    (resp : Option (GetPolicyResponse S)) :
    (∃ pol filtering_enabled, resp = some ⟨.provided pol, filtering_enabled⟩) ∨
    ((w.receive inet trust resp).current_config_version = w.current_config_version ∧
      (w.receive inet trust resp).current_policy = w.current_policy ∧
      (w.receive inet trust resp).adopted = w.adopted ∧ (w.receive inet trust resp).waiting = none) :=
  match resp with
  | none => .inr ⟨rfl, rfl, rfl, rfl⟩
  | some ⟨.unchanged, _⟩ => .inr ⟨rfl, rfl, rfl, rfl⟩
  | some ⟨.provided pol, filtering_enabled⟩ => .inl ⟨pol, filtering_enabled, rfl⟩

/-- A fresh controller and workers whose `current_policy` holds whatever the
memory held. -/
def State.start (memory : UInt64 → BasePolicy) : State V S :=
  { manager := new_manager
    installed := []
    life := 0
    calls := fun _ => none
    workers := fun worker_id =>
      { current_config_version := 0
        current_policy := some (memory worker_id)
        enable := true
        adopted := WorkerPolicy.empty
        waiting := none
        local_policy := none
        local_version := 0 } }

/-- `trust` is an order in which the policy's `block_by_trust` may be iterated. -/
def IteratesTrust (trust : List (Sigma fun _ : Str => Int32)) : Option (GetPolicyResponse S) → Prop
  | some ⟨.provided pol, _⟩ => (trust : Multiset (Sigma fun _ : Str => Int32)) = pol.block_by_trust.entries
  | _ => True

instance (trust : List (Sigma fun _ : Str => Int32)) (resp : Option (GetPolicyResponse S)) :
    Decidable (IteratesTrust trust resp) :=
  match resp with
  | none => isTrue trivial
  | some ⟨.unchanged, _⟩ => isTrue trivial
  | some ⟨.provided pol, _⟩ =>
    inferInstanceAs (Decidable ((trust : Multiset (Sigma fun _ : Str => Int32)) = pol.block_by_trust.entries))

variable (codec : Codec V S) (inet : Inet)

def step (s : State V S) : Action → Option (State V S)
  | .load_config config_data =>
    some { s with
      manager := (manager_update_config codec config_data s.manager).2
      installed := s.installed ++ (codec.toml_unmarshal config_data).toList }
  | .toggle_filtering worker_id enabled =>
    some { s with manager := set_filtering_enabled worker_id enabled s.manager }
  | .restart =>
    some { s with
      manager := new_manager, installed := [], life := s.life + 1, calls := fun n => (s.calls n).map Call.interrupt }
  | .request n worker_id config_version =>
    match s.calls n with
    | none => some (s.begin_call n worker_id config_version false)
    | some _ => none
  | .poll n worker_id =>
    match s.calls n, (s.workers worker_id).waiting with
    | none, none =>
      some ((s.begin_call n worker_id (s.workers worker_id).current_config_version true).set_worker worker_id
        ((s.workers worker_id).wait_for n))
    | _, _ => none
  | .register n =>
    match s.calls n with
    | some c =>
      match c.stage with
      | .entered =>
        some { s.set_call n { c with stage := .registered } with manager := register_worker c.worker_id s.manager }
      | _ => none
    | none => none
  | .read_version n =>
    match s.calls n with
    | some c =>
      match c.stage with
      | .registered => some (s.set_call n { c with stage := read_version c.requested s.manager })
      | _ => none
    | none => none
  | .build_policy n =>
    match s.calls n with
    | some c =>
      match c.stage with
      | .outdated => some (s.set_call n { c with stage := build_policy codec c.worker_id s.manager })
      | _ => none
    | none => none
  | .finish n =>
    match s.calls n with
    | some c => (finish codec c.worker_id s.manager c.stage).map fun stage => s.set_call n { c with stage }
    | none => none
  | .deliver worker_id trust =>
    match (s.workers worker_id).waiting with
    | some n =>
      match s.calls n with
      | some c =>
        match c.stage with
        | .answered resp =>
          if IteratesTrust trust resp then
            some (s.set_worker worker_id ((s.workers worker_id).receive inet trust resp))
          else none
        | _ => none
      | none => none
    | none => none
  | .give_up worker_id =>
    match (s.workers worker_id).waiting with
    | some _ => some (s.set_worker worker_id (s.workers worker_id).give_up)
    | none => none
  | .copy_policy worker_id => some (s.set_worker worker_id (s.workers worker_id).copy_policy)

/-- A successful `UpdateConfig`. -/
def State.install (s : State V S) (cfg : TOMLConfig V) : State V S :=
  { s with
    manager := { s.manager with policy_manager := { config := some cfg, version := s.version + 1 } }
    installed := s.installed ++ [cfg] }

/-- What each action does, with the conditions it needs. -/
inductive Moves (s : State V S) : Action → State V S → Prop where
  | load_failed {config_data : Str} (hparse : codec.toml_unmarshal config_data = none) :
    Moves s (.load_config config_data) s
  | install {config_data : Str} {cfg : TOMLConfig V} (hparse : codec.toml_unmarshal config_data = some cfg) :
    Moves s (.load_config config_data) (s.install cfg)
  | toggle_filtering (worker_id : UInt64) (enabled : Bool) :
    Moves s (.toggle_filtering worker_id enabled) { s with
      manager := set_filtering_enabled worker_id enabled s.manager }
  | restart :
    Moves s .restart { s with
      manager := new_manager, installed := [], life := s.life + 1, calls := fun n => (s.calls n).map Call.interrupt }
  | request {n : ℕ} (worker_id config_version : UInt64) (hfree : s.calls n = none) :
    Moves s (.request n worker_id config_version) (s.begin_call n worker_id config_version false)
  | poll {n : ℕ} {worker_id : UInt64} (hfree : s.calls n = none) (hidle : (s.workers worker_id).waiting = none) :
    Moves s (.poll n worker_id)
      ((s.begin_call n worker_id (s.workers worker_id).current_config_version true).set_worker worker_id
        ((s.workers worker_id).wait_for n))
  | register {n : ℕ} {c : Call S} (hcall : s.calls n = some c) (hstage : c.stage = .entered) :
    Moves s (.register n)
      { s.set_call n { c with stage := .registered } with manager := register_worker c.worker_id s.manager }
  | read_version {n : ℕ} {c : Call S} (hcall : s.calls n = some c) (hstage : c.stage = .registered) :
    Moves s (.read_version n) (s.set_call n { c with stage := read_version c.requested s.manager })
  | build_policy {n : ℕ} {c : Call S} (hcall : s.calls n = some c) (hstage : c.stage = .outdated) :
    Moves s (.build_policy n) (s.set_call n { c with stage := build_policy codec c.worker_id s.manager })
  | finish {n : ℕ} {c : Call S} {stage : Stage S} (hcall : s.calls n = some c)
    (hfinish : finish codec c.worker_id s.manager c.stage = some stage) :
    Moves s (.finish n) (s.set_call n { c with stage })
  | deliver {worker_id : UInt64} {trust : List (Sigma fun _ : Str => Int32)} {n : ℕ} {c : Call S}
    {resp : Option (GetPolicyResponse S)} (hwaiting : (s.workers worker_id).waiting = some n)
    (hcall : s.calls n = some c) (hstage : c.stage = .answered resp) (htrust : IteratesTrust trust resp) :
    Moves s (.deliver worker_id trust) (s.set_worker worker_id ((s.workers worker_id).receive inet trust resp))
  | give_up {worker_id : UInt64} {n : ℕ} (hwaiting : (s.workers worker_id).waiting = some n) :
    Moves s (.give_up worker_id) (s.set_worker worker_id (s.workers worker_id).give_up)
  | copy_policy (worker_id : UInt64) :
    Moves s (.copy_policy worker_id) (s.set_worker worker_id (s.workers worker_id).copy_policy)

variable {codec inet}

theorem moves_of_step {s next : State V S} {a : Action} (h : step codec inet s a = some next) :
    Moves codec inet s a next := by
  cases a with
  | load_config config_data =>
    cases hparse : codec.toml_unmarshal config_data with
    | none =>
      simp only [step, manager_update_config, update_config_of_none _ hparse, hparse, Option.toList_none,
        List.append_nil] at h
      cases h
      exact .load_failed hparse
    | some cfg =>
      simp only [step, manager_update_config, update_config_of_some _ hparse, hparse, Option.toList_some] at h
      cases h
      exact .install hparse
  | toggle_filtering worker_id enabled =>
    cases h
    exact .toggle_filtering worker_id enabled
  | restart =>
    cases h
    exact .restart
  | request n worker_id config_version =>
    simp only [step] at h
    split at h
    · rename_i hfree
      cases h
      exact .request worker_id config_version hfree
    · cases h
  | poll n worker_id =>
    simp only [step] at h
    split at h
    · rename_i hfree hidle
      cases h
      exact .poll hfree hidle
    · cases h
  | register n =>
    simp only [step] at h
    split at h
    · rename_i c hcall
      split at h
      · rename_i hstage
        cases h
        exact .register hcall hstage
      · cases h
    · cases h
  | read_version n =>
    simp only [step] at h
    split at h
    · rename_i c hcall
      split at h
      · rename_i hstage
        cases h
        exact .read_version hcall hstage
      · cases h
    · cases h
  | build_policy n =>
    simp only [step] at h
    split at h
    · rename_i c hcall
      split at h
      · rename_i hstage
        cases h
        exact .build_policy hcall hstage
      · cases h
    · cases h
  | finish n =>
    simp only [step] at h
    split at h
    · rename_i c hcall
      obtain ⟨stage, hfinish, hnext⟩ := Option.map_eq_some_iff.mp h
      cases hnext
      exact .finish hcall hfinish
    · cases h
  | deliver worker_id trust =>
    simp only [step] at h
    split at h
    · rename_i n hwaiting
      split at h
      · rename_i c hcall
        split at h
        · rename_i resp hstage
          split at h
          · rename_i htrust
            cases h
            exact .deliver hwaiting hcall hstage htrust
          · cases h
        · cases h
      · cases h
    · cases h
  | give_up worker_id =>
    simp only [step] at h
    split at h
    · rename_i n hwaiting
      cases h
      exact .give_up hwaiting
    · cases h
  | copy_policy worker_id =>
    cases h
    exact .copy_policy worker_id

end grpc_server.protocol
