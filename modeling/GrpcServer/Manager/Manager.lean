import GrpcServer.Manager.PolicyManager

open c_memory grpc_server.communication

namespace grpc_server.manager

/-- The TOML parser, `structpb.NewStruct` and the protobuf codec. What is
marshalled is read back unchanged. -/
structure Codec (V S : Type) where
  toml_unmarshal : Str → Option (TOMLConfig V)
  new_struct : (Finmap fun _ : Str => V) → Option S
  proto_marshal : WorkerPolicy S → Option Str
  proto_unmarshal : Str → Option (WorkerPolicy S)
  round_trip : ∀ policy bytes, proto_marshal policy = some bytes → proto_unmarshal bytes = some policy

/-- `Manager`, with the map of worker flags as a partial function. -/
structure Manager (V : Type) where
  policy_manager : PolicyManager V
  filtering_enabled : UInt64 → Option Bool

variable {V S : Type}

def new_manager : Manager V := { policy_manager := new_policy_manager, filtering_enabled := fun _ => none }

/-- The first critical section of `HandleGetPolicy`. -/
def register_worker (worker_id : UInt64) (m : Manager V) : Manager V :=
  match m.filtering_enabled worker_id with
  | some _ => m
  | none => { m with filtering_enabled := Function.update m.filtering_enabled worker_id (some true) }

def set_filtering_enabled (worker_id : UInt64) (enabled : Bool) (m : Manager V) : Manager V :=
  if worker_id = 0 then { m with filtering_enabled := fun id => (m.filtering_enabled id).map fun _ => enabled }
  else { m with filtering_enabled := Function.update m.filtering_enabled worker_id (some enabled) }

def is_filtering_enabled (worker_id : UInt64) (m : Manager V) : Bool := (m.filtering_enabled worker_id).getD true

def manager_update_config (codec : Codec V S) (config_data : Str) (m : Manager V) : Bool × Manager V :=
  let (ok, policy_manager) := update_config codec.toml_unmarshal config_data m.policy_manager
  (ok, { m with policy_manager })

/-- How far a call of `GetPolicy` has got. The sections of `HandleGetPolicy` are
separate critical sections; `answered none` is an error status. -/
inductive Stage (S : Type) where
  | entered
  | registered
  | unchanged
  | outdated
  | built (policy_bytes : Str)
  | answered (resp : Option (GetPolicyResponse S))

/-- The comparison of the versions. -/
def read_version (requested : UInt64) (m : Manager V) : Stage S :=
  if m.policy_manager.version = requested then .unchanged else .outdated

/-- `GetWorkerPolicyProto` and `proto.Marshal`. -/
def build_policy (codec : Codec V S) (worker_id : UInt64) (m : Manager V) : Stage S :=
  match codec.proto_marshal (get_worker_policy_proto codec.new_struct m.policy_manager worker_id) with
  | some policy_bytes => .built policy_bytes
  | none => .answered none

/-- What `GetPolicy` makes of the result of `HandleGetPolicy`. -/
def finish (codec : Codec V S) (worker_id : UInt64) (m : Manager V) : Stage S → Option (Stage S)
  | .unchanged => some (.answered (some ⟨.unchanged, is_filtering_enabled worker_id m⟩))
  | .built policy_bytes =>
    match codec.proto_unmarshal policy_bytes with
    | some policy => some (.answered (some ⟨.provided policy, is_filtering_enabled worker_id m⟩))
    | none => some (.answered none)
  | _ => none

@[simp] theorem register_worker_policy_manager (worker_id : UInt64) (m : Manager V) :
    (register_worker worker_id m).policy_manager = m.policy_manager := by
  unfold register_worker
  split <;> rfl

@[simp] theorem set_filtering_enabled_policy_manager (worker_id : UInt64) (enabled : Bool) (m : Manager V) :
    (set_filtering_enabled worker_id enabled m).policy_manager = m.policy_manager := by
  unfold set_filtering_enabled
  split <;> rfl

/-- Registering fills in the default and changes no flag. -/
theorem is_filtering_enabled_register (worker_id other : UInt64) (m : Manager V) :
    is_filtering_enabled worker_id (register_worker other m) = is_filtering_enabled worker_id m := by
  unfold register_worker
  split
  · rfl
  · rename_i hnone
    by_cases heq : worker_id = other
    · subst heq
      simp [is_filtering_enabled, hnone]
    · simp [is_filtering_enabled, Function.update_of_ne heq]

theorem is_filtering_enabled_set_other {worker_id other : UInt64} (hne : other ≠ worker_id) (hall : other ≠ 0)
    (enabled : Bool) (m : Manager V) :
    is_filtering_enabled worker_id (set_filtering_enabled other enabled m) = is_filtering_enabled worker_id m := by
  simp [set_filtering_enabled, hall, is_filtering_enabled, Function.update_of_ne (Ne.symm hne)]

theorem is_filtering_enabled_set_self {worker_id : UInt64} (hall : worker_id ≠ 0) (enabled : Bool) (m : Manager V) :
    is_filtering_enabled worker_id (set_filtering_enabled worker_id enabled m) = enabled := by
  simp [set_filtering_enabled, hall, is_filtering_enabled]

/-- A command to all workers reaches those the map holds. -/
theorem is_filtering_enabled_set_all (worker_id : UInt64) (enabled : Bool) (m : Manager V) :
    is_filtering_enabled worker_id (set_filtering_enabled 0 enabled m) =
      if (m.filtering_enabled worker_id).isSome then enabled else true := by
  cases h : m.filtering_enabled worker_id <;> simp [set_filtering_enabled, is_filtering_enabled, h]

end grpc_server.manager
