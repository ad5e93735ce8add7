import GrpcServer.Communication

open c_memory grpc_server.communication

namespace grpc_server.manager

/-- `V` stands for the `interface{}` values of rules the controller has no field
for. -/
structure TOMLRules (V : Type) where
  block_categories : List Str
  block_by_trust : Finmap fun _ : Str => Int32
  block_domains : List Str
  allow_domains : List Str
  block_ips : List Str
  allow_ips : List Str
  min_trust_level : Option Int32
  ttl_ip : Option Int32
  ttl_domain : Option Int32
  extra : Finmap fun _ : Str => V

def TOMLRules.empty {V : Type} : TOMLRules V :=
  { block_categories := [], block_by_trust := ∅, block_domains := [], allow_domains := [], block_ips := [],
    allow_ips := [], min_trust_level := none, ttl_ip := none, ttl_domain := none, extra := ∅ }

structure TOMLConfig (V : Type) where
  global : TOMLRules V
  filters : Finmap fun _ : Str => TOMLRules V

def TOMLConfig.empty {V : Type} : TOMLConfig V := { global := TOMLRules.empty, filters := ∅ }

structure PolicyManager (V : Type) where
  config : Option (TOMLConfig V)
  version : UInt64

def new_policy_manager {V : Type} : PolicyManager V := { config := some TOMLConfig.empty, version := 0 }

/-- `fmt.Sprintf("filter_%d", workerID)`. -/
def filter_name (worker_id : UInt64) : Str :=
  [102, 105, 108, 116, 101, 114, 95] ++ (Nat.toDigits 10 worker_id.toNat).map fun c => c.toNat.toUInt8

/-- The entries of a filter's list that `existing` does not hold yet. The map is
filled before the loop, so a string that the filter repeats is appended again. -/
def append_missing (existing filter : List Str) : List Str :=
  if filter.length > 0 then existing ++ filter.filter fun entry => !existing.contains entry else existing

section Merge

variable {V S : Type} (new_struct : (Finmap fun _ : Str => V) → Option S)

/-- The policy built from the global rules alone. -/
def global_policy (rules : TOMLRules V) (version : UInt64) : WorkerPolicy S :=
  { block_categories := rules.block_categories, block_by_trust := rules.block_by_trust,
    block_domains := rules.block_domains, allow_domains := rules.allow_domains, block_ips := rules.block_ips,
    allow_ips := rules.allow_ips, min_trust_level := rules.min_trust_level.getD 0, ttl_ip := rules.ttl_ip.getD 0,
    ttl_domain := rules.ttl_domain.getD 0, config_version := version, extra := none }

def merge_extra (global filter : Finmap fun _ : Str => V) : Option S :=
  if filter.keys.card > 0 then new_struct filter
  else if global.keys.card > 0 then new_struct global
  else none

/-- The policy after the rules of the worker's own filter. -/
def merge_filter (global filter : TOMLRules V) (policy : WorkerPolicy S) : WorkerPolicy S :=
  { block_categories := append_missing policy.block_categories filter.block_categories,
    block_by_trust := filter.block_by_trust ∪ policy.block_by_trust,
    block_domains := append_missing policy.block_domains filter.block_domains,
    allow_domains := append_missing policy.allow_domains filter.allow_domains,
    block_ips := append_missing policy.block_ips filter.block_ips,
    allow_ips := append_missing policy.allow_ips filter.allow_ips,
    min_trust_level := filter.min_trust_level.getD policy.min_trust_level,
    ttl_ip := filter.ttl_ip.getD policy.ttl_ip,
    ttl_domain := filter.ttl_domain.getD policy.ttl_domain,
    config_version := policy.config_version,
    extra := merge_extra new_struct global.extra filter.extra }

/-- The policy of one worker under a configuration. -/
def merge (config : TOMLConfig V) (worker_id version : UInt64) : WorkerPolicy S :=
  match config.filters.lookup (filter_name worker_id) with
  | none => global_policy config.global version
  | some filter => merge_filter new_struct config.global filter (global_policy config.global version)

def get_worker_policy_proto (pm : PolicyManager V) (worker_id : UInt64) : WorkerPolicy S :=
  match pm.config with
  | none => WorkerPolicy.empty
  | some config => merge new_struct config worker_id pm.version

end Merge

section Update

variable {V : Type} (unmarshal : Str → Option (TOMLConfig V))

/-- `UpdateConfig`: whether it succeeded, and the manager afterwards. -/
def update_config (config_data : Str) (pm : PolicyManager V) : Bool × PolicyManager V :=
  match unmarshal config_data with
  | none => (false, pm)
  | some cfg => (true, { config := some cfg, version := pm.version + 1 })

theorem update_config_of_none {config_data : Str} (h : unmarshal config_data = none) (pm : PolicyManager V) :
    update_config unmarshal config_data pm = (false, pm) := by
  rw [update_config, h]

theorem update_config_of_some {config_data : Str} {cfg : TOMLConfig V} (h : unmarshal config_data = some cfg)
    (pm : PolicyManager V) :
    update_config unmarshal config_data pm = (true, { config := some cfg, version := pm.version + 1 }) := by
  rw [update_config, h]

end Update

section Lists

variable {V S : Type} (new_struct : (Finmap fun _ : Str => V) → Option S)

/-- The rules of the worker's filter, none at all when there is no such filter. -/
def filter_rules (config : TOMLConfig V) (worker_id : UInt64) : TOMLRules V :=
  (config.filters.lookup (filter_name worker_id)).getD TOMLRules.empty

/-- How many entries the merge of a global list and a filter's list has. -/
def merged_length (global filter : List Str) : ℕ :=
  global.length + (filter.filter fun entry => !global.contains entry).length

theorem append_missing_eq (existing filter : List Str) :
    append_missing existing filter = existing ++ filter.filter fun entry => !existing.contains entry := by
  unfold append_missing
  split
  · rfl
  · rename_i hempty
    rw [List.eq_nil_of_length_eq_zero (Nat.eq_zero_of_not_pos hempty), List.filter_nil, List.append_nil]

theorem length_append_missing (existing filter : List Str) :
    (append_missing existing filter).length = merged_length existing filter := by
  rw [append_missing_eq, List.length_append, merged_length]

/-- A worker without a filter gets what an empty filter would give it, `extra`
apart. -/
theorem merge_eq (config : TOMLConfig V) (worker_id version : UInt64) :
    merge new_struct config worker_id version =
      { merge_filter new_struct config.global (filter_rules config worker_id) (global_policy config.global version) with
        extra := (merge new_struct config worker_id version).extra } := by
  unfold merge filter_rules
  cases config.filters.lookup (filter_name worker_id) with
  | none =>
    simp only [Option.getD_none, merge_filter, TOMLRules.empty, Finmap.empty_union]
    rfl
  | some filter => rfl

theorem merge_block_categories (config : TOMLConfig V) (worker_id version : UInt64) :
    (merge new_struct config worker_id version).block_categories =
      append_missing config.global.block_categories (filter_rules config worker_id).block_categories := by
  rw [merge_eq]
  rfl

theorem merge_block_domains (config : TOMLConfig V) (worker_id version : UInt64) :
    (merge new_struct config worker_id version).block_domains =
      append_missing config.global.block_domains (filter_rules config worker_id).block_domains := by
  rw [merge_eq]
  rfl

theorem merge_allow_domains (config : TOMLConfig V) (worker_id version : UInt64) :
    (merge new_struct config worker_id version).allow_domains =
      append_missing config.global.allow_domains (filter_rules config worker_id).allow_domains := by
  rw [merge_eq]
  rfl

/-- The version is stamped on the policy and nothing else depends on it. -/
theorem merge_with_version (config : TOMLConfig V) (worker_id version other : UInt64) :
    (merge new_struct config worker_id version).with_version other = merge new_struct config worker_id other := by
  unfold merge
  cases config.filters.lookup (filter_name worker_id) <;> rfl

theorem merge_config_version (config : TOMLConfig V) (worker_id version : UInt64) :
    (merge new_struct config worker_id version).config_version = version := by
  unfold merge
  cases config.filters.lookup (filter_name worker_id) <;> rfl

theorem merge_empty (worker_id version : UInt64) :
    merge new_struct TOMLConfig.empty worker_id version = WorkerPolicy.empty.with_version version := rfl

end Lists

end grpc_server.manager
