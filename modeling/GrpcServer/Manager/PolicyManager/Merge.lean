import GrpcServer.Manager.PolicyManager

open c_memory grpc_server.communication

namespace grpc_server.manager

/-- A list of the policy as the global list and the filter's list determine it:
the global entries, then others, and of each entry's first occurrence those of
both lists in order. -/
def IsMerge (global filter merged : List Str) : Prop :=
  global <+: merged ∧ (∀ entry ∈ merged.drop global.length, entry ∉ global) ∧
    merged.eraseDups = (global ++ filter).eraseDups

theorem append_missing_isMerge (global filter : List Str) : IsMerge global filter (append_missing global filter) := by
  rw [append_missing_eq]
  refine ⟨List.prefix_append _ _, ?_, ?_⟩
  · intro entry hentry
    rw [List.drop_left, List.mem_filter] at hentry
    simpa using hentry.2
  · have hsame : (filter.filter fun entry => !global.contains entry).removeAll global = filter.removeAll global := by
      simp [List.removeAll, List.filter_filter]
    rw [List.eraseDups_append, List.eraseDups_append, hsame]

theorem mem_append_missing {global filter : List Str} {entry : Str} :
    entry ∈ append_missing global filter ↔ entry ∈ global ∨ entry ∈ filter := by
  rw [append_missing_eq, List.mem_append, List.mem_filter]
  simp only [Bool.not_eq_true', List.contains_eq_mem, decide_eq_false_iff_not]
  tauto

theorem digit_of_byte {c : Char} (h : c.isDigit = true) : Char.ofNat c.toNat.toUInt8.toNat = c := by
  have hle : c.toNat ≤ 57 := (Char.isDigit_iff_toNat.mp h).2
  have hbyte : c.toNat.toUInt8.toNat = c.toNat := UInt8.toNat_ofNat_of_lt' (by simp only [UInt8.size]; omega)
  rw [hbyte, Char.ofNat_toNat]

/-- The decimal text of a number determines it. -/
theorem decimal_injective : Function.Injective fun n : ℕ => (Nat.toDigits 10 n).map fun c => c.toNat.toUInt8 := by
  have hback : ∀ n : ℕ, ((Nat.toDigits 10 n).map fun c => c.toNat.toUInt8).map (fun b => Char.ofNat b.toNat) =
      Nat.toDigits 10 n := by
    intro n
    rw [List.map_map]
    refine (List.map_congr_left fun c hc => ?_).trans (List.map_id _)
    exact digit_of_byte (Nat.isDigit_of_mem_toDigits (by decide) (by decide) hc)
  intro m n h
  have hdigits : Nat.toDigits 10 m = Nat.toDigits 10 n := by
    rw [← hback m, ← hback n]
    exact congrArg _ h
  rw [← @Nat.ofDigitChars_ten_toDigits m, hdigits, Nat.ofDigitChars_ten_toDigits]

/-- Each worker has a section of its own. -/
theorem filter_name_injective : Function.Injective filter_name := by
  intro first second h
  exact UInt64.toNat_inj.mp (decimal_injective (List.append_cancel_left h))

variable {V S : Type} (new_struct : (Finmap fun _ : Str => V) → Option S)

/-- The configurations differ at most in the sections of other workers. -/
def SameForWorker (worker_id : UInt64) (first second : TOMLConfig V) : Prop :=
  first.global = second.global ∧
    ∀ name, (∀ other, other ≠ worker_id → name ≠ filter_name other) →
      first.filters.lookup name = second.filters.lookup name

theorem SameForWorker.merge_eq {worker_id : UInt64} {first second : TOMLConfig V}
    (h : SameForWorker worker_id first second) (version : UInt64) :
    merge new_struct first worker_id version = merge new_struct second worker_id version := by
  have hown : first.filters.lookup (filter_name worker_id) = second.filters.lookup (filter_name worker_id) :=
    h.2 _ fun other hother heq => hother (filter_name_injective heq).symm
  rw [merge, merge, hown, h.1]

theorem lookup_union (first second : Finmap fun _ : Str => Int32) (key : Str) :
    (first ∪ second).lookup key = (first.lookup key).or (second.lookup key) := by
  by_cases hkey : key ∈ first
  · obtain ⟨value, hvalue⟩ := Finmap.mem_iff.mp hkey
    rw [Finmap.lookup_union_left hkey, hvalue, Option.some_or]
  · rw [Finmap.lookup_union_right hkey, Finmap.lookup_eq_none.mpr hkey, Option.none_or]

/-- The policy of a worker, rule by rule, and that only the worker's own section
and the global rules bear on it. -/
theorem worker_policy_spec (config : TOMLConfig V) (version worker_id : UInt64) :
    let policy := get_worker_policy_proto new_struct ⟨some config, version⟩ worker_id
    let filter := filter_rules config worker_id
    IsMerge config.global.block_categories filter.block_categories policy.block_categories ∧
    IsMerge config.global.block_domains filter.block_domains policy.block_domains ∧
    IsMerge config.global.allow_domains filter.allow_domains policy.allow_domains ∧
    IsMerge config.global.block_ips filter.block_ips policy.block_ips ∧
    IsMerge config.global.allow_ips filter.allow_ips policy.allow_ips ∧
    (∀ category, policy.block_by_trust.lookup category =
      (filter.block_by_trust.lookup category).or (config.global.block_by_trust.lookup category)) ∧
    policy.min_trust_level = (filter.min_trust_level.or config.global.min_trust_level).getD 0 ∧
    policy.ttl_ip = (filter.ttl_ip.or config.global.ttl_ip).getD 0 ∧
    policy.ttl_domain = (filter.ttl_domain.or config.global.ttl_domain).getD 0 ∧
    ∀ (other : TOMLConfig V) (other_version : UInt64), SameForWorker worker_id config other →
      policy.SameRules (get_worker_policy_proto new_struct ⟨some other, other_version⟩ worker_id) := by
  intro policy filter
  have hpolicy : policy = _ := merge_eq new_struct config worker_id version
  refine ⟨?_, ?_, ?_, ?_, ?_, ?_, ?_, ?_, ?_, ?_⟩
  · exact hpolicy ▸ append_missing_isMerge _ _
  · exact hpolicy ▸ append_missing_isMerge _ _
  · exact hpolicy ▸ append_missing_isMerge _ _
  · exact hpolicy ▸ append_missing_isMerge _ _
  · exact hpolicy ▸ append_missing_isMerge _ _
  · intro category
    rw [hpolicy]
    exact lookup_union _ _ category
  · rw [hpolicy, Option.getD_or]
    rfl
  · rw [hpolicy, Option.getD_or]
    rfl
  · rw [hpolicy, Option.getD_or]
    rfl
  · intro other other_version hsame
    change (merge new_struct config worker_id version).with_version 0 =
      (merge new_struct other worker_id other_version).with_version 0
    rw [merge_with_version, merge_with_version, hsame.merge_eq]

/-- The lists of strings that a filter adds to. -/
inductive RuleList where
  | block_categories
  | block_domains
  | allow_domains
  | block_ips
  | allow_ips

def RuleList.rules : RuleList → TOMLRules V → List Str
  | .block_categories => TOMLRules.block_categories
  | .block_domains => TOMLRules.block_domains
  | .allow_domains => TOMLRules.allow_domains
  | .block_ips => TOMLRules.block_ips
  | .allow_ips => TOMLRules.allow_ips

def RuleList.entries : RuleList → WorkerPolicy S → List Str
  | .block_categories => WorkerPolicy.block_categories
  | .block_domains => WorkerPolicy.block_domains
  | .allow_domains => WorkerPolicy.allow_domains
  | .block_ips => WorkerPolicy.block_ips
  | .allow_ips => WorkerPolicy.allow_ips

theorem entries_merge (list : RuleList) (config : TOMLConfig V) (worker_id version : UInt64) :
    list.entries (merge new_struct config worker_id version) =
      append_missing (list.rules config.global) (list.rules (filter_rules config worker_id)) := by
  rw [merge_eq]
  cases list <;> rfl

/-- The loop does not look at what it has appended itself. -/
theorem nodup_append_missing_iff {existing : List Str} (h : existing.Nodup) (filter : List Str) :
    (append_missing existing filter).Nodup ↔ ∀ entry ∉ existing, filter.count entry ≤ 1 := by
  have hnew : existing.Disjoint (filter.filter fun entry => !existing.contains entry) := by
    intro entry hentry hfiltered
    simpa [hentry] using (List.mem_filter.mp hfiltered).2
  rw [append_missing_eq, List.nodup_append', and_iff_right h, and_iff_left hnew, List.nodup_iff_count_le_one]
  constructor
  · intro hcount entry hentry
    rw [← List.count_filter (p := fun entry => !existing.contains entry) (by simpa using hentry)]
    exact hcount entry
  · intro hcount entry
    by_cases hentry : entry ∈ existing
    · rw [List.count_eq_zero_of_not_mem (hnew hentry)]
      exact Nat.zero_le 1
    · exact (List.filter_sublist.count_le entry).trans (hcount entry hentry)

/-- For every configuration and worker and each of the five lists, if the global list
repeats no entry, the policy's list repeats none if and only if the worker's section
repeats none of the entries that are not global. -/
theorem merged_nodup_iff (config : TOMLConfig V) (version worker_id : UInt64) (list : RuleList)
    (h : (list.rules config.global).Nodup) :
    (list.entries (get_worker_policy_proto new_struct ⟨some config, version⟩ worker_id)).Nodup ↔
      ∀ entry ∉ list.rules config.global, (list.rules (filter_rules config worker_id)).count entry ≤ 1 := by
  have hentries : list.entries (get_worker_policy_proto new_struct ⟨some config, version⟩ worker_id) = _ :=
    entries_merge new_struct list config worker_id version
  rw [hentries]
  exact nodup_append_missing_iff h _

/-- No global rules, and a section of worker 1 that blocks the given domains. -/
def blocks_for_one (domains : List Str) : TOMLConfig Unit :=
  { TOMLConfig.empty with filters := .singleton (filter_name 1) { TOMLRules.empty with block_domains := domains } }

theorem filter_rules_blocks_for_one (domains : List Str) :
    filter_rules (blocks_for_one domains) 1 = { TOMLRules.empty with block_domains := domains } := by
  rw [filter_rules, blocks_for_one, Finmap.lookup_singleton_eq]
  rfl

/-- The section names `a` twice, and so does the policy. -/
theorem repeated_domain_appended_twice :
    (RuleList.block_domains.rules (blocks_for_one [[97], [97]]).global).Nodup ∧
    RuleList.block_domains.entries (get_worker_policy_proto (fun _ => none (α := Unit))
      ⟨some (blocks_for_one [[97], [97]]), 1⟩ 1) = [[97], [97]] := by
  refine ⟨List.nodup_nil, ?_⟩
  have hentries := entries_merge (fun _ => none (α := Unit)) .block_domains (blocks_for_one [[97], [97]]) 1 1
  rw [filter_rules_blocks_for_one] at hentries
  exact hentries

theorem merged_nodup_letters :
    (RuleList.block_domains.entries (get_worker_policy_proto (fun _ => none (α := Unit))
      ⟨some (blocks_for_one [[97], [98]]), 1⟩ 1)).Nodup := by
  refine (merged_nodup_iff _ (blocks_for_one [[97], [98]]) 1 1 .block_domains List.nodup_nil).mpr ?_
  rw [filter_rules_blocks_for_one]
  intro entry _
  have hletters : ([[97], [98]] : List Str).Nodup := by decide
  exact List.nodup_iff_count_le_one.mp hletters entry

end grpc_server.manager
