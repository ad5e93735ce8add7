import GrpcServer.Manager.PolicyManager
import GrpcServer.Worker.Policy

open c_memory grpc_server.dpdk_filter grpc_server.communication grpc_server.manager

namespace grpc_server.worker

variable {S : Type}

theorem copy_strs_inBounds_iff (array : PolicyArray) (copy : Str → array.Entry) (i : ℕ) (strs : List Str) :
    (∀ write ∈ copy_strs array copy i strs, write.InBounds) ↔ strs.length ≤ array.capacity - i := by
  induction strs generalizing i with
  | nil => simp [copy_strs]
  | cons s rest ih =>
    rw [copy_strs, List.forall_mem_cons, ih, List.length_cons]
    change i < array.capacity ∧ _ ↔ _
    omega

theorem copy_trust_inBounds (idx : ℕ) (trust : List (Sigma fun _ : Str => Int32)) :
    ∀ write ∈ copy_trust idx trust, write.InBounds := by
  induction trust generalizing idx with
  | nil => simp [copy_trust]
  | cons head rest ih =>
    obtain ⟨category, min_trust⟩ := head
    rw [copy_trust]
    split
    · simp
    · rename_i hroom
      rw [List.forall_mem_cons]
      exact ⟨Nat.lt_of_not_ge hroom, ih _⟩

theorem copy_ips_inBounds (inet : Inet) (write4 : ℕ → Ip4 → PolicyWrite) (write6 : ℕ → Ip6 → PolicyWrite)
    (h4 : ∀ i < MAX_IP4, ∀ ip4, (write4 i ip4).InBounds) (h6 : ∀ i < MAX_IP6, ∀ ip6, (write6 i ip6).InBounds)
    (ip4_idx ip6_idx : ℕ) (ips : List Str) :
    ∀ write ∈ copy_ips inet write4 write6 ip4_idx ip6_idx ips, write.InBounds := by
  induction ips generalizing ip4_idx ip6_idx with
  | nil => simp [copy_ips]
  | cons ip_str rest ih =>
    rw [copy_ips]
    split
    · split
      · rename_i hroom
        exact List.forall_mem_cons.mpr ⟨h4 _ hroom _, ih _ _⟩
      · exact ih _ _
    · split
      · split
        · rename_i hroom
          exact List.forall_mem_cons.mpr ⟨h6 _ hroom _, ih _ _⟩
        · exact ih _ _
      · exact ih _ _

/-- The lists whose copy loops have no bound fit their arrays. -/
def Fits (pol : WorkerPolicy S) : Prop :=
  pol.block_categories.length ≤ MAX_CATEGORIES ∧ pol.block_domains.length ≤ MAX_DOMAINS ∧
    pol.allow_domains.length ≤ MAX_DOMAINS

theorem policy_writes_inBounds_iff (inet : Inet) (trust : List (Sigma fun _ : Str => Int32)) (pol : WorkerPolicy S) :
    (∀ write ∈ policy_writes inet trust pol, write.InBounds) ↔ Fits pol := by
  have hblock := copy_ips_inBounds inet (⟨.block_ip4, ·, ·⟩) (⟨.block_ip6, ·, ·⟩) (fun _ h _ => h)
    (fun _ h _ => h) 0 0 pol.block_ips
  have hallow := copy_ips_inBounds inet (⟨.allow_ip4, ·, ·⟩) (⟨.allow_ip6, ·, ·⟩) (fun _ h _ => h)
    (fun _ h _ => h) 0 0 pol.allow_ips
  have hlocked := copy_strs_inBounds_iff .locked_categories copy_str 0 pol.block_categories
  have hblocked := copy_strs_inBounds_iff .block_domains copy_str 0 pol.block_domains
  have hallowed := copy_strs_inBounds_iff .allow_domains copy_str 0 pol.allow_domains
  simp only [policy_writes, List.forall_mem_append, and_assoc]
  exact ⟨fun h => ⟨hlocked.mp h.1, hblocked.mp h.2.2.1, hallowed.mp h.2.2.2.1⟩,
    fun h => ⟨hlocked.mpr h.1, copy_trust_inBounds 0 trust, hblocked.mpr h.2.1, hallowed.mpr h.2.2, hblock, hallow⟩⟩

/-- Every index written for a configuration is below the capacity of its array exactly
when the three merged lists that are copied without a bound fit. -/
theorem policy_store_inBounds_iff {V : Type} (new_struct : (Finmap fun _ : Str => V) → Option S) (inet : Inet)
    (config : TOMLConfig V) (version worker_id : UInt64) (trust : List (Sigma fun _ : Str => Int32)) :
    (∀ write ∈ policy_writes inet trust
        (get_worker_policy_proto new_struct { config := some config, version } worker_id), write.InBounds) ↔
      merged_length config.global.block_categories (filter_rules config worker_id).block_categories ≤ MAX_CATEGORIES ∧
      merged_length config.global.block_domains (filter_rules config worker_id).block_domains ≤ MAX_DOMAINS ∧
      merged_length config.global.allow_domains (filter_rules config worker_id).allow_domains ≤ MAX_DOMAINS := by
  rw [policy_writes_inBounds_iff, Fits]
  simp only [get_worker_policy_proto, merge_block_categories, merge_block_domains, merge_allow_domains,
    length_append_missing]

/-- A configuration whose only rule blocks one domain `n` times. -/
def blocking_config (n : ℕ) : TOMLConfig Unit :=
  { TOMLConfig.empty with global := { TOMLRules.empty with block_domains := List.replicate n [97] } }

theorem copy_strs_last (array : PolicyArray) (copy : Str → array.Entry) (i : ℕ) (strs : List Str) (s : Str) :
    ⟨array, i + strs.length, copy s⟩ ∈ copy_strs array copy i (strs ++ [s]) := by
  induction strs generalizing i with
  | nil => simp [copy_strs]
  | cons head rest ih =>
    rw [List.cons_append, copy_strs, List.length_cons, Nat.add_comm rest.length, ← Nat.add_assoc]
    exact List.mem_cons_of_mem _ (ih (i + 1))

/-- With 65 blocked domains the last one is written to `block_domains[64]`, which
is where `allow_domains[0]` is read. -/
theorem policy_store_overflows :
    (∃ write ∈ policy_writes Inet.mute []
      (get_worker_policy_proto (fun _ => none : _ → Option Unit)
        { config := some (blocking_config 65), version := 1 } 1),
      write.array = .block_domains ∧ write.index = MAX_DOMAINS ∧ ¬ write.InBounds) ∧
    ∀ p : BasePolicy, p.block_domain MAX_DOMAINS = p.allow_domain 0 := by
  refine ⟨⟨⟨.block_domains, MAX_DOMAINS, (copy_str [97] : Slot DOMAIN_MAX_LEN)⟩, ?_, rfl, rfl, Nat.lt_irrefl _⟩,
    fun _ => rfl⟩
  have hlast := copy_strs_last .block_domains copy_str 0 (List.replicate 64 [97]) [97]
  rw [List.length_replicate, Nat.zero_add, ← List.replicate_succ'] at hlast
  simp only [policy_writes, List.append_assoc, List.mem_append]
  exact .inr (.inr (.inl hlast))

end grpc_server.worker
