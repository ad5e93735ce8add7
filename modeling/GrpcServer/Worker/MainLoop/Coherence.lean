import GrpcServer.DpdkFilter.ParsPackets.Query
import GrpcServer.Worker.MainLoop

open c_memory ttl_cache transition grpc_server.dpdk_filter

namespace grpc_server.worker

/-- Some verdict is stored under the key. -/
def Stored (caches : Caches) (key : CacheKey) : Prop := ∃ node, caches.entry key = some node

theorem Stored.of_lookup {hz : UInt64} {env : CacheEnv} {looked key : CacheKey} {caches : Caches}
    (h : Stored (looked.lookup_cache hz env caches).2 key) : Stored caches key :=
  h.imp fun _ => entry_of_lookup_cache

theorem Stored.of_add {env : CacheEnv} {policy : BasePolicy} {node : NodeCache} {looked key : CacheKey}
    {caches : Caches} (h : Stored (looked.add_to_cache env policy node caches) key) :
    ((env.key_alloc_ok && env.add_key_ok) = true ∧ key = looked.stored) ∨ Stored caches key := by
  rw [CacheKey.add_to_cache_eq] at h
  split at h
  · rename_i hok
    obtain ⟨found, hfound⟩ := h
    rw [Caches.entry_insert] at hfound
    split at hfound
    · rename_i heq
      exact .inl ⟨hok, heq⟩
    · exact .inr ⟨found, hfound⟩
  · exact .inr h

/-- The update under way has still to clear the key's cache. -/
def Uncleared (update : UpdateStage) : CacheKey → Prop
  | .ip _ => update = .replaced
  | .domain _ => update ≠ .idle

theorem uncleared_stored {update : UpdateStage} {key : CacheKey} :
    Uncleared update key.stored ↔ Uncleared update key := by
  cases key <;> rfl

theorem uncleared_replaced (key : CacheKey) : Uncleared .replaced key := by
  cases key with
  | ip key => rfl
  | domain name => exact UpdateStage.noConfusion

theorem not_uncleared_idle (key : CacheKey) : ¬ Uncleared .idle key := by
  cases key <;> simp [Uncleared]

theorem Stored.of_clear_ip_cache {caches : Caches} {key : CacheKey} (h : Stored (clear_ip_cache caches) key) :
    Stored caches key ∧ Uncleared .ip_cleared key := by
  cases key with
  | ip key => simp [Stored, Caches.entry, clear_ip_cache] at h
  | domain name => exact ⟨h, UpdateStage.noConfusion⟩

theorem Stored.of_clear_dns_cache {caches : Caches} {key : CacheKey} (h : Stored (clear_dns_cache caches) key) :
    Stored caches key ∧ ¬ Uncleared .ip_cleared key := by
  cases key with
  | ip key => exact ⟨h, UpdateStage.noConfusion⟩
  | domain name => simp [Stored, Caches.entry, clear_dns_cache] at h

/-- Stored verdicts are of the version the main loop works with and, once their
cache is cleared, of the current version. -/
structure Coherent (s : Threads) : Prop where
  local_version : ∀ key, Stored s.world.caches key → s.origin key = s.local_version
  current_version : ∀ key, Stored s.world.caches key → ¬ Uncleared s.update key →
    s.origin key = s.current_config_version
  decided : ∀ pkt env solution_is_send version, s.loop = .decided pkt env solution_is_send version →
    version = s.local_version

/-- A verdict is stored only while the policy it was computed under is current,
or before the update clears the cache. -/
def StoredInTime (sys : System) (s : Threads) : ThreadAction → Prop
  | .add =>
    ∀ pkt env solution_is_send version, s.loop = .decided pkt env solution_is_send version →
      has_room env = true →
      s.local_version = s.current_config_version ∨ Uncleared s.update (lookup_key (sys.parse pkt))
  | _ => True

variable {sys : System} {hz : UInt64} {s next : Threads}

/-- What a lookup leaves behind, whatever it returns. -/
theorem Threads.lookup_frame (sys : System) (hz : UInt64) (s : Threads) (pkt : RteMbuf) (env : PacketEnv) :
    (s.lookup sys hz pkt env).origin = s.origin ∧ (s.lookup sys hz pkt env).local_version = s.local_version ∧
    (s.lookup sys hz pkt env).current_config_version = s.current_config_version ∧
    (s.lookup sys hz pkt env).update = s.update ∧
    (∀ key, Stored (s.lookup sys hz pkt env).world.caches key → Stored s.world.caches key) ∧
    ((s.lookup sys hz pkt env).loop = s.loop ∨ (s.lookup sys hz pkt env).loop = .missed pkt env) := by
  unfold Threads.lookup
  simp only
  split
  · exact ⟨rfl, rfl, rfl, rfl, fun _ h => h, .inl rfl⟩
  · have hstored := @Stored.of_lookup hz env.cache (lookup_key (sys.parse pkt))
    split <;> rename_i hlookup
    · exact ⟨rfl, rfl, rfl, rfl, fun key h => hstored (by rw [hlookup]; exact h), .inl rfl⟩
    · exact ⟨rfl, rfl, rfl, rfl, fun key h => hstored (by rw [hlookup]; exact h), .inr rfl⟩
    · exact ⟨rfl, rfl, rfl, rfl, fun key h => hstored (by rw [hlookup]; exact h), .inl rfl⟩

theorem Coherent.lookup (h : Coherent s) (hloop : s.loop = .handling) (pkt : RteMbuf) (env : PacketEnv) :
    Coherent (s.lookup sys hz pkt env) := by
  obtain ⟨horigin, hlocal, hcurrent, hupdate, hstored, hstage⟩ := s.lookup_frame sys hz pkt env
  refine ⟨?_, ?_, ?_⟩
  · intro key hkey
    rw [horigin, hlocal]
    exact h.local_version key (hstored key hkey)
  · intro key hkey hcleared
    rw [horigin, hcurrent]
    rw [hupdate] at hcleared
    exact h.current_version key (hstored key hkey) hcleared
  · intro other other_env solution_is_send version hdecided
    rcases hstage with hsame | hmissed
    · rw [hsame, hloop] at hdecided
      cases hdecided
    · rw [hmissed] at hdecided
      cases hdecided

theorem Threads.stored_of_add {pkt : RteMbuf} {env : PacketEnv} {solution_is_send : Bool} {version : UInt64}
    {key : CacheKey} (h : Stored (s.add sys pkt env solution_is_send version).world.caches key) :
    (has_room env = true ∧ key = (lookup_key (sys.parse pkt)).stored) ∨ Stored s.world.caches key := by
  cases halloc : env.node_alloc_ok with
  | false =>
    simp only [Threads.add, halloc, Bool.false_eq_true, if_false] at h
    exact .inr h
  | true =>
    simp only [Threads.add, halloc, if_true] at h
    refine h.of_add.imp (fun hnew => ⟨?_, hnew.2⟩) id
    rw [has_room, halloc, hnew.1]
    rfl

theorem Coherent.add (h : Coherent s) {pkt : RteMbuf} {env : PacketEnv} {solution_is_send : Bool} {version : UInt64}
    (hloop : s.loop = .decided pkt env solution_is_send version) (htime : StoredInTime sys s .add) :
    Coherent (s.add sys pkt env solution_is_send version) := by
  have hversion := h.decided pkt env solution_is_send version hloop
  have hnew : has_room env = true →
      (s.add sys pkt env solution_is_send version).origin (lookup_key (sys.parse pkt)).stored = s.local_version := by
    intro hinsert
    simp only [Threads.add, hinsert, if_true, Function.update_self]
    exact hversion
  have hold : ∀ key, ¬ (has_room env = true ∧ key = (lookup_key (sys.parse pkt)).stored) →
      (s.add sys pkt env solution_is_send version).origin key = s.origin key := by
    intro key hkey
    cases hinsert : has_room env with
    | false => simp [Threads.add, hinsert]
    | true =>
      have hne : key ≠ (lookup_key (sys.parse pkt)).stored := fun heq => hkey ⟨hinsert, heq⟩
      simp only [Threads.add, hinsert, if_true, Function.update_of_ne hne]
  refine ⟨?_, ?_, nofun⟩
  · intro key hkey
    by_cases hfresh : has_room env = true ∧ key = (lookup_key (sys.parse pkt)).stored
    · rw [hfresh.2]
      exact hnew hfresh.1
    · rw [hold key hfresh]
      exact h.local_version key ((s.stored_of_add hkey).resolve_left hfresh)
  · intro key hkey hcleared
    by_cases hfresh : has_room env = true ∧ key = (lookup_key (sys.parse pkt)).stored
    · rw [hfresh.2] at hcleared ⊢
      rw [hnew hfresh.1]
      exact (htime pkt env solution_is_send version hloop hfresh.1).resolve_right fun huncleared =>
        hcleared (uncleared_stored.mpr huncleared)
    · rw [hold key hfresh]
      exact h.current_version key ((s.stored_of_add hkey).resolve_left hfresh) hcleared

theorem Coherent.step (h : Coherent s) {a : ThreadAction} (htime : StoredInTime sys s a)
    (hstep : thread_step sys hz s a = some next) : Coherent next := by
  cases a with
  | replace_policy policy version =>
    simp only [thread_step] at hstep
    split at hstep
    · cases hstep
      exact ⟨h.local_version, fun key _ hcleared => absurd (uncleared_replaced key) hcleared, h.decided⟩
    · cases hstep
  | clear_ip_cache =>
    simp only [thread_step] at hstep
    split at hstep
    · cases hstep
      exact ⟨fun key hkey => h.local_version key hkey.of_clear_ip_cache.1,
        fun key hkey hcleared => absurd hkey.of_clear_ip_cache.2 hcleared, h.decided⟩
    · cases hstep
  | clear_dns_cache =>
    simp only [thread_step] at hstep
    split at hstep
    · rename_i hupdate
      cases hstep
      refine ⟨fun key hkey => h.local_version key hkey.of_clear_dns_cache.1, fun key hkey _ => ?_, h.decided⟩
      obtain ⟨hstored, hcleared⟩ := hkey.of_clear_dns_cache
      exact h.current_version key hstored (hupdate ▸ hcleared)
    · cases hstep
  | copy_policy =>
    simp only [thread_step] at hstep
    split at hstep
    · rename_i hloop hupdate
      cases hstep
      have hcurrent : ∀ key, Stored s.world.caches key → s.origin key = s.current_config_version :=
        fun key hkey => h.current_version key hkey (hupdate ▸ not_uncleared_idle key)
      refine ⟨hcurrent, fun key hkey _ => hcurrent key hkey, ?_⟩
      intro pkt env solution_is_send version hdecided
      cases hdecided
    · cases hstep
  | lookup pkt env =>
    simp only [thread_step] at hstep
    split at hstep
    · rename_i hloop
      cases hstep
      exact h.lookup hloop pkt env
    · cases hstep
  | decide =>
    simp only [thread_step] at hstep
    split at hstep
    · cases hstep
      refine ⟨h.local_version, h.current_version, ?_⟩
      intro pkt env solution_is_send version hdecided
      cases hdecided
      rfl
    · cases hstep
  | add =>
    simp only [thread_step] at hstep
    split at hstep
    · rename_i hloop
      cases hstep
      exact h.add hloop htime
    · cases hstep
  | end_iteration =>
    simp only [thread_step] at hstep
    split at hstep
    · cases hstep
      refine ⟨h.local_version, h.current_version, ?_⟩
      intro pkt env solution_is_send version hdecided
      cases hdecided
    · cases hstep

/-- The worker before its first iteration, with the verdicts that were loaded
into the caches at start-up. -/
def Threads.start (policy : BasePolicy) (version : UInt64) (caches : Caches) (origin : CacheKey → UInt64) : Threads :=
  { current_policy := policy
    current_config_version := version
    update := .idle
    local_policy := policy
    local_version := version
    loop := .top
    world := ⟨Wire.start, caches⟩
    origin }

/-- If the verdicts loaded at start-up are of the version in force, then in every run
that stores verdicts in time a packet that is answered from a cache gets a verdict
computed under the version of `local_policy`. -/
theorem cached_verdict_of_local_version (sys : System) (hz : UInt64) (policy : BasePolicy) (version : UInt64)
    (caches : Caches) (origin : CacheKey → UInt64) (hloaded : ∀ key, Stored caches key → origin key = version)
    (acts : List ThreadAction) (final : Threads)
    (htime : Meets (thread_step sys hz) (StoredInTime sys) (Threads.start policy version caches origin) acts)
    (hrun : run (thread_step sys hz) (Threads.start policy version caches origin) acts = some final)
    (pkt : RteMbuf) (env : PacketEnv) (node : NodeCache)
    (hhit : ((lookup_key (sys.parse pkt)).lookup_cache hz env.cache final.world.caches).1 = .hit node) :
    final.origin (lookup_key (sys.parse pkt)) = final.local_version := by
  have hstart : Coherent (Threads.start policy version caches origin) :=
    ⟨hloaded, fun key hkey _ => hloaded key hkey, nofun⟩
  have hfinal := run_invariant Coherent (fun s a next h htime hstep => h.step htime hstep) hstart htime hrun
  exact hfinal.local_version _ ⟨node, entry_of_hit hhit⟩

/-- The caches after the first packet without a name was decided and stored. -/
theorem lookup_add_ip_cache {hz : UInt64} (env : PacketEnv) {policy : BasePolicy} {node : NodeCache} (key : IpKey)
    (hinsert : has_room env = true)
    (hfresh : (node.stamped env.cache.add_cycles policy.ttl_ip).expired hz env.cache.lookup_cycles = false)
    (caches : Caches) :
    ((CacheKey.ip key).lookup_cache hz env.cache
      (if env.node_alloc_ok then (CacheKey.ip key).add_to_cache env.cache policy node caches else caches)).1 =
      .hit (node.stamped env.cache.add_cycles policy.ttl_ip) := by
  have hstore : env.node_alloc_ok = true ∧ (env.cache.key_alloc_ok && env.cache.add_key_ok) = true := by
    simpa [has_room] using hinsert
  apply lookup_cache_of_entry _ hfresh
  rw [if_pos hstore.1, CacheKey.add_to_cache_eq, if_pos hstore.2, Caches.entry_insert]
  exact if_pos rfl

section FirstPacket

variable (sys : System) (hz : UInt64) (pkt : RteMbuf) (env : PacketEnv) (hip : (sys.parse pkt).domain 0 = 0)
  (hport : check_is_exception (sys.parse pkt).number_port = false) (hinsert : has_room env = true)
  (old new : BasePolicy) (old_version new_version : UInt64)
  (hfresh : ∀ node : NodeCache, (node.stamped env.cache.add_cycles (copy_policy old).ttl_ip).expired hz
    env.cache.lookup_cycles = false)
  (origin : CacheKey → UInt64)

/-- The main loop inside the first packet, which missed. -/
def first_miss : Threads :=
  { Threads.start old old_version Caches.empty origin with
    local_policy := copy_policy old
    world := ⟨(Wire.start.emit .received).emit (.access pkt.id), Caches.empty⟩
    loop := .missed pkt env }

include hport in
theorem run_first_miss (rest : List ThreadAction) :
    run (thread_step sys hz) (Threads.start old old_version Caches.empty origin)
        (.copy_policy :: .lookup pkt env :: rest) =
      run (thread_step sys hz) (first_miss pkt env old old_version origin) rest := by
  have hmiss := Threads.lookup_miss sys hz (s := { Threads.start old old_version Caches.empty origin with
    local_policy := copy_policy old, loop := .handling }) hport (lookup_cache_empty hz env.cache _)
  exact congrArg (run (thread_step sys hz) · rest) hmiss

/-- The update falls between the decision on a packet and the insertion of its
verdict. -/
def late_insertion : List ThreadAction :=
  [.copy_policy, .lookup pkt env, .decide, .replace_policy new new_version, .clear_ip_cache, .clear_dns_cache, .add,
    .end_iteration, .copy_policy]

include hip hport hinsert hfresh in
/-- After a late insertion the next iteration answers the packet with the verdict
of the replaced policy. -/
theorem run_late_insertion :
    ∃ final node,
      run (thread_step sys hz) (Threads.start old old_version Caches.empty origin)
        (late_insertion pkt env new new_version) = some final ∧
      final.local_version = new_version ∧
      ((lookup_key (sys.parse pkt)).lookup_cache hz env.cache final.world.caches).1 = .hit node ∧
      node.solution_is_send = miss_solution sys (copy_policy old) env (sys.parse pkt) ∧
      final.origin (lookup_key (sys.parse pkt)) = old_version := by
  have hkey : lookup_key (sys.parse pkt) = .ip (ip_key (sys.parse pkt)) := if_pos hip
  have hhit := lookup_add_ip_cache env (ip_key (sys.parse pkt)) hinsert
    (hfresh (NodeCache.fresh (miss_solution sys (copy_policy old) env (sys.parse pkt)))) Caches.empty
  rw [← hkey] at hhit
  refine ⟨_, _, (run_first_miss sys hz pkt env hport old old_version origin _).trans rfl, rfl, hhit, rfl, ?_⟩
  change (if has_room env then Function.update origin (lookup_key (sys.parse pkt)).stored old_version
    else origin) (lookup_key (sys.parse pkt)) = _
  rw [if_pos hinsert, hkey]
  exact Function.update_self _ _ _

include hport in
/-- Without an update in between the insertion is in time. -/
theorem meets_timely_insertion :
    Meets (thread_step sys hz) (StoredInTime sys) (Threads.start old old_version Caches.empty origin)
      [.copy_policy, .lookup pkt env, .decide, .add] := by
  refine ⟨trivial, fun s₁ h₁ => ⟨trivial, fun s₂ h₂ => ⟨trivial, fun s₃ h₃ => ⟨?_, fun _ _ => trivial⟩⟩⟩⟩
  cases h₁
  have hmiss := Threads.lookup_miss sys hz (s := { Threads.start old old_version Caches.empty origin with
    local_policy := copy_policy old, loop := .handling }) hport (lookup_cache_empty hz env.cache _)
  cases (congrArg some hmiss).symm.trans h₂
  cases h₃
  exact fun _ _ _ _ _ _ => .inl rfl

end FirstPacket

/-- `inet_ntop` for IPv4 addresses. -/
def decimal_inet : Inet :=
  { Inet.mute with
    ntop4 := fun ip => dotted true <| (List.ofFn ip).map fun b =>
      (Nat.toDigits 10 b.toNat).map fun c => c.toNat.toUInt8 }

theorem fresh_failed_env (node : NodeCache) :
    (node.stamped failed_env.cache.add_cycles (copy_policy BasePolicy.zero).ttl_ip).expired 1
      failed_env.cache.lookup_cycles = false := by
  have hage : ¬ (IP_CACHE_DEFAULT_TTL.toUInt32.toUInt64 ≤ (0 - 0) / 1) := by decide
  exact decide_eq_false hage

/-- A verdict of version 1 answers a packet of an iteration that works with
version 2. -/
theorem cached_verdict_of_old_version :
    let sys := filter_system udp4_net decimal_inet
    ∃ final node,
      run (thread_step sys 1) (Threads.start BasePolicy.zero 1 Caches.empty fun _ => 1)
        (late_insertion (dns_query 0 []) failed_env BasePolicy.zero 2) = some final ∧
      ((lookup_key (sys.parse (dns_query 0 []))).lookup_cache 1 failed_env.cache final.world.caches).1 = .hit node ∧
      final.local_version = 2 ∧ final.origin (lookup_key (sys.parse (dns_query 0 []))) = 1 := by
  intro sys
  have hport : check_is_exception (parsing_pakage udp4_net (dns_query 0 [])).number_port = false := by decide
  obtain ⟨final, node, hrun, hversion, hhit, _, horigin⟩ := run_late_insertion sys 1 (dns_query 0 []) failed_env rfl
    hport rfl BasePolicy.zero BasePolicy.zero 1 2 fresh_failed_env fun _ => 1
  exact ⟨final, node, hrun, hhit, hversion, horigin⟩

/-- A verdict stored in time answers with its own version. -/
theorem cached_verdict_of_local_version_unclassified :
    let sys := filter_system udp4_net decimal_inet
    ∃ final node,
      run (thread_step sys 1) (Threads.start BasePolicy.zero 1 Caches.empty fun _ => 1)
        [.copy_policy, .lookup (dns_query 0 []) failed_env, .decide, .add] = some final ∧
      ((lookup_key (sys.parse (dns_query 0 []))).lookup_cache 1 failed_env.cache final.world.caches).1 = .hit node ∧
      final.origin (lookup_key (sys.parse (dns_query 0 []))) = final.local_version := by
  intro sys
  have hport : check_is_exception (parsing_pakage udp4_net (dns_query 0 [])).number_port = false := by decide
  have hkey : lookup_key (sys.parse (dns_query 0 [])) = .ip (ip_key (sys.parse (dns_query 0 []))) := if_pos rfl
  have hrun := run_first_miss sys 1 (dns_query 0 []) failed_env hport BasePolicy.zero 1 (fun _ => 1) [.decide, .add]
  have hhit := lookup_add_ip_cache failed_env (ip_key (sys.parse (dns_query 0 []))) rfl
    (fresh_failed_env (NodeCache.fresh (miss_solution sys (copy_policy BasePolicy.zero) failed_env
      (sys.parse (dns_query 0 []))))) Caches.empty
  rw [← hkey] at hhit
  refine ⟨_, _, hrun, hhit, ?_⟩
  exact cached_verdict_of_local_version sys 1 BasePolicy.zero 1 Caches.empty (fun _ => 1) (fun _ _ => rfl) _ _
    (meets_timely_insertion sys 1 (dns_query 0 []) failed_env hport BasePolicy.zero 1 fun _ => 1) hrun
    (dns_query 0 []) failed_env _ hhit

end grpc_server.worker
