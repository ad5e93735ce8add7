import GrpcServer.DpdkFilter.ProcPackets

open c_memory ttl_cache grpc_server.worker

namespace grpc_server.dpdk_filter

/-- A key of one of the two caches. -/
inductive CacheKey where
  | ip (key : IpKey)
  | domain (name : DomainKey)
deriving DecidableEq

/-- The key a packet is looked up under. -/
def lookup_key (info_pac : InfoOfPakage) : CacheKey :=
  if info_pac.domain 0 = 0 then .ip (ip_key info_pac) else .domain info_pac.domain

/-- The key under which `add_to_ip_cache` or `add_to_dns_cache` stores. -/
def CacheKey.stored : CacheKey → CacheKey
  | .ip key => .ip key
  | .domain name => .domain (dns_key_copy name)

/-- The key a packet's verdict is stored under. -/
def stored_key (info_pac : InfoOfPakage) : CacheKey := (lookup_key info_pac).stored

def CacheKey.ttl (policy : BasePolicy) : CacheKey → Int32
  | .ip _ => policy.ttl_ip
  | .domain _ => policy.ttl_domain

def CacheKey.lookup_cache (hz : UInt64) (env : CacheEnv) : CacheKey → Caches → Lookup NodeCache × Caches
  | .ip key => lookup_ip_cache hz env key
  | .domain name => lookup_dns_cache hz env name

def CacheKey.add_to_cache (env : CacheEnv) (policy : BasePolicy) (node : NodeCache) : CacheKey → Caches → Caches
  | .ip key => add_to_ip_cache env key node policy.ttl_ip
  | .domain name => add_to_dns_cache env name node policy.ttl_domain

/-- The verdict on a packet that misses its cache. A parsed name decides which
lists are consulted. -/
def miss_solution (sys : System) (policy : BasePolicy) (env : PacketEnv) (info_pac : InfoOfPakage) : Bool :=
  if info_pac.domain 0 = 0 then ip_solution sys.inet policy env info_pac else domain_solution policy env info_pac

theorem process_packet_eq (sys : System) (hz : UInt64) (policy : BasePolicy) (w : World Caches) (pkt : RteMbuf)
    (env : PacketEnv) :
    process_packet sys (rteCaches hz) policy w (pkt, env) =
      process_with sys.net env pkt (sys.parse pkt).number_port
        ((lookup_key (sys.parse pkt)).lookup_cache hz env.cache) (miss_solution sys policy env (sys.parse pkt))
        (fun node => (lookup_key (sys.parse pkt)).add_to_cache env.cache policy node)
        { w with wire := (w.wire.emit .received).emit (.access pkt.id) } := by
  by_cases hdomain : (sys.parse pkt).domain 0 = 0
  · rw [process_packet_of_ip hdomain, process_ip, lookup_key, miss_solution, if_pos hdomain, if_pos hdomain]
    rfl
  · rw [process_packet_of_domain hdomain, process_domain, lookup_key, miss_solution, if_neg hdomain,
      if_neg hdomain]
    rfl

/-- The allocation of the node and of its key, and the insertion, succeed. -/
def has_room (env : PacketEnv) : Bool := env.node_alloc_ok && (env.cache.key_alloc_ok && env.cache.add_key_ok)

section Entries

/-- What is stored under a key. -/
def Caches.entry (caches : Caches) : CacheKey → Option NodeCache
  | .ip key => caches.ip_hash.lookup key
  | .domain name => caches.dns_hash.lookup name

def Caches.insert (caches : Caches) (node : NodeCache) : CacheKey → Caches
  | .ip key => { caches with ip_hash := caches.ip_hash.insert key node }
  | .domain name => { caches with dns_hash := caches.dns_hash.insert name node }

variable {hz : UInt64} {env : CacheEnv} {caches other : Caches} {node : NodeCache}

theorem Caches.ext_entry (h : ∀ key, caches.entry key = other.entry key) : caches = other := by
  obtain ⟨ip_hash, dns_hash⟩ := caches
  obtain ⟨other_ip, other_dns⟩ := other
  obtain rfl : ip_hash = other_ip := Finmap.ext_lookup fun key => h (.ip key)
  obtain rfl : dns_hash = other_dns := Finmap.ext_lookup fun name => h (.domain name)
  rfl

@[simp] theorem Caches.entry_empty (key : CacheKey) : Caches.empty.entry key = none := by
  cases key <;> exact Finmap.lookup_empty _

theorem Caches.entry_insert (caches : Caches) (node : NodeCache) (key other : CacheKey) :
    (caches.insert node key).entry other = if other = key then some node else caches.entry other := by
  cases key with
  | ip key =>
    cases other with
    | ip other =>
      by_cases heq : other = key
      · subst heq
        simp [Caches.insert, Caches.entry]
      · simp [Caches.insert, Caches.entry, heq, Finmap.lookup_insert_of_ne]
    | domain name => simp [Caches.insert, Caches.entry]
  | domain name =>
    cases other with
    | ip other => simp [Caches.insert, Caches.entry]
    | domain other =>
      by_cases heq : other = name
      · subst heq
        simp [Caches.insert, Caches.entry]
      · simp [Caches.insert, Caches.entry, heq, Finmap.lookup_insert_of_ne]

/-- An insertion changes nothing only if the entry is there. -/
theorem Caches.insert_eq_self_iff {key : CacheKey} : caches.insert node key = caches ↔ caches.entry key = some node := by
  constructor
  · intro heq
    rw [← heq, Caches.entry_insert, if_pos rfl]
  · intro hentry
    apply Caches.ext_entry
    intro other
    rw [Caches.entry_insert]
    split
    · rename_i heq
      rw [heq, hentry]
    · rfl

theorem CacheKey.add_to_cache_eq (env : CacheEnv) (policy : BasePolicy) (node : NodeCache) (key : CacheKey)
    (caches : Caches) :
    key.add_to_cache env policy node caches =
      if env.key_alloc_ok && env.add_key_ok then
        caches.insert (node.stamped env.add_cycles (key.ttl policy)) key.stored
      else caches := by
  cases key with
  | ip key =>
    simp only [CacheKey.add_to_cache, add_to_ip_cache, ttl_cache.add]
    split <;> rfl
  | domain name =>
    simp only [CacheKey.add_to_cache, add_to_dns_cache, ttl_cache.add]
    split <;> rfl

/-- A lookup leaves no entry that was not there. -/
theorem entry_of_lookup_cache {looked key : CacheKey} (h : (looked.lookup_cache hz env caches).2.entry key = some node) :
    caches.entry key = some node := by
  have hsub : ∀ {K : Type} [DecidableEq K] (table : Table K NodeCache) (expired : NodeCache → Bool) (evict : Bool)
      (looked : K), Holds (fun other node => table.lookup other = some node) (lookup expired evict looked table).2 :=
    fun table expired evict looked => Holds.lookup (fun _ _ hfound => hfound) expired evict looked
  cases looked with
  | ip looked =>
    cases key with
    | ip key => exact hsub _ _ _ _ _ _ h
    | domain name => exact h
  | domain looked =>
    cases key with
    | ip key => exact h
    | domain name => exact hsub _ _ _ _ _ _ h

theorem entry_of_hit {key : CacheKey} (h : (key.lookup_cache hz env caches).1 = .hit node) :
    caches.entry key = some node := by
  cases key <;> exact (lookup_eq_hit h).1

theorem lookup_cache_of_entry {key : CacheKey} (hentry : caches.entry key = some node)
    (hfresh : node.expired hz env.lookup_cycles = false) : (key.lookup_cache hz env caches).1 = .hit node := by
  cases key <;> exact congrArg Prod.fst (lookup_hit env.del_key_ok hentry hfresh)

/-- A lookup in either cache hits or misses. -/
theorem CacheKey.lookup_cache_cases (hz : UInt64) (env : CacheEnv) (key : CacheKey) (caches : Caches) :
    (key.lookup_cache hz env caches).1 = .enoent ∨ ∃ node, (key.lookup_cache hz env caches).1 = .hit node := by
  have hanswer : ∀ {K : Type} [DecidableEq K] (table : Table K NodeCache) (expired : NodeCache → Bool) (evict : Bool)
      (key : K), (lookup expired evict key table).1 = .enoent ∨ ∃ node, (lookup expired evict key table).1 = .hit node := by
    intro K _ table expired evict key
    obtain ⟨hmiss, -⟩ | ⟨node, -, -, hhit⟩ := lookup_cases expired evict key table
    · exact .inl hmiss
    · exact .inr ⟨node, congrArg Prod.fst hhit⟩
  cases key <;> exact hanswer _ _ _ _

theorem lookup_cache_empty (hz : UInt64) (env : CacheEnv) (key : CacheKey) :
    key.lookup_cache hz env Caches.empty = (.enoent, Caches.empty) := by
  cases key <;> rfl

end Entries

section Packet

variable (sys : System) (hz : UInt64)

/-- What the packet's lookup returns. -/
def cache_answer (caches : Caches) (p : RteMbuf × PacketEnv) : Lookup NodeCache :=
  ((lookup_key (sys.parse p.1)).lookup_cache hz p.2.cache caches).1

/-- The caches its lookup leaves. -/
def looked_up (caches : Caches) (p : RteMbuf × PacketEnv) : Caches :=
  ((lookup_key (sys.parse p.1)).lookup_cache hz p.2.cache caches).2

/-- The entry a packet stores when it has missed its cache. -/
def stored_node (policy : BasePolicy) (p : RteMbuf × PacketEnv) : NodeCache :=
  (NodeCache.fresh (miss_solution sys policy p.2 (sys.parse p.1))).stamped p.2.cache.add_cycles
    ((lookup_key (sys.parse p.1)).ttl policy)

theorem cache_answer_cases (caches : Caches) (p : RteMbuf × PacketEnv) :
    cache_answer sys hz caches p = .enoent ∨ ∃ node, cache_answer sys hz caches p = .hit node :=
  CacheKey.lookup_cache_cases hz p.2.cache _ caches

variable {sys hz} {policy : BasePolicy} {w : World Caches} {p : RteMbuf × PacketEnv}

theorem caches_of_exception (policy : BasePolicy) (hport : check_is_exception (sys.parse p.1).number_port = true) :
    (process_packet sys (rteCaches hz) policy w p).caches = w.caches := by
  obtain ⟨pkt, env⟩ := p
  rw [process_packet_eq, process_with, if_pos hport]

theorem caches_of_hit (policy : BasePolicy) (hport : check_is_exception (sys.parse p.1).number_port = false)
    {node : NodeCache} (hhit : cache_answer sys hz w.caches p = .hit node) :
    (process_packet sys (rteCaches hz) policy w p).caches = looked_up sys hz w.caches p := by
  obtain ⟨pkt, env⟩ := p
  rw [process_packet_eq, process_with_hit hport (Prod.ext hhit rfl)]
  rfl

/-- A packet that misses stores its verdict if there is room for it. -/
theorem caches_of_miss (policy : BasePolicy) (hport : check_is_exception (sys.parse p.1).number_port = false)
    (hmiss : cache_answer sys hz w.caches p = .enoent) :
    (process_packet sys (rteCaches hz) policy w p).caches =
      if has_room p.2 then (looked_up sys hz w.caches p).insert (stored_node sys policy p) (stored_key (sys.parse p.1))
      else looked_up sys hz w.caches p := by
  obtain ⟨pkt, env⟩ := p
  rw [process_packet_eq, process_with_enoent hport (Prod.ext hmiss rfl), has_room]
  cases env.node_alloc_ok with
  | false => rfl
  | true => exact CacheKey.add_to_cache_eq ..

end Packet

/-- Every entry of either cache satisfies `P`. -/
def EveryEntry (P : CacheKey → NodeCache → Prop) (caches : Caches) : Prop :=
  ∀ key node, caches.entry key = some node → P key node

section EveryEntry

variable {P : CacheKey → NodeCache → Prop} {caches : Caches}

theorem everyEntry_empty (P : CacheKey → NodeCache → Prop) : EveryEntry P Caches.empty := by
  intro key node hentry
  rw [Caches.entry_empty] at hentry
  cases hentry

theorem EveryEntry.mono {Q : CacheKey → NodeCache → Prop} (h : EveryEntry P caches)
    (himp : ∀ key node, P key node → Q key node) : EveryEntry Q caches :=
  fun key node hentry => himp key node (h key node hentry)

theorem EveryEntry.lookup_cache (h : EveryEntry P caches) (hz : UInt64) (env : CacheEnv) (looked : CacheKey) :
    EveryEntry P (looked.lookup_cache hz env caches).2 :=
  fun key node hentry => h key node (entry_of_lookup_cache hentry)

theorem EveryEntry.insert (h : EveryEntry P caches) {key : CacheKey} {node : NodeCache} (hnew : P key node) :
    EveryEntry P (caches.insert node key) := by
  intro other found hfound
  rw [Caches.entry_insert] at hfound
  split at hfound
  · rename_i heq
    cases hfound
    exact heq ▸ hnew
  · exact h other found hfound

theorem EveryEntry.clear_ip_cache (h : EveryEntry P caches) : EveryEntry P (dpdk_filter.clear_ip_cache caches) := by
  intro key node hentry
  cases key with
  | ip key => simp [Caches.entry, dpdk_filter.clear_ip_cache] at hentry
  | domain name => exact h (.domain name) node hentry

theorem EveryEntry.clear_dns_cache (h : EveryEntry P caches) : EveryEntry P (dpdk_filter.clear_dns_cache caches) := by
  intro key node hentry
  cases key with
  | ip key => exact h (.ip key) node hentry
  | domain name => simp [Caches.entry, dpdk_filter.clear_dns_cache] at hentry

variable {sys : System} {hz : UInt64} {policy : BasePolicy} {w : World Caches} {p : RteMbuf × PacketEnv}

/-- One packet: what holds of every entry still does, if it holds of the entry the
packet stores. -/
theorem EveryEntry.process_packet (h : EveryEntry P w.caches)
    (hnew : check_is_exception (sys.parse p.1).number_port = false → cache_answer sys hz w.caches p = .enoent →
      has_room p.2 = true → P (stored_key (sys.parse p.1)) (stored_node sys policy p)) :
    EveryEntry P (dpdk_filter.process_packet sys (rteCaches hz) policy w p).caches := by
  have hlooked : EveryEntry P (looked_up sys hz w.caches p) := h.lookup_cache hz p.2.cache _
  cases hport : check_is_exception (sys.parse p.1).number_port with
  | true =>
    rw [caches_of_exception policy hport]
    exact h
  | false =>
    obtain hmiss | ⟨node, hhit⟩ := cache_answer_cases sys hz w.caches p
    · rw [caches_of_miss policy hport hmiss]
      split
      · rename_i hroom
        exact hlooked.insert (hnew hport hmiss hroom)
      · exact hlooked
    · rw [caches_of_hit policy hport hhit]
      exact hlooked

/-- What holds of every entry holds of an entry a packet is served. -/
theorem EveryEntry.served (h : EveryEntry P caches) {node : NodeCache}
    (hhit : cache_answer sys hz caches p = .hit node) : P (lookup_key (sys.parse p.1)) node :=
  h _ node (entry_of_hit hhit)

end EveryEntry

end grpc_server.dpdk_filter
