import GrpcServer.DpdkFilter.ParsPackets.Query
import GrpcServer.DpdkFilter.ProcPackets.View

open c_memory ttl_cache grpc_server.worker

namespace grpc_server.dpdk_filter

/-- What a classification target stands for does not change during a run. -/
abbrev Classifier := ClassifyType → Str → Option (ClassifyResponse × RequestedClassification)

/-- Every cached verdict is the filter's verdict for every packet its key can
answer. -/
structure Faithful (sys : System) (policy : BasePolicy) (classifier : Classifier) (caches : Caches) : Prop where
  ip : Holds (fun key node => ∀ env info_pac, env.worker_classify = classifier → ip_key info_pac = key →
    node.solution_is_send = ip_solution sys.inet policy env info_pac) caches.ip_hash
  dns : Holds (fun key node => ∀ env info_pac, env.worker_classify = classifier → info_pac.domain = key →
    node.solution_is_send = domain_solution policy env info_pac) caches.dns_hash

/-- Two packets with one key have the same address family and destination. -/
theorem ip_key_inj {first second : InfoOfPakage} (h : ip_key first = ip_key second) :
    (first.ip_version = IP_4 ∧ second.ip_version = IP_4 ∧ first.ip4_dist = second.ip4_dist) ∨
    (first.ip_version ≠ IP_4 ∧ second.ip_version ≠ IP_4 ∧ first.ip6_dist = second.ip6_dist) := by
  unfold ip_key at h
  split at h
  · rename_i hfirst
    split at h
    · rename_i hsecond
      refine .inl ⟨hfirst, hsecond, funext fun k => ?_⟩
      have hbyte := congrFun (congrArg IpKey.addr h) ⟨k.val, k.isLt.trans (by decide)⟩
      simpa using hbyte
    · exact nomatch (congrArg IpKey.version h : (4 : UInt32) = 6)
  · rename_i hfirst
    split at h
    · exact nomatch (congrArg IpKey.version h : (6 : UInt32) = 4)
    · rename_i hsecond
      exact .inr ⟨hfirst, hsecond, congrArg IpKey.addr h⟩

theorem ip_solution_of_key {inet : Inet} {policy : BasePolicy} {first second : InfoOfPakage} {env other : PacketEnv}
    (hkey : ip_key first = ip_key second) (henv : env.worker_classify = other.worker_classify) :
    ip_solution inet policy env first = ip_solution inet policy other second := by
  have hstr : ip_str inet first = ip_str inet second := by
    obtain ⟨hfirst, hsecond, heq⟩ | ⟨hfirst, hsecond, heq⟩ := ip_key_inj hkey
    · simp only [ip_str, if_pos hfirst, if_pos hsecond, heq]
    · simp only [ip_str, if_neg hfirst, if_neg hsecond, heq]
  have hcheck : ∀ ip4 ip6, check_ip ip4 ip6 first = check_ip ip4 ip6 second := by
    intro ip4 ip6
    obtain ⟨hfirst, hsecond, heq⟩ | ⟨hfirst, hsecond, heq⟩ := ip_key_inj hkey
    · simp only [check_ip, if_pos hfirst, if_pos hsecond, heq]
    · simp only [check_ip, if_neg hfirst, if_neg hsecond, heq]
  have hblock : check_ip_is_block first policy = check_ip_is_block second policy := hcheck _ _
  have hallow : check_ip_is_allow first policy = check_ip_is_allow second policy := hcheck _ _
  simp only [ip_solution, PacketEnv.req_clas, henv, hstr, main_filtring_by_ip, hblock, hallow]

theorem domain_solution_of_str {policy : BasePolicy} {first second : InfoOfPakage} {env other : PacketEnv}
    (hstr : first.domain_str = second.domain_str) (henv : env.worker_classify = other.worker_classify) :
    domain_solution policy env first = domain_solution policy other second := by
  simp only [domain_solution, PacketEnv.req_clas, henv, hstr, main_filtring_by_domain]

/-- A packet that hits the key stored for a terminated name asks for that name. -/
theorem domain_solution_of_key_copy {policy : BasePolicy} {first second : InfoOfPakage} {env other : PacketEnv}
    (hterm : first.domain.Terminated) (hkey : second.domain = dns_key_copy first.domain)
    (henv : env.worker_classify = other.worker_classify) :
    domain_solution policy env first = domain_solution policy other second := by
  apply domain_solution_of_str _ henv
  have hsecond : second.domain.Terminated := hkey ▸ dns_key_copy_terminated _
  rw [InfoOfPakage.domain_str_of_terminated hterm, InfoOfPakage.domain_str_of_terminated hsecond, hkey,
    dns_key_copy_str_of_terminated hterm]

/-- What the filter does with a packet when every lookup misses. -/
def missed (net : RteNet) (env : PacketEnv) (pkt : RteMbuf) (number_port : Be16) (solution_is_send : Bool)
    (w : Wire) : Wire :=
  if check_is_exception number_port then
    package_sending_decision net env.tx_ok true pkt .port_in .port_exception w
  else package_sending_decision net env.tx_ok solution_is_send pkt .port_in .port_out w

/-- A branch whose cached verdicts are right does what it would do on a miss. -/
theorem process_with_missed {C : Type} (inv : C → Prop) (net : RteNet) (env : PacketEnv) (pkt : RteMbuf)
    (number_port : Be16) (lookup_cache : C → Lookup NodeCache × C) (solution_is_send : Bool)
    (add_to_cache : NodeCache → C → C) (w : World C) (hinv : inv w.caches)
    (hlookup : inv (lookup_cache w.caches).2 ∧ ((lookup_cache w.caches).1 = .enoent ∨
      ∃ node, (lookup_cache w.caches).1 = .hit node ∧ node.solution_is_send = solution_is_send))
    (hadd : ∀ caches, inv caches → inv (add_to_cache (NodeCache.fresh solution_is_send) caches)) :
    inv (process_with net env pkt number_port lookup_cache solution_is_send add_to_cache w).caches ∧
    (process_with net env pkt number_port lookup_cache solution_is_send add_to_cache w).wire =
      missed net env pkt number_port solution_is_send w.wire := by
  obtain ⟨hkept, ⟨hport, hwire⟩ | ⟨hport, verdict, hverdict, hwire⟩⟩ :=
    process_with_rule inv (· = solution_is_send) net env pkt number_port lookup_cache solution_is_send
      add_to_cache w hinv (fun _ => ⟨hlookup.1, hlookup.2.imp (fun h => ⟨h, rfl⟩) id⟩) (fun _ => hadd)
  · exact ⟨hkept, by rw [hwire, missed, if_pos hport]⟩
  · refine ⟨hkept, ?_⟩
    rw [hwire, missed, hverdict, hport]
    rfl

theorem Faithful.empty (sys : System) (policy : BasePolicy) (classifier : Classifier) :
    Faithful sys policy classifier Caches.empty := ⟨holds_empty _, holds_empty _⟩

theorem Faithful.process_ip {sys : System} {policy : BasePolicy} {classifier : Classifier} {w : World Caches}
    (h : Faithful sys policy classifier w.caches) (hz : UInt64) {env : PacketEnv}
    (henv : env.worker_classify = classifier) (pkt : RteMbuf) (info_pac : InfoOfPakage) :
    Faithful sys policy classifier (dpdk_filter.process_ip sys (rteCaches hz) policy env pkt info_pac w).caches ∧
    (dpdk_filter.process_ip sys (rteCaches hz) policy env pkt info_pac w).wire =
      missed sys.net env pkt info_pac.number_port (ip_solution sys.inet policy env info_pac) w.wire := by
  apply process_with_missed (Faithful sys policy classifier) _ _ _ _ _ _ _ _ h
  · refine ⟨⟨h.ip.lookup _ _ _, h.dns⟩, ?_⟩
    obtain henoent | ⟨node, hhit, hverdict⟩ := h.ip.answer (NodeCache.expired hz env.cache.lookup_cycles)
      env.cache.del_key_ok (ip_key info_pac)
    · exact .inl henoent
    · exact .inr ⟨node, hhit, hverdict env info_pac henv rfl⟩
  · intro caches hcaches
    refine ⟨hcaches.ip.add _ ?_, hcaches.dns⟩
    intro other second hother hkey
    exact ip_solution_of_key hkey.symm (henv.trans hother.symm)

theorem Faithful.process_domain {sys : System} {policy : BasePolicy} {classifier : Classifier}
    {w : World Caches} (h : Faithful sys policy classifier w.caches) (hz : UInt64) {env : PacketEnv}
    (henv : env.worker_classify = classifier) (pkt : RteMbuf) {info_pac : InfoOfPakage}
    (hterm : info_pac.domain.Terminated) :
    Faithful sys policy classifier
      (dpdk_filter.process_domain sys (rteCaches hz) policy env pkt info_pac w).caches ∧
    (dpdk_filter.process_domain sys (rteCaches hz) policy env pkt info_pac w).wire =
      missed sys.net env pkt info_pac.number_port (domain_solution policy env info_pac) w.wire := by
  apply process_with_missed (Faithful sys policy classifier) _ _ _ _ _ _ _ _ h
  · refine ⟨⟨h.ip, h.dns.lookup _ _ _⟩, ?_⟩
    obtain henoent | ⟨node, hhit, hverdict⟩ := h.dns.answer (NodeCache.expired hz env.cache.lookup_cycles)
      env.cache.del_key_ok info_pac.domain
    · exact .inl henoent
    · exact .inr ⟨node, hhit, hverdict env info_pac henv rfl⟩
  · intro caches hcaches
    refine ⟨hcaches.ip, hcaches.dns.add _ ?_⟩
    intro other second hother hkey
    exact domain_solution_of_key_copy hterm hkey (henv.trans hother.symm)

/-- One packet: the caches stay faithful and the wire is the one of the filter
whose caches always miss. -/
theorem process_packet_transparent {sys : System} {policy : BasePolicy} {classifier : Classifier}
    {w : World Caches} {v : World Unit} (h : Faithful sys policy classifier w.caches) (hwire : w.wire = v.wire)
    (hz : UInt64) {p : RteMbuf × PacketEnv} (henv : p.2.worker_classify = classifier)
    (hterm : (sys.parse p.1).domain.Terminated) :
    Faithful sys policy classifier (process_packet sys (rteCaches hz) policy w p).caches ∧
    (process_packet sys (rteCaches hz) policy w p).wire = (process_packet sys missCaches policy v p).wire := by
  obtain ⟨pkt, env⟩ := p
  have hmissed : ∀ number_port solution_is_send, (process_with sys.net env pkt number_port
      (fun c => (.enoent, c)) solution_is_send (fun _ c => c)
      { v with wire := (v.wire.emit .received).emit (.access pkt.id) }).wire =
      missed sys.net env pkt number_port solution_is_send ((v.wire.emit .received).emit (.access pkt.id)) :=
    fun number_port solution_is_send => (process_with_missed (fun _ => True) _ _ _ _ _ _ _ _ trivial
      ⟨trivial, .inl rfl⟩ fun _ _ => trivial).2
  by_cases hdomain : (sys.parse pkt).domain 0 = 0
  · rw [process_packet_of_ip hdomain, process_packet_of_ip hdomain]
    obtain ⟨hkept, heq⟩ := Faithful.process_ip (w := { w with wire := (w.wire.emit .received).emit (.access pkt.id) })
      h hz henv pkt (sys.parse pkt)
    refine ⟨hkept, heq.trans ?_⟩
    rw [hwire]
    exact (hmissed _ _).symm
  · rw [process_packet_of_domain hdomain, process_packet_of_domain hdomain]
    obtain ⟨hkept, heq⟩ := Faithful.process_domain
      (w := { w with wire := (w.wire.emit .received).emit (.access pkt.id) }) h hz henv pkt hterm
    refine ⟨hkept, heq.trans ?_⟩
    rw [hwire]
    exact (hmissed _ _).symm

/-- From empty caches, with a fixed classifier, every run whose packets all carry a
terminated name leaves the same trace, verdict by verdict, as the run whose caches
always miss. Clock, TTLs and failed insertions are arbitrary. -/
theorem cache_transparent (sys : System) (hz : UInt64) (policy : BasePolicy) (classifier : Classifier)
    (bursts : List (List (RteMbuf × PacketEnv)))
    (hclassifier : ∀ p ∈ bursts.flatten, p.2.worker_classify = classifier)
    (hterm : ∀ p ∈ bursts.flatten, (sys.parse p.1).domain.Terminated) (wire : Wire) :
    (process_bursts sys (rteCaches hz) policy bursts ⟨wire, Caches.empty⟩).wire =
      (process_bursts sys missCaches policy bursts ⟨wire, ()⟩).wire := by
  rw [process_bursts_eq, process_bursts_eq]
  have hrun : ∀ (pkts : List (RteMbuf × PacketEnv)) (w : World Caches) (v : World Unit),
      (∀ p ∈ pkts, p.2.worker_classify = classifier ∧ (sys.parse p.1).domain.Terminated) →
      Faithful sys policy classifier w.caches → w.wire = v.wire →
      (pkts.foldl (process_packet sys (rteCaches hz) policy) w).wire =
        (pkts.foldl (process_packet sys missCaches policy) v).wire := by
    intro pkts
    induction pkts with
    | nil => exact fun _ _ _ _ hwire => hwire
    | cons p rest ih =>
      intro w v hpkts hw hwire
      obtain ⟨henv, hname⟩ := hpkts p List.mem_cons_self
      obtain ⟨hkept, hnext⟩ := process_packet_transparent hw hwire hz henv hname
      exact ih _ _ (fun q hq => hpkts q (List.mem_cons_of_mem _ hq)) hkept hnext
  exact hrun _ _ _ (fun p hp => ⟨hclassifier p hp, hterm p hp⟩) (Faithful.empty sys policy classifier) rfl

/-- A name of 260 bytes is stored under the key of the name of 259 bytes. -/
theorem dns_key_copy_long_query (id other : ℕ) :
    dns_key_copy (parsing_pakage udp4_net (long_query id 6)).domain =
      (parsing_pakage udp4_net (long_query other 5)).domain := by
  have hlong := (parse_long_query id (n := 6) (by omega) (by omega)).2
  have hshort := (parse_long_query other (n := 5) (by omega) (by omega)).2
  have hstr := Slot.str_of_getD long_name_ne_zero hlong (length_long_name 6).le
  have hshortlen : (long_name 5).length = DOMAIN_MAX_LEN - 1 := length_long_name 5
  funext k
  rw [dns_key_copy_eq, hstr, hshort k, strncpy, cut_eq_self long_name_ne_zero, long_name_succ]
  simp only [List.getD_eq_getElem?_getD]
  split
  · rename_i hk
    rw [List.getElem?_append_left (by omega)]
  · rename_i hk
    rw [List.getElem?_eq_none (by omega)]
    rfl

/-- Classifications succeed for names that fit and fail for longer ones. -/
def short_classifier : Classifier := fun _ target =>
  if target.length < DOMAIN_MAX_LEN then some (⟨[], 0⟩, ⟨fun _ _ => 0, 0⟩) else none

/-- The empty policy with the default TTL. -/
def empty_policy : BasePolicy := { BasePolicy.zero with ttl_domain := DNS_CACHE_DEFAULT_TTL }

theorem domain_solution_long (id : ℕ) (env : PacketEnv) (henv : env.worker_classify = short_classifier) :
    domain_solution empty_policy env (parsing_pakage udp4_net (long_query id 6)) = true := by
  have hlong := (parse_long_query id (n := 6) (by omega) (by omega)).2
  have hterm : ¬ (parsing_pakage udp4_net (long_query id 6)).domain.Terminated := by
    rintro ⟨k, hk⟩
    have hlt : k.val < (long_name 6).length := k.isLt.trans_eq (length_long_name 6).symm
    rw [hlong, List.getD_eq_getElem?_getD, List.getElem?_eq_getElem hlt] at hk
    exact long_name_ne_zero _ (List.getElem_mem hlt) hk
  have hnone : env.worker_classify .domain (parsing_pakage udp4_net (long_query id 6)).domain_str = none := by
    rw [henv, short_classifier, if_neg (Nat.not_lt.mpr (InfoOfPakage.le_length_domain_str hterm))]
  rw [domain_solution, PacketEnv.req_clas, hnone]
  rfl

theorem domain_solution_short (id : ℕ) (env : PacketEnv) (henv : env.worker_classify = short_classifier) :
    domain_solution empty_policy env (parsing_pakage udp4_net (long_query id 5)) = false := by
  have hstr := long_query_str id (n := 5) (by omega) (by omega)
  have hsome : short_classifier .domain (long_name 5) = some (⟨[], 0⟩, ⟨fun _ _ => 0, 0⟩) := by
    rw [short_classifier, if_pos ((length_long_name 5).trans_lt (Nat.lt_succ_self 259))]
  have hcategory : (classify ⟨[], 0⟩ ⟨fun _ _ => 0, 0⟩).category 0 = [] :=
    RequestedClassification.category_eq_nil (i := 0) rfl
  have hlocked : check_categories (classify ⟨[], 0⟩ ⟨fun _ _ => 0, 0⟩) empty_policy = false :=
    (check_categories_eq_false_iff _ _).mpr ⟨0, by decide, 0, by decide,
      hcategory.trans (BasePolicy.locked_category_eq_nil (i := 0) rfl).symm⟩
  have hallow : check_domain_is_allow (long_name 5) empty_policy = false := by
    rw [Bool.eq_false_iff, ne_eq, check_domain_is_allow, check_domain_iff]
    exact not_listed_of_empty rfl _ _
  have hknown : ¬ ((classify ⟨[], 0⟩ ⟨fun _ _ => 0, 0⟩).get_trust_level = 0 ∧
      (classify ⟨[], 0⟩ ⟨fun _ _ => 0, 0⟩).category 0 = unknown) := by
    rw [hcategory]
    exact fun h => List.cons_ne_nil _ _ h.2.symm
  rw [domain_solution, PacketEnv.req_clas, henv, hstr, hsome]
  simp only [Option.map_some, solution, main_filtring_by_domain, hstr, hallow, check_categories_and_trust_level,
    if_neg hknown, hlocked]
  simp

theorem filtered_long_query (id : ℕ) {n : ℕ} (hn : 0 < n) (hbyte : n < 256) :
    (parsing_pakage udp4_net (long_query id n)).domain 0 ≠ 0 ∧
    check_is_exception (parsing_pakage udp4_net (long_query id n)).number_port = false := by
  obtain ⟨hport, hdomain⟩ := parse_long_query id hn hbyte
  rw [hport, hdomain]
  exact ⟨ne_of_beq_false rfl, by decide⟩

/-- Two names with one key: with the cache the second gets the first one's
verdict, without it its own. -/
theorem verdicts_of_shared_key (sys : System) (policy : BasePolicy) (env : PacketEnv) (first second : RteMbuf)
    (hz : UInt64) (hfirst : (sys.parse first).domain 0 ≠ 0) (hsecond : (sys.parse second).domain 0 ≠ 0)
    (hfirstport : check_is_exception (sys.parse first).number_port = false)
    (hsecondport : check_is_exception (sys.parse second).number_port = false)
    (hkey : dns_key_copy (sys.parse first).domain = (sys.parse second).domain)
    (hfresh : ∀ node : NodeCache, (node.stamped env.cache.add_cycles policy.ttl_domain).expired hz
      env.cache.lookup_cycles = false)
    (halloc : env.node_alloc_ok = true) (hstored : (env.cache.key_alloc_ok && env.cache.add_key_ok) = true)
    (wire : Wire) (hstart : wire.trace = []) :
    (process_bursts sys (rteCaches hz) policy [[(first, env), (second, env)]]
      ⟨wire, Caches.empty⟩).wire.view Event.verdict =
      [(first, domain_solution policy env (sys.parse first)),
        (second, domain_solution policy env (sys.parse first))] ∧
    (process_bursts sys missCaches policy [[(first, env), (second, env)]] ⟨wire, ()⟩).wire.view Event.verdict =
      [(first, domain_solution policy env (sys.parse first)),
        (second, domain_solution policy env (sys.parse second))] := by
  have hnone : wire.view Event.verdict = [] := by rw [Wire.view, hstart, List.filterMap_nil]
  rw [process_bursts_eq, process_bursts_eq]
  simp only [List.flatten_singleton, List.foldl_cons, List.foldl_nil]
  constructor
  · have hmiss : (rteCaches hz).lookup_dns_cache env.cache (sys.parse first).domain Caches.empty =
        (.enoent, Caches.empty) := rfl
    obtain ⟨hview, hcaches⟩ := process_packet_enoent policy ⟨wire, Caches.empty⟩ hfirst hfirstport hmiss
    obtain ⟨after, hhit⟩ := lookup_add_dns_cache hkey hstored
      (hfresh (NodeCache.fresh (domain_solution policy env (sys.parse first)))) Caches.empty
    rw [if_pos halloc] at hcaches
    generalize process_packet sys (rteCaches hz) policy ⟨wire, Caches.empty⟩ (first, env) = middle at hview hcaches
    have hsecondhit : (rteCaches hz).lookup_dns_cache env.cache (sys.parse second).domain middle.caches =
        (.hit ((NodeCache.fresh (domain_solution policy env (sys.parse first))).stamped env.cache.add_cycles
          policy.ttl_domain), after) := by
      rw [hcaches]
      exact hhit
    rw [process_packet_hit policy middle hsecond hsecondport hsecondhit, hview, hnone]
    rfl
  · have hmiss : ∀ pkt : RteMbuf, missCaches.lookup_dns_cache env.cache (sys.parse pkt).domain () =
        (.enoent, ()) := fun _ => rfl
    obtain ⟨hview, _⟩ := process_packet_enoent policy ⟨wire, ()⟩ hfirst hfirstport (hmiss first)
    generalize process_packet sys missCaches policy ⟨wire, ()⟩ (first, env) = middle at hview
    rw [(process_packet_enoent policy middle hsecond hsecondport (hmiss second)).1, hview, hnone]
    rfl

/-- A name of 260 bytes sent because its classification failed lets a name of
259 bytes pass that the filter itself would drop. -/
theorem cache_not_transparent :
    let env : PacketEnv := ⟨⟨0, true, true, 0, true⟩, short_classifier, true, true⟩
    let bursts := [[(long_query 0 6, env), (long_query 1 5, env)]]
    (process_bursts (filter_system udp4_net Inet.mute) (rteCaches 1) empty_policy bursts
      ⟨Wire.start, Caches.empty⟩).wire.view Event.verdict =
      [(long_query 0 6, true), (long_query 1 5, true)] ∧
    (process_bursts (filter_system udp4_net Inet.mute) missCaches empty_policy bursts
      ⟨Wire.start, ()⟩).wire.view Event.verdict =
      [(long_query 0 6, true), (long_query 1 5, false)] := by
  intro env bursts
  have hfresh : ∀ node : NodeCache, (node.stamped env.cache.add_cycles empty_policy.ttl_domain).expired 1
      env.cache.lookup_cycles = false := by
    intro node
    have hage : ¬ (DNS_CACHE_DEFAULT_TTL.toUInt32.toUInt64 ≤ (0 - 0) / 1) := by decide
    exact decide_eq_false hage
  obtain ⟨hfirst, hfirstport⟩ := filtered_long_query 0 (n := 6) (by omega) (by omega)
  obtain ⟨hsecond, hsecondport⟩ := filtered_long_query 1 (n := 5) (by omega) (by omega)
  have hrun := verdicts_of_shared_key (filter_system udp4_net Inet.mute) empty_policy env (long_query 0 6)
    (long_query 1 5) 1
  simp only [filter_system_parse, domain_solution_long 0 env rfl, domain_solution_short 1 env rfl] at hrun
  exact hrun hfirst hsecond hfirstport hsecondport (dns_key_copy_long_query 0 1) hfresh rfl rfl Wire.start rfl

/-- The same name asked for twice, answered from the cache the second time. -/
theorem cache_transparent_repeated :
    let env : PacketEnv := ⟨⟨0, true, true, 0, true⟩, short_classifier, true, true⟩
    let bursts := [[(dns_query 0 [[97]], env), (dns_query 1 [[97]], env)]]
    (process_bursts (filter_system udp4_net Inet.mute) (rteCaches 1) empty_policy bursts
      ⟨Wire.start, Caches.empty⟩).wire =
    (process_bursts (filter_system udp4_net Inet.mute) missCaches empty_policy bursts ⟨Wire.start, ()⟩).wire := by
  intro env bursts
  have hpkts : ∀ p ∈ bursts.flatten, ∃ id, p = (dns_query id [[97]], env) := by
    intro p hp
    simp only [bursts, List.flatten_singleton, List.mem_cons, List.not_mem_nil, or_false] at hp
    exact hp.elim (fun h => ⟨0, h⟩) fun h => ⟨1, h⟩
  refine cache_transparent (filter_system udp4_net Inet.mute) 1 empty_policy short_classifier bursts ?_ ?_ Wire.start
  · intro p hp
    obtain ⟨id, rfl⟩ := hpkts p hp
    rfl
  · intro p hp
    obtain ⟨id, rfl⟩ := hpkts p hp
    exact (parse_letter_query id).2.1

end grpc_server.dpdk_filter
