import GrpcServer.DpdkFilter.ParsPackets.Bounds
import GrpcServer.DpdkFilter.ProcPackets.Counters
import GrpcServer.DpdkFilter.ProcPackets.PacketType
import GrpcServer.DpdkFilter.ProcPackets.Provenance

open c_memory ttl_cache transition grpc_server.worker

namespace grpc_server.dpdk_filter

/-- The destination address in the IP header, for the frames in which
`parsing_pakage` recognises one. -/
def destination (net : RteNet) (packet : RteMbuf) : Option IpKey :=
  let (pkt_type, hdr_lens) := net.rte_net_get_ptype packet
  if pkt_type &&& RTE_PTYPE_L3_IPV4 ≠ 0 then
    some ⟨4, fun k => bytesOf (slot_at packet.data (hdr_lens.l2_len + 16) 4) k.val⟩
  else if pkt_type &&& RTE_PTYPE_L3_IPV6 ≠ 0 then
    some ⟨6, slot_at packet.data (hdr_lens.l2_len + 24) IP6_LEN⟩
  else none

/-- The address `::`. -/
def unspecified : IpKey := ⟨6, fun _ => 0⟩

section Parse

variable {net : RteNet} {packet : RteMbuf}

theorem destination_eq_none : destination net packet = none ↔
    (net.rte_net_get_ptype packet).1 &&& RTE_PTYPE_L3_IPV4 = 0 ∧
      (net.rte_net_get_ptype packet).1 &&& RTE_PTYPE_L3_IPV6 = 0 := by
  simp only [destination]
  split
  · simp_all
  · split <;> simp_all

/-- Such a frame has no port and no name, and its key is that of `::`. -/
theorem parsing_pakage_of_not_ip (h : destination net packet = none) :
    check_is_exception (parsing_pakage net packet).number_port = false ∧ (parsing_pakage net packet).domain 0 = 0 ∧
      ip_key (parsing_pakage net packet) = unspecified := by
  rw [destination_eq_none] at h
  have hport : (parsing_pakage net packet).number_port = ⟨0, 0⟩ := by
    rw [parsing_pakage_port, if_neg]
    rintro ⟨hip4 | hip6, _⟩
    · exact hip4 h.1
    · exact hip6 h.2
  refine ⟨hport ▸ by decide, congrFun (parsing_pakage_domain_of_port_zero hport) 0, ?_⟩
  rw [parsing_pakage_eq]
  split
  · rfl
  · have hheaders : parsed_headers net packet =
        { InfoOfPakage.zero with ethernet_type_host := be16_at packet.data 12 } := by
      simp [parsed_headers, parse_network, h]
    have hquery : ¬ is_dns_query net packet := by
      rintro ⟨-, hdns, -⟩
      rw [hheaders] at hdns
      cases hdns
    rw [hheaders, domain_writes_of_not fun hboth => hquery hboth.1]
    rfl

theorem ip_key_parse_port (info : InfoOfPakage) : ip_key (parse_port net packet info) = ip_key info := by
  simp only [parse_port]
  split
  · rfl
  · split <;> rfl

/-- A name that stays in its array leaves the addresses as the headers have them. -/
theorem ip_key_of_destination {key : IpKey} (h : destination net packet = some key)
    (hfits : (domain_writes net packet).length ≤ DOMAIN_MAX_LEN) : ip_key (parsing_pakage net packet) = key := by
  have hknown : (net.rte_net_get_ptype packet).1 ≠ RTE_PTYPE_UNKNOWN := by
    intro hunknown
    rw [destination_eq_none.mpr (by simp [hunknown])] at h
    cases h
  have hbehind : ∀ (k : ℕ) (b : UInt8), 260 ≤ k → (domain_writes net packet).getD k b = b := by
    intro k b hk
    rw [List.getD_eq_getElem?_getD, List.getElem?_eq_none (hfits.trans hk), Option.getD_none]
  have hkey : ip_key (parsing_pakage net packet) = ip_key (parsed_headers net packet) := by
    rw [parsing_pakage_eq, if_neg hknown]
    have hversion := hbehind 260 (parsed_headers net packet).ip_version (by decide)
    have hip4 := fun k : Fin 4 => hbehind (266 + k.val) ((parsed_headers net packet).ip4_dist k) (by omega)
    have hip6 := fun k : Fin 16 => hbehind (286 + k.val) ((parsed_headers net packet).ip6_dist k) (by omega)
    simp only [ip_key, InfoOfPakage.write_domain, hversion, hip4, hip6]
  rw [hkey]
  simp only [destination] at h
  split at h
  · rename_i hip4
    cases h
    simp only [parsed_headers, parse_network, if_pos hip4, ip_key_parse_port]
    rfl
  · rename_i hip4
    split at h
    · rename_i hip6
      cases h
      simp only [parsed_headers, parse_network, if_neg hip4, if_pos hip6, ip_key_parse_port]
      rfl
    · cases h

end Parse

/-- A call to the IP cache. -/
inductive IpCall where
  | lookup (key : IpKey)
  | add (key : IpKey)

variable {C : Type}

/-- The same caches with a record of the calls to the IP cache. -/
def CacheOps.recording (ops : CacheOps C) : CacheOps (C × List IpCall) :=
  { lookup_ip_cache := fun env key s =>
      let (ret, caches) := ops.lookup_ip_cache env key s.1
      (ret, caches, s.2 ++ [.lookup key])
    lookup_dns_cache := fun env domain s =>
      let (ret, caches) := ops.lookup_dns_cache env domain s.1
      (ret, caches, s.2)
    add_to_ip_cache := fun env key node ttl_ip s => (ops.add_to_ip_cache env key node ttl_ip s.1, s.2 ++ [.add key])
    add_to_dns_cache := fun env domain node ttl_dns s => (ops.add_to_dns_cache env domain node ttl_dns s.1, s.2) }

/-- The same calls with other answers to the classification of addresses. -/
def PacketEnv.with_ip_answers (env : PacketEnv)
    (answers : Str → Option (ClassifyResponse × RequestedClassification)) : PacketEnv :=
  { env with
    worker_classify := fun type target =>
      match type with
      | .ip => answers target
      | .domain => env.worker_classify .domain target }

section Course

variable (sys : System) (ops : CacheOps C)

/-- The calls to the IP cache while a packet is processed. -/
def ip_calls (w : World C) (r : Round) : List IpCall :=
  (process_round sys ops.recording ⟨w.wire, w.caches, []⟩ r).caches.2

/-- The packet is no business of the IP filter: no call to its cache, and whatever
the classification of an address would answer makes no difference. -/
def StaysOut (w : World C) (r : Round) : Prop :=
  ip_calls sys ops w r = [] ∧
    ∀ answers, process_round sys ops w { r with env := r.env.with_ip_answers answers } = process_round sys ops w r

theorem process_with_project {D : Type} (project : D → C) (net : RteNet) (env : PacketEnv) (pkt : RteMbuf)
    (number_port : Be16) {lookup_cache : C → Lookup NodeCache × C} {lookup_cache' : D → Lookup NodeCache × D}
    (solution_is_send : Bool) {add_to_cache : NodeCache → C → C} {add_to_cache' : NodeCache → D → D} (w : World D)
    (hlookup : ∀ d, lookup_cache (project d) = ((lookup_cache' d).1, project (lookup_cache' d).2))
    (hadd : ∀ node d, add_to_cache node (project d) = project (add_to_cache' node d)) :
    process_with net env pkt number_port lookup_cache solution_is_send add_to_cache ⟨w.wire, project w.caches⟩ =
      ⟨(process_with net env pkt number_port lookup_cache' solution_is_send add_to_cache' w).wire,
        project (process_with net env pkt number_port lookup_cache' solution_is_send add_to_cache' w).caches⟩ := by
  unfold process_with
  split
  · rfl
  · rw [hlookup]
    rcases lookup_cache' w.caches with ⟨_ | _ | _, caches⟩
    · rfl
    · cases env.node_alloc_ok with
      | true => simp [hadd]
      | false => rfl
    · rfl

/-- Recording changes nothing else. -/
theorem process_round_recording (w : World (C × List IpCall)) (r : Round) :
    process_round sys ops ⟨w.wire, w.caches.1⟩ r =
      ⟨(process_round sys ops.recording w r).wire, (process_round sys ops.recording w r).caches.1⟩ := by
  unfold process_round
  split
  · rfl
  · by_cases hdomain : (sys.parse r.pkt).domain 0 = 0
    · rw [process_packet_of_ip hdomain, process_packet_of_ip hdomain]
      exact process_with_project Prod.fst _ _ _ _ _ ⟨_, w.caches⟩ (fun _ => rfl) fun _ _ => rfl
    · rw [process_packet_of_domain hdomain, process_packet_of_domain hdomain]
      exact process_with_project Prod.fst _ _ _ _ _ ⟨_, w.caches⟩ (fun _ => rfl) fun _ _ => rfl

/-- What follows the lookup: only a miss adds the key. -/
def IpCall.after_lookup (ret : Lookup NodeCache) (node_alloc_ok : Bool) (key : IpKey) : List IpCall :=
  match ret with
  | .enoent => if node_alloc_ok then [.add key] else []
  | _ => []

/-- A packet without a name is looked up, unless its port is an exception. -/
theorem ip_calls_of_ip {r : Round} (hon : r.filtring_is_turned_off = false)
    (hport : check_is_exception (sys.parse r.pkt).number_port = false) (hdomain : (sys.parse r.pkt).domain 0 = 0)
    (w : World C) :
    ip_calls sys ops w r = .lookup (ip_key (sys.parse r.pkt)) ::
      IpCall.after_lookup (ops.lookup_ip_cache r.env.cache (ip_key (sys.parse r.pkt)) w.caches).1 r.env.node_alloc_ok
        (ip_key (sys.parse r.pkt)) := by
  rw [ip_calls, process_round, hon, if_neg Bool.false_ne_true, process_packet_of_ip hdomain, process_ip]
  rcases hlookup : ops.lookup_ip_cache r.env.cache (ip_key (sys.parse r.pkt)) w.caches with ⟨ret, caches⟩
  have hrecorded : ops.recording.lookup_ip_cache r.env.cache (ip_key (sys.parse r.pkt)) (w.caches, []) =
      (ret, caches, [.lookup (ip_key (sys.parse r.pkt))]) := by
    simp [CacheOps.recording, hlookup]
  cases ret with
  | hit node =>
    rw [process_with_hit hport hrecorded]
    rfl
  | enoent =>
    rw [process_with_enoent hport hrecorded]
    cases r.env.node_alloc_ok <;> rfl
  | error =>
    rw [process_with, hport, if_neg Bool.false_ne_true, hrecorded]
    rfl

end Course

section Run

variable {net : RteNet} {inet : Inet} {hz : UInt64}

/-- A frame without an IP header is looked up as `::`. -/
theorem ip_calls_of_not_ip {r : Round} (hon : r.filtring_is_turned_off = false)
    (hframe : destination net r.pkt = none) (ops : CacheOps C) (w : World C) :
    ip_calls (filter_system net inet) ops w r = .lookup unspecified ::
      IpCall.after_lookup (ops.lookup_ip_cache r.env.cache unspecified w.caches).1 r.env.node_alloc_ok unspecified := by
  obtain ⟨hport, hdomain, hkey⟩ := parsing_pakage_of_not_ip hframe
  rw [ip_calls_of_ip (filter_system net inet) ops hon hport hdomain w, filter_system_parse, hkey]

/-- A run with filtering on as the packets and their policies. -/
theorem process_round_of_on {sys : System} {ops : CacheOps C} {r : Round} (hon : r.filtring_is_turned_off = false)
    (w : World C) : process_round sys ops w r = process_packet sys ops r.policy w (r.pkt, r.env) := by
  rw [process_round, hon, if_neg Bool.false_ne_true]

/-- A packet without a name that finds no verdict for its key leaves one. -/
theorem mem_ip_hash_of_miss {sys : System} {r : Round} {key : IpKey} (hon : r.filtring_is_turned_off = false)
    (hport : check_is_exception (sys.parse r.pkt).number_port = false) (hkey : lookup_key (sys.parse r.pkt) = .ip key)
    (hroom : has_room r.env = true) {w : World Caches}
    (hmiss : (lookup_ip_cache hz r.env.cache key w.caches).1 = .enoent) :
    key ∈ (process_round sys (rteCaches hz) w r).caches.ip_hash := by
  have hanswer : cache_answer sys hz w.caches (r.pkt, r.env) = .enoent := by
    rw [cache_answer, hkey]
    exact hmiss
  rw [process_round_of_on hon, caches_of_miss (p := (r.pkt, r.env)) r.policy hport hanswer, if_pos hroom,
    stored_key, hkey]
  exact Finmap.mem_insert.mpr (.inl rfl)

/-- A packet with a name leaves the IP cache alone. -/
theorem ip_hash_of_name {sys : System} {r : Round} (hon : r.filtring_is_turned_off = false)
    (hname : (sys.parse r.pkt).domain 0 ≠ 0) (w : World Caches) :
    (process_round sys (rteCaches hz) w r).caches.ip_hash = w.caches.ip_hash := by
  rw [process_round_of_on hon, process_packet_of_domain hname, process_domain]
  apply process_with_keeps fun caches : Caches => caches.ip_hash = w.caches.ip_hash
  · rfl
  · rfl
  · intro _ _ _
    rfl

/-- Such a frame is stored under `::`. -/
theorem unspecified_cached_of_not_ip (inet : Inet) {r : Round} (hon : r.filtring_is_turned_off = false)
    (hframe : destination net r.pkt = none) (hroom : has_room r.env = true) {w : World Caches}
    (hmiss : (lookup_ip_cache hz r.env.cache unspecified w.caches).1 = .enoent) :
    unspecified ∈ (process_round (filter_system net inet) (rteCaches hz) w r).caches.ip_hash := by
  obtain ⟨hport, hdomain, hkey⟩ := parsing_pakage_of_not_ip hframe
  have hlookup : lookup_key ((filter_system net inet).parse r.pkt) = .ip unspecified := by
    rw [lookup_key, filter_system_parse, if_pos hdomain, hkey]
  rw [← filter_system_parse net inet] at hport
  exact mem_ip_hash_of_miss hon hport hlookup hroom hmiss

/-- Every key of the IP cache is the destination of one of the packets. -/
def Destined (net : RteNet) (rounds : List Round) (caches : Caches) : Prop :=
  ∀ key ∈ caches.ip_hash, ∃ r ∈ rounds, destination net r.pkt = some key

theorem destined_iff_everyEntry {rounds : List Round} {caches : Caches} :
    Destined net rounds caches ↔ EveryEntry (fun key _ =>
      ∀ address, key = .ip address → ∃ r ∈ rounds, destination net r.pkt = some address) caches := by
  constructor
  · rintro h key node hentry address rfl
    exact h address (Finmap.mem_iff.mpr ⟨node, hentry⟩)
  · intro h key hkey
    obtain ⟨node, hnode⟩ := Finmap.mem_iff.mp hkey
    exact h (.ip key) node hnode key rfl

/-- One packet: an IP packet whose name stays in its array stores its verdict under
its own destination. -/
theorem Destined.process_round {past : List Round} {w : World Caches} {r : Round} (hpast : Destined net past w.caches)
    (hon : r.filtring_is_turned_off = false) (hip : destination net r.pkt ≠ none) (hfits : NameFits net r.pkt) :
    Destined net (past ++ [r]) (dpdk_filter.process_round (filter_system net inet) (rteCaches hz) w r).caches := by
  obtain ⟨key, hkey⟩ := Option.ne_none_iff_exists'.mp hip
  rw [process_round_of_on hon]
  rw [destined_iff_everyEntry] at hpast ⊢
  apply EveryEntry.process_packet
  · refine hpast.mono ?_
    intro key node hkey address haddress
    obtain ⟨q, hq, hdestination⟩ := hkey address haddress
    exact ⟨q, List.mem_append_left [r] hq, hdestination⟩
  · intro _ _ _ address haddress
    refine ⟨r, List.mem_append_right past (List.mem_singleton_self r), ?_⟩
    rw [stored_key, filter_system_parse, lookup_key] at haddress
    split at haddress
    · cases haddress
      rw [hkey, ip_key_of_destination hkey (length_domain_writes_le_iff.mpr hfits)]
    · cases haddress

/-- In a run with filtering on, the frames without an IP header stay out of IP
filtering only if there are none, and if there are none and no name overruns its
array, every key of the IP cache is the destination of an IP packet received so
far. -/
theorem non_ip_frames_filtered (net : RteNet) (inet : Inet) (hz : UInt64) (rounds : List Round) (w : World Caches)
    (hon : ∀ r ∈ rounds, r.filtring_is_turned_off = false) (hstart : w.caches.ip_hash = ∅) :
    let after := fun past => List.foldl (process_round (filter_system net inet) (rteCaches hz)) w past
    ((∀ past r rest, rounds = past ++ r :: rest → destination net r.pkt = none →
        StaysOut (filter_system net inet) (rteCaches hz) (after past) r) ↔
      ∀ r ∈ rounds, destination net r.pkt ≠ none) ∧
    ((∀ r ∈ rounds, destination net r.pkt ≠ none ∧ NameFits net r.pkt) →
      ∀ past rest, rounds = past ++ rest → Destined net past (after past).caches) := by
  intro after
  refine ⟨⟨?_, ?_⟩, ?_⟩
  · intro hout r hr hframe
    obtain ⟨past, rest, rfl⟩ := List.append_of_mem hr
    have hnone := (hout past r rest rfl hframe).1
    rw [ip_calls_of_not_ip (hon r hr) hframe] at hnone
    cases hnone
  · rintro hip past r rest rfl hframe
    exact absurd hframe (hip r (by simp))
  · intro hall past
    refine foldl_history (fun past (next : World Caches) => ∀ rest, rounds = past ++ rest →
      Destined net past next.caches) ?_ ?_ past
    · intro rest _ key hkey
      rw [hstart] at hkey
      exact absurd hkey Finmap.notMem_empty
    · intro past r ih rest heq
      rw [List.append_assoc, List.singleton_append] at heq
      have hr : r ∈ rounds := by simp [heq]
      exact (ih (r :: rest) heq).process_round (hon r hr) (hall r hr).1 (hall r hr).2

/-- What DPDK reports for an ARP frame. -/
def arp_net : RteNet := { rte_net_get_ptype := fun _ => (0x3, ⟨14, 0, 0⟩), rte_ipv4_cksum := ipv4_cksum }

/-- A frame of the ARP ethertype, with filtering on. -/
def arp_round : Round :=
  { policy := BasePolicy.zero
    filtring_is_turned_off := false
    pkt := { id := 0, data := fun k => [0, 0, 0, 0, 0, 0, 0, 0, 0, 0, 0, 0, 8, 6].getD k 0, data_len := 42 }
    env := failed_env }

/-- An ARP frame is looked up as `::` and stored as `::`. -/
theorem arp_frame_cached :
    destination arp_net arp_round.pkt = none ∧
    ip_calls (filter_system arp_net Inet.mute) (rteCaches 1) ⟨Wire.start, Caches.empty⟩ arp_round =
      [.lookup unspecified, .add unspecified] ∧
    ¬ StaysOut (filter_system arp_net Inet.mute) (rteCaches 1) ⟨Wire.start, Caches.empty⟩ arp_round ∧
    ¬ Destined arp_net [arp_round] (process_round (filter_system arp_net Inet.mute) (rteCaches 1)
      ⟨Wire.start, Caches.empty⟩ arp_round).caches := by
  have hframe : destination arp_net arp_round.pkt = none := by decide
  have hmiss : (lookup_ip_cache 1 arp_round.env.cache unspecified Caches.empty).1 = .enoent := rfl
  have hcalls : ip_calls (filter_system arp_net Inet.mute) (rteCaches 1) ⟨Wire.start, Caches.empty⟩ arp_round =
      [.lookup unspecified, .add unspecified] := by
    rw [ip_calls_of_not_ip rfl hframe]
    rfl
  refine ⟨hframe, hcalls, ?_, ?_⟩
  · rintro ⟨hnone, -⟩
    rw [hcalls] at hnone
    cases hnone
  · intro hdestined
    have hroom : has_room arp_round.env = true := by decide
    have hon : arp_round.filtring_is_turned_off = false := by decide
    have hmem := unspecified_cached_of_not_ip Inet.mute (w := ⟨Wire.start, Caches.empty⟩) hon hframe hroom hmiss
    obtain ⟨r, hr, hdestination⟩ := hdestined unspecified hmem
    rw [List.mem_singleton.mp hr, hframe] at hdestination
    cases hdestination

/-- A query for `a` to 10.0.0.2. -/
def letter_round : Round := { arp_round with pkt := dns_query 0 [[97]] }

/-- A query without a name to 10.0.0.2. -/
def nameless_round : Round := { arp_round with pkt := dns_query 1 [] }

/-- The verdict on the second query is stored under the address it was sent to. -/
theorem queries_destined :
    let after := [letter_round, nameless_round].foldl (process_round (filter_system udp4_net Inet.mute) (rteCaches 1))
      ⟨Wire.start, Caches.empty⟩
    ip_key (parsing_pakage udp4_net nameless_round.pkt) ∈ after.caches.ip_hash ∧
      Destined udp4_net [letter_round, nameless_round] after.caches := by
  intro after
  have hon : ∀ r ∈ [letter_round, nameless_round], r.filtring_is_turned_off = false := by
    intro r hr
    obtain rfl | rfl := List.mem_pair.mp hr <;> rfl
  have hquery : ∀ r ∈ [letter_round, nameless_round], destination udp4_net r.pkt ≠ none ∧ NameFits udp4_net r.pkt := by
    intro r hr
    rw [Ne, destination_eq_none, ← length_domain_writes_le_iff]
    obtain rfl | rfl := List.mem_pair.mp hr <;> decide +kernel
  refine ⟨?_, (non_ip_frames_filtered udp4_net Inet.mute 1 _ ⟨Wire.start, Caches.empty⟩ hon rfl).2 hquery _ []
    (List.append_nil _).symm⟩
  have hname : ((filter_system udp4_net Inet.mute).parse letter_round.pkt).domain 0 ≠ 0 := letter_query_name_ne 0
  have hport : check_is_exception ((filter_system udp4_net Inet.mute).parse nameless_round.pkt).number_port = false := by
    decide
  have hroom : has_room nameless_round.env = true := by decide
  have hmiss : (lookup_ip_cache 1 nameless_round.env.cache (ip_key (parsing_pakage udp4_net nameless_round.pkt))
      (process_round (filter_system udp4_net Inet.mute) (rteCaches 1) ⟨Wire.start, Caches.empty⟩
        letter_round).caches).1 = .enoent := by
    rw [lookup_ip_cache_fst, ip_hash_of_name rfl hname]
    rfl
  have hmem := mem_ip_hash_of_miss (r := nameless_round) rfl hport (if_pos rfl) hroom hmiss
  exact hmem

end Run

end grpc_server.dpdk_filter
