import GrpcServer.DpdkFilter.ParsPackets.Query
import GrpcServer.DpdkFilter.ProcPackets.Keys
import GrpcServer.DpdkFilter.ProcPackets.View

open c_memory ttl_cache grpc_server.worker

namespace grpc_server.dpdk_filter

theorem view_handed_received (w : Wire) (m : ℕ) :
    ((w.emit .received).emit (.access m)).view Event.handed = w.view Event.handed := by
  simp [Event.handed]

/-- A packet on a filtered port and empty caches is handed to `port_out` by its
miss verdict. -/
theorem handed_of_empty_caches {sys : System} {policy : BasePolicy} {pkt : RteMbuf} {env : PacketEnv} (hz : UInt64)
    (hport : check_is_exception (sys.parse pkt).number_port = false) (wire : Wire) :
    (pakage_processing sys (rteCaches hz) policy false [(pkt, env)] ⟨wire, Caches.empty⟩).wire.view Event.handed =
      wire.view Event.handed ++
        if miss_solution sys policy env (sys.parse pkt) then [(pkt, .port_in, .port_out)] else [] := by
  change (process_packet sys (rteCaches hz) policy ⟨wire, Caches.empty⟩ (pkt, env)).wire.view _ = _
  rw [process_packet_eq, process_with_enoent hport (lookup_cache_empty ..), quiet_handed.view_decision,
    view_handed_received]
  rfl

/-- The domain filter rejects the name of a packet: the name is blocked, or it is
not allowed and its classification is rejected. -/
def NameRejected (policy : BasePolicy) (env : PacketEnv) (info_pac : InfoOfPakage) : Prop :=
  check_domain_is_block info_pac.domain_str policy = true ∨
  check_domain_is_allow info_pac.domain_str policy = false ∧
    ∃ req_clas, env.req_clas .domain info_pac.domain_str = some req_clas ∧
      check_categories_and_trust_level req_clas policy = false

theorem domain_solution_eq_false_iff {policy : BasePolicy} {env : PacketEnv} {info_pac : InfoOfPakage}
    (hclassified : (env.worker_classify .domain info_pac.domain_str).isSome = true) :
    domain_solution policy env info_pac = false ↔ NameRejected policy env info_pac := by
  obtain ⟨answer, hanswer⟩ := Option.isSome_iff_exists.mp hclassified
  have hreq : env.req_clas .domain info_pac.domain_str = some (classify answer.1 answer.2) := by
    rw [PacketEnv.req_clas, hanswer, Option.map_some]
  rw [domain_solution, NameRejected, hreq, solution, main_filtring_by_domain_eq_false_iff]
  simp only [Option.some.injEq, exists_eq_left']

theorem ip_solution_of_blocked {inet : Inet} {policy : BasePolicy} {env : PacketEnv} {info_pac : InfoOfPakage}
    (hclassified : (env.worker_classify .ip (ip_str inet info_pac)).isSome = true)
    (hblocked : check_ip_is_block info_pac policy = true) : ip_solution inet policy env info_pac = false := by
  obtain ⟨answer, hanswer⟩ := Option.isSome_iff_exists.mp hclassified
  rw [ip_solution, PacketEnv.req_clas, hanswer, Option.map_some, solution, main_filtring_by_ip_eq_false_iff]
  exact .inl hblocked

/-- With filtering on, empty caches and a classifier that answers, a packet to a
blocked address stays off `port_out` exactly when it carries no DNS name or the domain
filter rejects its name: a packet with a name is never looked up in the address lists.
-/
theorem blocked_address_dropped_iff (sys : System) (hz : UInt64) {policy : BasePolicy} {pkt : RteMbuf}
    {env : PacketEnv} (hport : check_is_exception (sys.parse pkt).number_port = false)
    (hclassified : ∀ type target, (env.worker_classify type target).isSome = true)
    (hblocked : check_ip_is_block (sys.parse pkt) policy = true) {wire : Wire}
    (hnew : .forward pkt .port_in .port_out ∉ wire.trace) :
    .forward pkt .port_in .port_out ∉
        (pakage_processing sys (rteCaches hz) policy false [(pkt, env)] ⟨wire, Caches.empty⟩).wire.trace ↔
      (sys.parse pkt).domain 0 = 0 ∨ NameRejected policy env (sys.parse pkt) := by
  have hverdict : miss_solution sys policy env (sys.parse pkt) = false ↔
      (sys.parse pkt).domain 0 = 0 ∨ NameRejected policy env (sys.parse pkt) := by
    unfold miss_solution
    split
    · rename_i hdomain
      exact iff_of_true (ip_solution_of_blocked (hclassified _ _) hblocked) (.inl hdomain)
    · rename_i hdomain
      rw [domain_solution_eq_false_iff (hclassified _ _), or_iff_right hdomain]
  rw [← Wire.mem_handed] at hnew ⊢
  rw [handed_of_empty_caches hz hport, List.mem_append, or_iff_right hnew, ← hverdict]
  cases miss_solution sys policy env (sys.parse pkt) <;> simp

/-- A policy that blocks 10.0.0.2. -/
def blocking_address : BasePolicy :=
  { BasePolicy.zero with block_ip4 := fun i => if i = 0 then fun k => [10, 0, 0, 2].getD k.val 0 else fun _ => 0 }

theorem letter_query_blocked_address (id : ℕ) :
    check_ip_is_block (parsing_pakage udp4_net (dns_query id [[97]])) blocking_address = true := by
  have hversion : (parsing_pakage udp4_net (dns_query id [[97]])).ip_version = IP_4 := rfl
  have haddress : (parsing_pakage udp4_net (dns_query id [[97]])).ip4_dist = fun k => [10, 0, 0, 2].getD k.val 0 := by
    funext k
    match k with
    | 0 | 1 | 2 | 3 => rfl
  rw [check_ip_is_block, check_ip, if_pos hversion, scan_finRange_iff]
  refine ⟨0, ?_, ?_⟩
  · intro j hj
    rw [Fin.le_zero_iff.mp hj]
    decide
  · rw [haddress]
    exact beq_self_eq_true _

theorem letter_query_port (id : ℕ) :
    check_is_exception (parsing_pakage udp4_net (dns_query id [[97]])).number_port = false := by
  rw [(parse_letter_query id).1]
  decide

/-- What the calls made for a packet return when its target is classified. -/
def classified_env (resp : ClassifyResponse) : PacketEnv :=
  ⟨⟨0, true, true, 0, true⟩, fun _ _ => some (resp, ⟨fun _ _ => 0, 0⟩), true, true⟩

theorem letter_query_name_ne (id : ℕ) : (parsing_pakage udp4_net (dns_query id [[97]])).domain 0 ≠ 0 := by
  rw [ne_eq, ← InfoOfPakage.domain_str_eq_nil, (parse_letter_query id).2.2]
  exact List.cons_ne_nil _ _

theorem blocking_address_lists_no_name (domain : Str) :
    check_domain_is_block domain blocking_address = false ∧ check_domain_is_allow domain blocking_address = false := by
  rw [← Bool.not_eq_true, ← Bool.not_eq_true, check_domain_is_block, check_domain_is_allow, check_domain_iff,
    check_domain_iff]
  exact ⟨not_listed_of_empty rfl _ _, not_listed_of_empty rfl _ _⟩

/-- A query for the unknown name `a` passes a resolver whose address is blocked. -/
theorem blocked_address_forwarded :
    let sys := filter_system udp4_net Inet.mute
    check_is_exception (sys.parse (dns_query 0 [[97]])).number_port = false ∧
    check_ip_is_block (sys.parse (dns_query 0 [[97]])) blocking_address = true ∧
    .forward (dns_query 0 [[97]]) .port_in .port_out ∈
      (pakage_processing sys (rteCaches 1) blocking_address false
        [(dns_query 0 [[97]], classified_env ⟨[unknown], 0⟩)] ⟨Wire.start, Caches.empty⟩).wire.trace := by
  refine ⟨letter_query_port 0, letter_query_blocked_address 0, ?_⟩
  have hunknown : check_categories_and_trust_level (classify ⟨[unknown], 0⟩ ⟨fun _ _ => 0, 0⟩) blocking_address =
      true := by
    rw [check_categories_and_trust_level, if_pos]
    decide +kernel
  have hsolution : miss_solution (filter_system udp4_net Inet.mute) blocking_address (classified_env ⟨[unknown], 0⟩)
      (parsing_pakage udp4_net (dns_query 0 [[97]])) = true := by
    rw [miss_solution, if_neg (letter_query_name_ne 0), domain_solution, PacketEnv.req_clas, classified_env,
      Option.map_some, solution, main_filtring_by_domain, (blocking_address_lists_no_name _).1,
      (blocking_address_lists_no_name _).2, if_neg Bool.false_ne_true, if_neg Bool.false_ne_true, hunknown]
  have hport : check_is_exception ((filter_system udp4_net Inet.mute).parse (dns_query 0 [[97]])).number_port = false :=
    letter_query_port 0
  rw [← Wire.mem_handed, handed_of_empty_caches 1 hport, filter_system_parse, hsolution]
  exact List.mem_append_right _ (List.mem_singleton_self _)

/-- The same query is dropped when its classification has too low a trust level. -/
theorem blocked_address_dropped_query :
    let sys := filter_system udp4_net Inet.mute
    check_ip_is_block (sys.parse (dns_query 0 [[97]])) blocking_address = true ∧
    .forward (dns_query 0 [[97]]) .port_in .port_out ∉
      (pakage_processing sys (rteCaches 1) blocking_address false
        [(dns_query 0 [[97]], classified_env ⟨[], -1⟩)] ⟨Wire.start, Caches.empty⟩).wire.trace := by
  intro sys
  have hblocked : check_ip_is_block (sys.parse (dns_query 0 [[97]])) blocking_address = true :=
    letter_query_blocked_address 0
  refine ⟨hblocked, (blocked_address_dropped_iff sys 1 (letter_query_port 0) (fun _ _ => rfl) hblocked ?_).mpr ?_⟩
  · exact List.not_mem_nil
  · exact .inr (.inr ⟨(blocking_address_lists_no_name _).2, _, rfl, by decide +kernel⟩)

end grpc_server.dpdk_filter
