import GrpcServer.DpdkFilter.ParsPackets.Query
import GrpcServer.DpdkFilter.ProcPackets.View

open c_memory ttl_cache

namespace grpc_server.dpdk_filter

abbrev RTE_PTYPE_L4_FRAG : UInt32 := 0x300

variable {net : RteNet} {packet : RteMbuf}

theorem parsing_pakage_port (net : RteNet) (packet : RteMbuf) :
    (parsing_pakage net packet).number_port =
      if reads_port (net.rte_net_get_ptype packet).1 then be16_at packet.data (port_offset net packet)
      else ⟨0, 0⟩ := by
  rw [parsing_pakage_eq]
  split
  · rename_i hunknown
    rw [hunknown, if_neg (by decide)]
    rfl
  · exact parsed_headers_port net packet

theorem parsing_pakage_domain_of_port_zero (h : (parsing_pakage net packet).number_port = ⟨0, 0⟩) :
    (parsing_pakage net packet).domain = fun _ => 0 := by
  have hquery : ¬ is_dns_query net packet := by
    rintro ⟨-, hport, -⟩
    rw [parsed_headers_port, ← parsing_pakage_port, h] at hport
    exact absurd hport (by decide)
  funext k
  rw [parsing_pakage_domain, domain_writes_of_not fun hboth => hquery hboth.1]
  rfl

/-- The ports the sending decisions of a trace name. -/
def Event.exit : Event → Option Port
  | .decision _ _ out_port => some out_port
  | _ => none

theorem quiet_exit : Quiet Event.exit := ⟨rfl, rfl, fun _ => rfl, fun _ _ _ => rfl, fun _ => rfl⟩

variable {C : Type}

/-- A packet whose port is no exception leaves through `port_out`, if at all. -/
theorem process_with_exit (env : PacketEnv) (pkt : RteMbuf) {number_port : Be16}
    (lookup_cache : C → Lookup NodeCache × C) (solution_is_send : Bool) (add_to_cache : NodeCache → C → C)
    (w : World C) (hport : check_is_exception number_port = false) :
    ∃ exits, (process_with net env pkt number_port lookup_cache solution_is_send add_to_cache w).wire.view Event.exit =
        w.wire.view Event.exit ++ exits ∧ Port.port_exception ∉ exits := by
  obtain ⟨wire, before⟩ := w
  rcases hpair : lookup_cache before with ⟨ret, caches⟩
  cases ret with
  | hit node =>
    refine ⟨[.port_out], ?_, by decide⟩
    rw [process_with_hit hport hpair, quiet_exit.view_decision]
    cases node.solution_is_send <;> rfl
  | enoent =>
    refine ⟨[.port_out], ?_, by decide⟩
    rw [process_with_enoent hport hpair, quiet_exit.view_decision]
    cases solution_is_send <;> rfl
  | error =>
    refine ⟨[], ?_, List.not_mem_nil⟩
    simp [process_with, hport, hpair, Event.exit]

/-- A frame shows no port and no domain, and is judged by its destination address
alone, exactly when its type carries no IP header or shares no bit with TCP and
UDP, or zeros stand where a port would. Of the L4 fields that are neither TCP nor
UDP, FRAG, ICMP, NONFRAG and IGMP share such a bit. -/
theorem no_port_iff (net : RteNet) (inet : Inet) (ops : CacheOps C) (policy : BasePolicy) (w : World C)
    (packet : RteMbuf) (env : PacketEnv) :
    ((parsing_pakage net packet).number_port = ⟨0, 0⟩ ∧ (parsing_pakage net packet).domain = (fun _ => 0) ∧
      process_packet (filter_system net inet) ops policy w (packet, env) =
        process_ip (filter_system net inet) ops policy env packet (parsing_pakage net packet)
          { w with wire := (w.wire.emit .received).emit (.access packet.id) } ∧
      ∃ exits, (process_packet (filter_system net inet) ops policy w (packet, env)).wire.view Event.exit =
        w.wire.view Event.exit ++ exits ∧ Port.port_exception ∉ exits) ↔
    (¬ reads_port (net.rte_net_get_ptype packet).1 ∨ be16_at packet.data (port_offset net packet) = ⟨0, 0⟩) := by
  constructor
  · rintro ⟨hport, -⟩
    rw [parsing_pakage_port] at hport
    by_cases hreads : reads_port (net.rte_net_get_ptype packet).1
    · rw [if_pos hreads] at hport
      exact .inr hport
    · exact .inl hreads
  · intro hcond
    have hport : (parsing_pakage net packet).number_port = ⟨0, 0⟩ := by
      rw [parsing_pakage_port]
      split
      · rename_i hreads
        exact hcond.resolve_left (not_not_intro hreads)
      · rfl
    have hdomain := parsing_pakage_domain_of_port_zero hport
    have hcourse : process_packet (filter_system net inet) ops policy w (packet, env) = _ :=
      process_packet_of_ip (congrFun hdomain 0) policy w env
    refine ⟨hport, hdomain, hcourse, ?_⟩
    have hexception : check_is_exception (parsing_pakage net packet).number_port = false := by
      rw [hport]
      decide
    rw [hcourse]
    obtain ⟨exits, hview, hnot⟩ := process_with_exit env packet _ _ _ _ hexception
    refine ⟨exits, hview.trans ?_, hnot⟩
    rw [Wire.view_emit, Wire.view_emit]
    simp [Event.exit]

/-- What DPDK reports for a fragment of an IPv4 packet. -/
def frag4_net : RteNet :=
  { rte_net_get_ptype := fun _ => (RTE_PTYPE_L3_IPV4 ||| RTE_PTYPE_L4_FRAG, ⟨14, 20, 0⟩)
    rte_ipv4_cksum := ipv4_cksum }

/-- The last fragment of a UDP datagram to 10.0.0.2. Its eight bytes of payload
have 22 where a header would have the destination port. -/
def last_fragment : RteMbuf :=
  let header (cksum : Be16) : Str :=
    [69, 0, 0, 28, 0, 7, 0, 185, 64, 17, cksum.hi, cksum.lo, 10, 0, 0, 1, 10, 0, 0, 2]
  let bytes := [2, 0, 0, 0, 0, 1, 2, 0, 0, 0, 0, 2, 8, 0] ++
    header (ipv4_cksum fun k => (header ⟨0, 0⟩).getD k 0) ++ [0, 0, 0, 22, 0, 0, 0, 0]
  { id := 0, data := fun k => bytes.getD k 0, data_len := bytes.length }

/-- The fragment goes around the filter. -/
theorem fragment_taken_for_ssh :
    (frag4_net.rte_net_get_ptype last_fragment).1 &&& RTE_PTYPE_L4_MASK = RTE_PTYPE_L4_FRAG ∧
    (parsing_pakage frag4_net last_fragment).number_port = ⟨0, 22⟩ ∧
    ∀ (inet : Inet) (policy : BasePolicy) (w : World Caches) (env : PacketEnv),
      (process_packet (filter_system frag4_net inet) (rteCaches 1) policy w (last_fragment, env)).wire.view Event.exit =
        w.wire.view Event.exit ++ [.port_exception] := by
  have hport : (parsing_pakage frag4_net last_fragment).number_port = ⟨0, 22⟩ := by
    rw [parsing_pakage_port]
    decide
  have hquery : ¬ is_dns_query frag4_net last_fragment := by decide
  refine ⟨by decide, hport, fun inet policy w env => ?_⟩
  have hdomain : (parsing_pakage frag4_net last_fragment).domain 0 = 0 := by
    rw [parsing_pakage_domain, domain_writes_of_not fun hboth => hquery hboth.1]
    rfl
  rw [process_packet_of_ip hdomain, process_ip, filter_system_parse, hport, process_with, if_pos (by decide),
    quiet_exit.view_decision, Wire.view_emit, Wire.view_emit]
  simp [Event.exit]

end grpc_server.dpdk_filter
