import GrpcServer.DpdkFilter.ParsPackets.Query

open c_memory

namespace grpc_server.dpdk_filter

variable {net : RteNet} {packet : RteMbuf} {labels : List Str}

/-- In a type whose L4 field is UDP the bit the parser tests is set. -/
theorem udp_bit_of_l4_udp {pkt_type : UInt32} (h : pkt_type &&& RTE_PTYPE_L4_MASK = RTE_PTYPE_L4_UDP) :
    pkt_type &&& RTE_PTYPE_L4_UDP ≠ 0 := by
  have hbit : pkt_type &&& RTE_PTYPE_L4_UDP = pkt_type &&& RTE_PTYPE_L4_MASK &&& RTE_PTYPE_L4_UDP := by
    rw [UInt32.and_assoc]
    rfl
  rw [hbit, h]
  decide

/-- A UDP packet to port 53 that goes beyond the DNS header is taken for a query. -/
theorem is_dns_query_of_udp
    (hl4 : (net.rte_net_get_ptype packet).1 &&& RTE_PTYPE_L4_MASK = RTE_PTYPE_L4_UDP)
    (hl3 : (net.rte_net_get_ptype packet).1 &&& RTE_PTYPE_L3_IPV4 ≠ 0 ∨
      (net.rte_net_get_ptype packet).1 &&& RTE_PTYPE_L3_IPV6 ≠ 0)
    (hport : be16_at packet.data (port_offset net packet) = ⟨0, 53⟩)
    (hroom : dns_name_start net packet < packet.data_len) : is_dns_query net packet := by
  have hudp := udp_bit_of_l4_udp hl4
  refine ⟨hudp, ?_, hroom⟩
  rw [parsed_headers_port, if_pos ⟨hl3, Or.inr hudp⟩, hport]

/-- A name within the limits of the DNS arrives in `domain` as its labels with
dots between them and zeros behind, and can be taken apart again. -/
theorem domain_round_trip
    (hl4 : (net.rte_net_get_ptype packet).1 &&& RTE_PTYPE_L4_MASK = RTE_PTYPE_L4_UDP)
    (hl3 : (net.rte_net_get_ptype packet).1 &&& RTE_PTYPE_L3_IPV4 ≠ 0 ∨
      (net.rte_net_get_ptype packet).1 &&& RTE_PTYPE_L3_IPV6 ≠ 0)
    (hport : be16_at packet.data (port_offset net packet) = ⟨0, 53⟩)
    (hname : NameAt packet.data (dns_name_start net packet) labels)
    (hwhole : dns_name_start net packet + (wire_name labels).length ≤ packet.data_len)
    (hne : labels ≠ []) (hlabels : ∀ label ∈ labels, 1 ≤ label.length ∧ label.length ≤ 63)
    (hwire : (wire_name labels).length ≤ 255) :
    ([46].intercalate labels).length < DOMAIN_MAX_LEN ∧
    (∀ k, (parsing_pakage net packet).domain k = ([46].intercalate labels).getD k.val 0) ∧
    ((∀ label ∈ labels, 46 ∉ label ∧ 0 ∉ label) →
      (parsing_pakage net packet).domain_str = [46].intercalate labels ∧
      (parsing_pakage net packet).domain_str.splitOn 46 = labels) := by
  have hsum : (labels.map (·.length + 1)).sum ≤ 254 := by
    rw [length_wire_name] at hwire
    omega
  have hvalid : ∀ label ∈ labels, ValidLabel label := fun label hlabel =>
    ⟨(hlabels label hlabel).1, by have := (hlabels label hlabel).2; omega⟩
  -- the running length of the validation loop stays below the cut-off to the end
  have hcut : (labels.dropLast.map (·.length + 1)).sum < 255 := by
    rw [← List.dropLast_append_getLast hne, List.map_append, List.sum_append] at hsum
    omega
  have hshort : (dotted true labels).length < DOMAIN_MAX_LEN := by
    have hlen := length_dotted true labels
    simp only [DOMAIN_MAX_LEN]
    omega
  have hquery : is_dns_query net packet :=
    is_dns_query_of_udp hl4 hl3 hport (by rw [length_wire_name] at hwhole; omega)
  rw [← dotted_eq_intercalate]
  refine ⟨hshort, congrFun (parsing_pakage_domain_of_name hquery hvalid hname hne hcut), fun hplain => ?_⟩
  have hstr := (domain_str_of_name hquery hvalid hname hne hcut
    (dotted_ne_zero fun label hlabel b hb hzero => (hplain label hlabel).2 (hzero ▸ hb)) hshort).2
  refine ⟨hstr, ?_⟩
  rw [hstr, dotted_eq_intercalate]
  exact List.splitOn_intercalate 46 (fun label hlabel => (hplain label hlabel).1) hne

/-- A query for `a.b`. -/
theorem domain_round_trip_two_labels :
    (parsing_pakage udp4_net (dns_query 0 [[97], [98]])).domain_str = [97, 46, 98] ∧
    (parsing_pakage udp4_net (dns_query 0 [[97], [98]])).domain_str.splitOn 46 = [[97], [98]] :=
  (@domain_round_trip udp4_net (dns_query 0 [[97], [98]]) [[97], [98]] (by decide) (by decide) rfl
    (dns_query_name 0 [[97], [98]]) (by decide) (by decide) (by decide) (by decide)).2.2 (by decide)

end grpc_server.dpdk_filter
