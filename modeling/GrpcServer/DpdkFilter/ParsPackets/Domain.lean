import GrpcServer.DpdkFilter.ParsPackets.Name

open c_memory

namespace grpc_server.dpdk_filter

/-- The mask of the L4 field in a packet type. The field is an enumeration. -/
abbrev RTE_PTYPE_L4_MASK : UInt32 := 0xF00

variable {net : RteNet} {packet : RteMbuf}

/-- `info_pac` when `parsing_pakage` comes to its DNS branch. -/
def parsed_headers (net : RteNet) (packet : RteMbuf) : InfoOfPakage :=
  parse_network net packet { InfoOfPakage.zero with ethernet_type_host := be16_at packet.data 12 }

/-- The offset behind the twelve bytes of the DNS header. -/
def dns_name_start (net : RteNet) (packet : RteMbuf) : ℕ :=
  let hdr_lens := (net.rte_net_get_ptype packet).2
  hdr_lens.l2_len + hdr_lens.l3_len + hdr_lens.l4_len + 12

/-- The tests in front of the name loops. -/
def is_dns_query (net : RteNet) (packet : RteMbuf) : Prop :=
  (net.rte_net_get_ptype packet).1 &&& RTE_PTYPE_L4_UDP ≠ 0 ∧
    (parsed_headers net packet).number_port = ⟨0, 53⟩ ∧ dns_name_start net packet < packet.data_len

instance (net : RteNet) (packet : RteMbuf) : Decidable (is_dns_query net packet) :=
  inferInstanceAs (Decidable (_ ∧ _ ∧ _))

/-- Where the validation loop stops, and the length it has counted by then. -/
def dns_name_stop (net : RteNet) (packet : RteMbuf) : ℕ × ℕ :=
  dns_name_end packet.data 128 (dns_name_start net packet) 0

/-- The 128 rounds of the model are as many as the loop of the source can take. -/
theorem dns_name_stop_settled (net : RteNet) (packet : RteMbuf) :
    packet.data (dns_name_stop net packet).1 = 0 ∨ 255 ≤ (dns_name_stop net packet).2 :=
  dns_name_end_settled packet.data 128 (dns_name_start net packet) 0 (by decide)

/-- The test between the two loops. -/
def dns_name_accepted (net : RteNet) (packet : RteMbuf) : Prop :=
  packet.data (dns_name_stop net packet).1 = 0 ∧ 0 < (dns_name_stop net packet).2

instance (net : RteNet) (packet : RteMbuf) : Decidable (dns_name_accepted net packet) :=
  inferInstanceAs (Decidable (_ ∧ _))

/-- The bytes the copy loop writes from `info_pac->domain` on, the terminator
included. -/
def domain_writes (net : RteNet) (packet : RteMbuf) : Str :=
  if is_dns_query net packet ∧ dns_name_accepted net packet then
    dns_name_copy packet.data 128 (dns_name_start net packet) true ++ [0]
  else []

theorem domain_writes_of_accepted (hquery : is_dns_query net packet) (hname : dns_name_accepted net packet) :
    domain_writes net packet = dns_name_copy packet.data 128 (dns_name_start net packet) true ++ [0] :=
  if_pos ⟨hquery, hname⟩

theorem domain_writes_of_not (h : ¬ (is_dns_query net packet ∧ dns_name_accepted net packet)) :
    domain_writes net packet = [] :=
  if_neg h

theorem parse_dns_parsed_headers (net : RteNet) (packet : RteMbuf) :
    parse_dns net packet (parsed_headers net packet) =
      (parsed_headers net packet).write_domain (domain_writes net packet) := by
  by_cases hquery : is_dns_query net packet
  · by_cases hname : dns_name_accepted net packet
    · rw [domain_writes_of_accepted hquery hname]
      exact (if_pos hquery).trans (if_pos hname)
    · rw [domain_writes_of_not fun h => hname h.2]
      exact (if_pos hquery).trans (if_neg hname)
  · rw [domain_writes_of_not fun h => hquery h.1]
    exact if_neg hquery

/-- What the headers say, with the name written over it. -/
theorem parsing_pakage_eq (net : RteNet) (packet : RteMbuf) :
    parsing_pakage net packet =
      if (net.rte_net_get_ptype packet).1 = RTE_PTYPE_UNKNOWN then InfoOfPakage.zero
      else (parsed_headers net packet).write_domain (domain_writes net packet) := by
  rw [← parse_dns_parsed_headers]
  rfl

theorem not_is_dns_query_of_unknown (h : (net.rte_net_get_ptype packet).1 = RTE_PTYPE_UNKNOWN) :
    ¬ is_dns_query net packet := by
  intro hquery
  have hudp := hquery.1
  rw [h, UInt32.zero_and] at hudp
  exact hudp rfl

/-- The types for which a branch of `parsing_pakage` takes a port from the packet. -/
def reads_port (pkt_type : UInt32) : Prop :=
  (pkt_type &&& RTE_PTYPE_L3_IPV4 ≠ 0 ∨ pkt_type &&& RTE_PTYPE_L3_IPV6 ≠ 0) ∧
    (pkt_type &&& RTE_PTYPE_L4_TCP ≠ 0 ∨ pkt_type &&& RTE_PTYPE_L4_UDP ≠ 0)

instance (pkt_type : UInt32) : Decidable (reads_port pkt_type) := inferInstanceAs (Decidable (_ ∧ _))

/-- The offset of the destination port in a TCP or UDP header. -/
def port_offset (net : RteNet) (packet : RteMbuf) : ℕ :=
  let hdr_lens := (net.rte_net_get_ptype packet).2
  hdr_lens.l2_len + hdr_lens.l3_len + 2

theorem parsed_headers_port (net : RteNet) (packet : RteMbuf) :
    (parsed_headers net packet).number_port =
      if reads_port (net.rte_net_get_ptype packet).1 then be16_at packet.data (port_offset net packet)
      else ⟨0, 0⟩ := by
  by_cases hip4 : (net.rte_net_get_ptype packet).1 &&& RTE_PTYPE_L3_IPV4 = 0 <;>
  by_cases hip6 : (net.rte_net_get_ptype packet).1 &&& RTE_PTYPE_L3_IPV6 = 0 <;>
  by_cases htcp : (net.rte_net_get_ptype packet).1 &&& RTE_PTYPE_L4_TCP = 0 <;>
  by_cases hudp : (net.rte_net_get_ptype packet).1 &&& RTE_PTYPE_L4_UDP = 0 <;>
  simp [parsed_headers, parse_network, parse_port, reads_port, port_offset, hip4, hip6, htcp, hudp, InfoOfPakage.zero]

/-- The headers leave the name alone. -/
theorem parsed_headers_domain (net : RteNet) (packet : RteMbuf) :
    (parsed_headers net packet).domain = fun _ => 0 := by
  simp only [parsed_headers, parse_network, parse_port]
  split_ifs <;> rfl

/-- The array holds what the copy loop wrote, in front of the zeros. -/
theorem parsing_pakage_domain (net : RteNet) (packet : RteMbuf) (k : Fin DOMAIN_MAX_LEN) :
    (parsing_pakage net packet).domain k = (domain_writes net packet).getD k.val 0 := by
  rw [parsing_pakage_eq]
  split
  · rename_i hunknown
    rw [domain_writes_of_not fun h => not_is_dns_query_of_unknown hunknown h.1]
    rfl
  · rw [InfoOfPakage.write_domain, parsed_headers_domain]

/-- A name behind the header is written with dots between its labels, whatever
its length, once the validation loop has come to its last label. -/
theorem domain_writes_of_name {labels : List Str} (hquery : is_dns_query net packet)
    (hvalid : ∀ label ∈ labels, ValidLabel label)
    (hname : NameAt packet.data (dns_name_start net packet) labels) (hne : labels ≠ [])
    (hcut : (labels.dropLast.map (·.length + 1)).sum < 255) :
    domain_writes net packet = dotted true labels ++ [0] := by
  have hrounds : labels.length ≤ 128 := by
    have hcount := two_mul_length_le fun label hlabel => hvalid label (List.dropLast_subset labels hlabel)
    rw [List.length_dropLast] at hcount
    omega
  have hlen : 0 < 0 + (labels.map (·.length + 1)).sum := by
    have hcount := two_mul_length_le hvalid
    have hpositive := List.length_pos_iff.mpr hne
    omega
  obtain ⟨stop, hstop, hzero⟩ := dns_name_end_eq hvalid 128 _ 0 hname hrounds fun _ => by rwa [Nat.zero_add]
  have haccepted : dns_name_accepted net packet := by
    rw [dns_name_accepted, dns_name_stop, hstop]
    exact ⟨hzero, hlen⟩
  rw [domain_writes_of_accepted hquery haccepted, dns_name_copy_eq hvalid 128 _ true hname hrounds]

/-- The array holds the first 260 bytes of the name, with zeros behind it. -/
theorem parsing_pakage_domain_of_name {labels : List Str} (hquery : is_dns_query net packet)
    (hvalid : ∀ label ∈ labels, ValidLabel label)
    (hname : NameAt packet.data (dns_name_start net packet) labels) (hne : labels ≠ [])
    (hcut : (labels.dropLast.map (·.length + 1)).sum < 255) :
    (parsing_pakage net packet).domain = fun k => (dotted true labels).getD k.val 0 := by
  funext k
  rw [parsing_pakage_domain, domain_writes_of_name hquery hvalid hname hne hcut, List.getD_eq_getElem?_getD,
    List.getD_eq_getElem?_getD, List.getElem?_append]
  split
  · rfl
  · rename_i hge
    rw [List.getElem?_eq_none (Nat.le_of_not_lt hge)]
    cases k.val - (dotted true labels).length <;> simp

/-- A name of at most 259 bytes stands in its array as it was asked for. -/
theorem domain_str_of_name {labels : List Str} (hquery : is_dns_query net packet)
    (hvalid : ∀ label ∈ labels, ValidLabel label)
    (hname : NameAt packet.data (dns_name_start net packet) labels) (hne : labels ≠ [])
    (hcut : (labels.dropLast.map (·.length + 1)).sum < 255) (hbytes : ∀ b ∈ dotted true labels, b ≠ 0)
    (hshort : (dotted true labels).length < DOMAIN_MAX_LEN) :
    (parsing_pakage net packet).domain.Terminated ∧
      (parsing_pakage net packet).domain_str = dotted true labels := by
  have hdomain := parsing_pakage_domain_of_name hquery hvalid hname hne hcut
  have hterm : (parsing_pakage net packet).domain.Terminated := by
    refine ⟨⟨(dotted true labels).length, hshort⟩, ?_⟩
    rw [hdomain]
    simp
  refine ⟨hterm, ?_⟩
  rw [InfoOfPakage.domain_str_of_terminated hterm]
  exact Slot.str_of_getD hbytes (congrFun hdomain) hshort.le

/-- Conversely, what is written comes from a name behind the header. -/
theorem exists_name_of_accepted (h : dns_name_accepted net packet) :
    ∃ labels : List Str, labels ≠ [] ∧ (∀ label ∈ labels, ValidLabel label) ∧
      NameAt packet.data (dns_name_start net packet) labels ∧
      (labels.dropLast.map (·.length + 1)).sum < 255 ∧
      (dns_name_stop net packet).1 = dns_name_start net packet + (labels.map (·.length + 1)).sum := by
  obtain ⟨labels, hvalid, hname, _, hcut, hend⟩ := exists_name_of_end_zero 128 (dns_name_start net packet) 0 h.1
  have hne : labels ≠ [] := by
    rintro rfl
    have hlen := h.2
    rw [dns_name_stop, hend] at hlen
    exact absurd hlen (Nat.lt_irrefl 0)
  refine ⟨labels, hne, hvalid, hname, by simpa using hcut hne, ?_⟩
  rw [dns_name_stop, hend]

end grpc_server.dpdk_filter
