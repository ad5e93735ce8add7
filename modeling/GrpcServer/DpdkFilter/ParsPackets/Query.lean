import GrpcServer.DpdkFilter.ParsPackets.Domain

open c_memory

namespace grpc_server.dpdk_filter

def be16_bytes (n : ℕ) : Str := [UInt8.ofNat (n / 256), UInt8.ofNat n]

/-- The Internet checksum of an IPv4 header without options. -/
def ipv4_cksum (hdr : ℕ → UInt8) : Be16 :=
  let sum := ((List.range 10).map fun i => rte_be_to_cpu_16 ⟨hdr (2 * i), hdr (2 * i + 1)⟩).sum
  let folded := sum % 65536 + sum / 65536
  let cksum := 65535 - (folded % 65536 + folded / 65536)
  ⟨UInt8.ofNat (cksum / 256), UInt8.ofNat cksum⟩

/-- An IPv4 header from 10.0.0.1 to 10.0.0.2 over `len` bytes of UDP, with a time
to live of 64. -/
def ipv4_header (len : ℕ) (cksum : Be16) : Str :=
  [69, 0] ++ be16_bytes (20 + len) ++ [0, 0, 0, 0, 64, 17, cksum.hi, cksum.lo, 10, 0, 0, 1, 10, 0, 0, 2]

/-- The headers in front of a question: Ethernet, IPv4, UDP towards port 53, and
a DNS header that announces one question. -/
def query_header (len : ℕ) : Str :=
  [2, 0, 0, 0, 0, 1, 2, 0, 0, 0, 0, 2, 8, 0] ++
  ipv4_header (20 + len) (ipv4_cksum fun k => (ipv4_header (20 + len) ⟨0, 0⟩).getD k 0) ++
  [200, 0, 0, 53] ++ be16_bytes (20 + len) ++ [0, 0] ++ [0, 1, 1, 0, 0, 1, 0, 0, 0, 0, 0, 0]

/-- A DNS query for the address of the name with the given labels. -/
def dns_query (id : ℕ) (labels : List Str) : RteMbuf :=
  let question := wire_name labels ++ [0, 1, 0, 1]
  let bytes := query_header question.length ++ question
  { id, data := fun k => bytes.getD k 0, data_len := bytes.length }

abbrev udp4_ptype : UInt32 := RTE_PTYPE_L3_IPV4 ||| RTE_PTYPE_L4_UDP

/-- What DPDK reports for such a frame. -/
def udp4_net : RteNet :=
  { rte_net_get_ptype := fun _ => (udp4_ptype, ⟨14, 20, 8⟩)
    rte_ipv4_cksum := ipv4_cksum }

theorem length_query_header (len : ℕ) : (query_header len).length = 54 := rfl

theorem dns_query_name (id : ℕ) (labels : List Str) : NameAt (dns_query id labels).data 54 labels := by
  intro k hk
  simp only [dns_query, List.getD_eq_getElem?_getD]
  rw [List.getElem?_append_right (by rw [length_query_header]; omega), length_query_header, Nat.add_sub_cancel_left,
    List.getElem?_append_left hk]

theorem parsed_headers_port_udp4 (packet : RteMbuf) :
    (parsed_headers udp4_net packet).number_port = be16_at packet.data 36 := by
  have hip4 : udp4_ptype &&& RTE_PTYPE_L3_IPV4 ≠ 0 := by decide
  have htcp : ¬ (udp4_ptype &&& RTE_PTYPE_L4_TCP ≠ 0) := by decide
  have hudp : udp4_ptype &&& RTE_PTYPE_L4_UDP ≠ 0 := by decide
  exact congrArg InfoOfPakage.number_port ((if_pos hip4).trans ((if_neg htcp).trans (if_pos hudp)))

theorem is_dns_query_udp4 {packet : RteMbuf} (hport : be16_at packet.data 36 = ⟨0, 53⟩) (hroom : 54 < packet.data_len) :
    is_dns_query udp4_net packet := by
  have hudp : udp4_ptype &&& RTE_PTYPE_L4_UDP ≠ 0 := by decide
  exact ⟨hudp, (parsed_headers_port_udp4 packet).trans hport, hroom⟩

theorem is_dns_query_dns_query (id : ℕ) (labels : List Str) : is_dns_query udp4_net (dns_query id labels) := by
  refine is_dns_query_udp4 rfl ?_
  simp only [dns_query, List.length_append, length_query_header, List.length_cons]
  omega

theorem number_port_dns_query (id : ℕ) (labels : List Str) :
    (parsing_pakage udp4_net (dns_query id labels)).number_port = ⟨0, 53⟩ := by
  have hknown : udp4_ptype ≠ RTE_PTYPE_UNKNOWN := by decide
  rw [parsing_pakage_eq]
  exact (congrArg InfoOfPakage.number_port (if_neg hknown)).trans (is_dns_query_dns_query id labels).2.1

/-- A query for the name `a`. -/
theorem parse_letter_query (id : ℕ) :
    (parsing_pakage udp4_net (dns_query id [[97]])).number_port = ⟨0, 53⟩ ∧
    (parsing_pakage udp4_net (dns_query id [[97]])).domain.Terminated ∧
    (parsing_pakage udp4_net (dns_query id [[97]])).domain_str = [97] :=
  ⟨number_port_dns_query id _, domain_str_of_name (is_dns_query_dns_query id _) (by simp [ValidLabel])
    (dns_query_name id _) (by simp) (by decide) (by simp [dotted]) (by decide)⟩

/-- Five labels of the letter `a`. The validation loop accepts them since the first
four stay just below its cut-off. -/
def long_labels (n : ℕ) : List Str := [63, 63, 63, 61, n].map fun len => List.replicate len 97

/-- A query for a name of `254 + n` bytes. -/
def long_query (id n : ℕ) : RteMbuf := dns_query id (long_labels n)

/-- The name of `long_query`. -/
def long_name (n : ℕ) : Str := dotted true (long_labels n)

theorem long_name_ne_zero {n : ℕ} : ∀ b ∈ long_name n, b ≠ 0 := by
  apply dotted_ne_zero
  intro label hlabel b hb
  obtain ⟨len, _, rfl⟩ := List.mem_map.mp hlabel
  rw [List.eq_of_mem_replicate hb]
  decide

theorem length_long_name (n : ℕ) : (long_name n).length = 254 + n := by
  have hlen := length_dotted true (long_labels n)
  simp only [long_labels, List.map_cons, List.map_nil, List.length_replicate, List.sum_cons, List.sum_nil,
    List.isEmpty_cons, Bool.not_false, Bool.and_self, if_true] at hlen
  rw [long_name, long_labels]
  simp only [List.map_cons, List.map_nil]
  omega

theorem long_name_succ (n : ℕ) : long_name (n + 1) = long_name n ++ [97] := by
  have hlast : List.replicate (n + 1) (97 : UInt8) = List.replicate n 97 ++ [97] := List.replicate_succ'
  rw [long_name, long_labels, List.map_cons, List.map_cons, List.map_cons, List.map_cons, List.map_singleton, hlast]
  exact dotted_concat true [List.replicate 63 97, List.replicate 63 97, List.replicate 63 97, List.replicate 61 97]
    (List.replicate n 97) 97

theorem long_labels_valid {n : ℕ} (hn : 0 < n) (hbyte : n < 256) : ∀ label ∈ long_labels n, ValidLabel label := by
  intro label hlabel
  obtain ⟨len, hlen, rfl⟩ := List.mem_map.mp hlabel
  simp only [List.mem_cons, List.not_mem_nil, or_false] at hlen
  rw [ValidLabel, List.length_replicate]
  omega

theorem long_labels_cut (n : ℕ) : ((long_labels n).dropLast.map (·.length + 1)).sum < 255 := by
  simp [long_labels]

theorem parse_long_query (id : ℕ) {n : ℕ} (hn : 0 < n) (hbyte : n < 256) :
    (parsing_pakage udp4_net (long_query id n)).number_port = ⟨0, 53⟩ ∧
    ∀ k, (parsing_pakage udp4_net (long_query id n)).domain k = (long_name n).getD k.val 0 := by
  have hdomain := parsing_pakage_domain_of_name (is_dns_query_dns_query id _) (long_labels_valid hn hbyte)
    (dns_query_name id _) (List.cons_ne_nil _ _) (long_labels_cut n)
  exact ⟨number_port_dns_query id _, congrFun hdomain⟩

/-- Five bytes in the last label still end in the array. -/
theorem long_query_str (id : ℕ) {n : ℕ} (hn : 0 < n) (hshort : n < 6) :
    (parsing_pakage udp4_net (long_query id n)).domain_str = long_name n := by
  have hlen : (long_name n).length < DOMAIN_MAX_LEN := by
    rw [length_long_name]
    simp only [DOMAIN_MAX_LEN]
    omega
  exact (domain_str_of_name (is_dns_query_dns_query id _) (long_labels_valid hn (by omega))
    (dns_query_name id _) (List.cons_ne_nil _ _) (long_labels_cut n) long_name_ne_zero hlen).2

end grpc_server.dpdk_filter
