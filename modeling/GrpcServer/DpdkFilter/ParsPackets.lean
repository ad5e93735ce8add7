import GrpcServer.DpdkFilter.Types

open c_memory

namespace grpc_server.dpdk_filter

/-- A received buffer. `data` are the bytes from `rte_pktmbuf_mtod` on, also
those behind `data_len` that earlier packets left in the buffer. -/
structure RteMbuf where
  id : ℕ
  data : ℕ → UInt8
  data_len : ℕ

structure RteNetHdrLens where
  l2_len : ℕ
  l3_len : ℕ
  l4_len : ℕ

/-- The DPDK functions that inspect a frame. -/
structure RteNet where
  rte_net_get_ptype : RteMbuf → UInt32 × RteNetHdrLens
  rte_ipv4_cksum : (ℕ → UInt8) → Be16

abbrev RTE_PTYPE_UNKNOWN : UInt32 := 0
abbrev RTE_PTYPE_L3_IPV4 : UInt32 := 0x10
abbrev RTE_PTYPE_L3_IPV6 : UInt32 := 0x40
abbrev RTE_PTYPE_L4_TCP : UInt32 := 0x100
abbrev RTE_PTYPE_L4_UDP : UInt32 := 0x200

def be16_at (data : ℕ → UInt8) (off : ℕ) : Be16 := ⟨data off, data (off + 1)⟩

def slot_at (data : ℕ → UInt8) (off w : ℕ) : Slot w := fun k => data (off + k.val)

/-- The validation loop: `pos` and `domain_len` when it stops. Each round adds
at least two to `domain_len`, so 128 rounds reach the cut-off of 255. -/
def dns_name_end (data : ℕ → UInt8) : ℕ → ℕ → ℕ → ℕ × ℕ
  | 0, pos, domain_len => (pos, domain_len)
  | rounds + 1, pos, domain_len =>
    if data pos ≠ 0 ∧ domain_len < 255 then
      dns_name_end data rounds (pos + (data pos).toNat + 1) (domain_len + (data pos).toNat + 1)
    else (pos, domain_len)

/-- The copy loop: the bytes written through `dst` before the terminator. The
separator is written in front of every label but the first. -/
def dns_name_copy (data : ℕ → UInt8) : ℕ → ℕ → Bool → Str
  | 0, _, _ => []
  | rounds + 1, pos, first =>
    if data pos ≠ 0 then
      (if first then [] else [46]) ++ (List.range (data pos).toNat).map (fun k => data (pos + 1 + k)) ++
        dns_name_copy data rounds (pos + 1 + (data pos).toNat) false
    else []

/-- Bytes written one after another from `info_pac->domain` on. What does not
fit the array lands in the members behind it; bytes past the structure are
outside the parse result. -/
def InfoOfPakage.write_domain (info : InfoOfPakage) (out : Str) : InfoOfPakage :=
  { info with
    domain := fun k => out.getD k.val (info.domain k)
    ip_version := out.getD 260 info.ip_version
    pad := out.getD 261 info.pad
    ip4_src := fun k => out.getD (262 + k.val) (info.ip4_src k)
    ip4_dist := fun k => out.getD (266 + k.val) (info.ip4_dist k)
    ip6_src := fun k => out.getD (270 + k.val) (info.ip6_src k)
    ip6_dist := fun k => out.getD (286 + k.val) (info.ip6_dist k) }

/-- `number_port` as the TCP or UDP branch of either address family sets it. -/
def parse_port (net : RteNet) (packet : RteMbuf) (info : InfoOfPakage) : InfoOfPakage :=
  let (pkt_type, hdr_lens) := net.rte_net_get_ptype packet
  if pkt_type &&& RTE_PTYPE_L4_TCP ≠ 0 then
    { info with number_port := be16_at packet.data (hdr_lens.l2_len + hdr_lens.l3_len + 2) }
  else if pkt_type &&& RTE_PTYPE_L4_UDP ≠ 0 then
    { info with number_port := be16_at packet.data (hdr_lens.l2_len + hdr_lens.l3_len + 2) }
  else info

def parse_network (net : RteNet) (packet : RteMbuf) (info : InfoOfPakage) : InfoOfPakage :=
  let (pkt_type, hdr_lens) := net.rte_net_get_ptype packet
  if pkt_type &&& RTE_PTYPE_L3_IPV4 ≠ 0 then
    parse_port net packet
      { info with
        ip_version := IP_4
        ethernet_type_protocol := ⟨0x08, 0x00⟩
        ip4_src := slot_at packet.data (hdr_lens.l2_len + 12) 4
        ip4_dist := slot_at packet.data (hdr_lens.l2_len + 16) 4 }
  else if pkt_type &&& RTE_PTYPE_L3_IPV6 ≠ 0 then
    parse_port net packet
      { info with
        ip_version := IP_6
        ethernet_type_protocol := ⟨0x86, 0xdd⟩
        ip6_src := slot_at packet.data (hdr_lens.l2_len + 8) IP6_LEN
        ip6_dist := slot_at packet.data (hdr_lens.l2_len + 24) IP6_LEN }
  else info

def parse_dns (net : RteNet) (packet : RteMbuf) (info : InfoOfPakage) : InfoOfPakage :=
  let (pkt_type, hdr_lens) := net.rte_net_get_ptype packet
  let l4_offset := hdr_lens.l2_len + hdr_lens.l3_len + hdr_lens.l4_len
  if pkt_type &&& RTE_PTYPE_L4_UDP ≠ 0 ∧ info.number_port = ⟨0, 53⟩ ∧ l4_offset + 12 < packet.data_len then
    let dns_name_start := l4_offset + 12
    let name_end := dns_name_end packet.data 128 dns_name_start 0
    if packet.data name_end.1 = 0 ∧ 0 < name_end.2 then
      info.write_domain (dns_name_copy packet.data 128 dns_name_start true ++ [0])
    else info
  else info

/-- `parsing_pakage` on a zeroed `info_pac`. -/
def parsing_pakage (net : RteNet) (packet : RteMbuf) : InfoOfPakage :=
  if (net.rte_net_get_ptype packet).1 = RTE_PTYPE_UNKNOWN then InfoOfPakage.zero
  else
    parse_dns net packet
      (parse_network net packet
        { InfoOfPakage.zero with ethernet_type_host := be16_at packet.data 12 })

end grpc_server.dpdk_filter
