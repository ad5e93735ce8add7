import GrpcServer.DpdkFilter.ParsPackets.Query

open c_memory

namespace grpc_server.dpdk_filter

variable {net : RteNet} {packet : RteMbuf}

theorem length_domain_writes {labels : List Str} (hquery : is_dns_query net packet)
    (hvalid : ∀ label ∈ labels, ValidLabel label)
    (hname : NameAt packet.data (dns_name_start net packet) labels) (hne : labels ≠ [])
    (hcut : (labels.dropLast.map (·.length + 1)).sum < 255) :
    (domain_writes net packet).length = (labels.map (·.length + 1)).sum := by
  have hlen := length_dotted true labels
  rw [domain_writes_of_name hquery hvalid hname hne hcut, List.length_append, List.length_singleton, ← hlen]
  cases labels with
  | nil => exact absurd rfl hne
  | cons label labels => rfl

/-- The name of a packet that takes the DNS branch counts at most 260 bytes with its
length bytes, if the labels in front of the last one stay below the cut-off. -/
def NameFits (net : RteNet) (packet : RteMbuf) : Prop :=
  ∀ labels : List Str, is_dns_query net packet → (∀ label ∈ labels, ValidLabel label) →
    NameAt packet.data (dns_name_start net packet) labels →
    (labels.dropLast.map (·.length + 1)).sum < 255 →
    (labels.map (·.length + 1)).sum ≤ DOMAIN_MAX_LEN

theorem length_domain_writes_le_iff : (domain_writes net packet).length ≤ DOMAIN_MAX_LEN ↔ NameFits net packet := by
  constructor
  · intro hfit labels hquery hvalid hname hcut
    by_cases hne : labels = []
    · rw [hne]
      exact Nat.zero_le _
    · rwa [length_domain_writes hquery hvalid hname hne hcut] at hfit
  · intro hshort
    by_cases h : is_dns_query net packet ∧ dns_name_accepted net packet
    · obtain ⟨labels, hne, hvalid, hname, hcut, -⟩ := exists_name_of_accepted h.2
      rw [length_domain_writes h.1 hvalid hname hne hcut]
      exact hshort labels h.1 hvalid hname hcut
    · rw [domain_writes_of_not h]
      exact Nat.zero_le _

/-- The copy loop stays inside `domain` exactly when the name takes at most 260
bytes with its length bytes. The validation loop only says so of the labels in
front of the last one. -/
theorem domain_writes_fit_iff (net : RteNet) (packet : RteMbuf) :
    (domain_writes net packet).length ≤ DOMAIN_MAX_LEN ↔
      ∀ labels : List Str, is_dns_query net packet → (∀ label ∈ labels, ValidLabel label) →
        NameAt packet.data (dns_name_start net packet) labels →
        (labels.dropLast.map (·.length + 1)).sum < 255 →
        (labels.map (·.length + 1)).sum ≤ DOMAIN_MAX_LEN :=
  length_domain_writes_le_iff

/-- Labels of 63, 63, 63, 61 and 6 bytes: the first four count 254. -/
theorem domain_writes_overrun :
    is_dns_query udp4_net (long_query 0 6) ∧ (domain_writes udp4_net (long_query 0 6)).length = 261 := by
  have hquery := is_dns_query_dns_query 0 (long_labels 6)
  refine ⟨hquery, ?_⟩
  exact length_domain_writes hquery (long_labels_valid (by decide) (by decide))
    (dns_query_name 0 (long_labels 6)) (List.cons_ne_nil _ _) (long_labels_cut 6)

/-- The offsets whose bytes the validation loop and the test behind it read. -/
def dns_name_end_reads (data : ℕ → UInt8) : ℕ → ℕ → ℕ → List ℕ
  | 0, pos, _ => [pos]
  | rounds + 1, pos, domain_len =>
    pos ::
      if data pos ≠ 0 ∧ domain_len < 255 then
        dns_name_end_reads data rounds (pos + (data pos).toNat + 1) (domain_len + (data pos).toNat + 1)
      else []

/-- The offsets whose bytes the copy loop reads. -/
def dns_name_copy_reads (data : ℕ → UInt8) : ℕ → ℕ → List ℕ
  | 0, pos => [pos]
  | rounds + 1, pos =>
    pos ::
      if data pos ≠ 0 then
        (List.range (data pos).toNat).map (fun k => pos + 1 + k) ++
          dns_name_copy_reads data rounds (pos + 1 + (data pos).toNat)
      else []

/-- The offsets both loops read. -/
def dns_name_reads (net : RteNet) (packet : RteMbuf) : List ℕ :=
  if is_dns_query net packet then
    dns_name_end_reads packet.data 128 (dns_name_start net packet) 0 ++
      if dns_name_accepted net packet then dns_name_copy_reads packet.data 128 (dns_name_start net packet) else []
  else []

theorem le_dns_name_end (data : ℕ → UInt8) (rounds pos domain_len : ℕ) :
    pos ≤ (dns_name_end data rounds pos domain_len).1 := by
  induction rounds generalizing pos domain_len with
  | zero => exact le_rfl
  | succ rounds ih =>
    rw [dns_name_end]
    split
    · have hrest := ih (pos + (data pos).toNat + 1) (domain_len + (data pos).toNat + 1)
      omega
    · exact le_rfl

/-- The validation loop reads the position it stops at, and nothing behind it. -/
theorem dns_name_end_reads_spec (data : ℕ → UInt8) (rounds pos domain_len : ℕ) :
    (dns_name_end data rounds pos domain_len).1 ∈ dns_name_end_reads data rounds pos domain_len ∧
      ∀ off ∈ dns_name_end_reads data rounds pos domain_len, off ≤ (dns_name_end data rounds pos domain_len).1 := by
  induction rounds generalizing pos domain_len with
  | zero => simp [dns_name_end, dns_name_end_reads]
  | succ rounds ih =>
    rw [dns_name_end, dns_name_end_reads]
    split
    · obtain ⟨hmem, hle⟩ := ih (pos + (data pos).toNat + 1) (domain_len + (data pos).toNat + 1)
      have hpos := le_dns_name_end data rounds (pos + (data pos).toNat + 1) (domain_len + (data pos).toNat + 1)
      rw [List.forall_mem_cons]
      exact ⟨List.mem_cons_of_mem _ hmem, by omega, hle⟩
    · simp

/-- The copy loop ends where the validation loop has found the zero byte. -/
theorem dns_name_copy_reads_le {data : ℕ → UInt8} {rounds pos domain_len : ℕ}
    (hzero : data (dns_name_end data rounds pos domain_len).1 = 0) :
    ∀ off ∈ dns_name_copy_reads data rounds pos, off ≤ (dns_name_end data rounds pos domain_len).1 := by
  induction rounds generalizing pos domain_len with
  | zero => simp [dns_name_end, dns_name_copy_reads]
  | succ rounds ih =>
    rw [dns_name_end] at hzero ⊢
    rw [dns_name_copy_reads, List.forall_mem_cons]
    by_cases hnow : data pos ≠ 0 ∧ domain_len < 255
    · rw [if_pos hnow] at hzero ⊢
      have hpos := le_dns_name_end data rounds (pos + (data pos).toNat + 1) (domain_len + (data pos).toNat + 1)
      have hnext : pos + 1 + (data pos).toNat = pos + (data pos).toNat + 1 := by omega
      rw [if_pos hnow.1, hnext, List.forall_mem_append]
      refine ⟨by omega, ?_, ih hzero⟩
      intro off hoff
      obtain ⟨k, hk, rfl⟩ := List.mem_map.mp hoff
      rw [List.mem_range] at hk
      omega
    · rw [if_neg hnow] at hzero ⊢
      simp [hzero]

theorem dns_name_reads_lt_iff_stop (hquery : is_dns_query net packet) (bound : ℕ) :
    (∀ off ∈ dns_name_reads net packet, off < bound) ↔ (dns_name_stop net packet).1 < bound := by
  obtain ⟨hmem, hle⟩ := dns_name_end_reads_spec packet.data 128 (dns_name_start net packet) 0
  rw [dns_name_reads, if_pos hquery]
  constructor
  · intro h
    exact h _ (List.mem_append_left _ hmem)
  · intro hstop off hoff
    refine lt_of_le_of_lt ?_ hstop
    rcases List.mem_append.mp hoff with hfirst | hsecond
    · exact hle off hfirst
    · split at hsecond
      · rename_i hname
        exact dns_name_copy_reads_le hname.1 off hsecond
      · cases hsecond

/-- What the validation loop finds depends on the bytes it reads only. -/
theorem dns_name_end_eq_of_reads {data data' : ℕ → UInt8} {rounds pos domain_len : ℕ}
    (h : ∀ off ∈ dns_name_end_reads data rounds pos domain_len, data' off = data off) :
    dns_name_end data' rounds pos domain_len = dns_name_end data rounds pos domain_len := by
  induction rounds generalizing pos domain_len with
  | zero => rfl
  | succ rounds ih =>
    rw [dns_name_end_reads, List.forall_mem_cons] at h
    rw [dns_name_end, dns_name_end, h.1]
    by_cases hnow : data pos ≠ 0 ∧ domain_len < 255
    · rw [if_pos hnow, if_pos hnow]
      exact ih (by simpa only [if_pos hnow] using h.2)
    · rw [if_neg hnow, if_neg hnow]

/-- The same of the copy loop. -/
theorem dns_name_copy_eq_of_reads {data data' : ℕ → UInt8} {rounds pos : ℕ} {first : Bool}
    (h : ∀ off ∈ dns_name_copy_reads data rounds pos, data' off = data off) :
    dns_name_copy data' rounds pos first = dns_name_copy data rounds pos first := by
  induction rounds generalizing pos first with
  | zero => rfl
  | succ rounds ih =>
    rw [dns_name_copy_reads, List.forall_mem_cons] at h
    rw [dns_name_copy, dns_name_copy, h.1]
    by_cases hnow : data pos ≠ 0
    · rw [if_pos hnow, List.forall_mem_append] at h
      rw [if_pos hnow, if_pos hnow, ih h.2.2]
      have hlabel : (List.range (data pos).toNat).map (fun k => data' (pos + 1 + k)) =
          (List.range (data pos).toNat).map (fun k => data (pos + 1 + k)) :=
        List.map_congr_left fun k hk => h.2.1 _ (List.mem_map_of_mem hk)
      rw [hlabel]
    · rw [if_neg hnow, if_neg hnow]

/-- Two receptions of one frame: the buffers may differ behind it. -/
structure SameFrame (net : RteNet) (packet packet' : RteMbuf) : Prop where
  ptype : net.rte_net_get_ptype packet' = net.rte_net_get_ptype packet
  data_len : packet'.data_len = packet.data_len
  data : ∀ off, off < packet.data_len → packet'.data off = packet.data off

theorem SameFrame.start {packet' : RteMbuf} (h : SameFrame net packet packet') :
    dns_name_start net packet' = dns_name_start net packet := by
  rw [dns_name_start, dns_name_start, h.ptype]

/-- The header fields the DNS branch tests lie in front of the name. -/
theorem SameFrame.is_dns_query_iff {packet' : RteMbuf} (h : SameFrame net packet packet') :
    is_dns_query net packet' ↔ is_dns_query net packet := by
  have hport : dns_name_start net packet < packet.data_len →
      (parsed_headers net packet').number_port = (parsed_headers net packet).number_port := by
    intro hroom
    have hoff : port_offset net packet + 1 < packet.data_len := by
      rw [dns_name_start] at hroom
      rw [port_offset]
      omega
    have hsame : port_offset net packet' = port_offset net packet := by rw [port_offset, port_offset, h.ptype]
    rw [parsed_headers_port, parsed_headers_port, h.ptype, hsame, be16_at, be16_at, h.data _ hoff,
      h.data _ (Nat.lt_of_succ_lt hoff)]
  rw [is_dns_query, is_dns_query, h.ptype, h.start, h.data_len]
  constructor
  · rintro ⟨hudp, hnumber, hroom⟩
    exact ⟨hudp, hport hroom ▸ hnumber, hroom⟩
  · rintro ⟨hudp, hnumber, hroom⟩
    exact ⟨hudp, (hport hroom).trans hnumber, hroom⟩

theorem SameFrame.domain_writes {packet' : RteMbuf} (h : SameFrame net packet packet')
    (hreads : ∀ off ∈ dns_name_reads net packet, off < packet.data_len) :
    domain_writes net packet' = domain_writes net packet := by
  by_cases hquery : is_dns_query net packet
  · have hread := fun off hoff => h.data off (hreads off hoff)
    rw [dns_name_reads, if_pos hquery, List.forall_mem_append] at hread
    have hstop : dns_name_stop net packet' = dns_name_stop net packet := by
      rw [dns_name_stop, dns_name_stop, h.start]
      exact dns_name_end_eq_of_reads hread.1
    have hzero : packet'.data (dns_name_stop net packet).1 = packet.data (dns_name_stop net packet).1 :=
      h.data _ ((dns_name_reads_lt_iff_stop hquery _).mp hreads)
    have hname : dns_name_accepted net packet' ↔ dns_name_accepted net packet := by
      rw [dns_name_accepted, dns_name_accepted, hstop, hzero]
    by_cases haccepted : dns_name_accepted net packet
    · rw [if_pos haccepted] at hread
      rw [domain_writes_of_accepted hquery haccepted,
        domain_writes_of_accepted (h.is_dns_query_iff.mpr hquery) (hname.mpr haccepted), h.start,
        dns_name_copy_eq_of_reads hread.2]
    · rw [domain_writes_of_not fun hboth => haccepted hboth.2,
        domain_writes_of_not fun hboth => haccepted (hname.mp hboth.2)]
  · rw [domain_writes_of_not fun hboth => hquery hboth.1,
      domain_writes_of_not fun hboth => hquery (h.is_dns_query_iff.mp hboth.1)]

/-- Labels follow the DNS header, and behind them, inside the frame, the byte the
name ends with: a zero, or the one at which 255 bytes have been counted. -/
def NameInside (net : RteNet) (packet : RteMbuf) : Prop :=
  ∃ labels : List Str, (∀ label ∈ labels, ValidLabel label) ∧
    LabelsAt packet.data (dns_name_start net packet) labels ∧
    (packet.data (dns_name_start net packet + (labels.map (·.length + 1)).sum) = 0 ∨
      255 ≤ (labels.map (·.length + 1)).sum) ∧
    dns_name_start net packet + (labels.map (·.length + 1)).sum < packet.data_len

/-- The validation loop stops inside the frame exactly when the name ends there. -/
theorem dns_name_stop_lt_iff : (dns_name_stop net packet).1 < packet.data_len ↔ NameInside net packet := by
  constructor
  · intro hstop
    obtain ⟨labels, hvalid, hlabels, -, -, hend⟩ := exists_labels packet.data 128 (dns_name_start net packet) 0
    have hsettled := dns_name_end_settled packet.data 128 (dns_name_start net packet) 0 (by decide)
    rw [dns_name_stop, hend] at hstop
    rw [hend, Nat.zero_add] at hsettled
    exact ⟨labels, hvalid, hlabels, hsettled, hstop⟩
  · rintro ⟨labels, hvalid, hlabels, hend, hinside⟩
    have hle := dns_name_end_le 128 (dns_name_start net packet) 0 hlabels (by rwa [Nat.zero_add])
    exact lt_of_le_of_lt hle hinside

/-- The name loops stay inside the frame, take only whole names and depend on
nothing but the frame exactly when the labels of the name, and the byte that ends
them, lie in the frame. -/
theorem dns_name_reads_inside_iff (net : RteNet) (packet : RteMbuf) :
    ((∀ off ∈ dns_name_reads net packet, off < packet.data_len) ∧
      (domain_writes net packet ≠ [] → ∃ labels : List Str,
        NameAt packet.data (dns_name_start net packet) labels ∧
          dns_name_start net packet + (wire_name labels).length ≤ packet.data_len) ∧
      ∀ packet', SameFrame net packet packet' →
        (parsing_pakage net packet').domain = (parsing_pakage net packet).domain) ↔
    (is_dns_query net packet → NameInside net packet) := by
  constructor
  · rintro ⟨hreads, -⟩ hquery
    exact dns_name_stop_lt_iff.mp ((dns_name_reads_lt_iff_stop hquery _).mp hreads)
  · intro hname
    have hstop : is_dns_query net packet → (dns_name_stop net packet).1 < packet.data_len :=
      fun hquery => dns_name_stop_lt_iff.mpr (hname hquery)
    have hreads : ∀ off ∈ dns_name_reads net packet, off < packet.data_len := by
      by_cases hquery : is_dns_query net packet
      · exact (dns_name_reads_lt_iff_stop hquery _).mpr (hstop hquery)
      · rw [dns_name_reads, if_neg hquery]
        simp
    refine ⟨hreads, fun hwrites => ?_, fun packet' hsame => ?_⟩
    · by_cases h : is_dns_query net packet ∧ dns_name_accepted net packet
      · obtain ⟨labels, -, -, hname, -, hend⟩ := exists_name_of_accepted h.2
        have hinside := hstop h.1
        refine ⟨labels, hname, ?_⟩
        rw [length_wire_name]
        omega
      · exact absurd (domain_writes_of_not h) hwrites
    · funext k
      rw [parsing_pakage_domain, parsing_pakage_domain, hsame.domain_writes hreads]

/-- A query for one label of twenty bytes, cut behind the ninth. -/
def truncated_query (label : Str) : RteMbuf := { dns_query 0 [label] with data_len := 64 }

/-- The same frame gives two domains, as the buffer behind it has it. -/
theorem truncated_name_extracted :
    is_dns_query udp4_net (truncated_query (List.replicate 20 97)) ∧
    75 ∈ dns_name_reads udp4_net (truncated_query (List.replicate 20 97)) ∧
    (∀ off < 64, (truncated_query (List.replicate 10 97 ++ List.replicate 10 98)).data off =
      (truncated_query (List.replicate 20 97)).data off) ∧
    domain_writes udp4_net (truncated_query (List.replicate 20 97)) = List.replicate 20 97 ++ [0] ∧
    domain_writes udp4_net (truncated_query (List.replicate 10 97 ++ List.replicate 10 98)) =
      List.replicate 10 97 ++ List.replicate 10 98 ++ [0] := by
  refine ⟨?_, ?_, ?_, ?_, ?_⟩ <;> decide +kernel

end grpc_server.dpdk_filter
