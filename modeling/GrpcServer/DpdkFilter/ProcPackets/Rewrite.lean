import GrpcServer.DpdkFilter.ProcPackets.Neighbor
import GrpcServer.OnesComplement

open c_memory ones_complement ttl_cache transition

namespace grpc_server.dpdk_filter

def is_ipv4 (data : ℕ → UInt8) : Prop := be16_at data 12 = ⟨0x08, 0x00⟩

abbrev ipv4_hdr (data : ℕ → UInt8) : ℕ → UInt8 := fun k => data (14 + k)

/-- The number of 16-bit words in an IPv4 header, by its IHL field. -/
def ipv4_words (hdr : ℕ → UInt8) : ℕ := 2 * ((hdr 0).toNat % 16)

/-- What `rte_ipv4_cksum` returns for a header, options included. -/
def header_cksum (hdr : ℕ → UInt8) : Be16 :=
  let cksum := checksum hdr (ipv4_words hdr)
  ⟨UInt8.ofNat (cksum / 256), UInt8.ofNat (cksum % 256)⟩

/-- `sent` is what a router makes of `received` for the next hop behind `port`. -/
structure Routed (port : NetPort) (received sent : RteMbuf) : Prop where
  buffer : sent.id = received.id ∧ sent.data_len = received.data_len
  source : slot_at sent.data 6 6 = port.mac_addr
  destination : slot_at sent.data 0 6 = if port.neighbor_learned then port.neighbor_mac else fun _ => 0xff
  hop : is_ipv4 received.data → 1 < received.data 22 ∧ sent.data 22 = received.data 22 - 1
  header : is_ipv4 received.data → 5 ≤ (received.data 14).toNat % 16 →
    Valid (ipv4_hdr sent.data) (ipv4_words (ipv4_hdr sent.data))
  unchanged : ∀ k, 12 ≤ k → (is_ipv4 received.data → k ≠ 22 ∧ k ≠ 24 ∧ k ≠ 25) → sent.data k = received.data k

/-- The frame `forward_packet_with_rewrite` transmits through `port`, none for an
IPv4 packet that has come to the end of its hops. -/
def rewritten (net : RteNet) (port : NetPort) (pkt : RteMbuf) : Option RteMbuf :=
  let data := rewrite_ether port pkt.data
  if be16_at data 12 = ⟨0x08, 0x00⟩ then
    if 1 < data 22 then some { pkt with data := rewrite_ipv4 net data } else none
  else some { pkt with data }

section Frame

variable {net : RteNet} {port : NetPort} {pkt sent : RteMbuf}

theorem set_bytes_of_lt {n : ℕ} (data : ℕ → UInt8) (off : ℕ) (bytes : Slot n) {k : ℕ} (hk : k < off ∨ off + n ≤ k) :
    set_bytes data off bytes k = data k := by
  rw [set_bytes, dif_neg (by omega)]

theorem slot_at_set_bytes {n : ℕ} (data : ℕ → UInt8) (off : ℕ) (bytes : Slot n) :
    slot_at (set_bytes data off bytes) off n = bytes := by
  funext k
  have hk := k.isLt
  rw [slot_at, set_bytes, dif_pos (by omega)]
  exact congrArg bytes (Fin.ext (Nat.add_sub_cancel_left off k.val))

theorem rewrite_ether_addresses (port : NetPort) (data : ℕ → UInt8) :
    slot_at (rewrite_ether port data) 6 6 = port.mac_addr ∧
      slot_at (rewrite_ether port data) 0 6 = if port.neighbor_learned then port.neighbor_mac else fun _ => 0xff := by
  refine ⟨?_, slot_at_set_bytes _ 0 _⟩
  refine Eq.trans ?_ (slot_at_set_bytes data 6 port.mac_addr)
  funext k
  exact set_bytes_of_lt _ 0 _ (by omega)

theorem rewrite_ipv4_of_ne (net : RteNet) (data : ℕ → UInt8) {k : ℕ} (hk : k ≠ 22 ∧ k ≠ 24 ∧ k ≠ 25) :
    rewrite_ipv4 net data k = data k := by
  simp only [rewrite_ipv4]
  rw [set_bytes_of_lt _ _ _ (by omega), set_bytes_of_lt _ _ _ (by omega), Function.update_of_ne hk.1]

theorem rewrite_ipv4_hop (net : RteNet) (data : ℕ → UInt8) : rewrite_ipv4 net data 22 = data 22 - 1 := by
  simp only [rewrite_ipv4]
  rw [set_bytes_of_lt _ _ _ (by omega), set_bytes_of_lt _ _ _ (by omega), Function.update_self]

theorem word_cksum {hdr : ℕ → UInt8} {cksum : ℕ} (hcksum : cksum ≤ 65535) (i : ℕ)
    (hhi : hdr (2 * i) = UInt8.ofNat (cksum / 256)) (hlo : hdr (2 * i + 1) = UInt8.ofNat (cksum % 256)) :
    word hdr i = cksum := by
  rw [word, hhi, hlo, UInt8.toNat_ofNat', UInt8.toNat_ofNat']
  omega

/-- The header is valid again, whatever checksum the frame came with. -/
theorem rewrite_ipv4_valid (hnet : net.rte_ipv4_cksum = header_cksum) (data : ℕ → UInt8)
    (hihl : 5 ≤ (data 14).toNat % 16) :
    Valid (ipv4_hdr (rewrite_ipv4 net data)) (ipv4_words (ipv4_hdr (rewrite_ipv4 net data))) := by
  have hfirst : rewrite_ipv4 net data 14 = data 14 := rewrite_ipv4_of_ne net data (by omega)
  have hwords : ipv4_words (ipv4_hdr (rewrite_ipv4 net data)) = 2 * ((data 14).toNat % 16) := by
    rw [ipv4_words]
    exact congrArg (fun b : UInt8 => 2 * (b.toNat % 16)) hfirst
  -- the header with its checksum field cleared, over which the checksum is computed
  obtain ⟨cleared, hcleared⟩ :
      ∃ cleared, cleared = set_bytes (Function.update data 22 (data 22 - 1)) 24 fun _ : Fin 2 => 0 := ⟨_, rfl⟩
  have hrewrite : rewrite_ipv4 net data = set_bytes cleared 24 fun k : Fin 2 =>
      if k = 0 then (header_cksum (ipv4_hdr cleared)).hi else (header_cksum (ipv4_hdr cleared)).lo := by
    rw [hcleared, ← hnet]
    rfl
  have hlength : ipv4_words (ipv4_hdr cleared) = 2 * ((data 14).toNat % 16) := by
    have hbyte : cleared 14 = data 14 := by
      rw [hcleared, set_bytes_of_lt _ _ _ (by omega), Function.update_of_ne (by omega)]
    exact congrArg (fun b : UInt8 => 2 * (b.toNat % 16)) hbyte
  have hzero : slot_at cleared 24 2 = fun _ => 0 := hcleared ▸ slot_at_set_bytes _ 24 _
  have hfield := slot_at_set_bytes cleared 24 fun k : Fin 2 =>
    if k = 0 then (header_cksum (ipv4_hdr cleared)).hi else (header_cksum (ipv4_hdr cleared)).lo
  rw [← hrewrite] at hfield
  have hsame : ∀ k, k ≠ 10 → k ≠ 11 → ipv4_hdr (rewrite_ipv4 net data) k = ipv4_hdr cleared k := by
    intro k hten heleven
    rw [hrewrite]
    exact set_bytes_of_lt cleared 24 _ (by omega)
  rw [hwords]
  refine valid_of_checksum (ipv4_hdr cleared) (k := 5) (by omega) (by omega) ?_ ?_ ?_
  · exact word_cksum (Nat.zero_le _) 5 (congrFun hzero 0) (congrFun hzero 1)
  · rw [← hlength]
    exact word_cksum (Nat.sub_le _ _) 5 (congrFun hfield 0) (congrFun hfield 1)
  · intro i _ hi
    rw [word, word, hsame _ (by omega) (by omega), hsame _ (by omega) (by omega)]

theorem routed_of_rewritten (hnet : net.rte_ipv4_cksum = header_cksum) (h : rewritten net port pkt = some sent) :
    Routed port pkt sent := by
  have hether : ∀ k, 12 ≤ k → rewrite_ether port pkt.data k = pkt.data k :=
    fun k hk => rewrite_ether_of_le port pkt.data hk
  have htype : be16_at (rewrite_ether port pkt.data) 12 = be16_at pkt.data 12 := by
    rw [be16_at, be16_at, hether 12 (by omega), hether (12 + 1) (by omega)]
  obtain ⟨hsource, hdestination⟩ := rewrite_ether_addresses port pkt.data
  simp only [rewritten, htype] at h
  split at h
  · rename_i hipv4
    split at h
    · rename_i hhops
      cases h
      have haddress : ∀ k < 12, rewrite_ipv4 net (rewrite_ether port pkt.data) k = rewrite_ether port pkt.data k :=
        fun k hk => rewrite_ipv4_of_ne net _ (by omega)
      rw [hether 22 (by omega)] at hhops
      refine ⟨⟨rfl, rfl⟩, ?_, ?_, fun _ => ⟨hhops, ?_⟩, fun _ hihl => ?_, fun k hk hrest => ?_⟩
      · rw [← hsource]
        exact funext fun k => haddress (6 + k.val) (by omega)
      · rw [← hdestination]
        exact funext fun k => haddress (0 + k.val) (by omega)
      · change rewrite_ipv4 net (rewrite_ether port pkt.data) 22 = _
        rw [rewrite_ipv4_hop, hether 22 (by omega)]
      · refine rewrite_ipv4_valid hnet _ ?_
        rwa [hether 14 (by omega)]
      · change rewrite_ipv4 net (rewrite_ether port pkt.data) k = _
        rw [rewrite_ipv4_of_ne net _ (hrest hipv4), hether k hk]
    · cases h
  · rename_i hother
    cases h
    exact ⟨⟨rfl, rfl⟩, hsource, hdestination, fun h => absurd h hother, fun h => absurd h hother,
      fun k hk _ => hether k hk⟩

end Frame

/-- The frames in a trace that were handed to a transmit queue. -/
def Event.sent : Event → Option (RteMbuf × Port)
  | .tx pkt out_port _ => some (pkt, out_port)
  | _ => none

/-- The ways through the filter. -/
inductive Connects : Port → Port → Prop where
  | filtered : Connects .port_in .port_out
  | exception : Connects .port_in .port_exception
  | back : Connects .port_out .port_in
  | from_exception : Connects .port_exception .port_in

section Sent

variable {C : Type} {sys : System} {ops : CacheOps C}

theorem view_sent_transmit (tx_ok : Bool) (pkt : RteMbuf) (out_port : Port) (w : Wire) :
    (transmit tx_ok pkt out_port w).view Event.sent = w.view Event.sent ++ [(pkt, out_port)] := by
  cases tx_ok <;> simp [transmit, Event.sent]

theorem view_sent_forward (net : RteNet) (tx_ok : Bool) (pkt : RteMbuf) (in_port out_port : Port) (w : Wire) :
    (forward_packet_with_rewrite net tx_ok pkt in_port out_port w).view Event.sent = w.view Event.sent ++
      ((rewritten net (learned_ports in_port (slot_at pkt.data 6 6) out_port w.ports out_port) pkt).map
        (·, out_port)).toList := by
  have hlearned : (learn_neighbor_mac in_port pkt out_port
      ((w.emit (.forward pkt in_port out_port)).emit (.access pkt.id))).ports =
        learned_ports in_port (slot_at pkt.data 6 6) out_port w.ports := ports_learn ..
  have hview : (learn_neighbor_mac in_port pkt out_port
      ((w.emit (.forward pkt in_port out_port)).emit (.access pkt.id))).view Event.sent = w.view Event.sent := by
    rw [Wire.view_learn_neighbor_mac]
    simp [Event.sent]
  simp only [forward_packet_with_rewrite, rewritten, hlearned]
  split
  · split
    · rw [view_sent_transmit, hview]
      rfl
    · rw [Wire.view_emit, hview]
      rfl
  · rw [view_sent_transmit, hview]
    rfl

/-- What a frame that goes to `out_port` adds. -/
def sent_frames (net : RteNet) (ports : Port → NetPort) (in_port : Port) (pkt : RteMbuf) (out_port : Port) :
    List (RteMbuf × Port) :=
  ((rewritten net (learned_ports in_port (slot_at pkt.data 6 6) out_port ports out_port) pkt).map (·, out_port)).toList

theorem view_sent_decision (net : RteNet) (tx_ok solution_is_send : Bool) (pkt : RteMbuf) (in_port out_port : Port)
    (w : Wire) :
    (package_sending_decision net tx_ok solution_is_send pkt in_port out_port w).view Event.sent =
      w.view Event.sent ++ if solution_is_send then sent_frames net w.ports in_port pkt out_port else [] := by
  cases solution_is_send with
  | true =>
    rw [package_sending_decision, if_pos rfl, view_sent_forward, if_pos rfl, sent_frames]
    simp [Event.sent]
  | false => simp [package_sending_decision, Event.sent]

theorem view_sent_process_with (net : RteNet) (env : PacketEnv) (pkt : RteMbuf) (number_port : Be16)
    (lookup_cache : C → Lookup NodeCache × C) (solution_is_send : Bool) (add_to_cache : NodeCache → C → C)
    (w : World C) :
    (process_with net env pkt number_port lookup_cache solution_is_send add_to_cache w).wire.view Event.sent =
      w.wire.view Event.sent ++
        if check_is_exception number_port then sent_frames net w.wire.ports .port_in pkt .port_exception
        else if cached_solution solution_is_send (lookup_cache w.caches).1 then
          sent_frames net w.wire.ports .port_in pkt .port_out
        else [] := by
  unfold process_with
  split
  · rw [view_sent_decision, if_pos rfl]
  · split
    · rename_i hlookup
      rw [view_sent_decision, hlookup]
      rfl
    · rename_i hlookup
      rw [view_sent_decision, hlookup]
      rfl
    · rename_i hlookup
      rw [hlookup]
      simp [Event.sent, cached_solution]

/-- A frame adds what is made of it for the port it is forwarded to. -/
theorem view_sent_handle_arrival (w : World C) (a : Arrival) :
    (handle_arrival sys ops w a).wire.view Event.sent = w.wire.view Event.sent ++
      (out_port sys ops w a).elim [] (sent_frames sys.net w.wire.ports a.port a.pkt) := by
  cases a with
  | port_out pkt tx_ok => exact view_sent_forward sys.net tx_ok pkt .port_out .port_in w.wire
  | port_exception pkt tx_ok => exact view_sent_forward sys.net tx_ok pkt .port_exception .port_in w.wire
  | port_in r =>
    obtain ⟨policy, filtring_is_turned_off, pkt, env⟩ := r
    have hreceived : ((w.wire.emit .received).emit (.access pkt.id)).view Event.sent = w.wire.view Event.sent := by
      simp [Event.sent]
    simp only [handle_arrival, process_round, out_port, sends, Arrival.port, Arrival.pkt]
    cases filtring_is_turned_off with
    | true => simp [view_sent_decision, Event.sent]
    | false =>
      simp only [Bool.false_eq_true, if_false, Bool.false_or, Bool.not_false, Bool.true_and]
      by_cases hdomain : (sys.parse pkt).domain 0 = 0
      · rw [process_packet_of_ip hdomain, process_ip, view_sent_process_with, hreceived, if_pos hdomain]
        exact congrArg _ (elim_out_port _ _ _ (sent_frames sys.net w.wire.ports .port_in pkt))
      · rw [process_packet_of_domain hdomain, process_domain, view_sent_process_with, hreceived, if_neg hdomain]
        exact congrArg _ (elim_out_port _ _ _ (sent_frames sys.net w.wire.ports .port_in pkt))

theorem connects_out_port {w : World C} {a : Arrival} {port : Port} (h : out_port sys ops w a = some port) :
    Connects a.port port := by
  cases a with
  | port_out pkt tx_ok =>
    cases h
    exact .back
  | port_exception pkt tx_ok =>
    cases h
    exact .from_exception
  | port_in r =>
    simp only [out_port] at h
    split at h
    · split at h
      · cases h
        exact .exception
      · cases h
        exact .filtered
    · cases h

/-- The frame `sent` through `port` is an arrival of the run, routed by what the
ports had learned when it was handled. -/
def RoutedFrom (sys : System) (ops : CacheOps C) (w : World C) (arrivals : List Arrival) (sent : RteMbuf)
    (port : Port) : Prop :=
  ∃ past a rest, arrivals = past ++ a :: rest ∧ Connects a.port port ∧
    Routed (learned_ports a.port a.source port (past.foldl (handle_arrival sys ops) w).wire.ports port) a.pkt sent

/-- Whatever the main loop receives, every frame it hands to a transmit queue is one
of the frames received, on its way between `port_in` and one of the two other ports:
with the queue's address as source and the neighbour that port had learned, or
broadcast, as destination. An IPv4 packet has one hop less and a valid header
checksum, whatever checksum it came with, and nothing else of a frame is changed. -/
theorem transmitted_routed (sys : System) (ops : CacheOps C) (hnet : sys.net.rte_ipv4_cksum = header_cksum)
    (iterations : List Iteration) (w : World C) (sent : RteMbuf) (port : Port)
    (hsent : (sent, port) ∈ (iterations.foldl (forward_iteration sys ops) w).wire.view Event.sent) :
    (sent, port) ∈ w.wire.view Event.sent ∨
      RoutedFrom sys ops w (iterations.flatMap Iteration.arrivals) sent port := by
  have harrivals : iterations.foldl (forward_iteration sys ops) w =
      (iterations.flatMap Iteration.arrivals).foldl (handle_arrival sys ops) w := by
    rw [List.flatMap_def, List.foldl_flatten, List.foldl_map]
    exact congrArg (List.foldl · w iterations) (funext₂ forward_iteration_arrivals)
  rw [harrivals] at hsent
  refine foldl_history (fun past (after : World C) =>
    (sent, port) ∈ after.wire.view Event.sent → (sent, port) ∈ w.wire.view Event.sent ∨
      RoutedFrom sys ops w past sent port) .inl ?_ _ hsent
  intro past a ih hnext
  rw [view_sent_handle_arrival, List.mem_append] at hnext
  rcases hnext with hbefore | hnew
  · obtain hstart | ⟨front, b, rest, rfl, hrouted⟩ := ih hbefore
    · exact .inl hstart
    · exact .inr ⟨front, b, rest ++ [a], by simp, hrouted⟩
  · refine .inr ⟨past, a, [], rfl, ?_⟩
    cases hport : out_port sys ops (past.foldl (handle_arrival sys ops) w) a with
    | none =>
      rw [hport] at hnew
      cases hnew
    | some out =>
      rw [hport, Option.elim_some, sent_frames, Option.mem_toList, Option.map_eq_some_iff] at hnew
      obtain ⟨frame, hframe, heq⟩ := hnew
      cases heq
      exact ⟨connects_out_port hport, routed_of_rewritten hnet hframe⟩

/-- A query that arrives with 64 hops to live is sent on with 63. -/
theorem transmitted_routed_query :
    let sys := filter_system { udp4_net with rte_ipv4_cksum := header_cksum } Inet.mute
    let iteration : Iteration := ⟨[(dns_query 0 [[97]], true)], ⟨BasePolicy.zero, true, []⟩, []⟩
    let w : World Caches := ⟨Wire.start, Caches.empty⟩
    ∃ sent, (sent, Port.port_in) ∈ (forward_iteration sys (rteCaches 1) w iteration).wire.view Event.sent ∧
      sent.data 22 = 63 ∧ RoutedFrom sys (rteCaches 1) w [.port_exception (dns_query 0 [[97]]) true] sent .port_in := by
  intro sys iteration w
  refine ⟨_, List.mem_singleton_self _, (rewrite_ipv4_hop sys.net _).trans (by decide), ?_⟩
  have h := transmitted_routed sys (rteCaches 1) rfl [iteration] w _ .port_in (List.mem_singleton_self _)
  exact h.resolve_left nofun

end Sent

end grpc_server.dpdk_filter
