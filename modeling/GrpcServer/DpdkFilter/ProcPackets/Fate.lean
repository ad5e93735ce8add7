import GrpcServer.DpdkFilter.ParsPackets.Query
import GrpcServer.DpdkFilter.ProcPackets

namespace grpc_server.dpdk_filter

/-- The buffer whose pointer an event hands on or whose contents it uses. -/
def Event.buffer : Event → Option ℕ
  | .decision pkt _ _ | .forward pkt _ _ | .tx pkt _ _ => some pkt.id
  | .access pkt | .free pkt => some pkt
  | .received | .passed | .dropped => none

/-- The event ends the filter's ownership of buffer `m`: a transmit queue takes
it, or it goes back to its pool. -/
def Event.Settles (m : ℕ) : Event → Prop
  | .tx pkt _ accepted => pkt.id = m ∧ accepted = true
  | .free pkt => pkt = m
  | _ => False

/-- Exactly one event settles buffer `m`, and the buffer does not occur behind it. -/
def OneFate (m : ℕ) (events : List Event) : Prop :=
  ∃ before fate after, events = before ++ fate :: after ∧ fate.Settles m ∧
    (∀ e ∈ before, ¬ e.Settles m) ∧ ∀ e ∈ after, e.buffer ≠ some m

/-- The events between two states settle buffer `m` and concern no other buffer. -/
def Handles (m : ℕ) (w w' : Wire) : Prop :=
  ∃ events, w'.trace = w.trace ++ events ∧ OneFate m events ∧ ∀ e ∈ events, ∀ k, e.buffer = some k → k = m

theorem Event.Settles.buffer_eq {m : ℕ} {e : Event} (h : e.Settles m) : e.buffer = some m := by
  cases e with
  | tx pkt out_port accepted =>
    obtain ⟨hid, _⟩ := h
    exact congrArg some hid
  | free pkt => exact congrArg some h
  | _ => exact absurd h id

theorem OneFate.append_right {m : ℕ} {events rest : List Event} (h : OneFate m events)
    (hrest : ∀ e ∈ rest, e.buffer ≠ some m) : OneFate m (events ++ rest) := by
  obtain ⟨before, fate, after, rfl, hfate, hbefore, hafter⟩ := h
  refine ⟨before, fate, after ++ rest, by simp, hfate, hbefore, ?_⟩
  intro e he
  exact (List.mem_append.mp he).elim (hafter e) (hrest e)

theorem OneFate.append_left {m : ℕ} {first events : List Event} (h : OneFate m events)
    (hfirst : ∀ e ∈ first, ¬ e.Settles m) : OneFate m (first ++ events) := by
  obtain ⟨before, fate, after, rfl, hfate, hbefore, hafter⟩ := h
  refine ⟨first ++ before, fate, after, by simp, hfate, ?_, hafter⟩
  intro e he
  exact (List.mem_append.mp he).elim (hfirst e) (hbefore e)

theorem Handles.emit_before {m : ℕ} {w w' : Wire} (e : Event) (h : Handles m (w.emit e) w')
    (hsettles : ¬ e.Settles m) (hbuffer : ∀ k, e.buffer = some k → k = m) : Handles m w w' := by
  obtain ⟨events, htrace, hfate, hown⟩ := h
  refine ⟨[e] ++ events, ?_, hfate.append_left ?_, ?_⟩
  · rw [htrace, Wire.emit, List.append_assoc]
  · intro a ha
    rwa [List.mem_singleton.mp ha]
  · intro a ha
    rcases List.mem_cons.mp ha with rfl | ha
    · exact hbuffer
    · exact hown a ha

theorem Handles.emit_after {m : ℕ} {w w' : Wire} {e : Event} (h : Handles m w w') (hbuffer : e.buffer = none) :
    Handles m w (w'.emit e) := by
  obtain ⟨events, htrace, hfate, hown⟩ := h
  refine ⟨events ++ [e], ?_, hfate.append_right ?_, ?_⟩
  · rw [Wire.emit, htrace, List.append_assoc]
  · intro a ha
    rw [List.mem_singleton.mp ha, hbuffer]
    exact nofun
  · intro a ha k hk
    rcases List.mem_append.mp ha with ha | ha
    · exact hown a ha k hk
    · rw [List.mem_singleton.mp ha, hbuffer] at hk
      cases hk

theorem handles_emit {m : ℕ} (w : Wire) {e : Event} (h : e.Settles m) : Handles m w (w.emit e) := by
  refine ⟨[e], rfl, ⟨[], e, [], rfl, h, nofun, nofun⟩, ?_⟩
  intro a ha k hk
  rw [List.mem_singleton.mp ha, h.buffer_eq] at hk
  cases hk
  rfl

theorem drop_handles (pkt : RteMbuf) (w : Wire) : Handles pkt.id w ((w.emit .dropped).emit (.free pkt.id)) := by
  apply Handles.emit_before .dropped _ id nofun
  exact handles_emit _ rfl

theorem transmit_handles (tx_ok : Bool) (pkt : RteMbuf) (out_port : Port) (w : Wire) :
    Handles pkt.id w (transmit tx_ok pkt out_port w) := by
  unfold transmit
  apply Handles.emit_before (.access pkt.id) _ id fun k hk => (Option.some.inj hk).symm
  apply Handles.emit_after _ rfl
  cases tx_ok with
  | true => exact handles_emit _ ⟨rfl, rfl⟩
  | false =>
    apply Handles.emit_before (.tx pkt out_port false) (drop_handles pkt _)
    · exact fun h => Bool.false_ne_true h.2
    · exact fun k hk => (Option.some.inj hk).symm

theorem learn_neighbor_mac_trace (port : Port) (pkt : RteMbuf) (port_2 : Port) (w : Wire) :
    (learn_neighbor_mac port pkt port_2 w).trace = w.trace := by
  unfold learn_neighbor_mac
  split <;> rfl

theorem forward_packet_with_rewrite_handles (net : RteNet) (tx_ok : Bool) (pkt : RteMbuf)
    (in_port out_port : Port) (w : Wire) :
    Handles pkt.id w (forward_packet_with_rewrite net tx_ok pkt in_port out_port w) := by
  apply Handles.emit_before (.forward pkt in_port out_port) _ id fun k hk => (Option.some.inj hk).symm
  apply Handles.emit_before (.access pkt.id) _ id fun k hk => (Option.some.inj hk).symm
  simp only [forward_packet_with_rewrite]
  generalize (w.emit (.forward pkt in_port out_port)).emit (.access pkt.id) = entered
  unfold Handles
  rw [← learn_neighbor_mac_trace in_port pkt out_port entered]
  generalize learn_neighbor_mac in_port pkt out_port entered = learned
  split
  · split
    · exact transmit_handles tx_ok { pkt with data := _ } out_port learned
    · exact handles_emit learned rfl
  · exact transmit_handles tx_ok { pkt with data := _ } out_port learned

theorem package_sending_decision_handles (net : RteNet) (tx_ok solution_is_send : Bool) (pkt : RteMbuf)
    (in_port out_port : Port) (w : Wire) :
    Handles pkt.id w (package_sending_decision net tx_ok solution_is_send pkt in_port out_port w) := by
  apply Handles.emit_before (.decision pkt solution_is_send out_port) _ id fun k hk => (Option.some.inj hk).symm
  cases solution_is_send with
  | true => exact forward_packet_with_rewrite_handles net tx_ok pkt in_port out_port _
  | false => exact drop_handles pkt _

variable {C : Type}

theorem process_with_handles (net : RteNet) (env : PacketEnv) (pkt : RteMbuf) (number_port : Be16)
    (lookup_cache : C → ttl_cache.Lookup NodeCache × C) (solution_is_send : Bool)
    (add_to_cache : NodeCache → C → C) (w : World C) :
    Handles pkt.id w.wire
      (process_with net env pkt number_port lookup_cache solution_is_send add_to_cache w).wire := by
  unfold process_with
  split
  · exact package_sending_decision_handles net env.tx_ok true pkt .port_in .port_exception w.wire
  · split
    · exact package_sending_decision_handles net env.tx_ok _ pkt .port_in .port_out w.wire
    · exact package_sending_decision_handles net env.tx_ok solution_is_send pkt .port_in .port_out w.wire
    · exact drop_handles pkt w.wire

theorem process_packet_handles (sys : System) (ops : CacheOps C) (policy : BasePolicy) (w : World C)
    (p : RteMbuf × PacketEnv) :
    Handles p.1.id w.wire (process_packet sys ops policy w p).wire := by
  obtain ⟨pkt, env⟩ := p
  apply Handles.emit_before .received _ id nofun
  apply Handles.emit_before (.access pkt.id) _ id fun k hk => (Option.some.inj hk).symm
  simp only [process_packet]
  split
  · exact process_with_handles sys.net env pkt _ _ _ _ { w with wire := _ }
  · exact process_with_handles sys.net env pkt _ _ _ _ { w with wire := _ }

/-- A packet of the bypass. -/
theorem bypass_handles (net : RteNet) (wire : Wire) (p : RteMbuf × PacketEnv) :
    Handles p.1.id wire
      (package_sending_decision net p.2.tx_ok true p.1 .port_in .port_out (wire.emit .received)) :=
  (package_sending_decision_handles ..).emit_before .received id nofun

/-- A loop over distinct buffers that handles one buffer per round gives each of
them one fate. -/
theorem foldl_one_fate {S X : Type} (wire : S → Wire) (id : X → ℕ) (round : S → X → S)
    (hround : ∀ s x, Handles (id x) (wire s) (wire (round s x))) (xs : List X) (hdistinct : (xs.map id).Nodup)
    (s : S) :
    ∃ events, (wire (xs.foldl round s)).trace = (wire s).trace ++ events ∧ (∀ x ∈ xs, OneFate (id x) events) ∧
      ∀ e ∈ events, ∀ k, e.buffer = some k → k ∈ xs.map id := by
  induction xs generalizing s with
  | nil => exact ⟨[], by simp, by simp, by simp⟩
  | cons x rest ih =>
    simp only [List.map_cons, List.nodup_cons] at hdistinct
    obtain ⟨events, htrace, hfate, hown⟩ := hround s x
    obtain ⟨later, hlater, hfates, howns⟩ := ih hdistinct.2 (round s x)
    refine ⟨events ++ later, by rw [List.foldl_cons, hlater, htrace, List.append_assoc], ?_, ?_⟩
    · intro y hy
      rcases List.mem_cons.mp hy with rfl | hy
      · apply hfate.append_right
        intro e he hbuffer
        exact hdistinct.1 (howns e he _ hbuffer)
      · apply (hfates y hy).append_left
        intro e he hsettles
        have heq := hown e he _ hsettles.buffer_eq
        exact hdistinct.1 (heq ▸ List.mem_map_of_mem hy)
    · intro e he k hk
      rcases List.mem_append.mp he with he | he
      · exact List.mem_cons.mpr (.inl (hown e he k hk))
      · exact List.mem_cons_of_mem _ (howns e he k hk)

/-- Whatever the parser, the caches, the classifier, the allocator and the transmit
queues answer, with filtering on or off, each buffer of a burst is accepted by one
transmit queue or freed, exactly once, and not touched afterwards. The same holds for
`forward_to_out`. -/
theorem pakage_processing_one_fate (sys : System) (ops : CacheOps C) (policy : BasePolicy)
    (filtring_is_turned_off : Bool) (pkts : List (RteMbuf × PacketEnv)) (hpkts : (pkts.map (·.1.id)).Nodup) (w : World C)
    (incoming_port outgoing_port : Port) (tap_pkts : List (RteMbuf × Bool))
    (htap : (tap_pkts.map (·.1.id)).Nodup) (tap : Wire) :
    (∃ events, (pakage_processing sys ops policy filtring_is_turned_off pkts w).wire.trace = w.wire.trace ++ events ∧
      ∀ p ∈ pkts, OneFate p.1.id events) ∧
    ∃ events, (forward_to_out sys.net incoming_port outgoing_port tap_pkts tap).trace = tap.trace ++ events ∧
      ∀ p ∈ tap_pkts, OneFate p.1.id events := by
  constructor
  · cases filtring_is_turned_off with
    | true =>
      obtain ⟨events, htrace, hfates, _⟩ := foldl_one_fate World.wire (fun p : RteMbuf × PacketEnv => p.1.id)
        (fun w p => ⟨package_sending_decision sys.net p.2.tx_ok true p.1 .port_in .port_out (w.wire.emit .received),
          w.caches⟩)
        (fun w p => bypass_handles sys.net w.wire p) pkts hpkts w
      exact ⟨events, htrace, hfates⟩
    | false =>
      obtain ⟨events, htrace, hfates, _⟩ := foldl_one_fate World.wire (fun p : RteMbuf × PacketEnv => p.1.id)
        (process_packet sys ops policy) (process_packet_handles sys ops policy) pkts hpkts w
      exact ⟨events, htrace, hfates⟩
  · obtain ⟨events, htrace, hfates, _⟩ := foldl_one_fate id (fun p : RteMbuf × Bool => p.1.id)
      (fun w p => forward_packet_with_rewrite sys.net p.2 p.1 incoming_port outgoing_port w)
      (fun w p => forward_packet_with_rewrite_handles ..) tap_pkts htap tap
    exact ⟨events, htrace, hfates⟩

/-- Two queries received on the filtered port and two frames on the tap, with
failing classifications and a failing transmit queue. -/
theorem pakage_processing_one_fate_of_two :
    let sys := filter_system udp4_net Inet.mute
    let env : PacketEnv := ⟨⟨0, true, true, 0, true⟩, fun _ _ => none, true, false⟩
    let pkts := [(dns_query 0 [[97]], env), (dns_query 1 [[98]], env)]
    let tap_pkts := [(dns_query 2 [[97]], true), (dns_query 3 [[98]], false)]
    (∃ events, (pakage_processing sys (rteCaches 1) BasePolicy.zero false pkts ⟨Wire.start, Caches.empty⟩).wire.trace =
        Wire.start.trace ++ events ∧ ∀ p ∈ pkts, OneFate p.1.id events) ∧
    ∃ events, (forward_to_out sys.net .port_exception .port_in tap_pkts Wire.start).trace =
        Wire.start.trace ++ events ∧ ∀ p ∈ tap_pkts, OneFate p.1.id events := by
  intro sys env pkts tap_pkts
  exact pakage_processing_one_fate sys (rteCaches 1) BasePolicy.zero false pkts (by simp [pkts, dns_query])
    ⟨Wire.start, Caches.empty⟩ .port_exception .port_in tap_pkts (by simp [tap_pkts, dns_query]) Wire.start

end grpc_server.dpdk_filter
