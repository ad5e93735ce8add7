import GrpcServer.DpdkFilter.ProcPackets.Counters

open c_memory ttl_cache transition

namespace grpc_server.dpdk_filter

/-- A frame that one of the ports has received: `pakage_processing` takes those of
`port_in`, `forward_to_out` the others. -/
inductive Arrival where
  | port_in (r : Round)
  | port_out (pkt : RteMbuf) (tx_ok : Bool)
  | port_exception (pkt : RteMbuf) (tx_ok : Bool)

def Arrival.port : Arrival → Port
  | .port_in _ => .port_in
  | .port_out _ _ => .port_out
  | .port_exception _ _ => .port_exception

def Arrival.pkt : Arrival → RteMbuf
  | .port_in r => r.pkt
  | .port_out pkt _ => pkt
  | .port_exception pkt _ => pkt

/-- `eth->src_addr` of the frame as it was received. -/
def Arrival.source (a : Arrival) : Slot 6 := slot_at a.pkt.data 6 6

section Run

variable {C : Type} (sys : System) (ops : CacheOps C)

def handle_arrival (w : World C) : Arrival → World C
  | .port_in r => process_round sys ops w r
  | .port_out pkt tx_ok => { w with wire := forward_to_out sys.net .port_out .port_in [(pkt, tx_ok)] w.wire }
  | .port_exception pkt tx_ok =>
    { w with wire := forward_to_out sys.net .port_exception .port_in [(pkt, tx_ok)] w.wire }

/-- What one iteration of `MainLoop` receives. -/
structure Iteration where
  from_exception : List (RteMbuf × Bool)
  burst : Burst
  from_out : List (RteMbuf × Bool)

/-- The three forwarding calls of an iteration. -/
def forward_iteration (w : World C) (i : Iteration) : World C :=
  let w := { w with wire := forward_to_out sys.net .port_exception .port_in i.from_exception w.wire }
  let w := pakage_processing sys ops i.burst.policy i.burst.filtring_is_turned_off i.burst.pkts w
  { w with wire := forward_to_out sys.net .port_out .port_in i.from_out w.wire }

def Iteration.arrivals (i : Iteration) : List Arrival :=
  i.from_exception.map (fun (pkt, tx_ok) => .port_exception pkt tx_ok) ++ i.burst.rounds.map .port_in ++
    i.from_out.map fun (pkt, tx_ok) => .port_out pkt tx_ok

/-- The port a frame is forwarded to, if it is. -/
def out_port (w : World C) : Arrival → Option Port
  | .port_in r =>
    if sends sys ops w.caches r then
      if !r.filtring_is_turned_off && check_is_exception (sys.parse r.pkt).number_port then some .port_exception
      else some .port_out
    else none
  | .port_out _ _ => some .port_in
  | .port_exception _ _ => some .port_in

end Run

section Ports

variable {C : Type} {sys : System} {ops : CacheOps C}

theorem forward_to_out_arrivals (w : World C) (pkts : List (RteMbuf × Bool)) :
    { w with wire := forward_to_out sys.net .port_exception .port_in pkts w.wire } =
        (pkts.map fun (pkt, tx_ok) => Arrival.port_exception pkt tx_ok).foldl (handle_arrival sys ops) w ∧
    { w with wire := forward_to_out sys.net .port_out .port_in pkts w.wire } =
      (pkts.map fun (pkt, tx_ok) => Arrival.port_out pkt tx_ok).foldl (handle_arrival sys ops) w := by
  induction pkts generalizing w with
  | nil => exact ⟨rfl, rfl⟩
  | cons head pkts ih =>
    obtain ⟨pkt, tx_ok⟩ := head
    exact ⟨(ih (handle_arrival sys ops w (.port_exception pkt tx_ok))).1,
      (ih (handle_arrival sys ops w (.port_out pkt tx_ok))).2⟩

/-- The main loop handles the frames it receives one after another. -/
theorem forward_iteration_arrivals (w : World C) (i : Iteration) :
    forward_iteration sys ops w i = i.arrivals.foldl (handle_arrival sys ops) w := by
  have hburst : ∀ w, pakage_processing sys ops i.burst.policy i.burst.filtring_is_turned_off i.burst.pkts w =
      (i.burst.rounds.map Arrival.port_in).foldl (handle_arrival sys ops) w := by
    intro w
    rw [pakage_processing_rounds, List.foldl_map]
    rfl
  rw [forward_iteration, Iteration.arrivals, List.foldl_append, List.foldl_append, ← (forward_to_out_arrivals w _).1,
    ← hburst, ← (forward_to_out_arrivals _ _).2]

@[simp] theorem ports_emit (w : Wire) (e : Event) : (w.emit e).ports = w.ports := rfl

@[simp] theorem ports_transmit (tx_ok : Bool) (pkt : RteMbuf) (out_port : Port) (w : Wire) :
    (transmit tx_ok pkt out_port w).ports = w.ports := by
  cases tx_ok <;> rfl

/-- What `learn_neighbor_mac` does to the ports. -/
def learned_ports (port : Port) (source : Slot 6) (port_2 : Port) (ports : Port → NetPort) : Port → NetPort :=
  if (ports port).neighbor_learned = false ∧ source ≠ (ports port_2).mac_addr ∧ source ≠ (ports port).mac_addr then
    Function.update ports port { ports port with neighbor_mac := source, neighbor_learned := true }
  else ports

theorem ports_learn (port : Port) (pkt : RteMbuf) (port_2 : Port) (w : Wire) :
    (learn_neighbor_mac port pkt port_2 w).ports = learned_ports port (slot_at pkt.data 6 6) port_2 w.ports := by
  unfold learn_neighbor_mac learned_ports
  split <;> rfl

theorem ports_forward (net : RteNet) (tx_ok : Bool) (pkt : RteMbuf) (in_port out_port : Port) (w : Wire) :
    (forward_packet_with_rewrite net tx_ok pkt in_port out_port w).ports =
      learned_ports in_port (slot_at pkt.data 6 6) out_port w.ports := by
  simp only [forward_packet_with_rewrite]
  split
  · split <;> simp [ports_learn]
  · simp [ports_learn]

theorem ports_decision (net : RteNet) (tx_ok solution_is_send : Bool) (pkt : RteMbuf) (in_port out_port : Port)
    (w : Wire) :
    (package_sending_decision net tx_ok solution_is_send pkt in_port out_port w).ports =
      if solution_is_send then learned_ports in_port (slot_at pkt.data 6 6) out_port w.ports else w.ports := by
  cases solution_is_send with
  | true => simp [package_sending_decision, ports_forward]
  | false => simp [package_sending_decision]

theorem ports_process_with (net : RteNet) (env : PacketEnv) (pkt : RteMbuf) (number_port : Be16)
    (lookup_cache : C → Lookup NodeCache × C) (solution_is_send : Bool) (add_to_cache : NodeCache → C → C)
    (w : World C) :
    (process_with net env pkt number_port lookup_cache solution_is_send add_to_cache w).wire.ports =
      if check_is_exception number_port then
        learned_ports .port_in (slot_at pkt.data 6 6) .port_exception w.wire.ports
      else if cached_solution solution_is_send (lookup_cache w.caches).1 then
        learned_ports .port_in (slot_at pkt.data 6 6) .port_out w.wire.ports
      else w.wire.ports := by
  unfold process_with
  split
  · rw [ports_decision, if_pos rfl]
  · split
    · rename_i hlookup
      rw [ports_decision, hlookup]
      rfl
    · rename_i hlookup
      rw [ports_decision, hlookup]
      rfl
    · rename_i hlookup
      rw [hlookup]
      rfl

/-- The two branches of `process_with` that forward the packet, by the port they
forward it to. -/
theorem elim_out_port {α : Type} (exception verdict : Bool) (kept : α) (learn : Port → α) :
    (if exception then learn .port_exception else if verdict then learn .port_out else kept) =
      Option.elim (if exception || verdict then if exception then some .port_exception else some .port_out else none)
        kept learn := by
  cases exception <;> cases verdict <;> rfl

/-- A frame changes the ports by what its forwarding learns. -/
theorem ports_handle_arrival (w : World C) (a : Arrival) :
    (handle_arrival sys ops w a).wire.ports =
      (out_port sys ops w a).elim w.wire.ports fun port => learned_ports a.port a.source port w.wire.ports := by
  cases a with
  | port_out pkt tx_ok => exact ports_forward sys.net tx_ok pkt .port_out .port_in w.wire
  | port_exception pkt tx_ok => exact ports_forward sys.net tx_ok pkt .port_exception .port_in w.wire
  | port_in r =>
    obtain ⟨policy, filtring_is_turned_off, pkt, env⟩ := r
    simp only [handle_arrival, process_round, out_port, sends, Arrival.port, Arrival.source, Arrival.pkt]
    cases filtring_is_turned_off with
    | true => simp [ports_decision]
    | false =>
      simp only [Bool.false_eq_true, if_false, Bool.false_or, Bool.not_false, Bool.true_and]
      by_cases hdomain : (sys.parse pkt).domain 0 = 0
      · rw [process_packet_of_ip hdomain, process_ip, ports_process_with, if_pos hdomain]
        exact elim_out_port _ _ _ fun port => learned_ports .port_in (slot_at pkt.data 6 6) port w.wire.ports
      · rw [process_packet_of_domain hdomain, process_domain, ports_process_with, if_neg hdomain]
        exact elim_out_port _ _ _ fun port => learned_ports .port_in (slot_at pkt.data 6 6) port w.wire.ports

variable (sys ops)

/-- The frame's source becomes the neighbour of the port it came in on. -/
def Teaches (w : World C) (a : Arrival) : Prop :=
  ∃ port, out_port sys ops w a = some port ∧ (w.wire.ports a.port).neighbor_learned = false ∧
    a.source ≠ (w.wire.ports port).mac_addr ∧ a.source ≠ (w.wire.ports a.port).mac_addr

/-- All that a frame can do to the ports. -/
theorem handle_arrival_cases (w : World C) (a : Arrival) :
    (¬ Teaches sys ops w a ∧ (handle_arrival sys ops w a).wire.ports = w.wire.ports) ∨
    (Teaches sys ops w a ∧ (handle_arrival sys ops w a).wire.ports = Function.update w.wire.ports a.port
      { w.wire.ports a.port with neighbor_mac := a.source, neighbor_learned := true }) := by
  rw [ports_handle_arrival]
  cases hport : out_port sys ops w a with
  | none =>
    left
    refine ⟨?_, rfl⟩
    rintro ⟨port, hsome, _⟩
    cases hport.symm.trans hsome
  | some port =>
    have hteaches : Teaches sys ops w a ↔ (w.wire.ports a.port).neighbor_learned = false ∧
        a.source ≠ (w.wire.ports port).mac_addr ∧ a.source ≠ (w.wire.ports a.port).mac_addr := by
      simp [Teaches, hport]
    rw [hteaches, Option.elim_some, learned_ports]
    split
    · rename_i hlearns
      exact .inr ⟨hlearns, rfl⟩
    · rename_i hlearns
      exact .inl ⟨hlearns, rfl⟩

end Ports

section Neighbors

variable {C : Type} (sys : System) (ops : CacheOps C)

def Wire.DistinctMacs (w : Wire) : Prop := Function.Injective fun port => (w.ports port).mac_addr

/-- No port has learned an address of the filter itself. -/
def Wire.ForeignNeighbors (w : Wire) : Prop :=
  ∀ port, (w.ports port).neighbor_learned = true → ∀ own, (w.ports port).neighbor_mac ≠ (w.ports own).mac_addr

/-- A frame forwarded before its port has learned a neighbour does not carry the
address of the port that takes no part in the forwarding. -/
def ForeignSource (w : World C) (a : Arrival) : Prop :=
  ∀ port, out_port sys ops w a = some port → (w.wire.ports a.port).neighbor_learned = false →
    ∀ third, third ≠ a.port → third ≠ port → a.source ≠ (w.wire.ports third).mac_addr

theorem mac_addr_handle_arrival (w : World C) (a : Arrival) (port : Port) :
    ((handle_arrival sys ops w a).wire.ports port).mac_addr = (w.wire.ports port).mac_addr := by
  obtain ⟨_, hports⟩ | ⟨_, hports⟩ := handle_arrival_cases sys ops w a
  · rw [hports]
  · rw [hports, Function.update_apply]
    split
    · rename_i hport
      rw [hport]
    · rfl

/-- A port that has learned its neighbour stays as it is. -/
theorem handle_arrival_of_learned {w : World C} {port : Port} (hlearned : (w.wire.ports port).neighbor_learned = true)
    (a : Arrival) : (handle_arrival sys ops w a).wire.ports port = w.wire.ports port := by
  obtain ⟨_, hports⟩ | ⟨⟨_, _, hfresh, _⟩, hports⟩ := handle_arrival_cases sys ops w a
  · rw [hports]
  · have hport : port ≠ a.port := by
      rintro rfl
      rw [hlearned] at hfresh
      cases hfresh
    rw [hports, Function.update_of_ne hport]

theorem handle_arrivals_of_learned {w : World C} {port : Port} (hlearned : (w.wire.ports port).neighbor_learned = true)
    (arrivals : List Arrival) :
    (arrivals.foldl (handle_arrival sys ops) w).wire.ports port = w.wire.ports port := by
  induction arrivals generalizing w with
  | nil => rfl
  | cons a rest ih =>
    have hsame := handle_arrival_of_learned sys ops hlearned a
    rw [List.foldl_cons, ih (by rw [hsame, hlearned]), hsame]

/-- A learned neighbour is the source of a frame the port has received. -/
theorem learned_received {w : World C} (hstart : ∀ port, (w.wire.ports port).neighbor_learned = false)
    (arrivals : List Arrival) (port : Port)
    (hlearned : ((arrivals.foldl (handle_arrival sys ops) w).wire.ports port).neighbor_learned = true) :
    ∃ a ∈ arrivals, a.port = port ∧
      a.source = ((arrivals.foldl (handle_arrival sys ops) w).wire.ports port).neighbor_mac := by
  revert hlearned
  refine foldl_history (fun past (next : World C) => (next.wire.ports port).neighbor_learned = true →
    ∃ a ∈ past, a.port = port ∧ a.source = (next.wire.ports port).neighbor_mac) ?_ ?_ arrivals
  · intro hlearned
    rw [hstart] at hlearned
    cases hlearned
  · intro past a ih hlearned
    have hpast : (((past.foldl (handle_arrival sys ops) w).wire.ports port).neighbor_learned = true) →
        ∃ b ∈ past ++ [a], b.port = port ∧
          b.source = ((past.foldl (handle_arrival sys ops) w).wire.ports port).neighbor_mac := by
      intro hbefore
      obtain ⟨b, hb, hfound⟩ := ih hbefore
      exact ⟨b, List.mem_append_left [a] hb, hfound⟩
    obtain ⟨_, hports⟩ | ⟨_, hports⟩ := handle_arrival_cases sys ops (past.foldl (handle_arrival sys ops) w) a
    · rw [hports] at hlearned ⊢
      exact hpast hlearned
    · rw [hports] at hlearned ⊢
      by_cases hport : port = a.port
      · subst hport
        exact ⟨a, by simp, rfl, by simp⟩
      · rw [Function.update_of_ne hport] at hlearned ⊢
        exact hpast hlearned

/-- One frame leaves the neighbours foreign exactly if its source is. -/
theorem foreign_handle_arrival_iff {w : World C} (hmacs : w.wire.DistinctMacs) (hforeign : w.wire.ForeignNeighbors)
    (a : Arrival) : (handle_arrival sys ops w a).wire.ForeignNeighbors ↔ ForeignSource sys ops w a := by
  have hmac := mac_addr_handle_arrival sys ops w a
  obtain ⟨hteaches, hports⟩ | ⟨⟨out, hout, hfresh, hsource⟩, hports⟩ :=
    handle_arrival_cases sys ops w a
  · refine iff_of_true ?_ ?_
    · rw [Wire.ForeignNeighbors, hports]
      exact hforeign
    · -- a frame with the third port's address would teach it
      intro out hout hfresh third hin hthird heq
      refine hteaches ⟨out, hout, hfresh, ?_, ?_⟩
      · rw [heq]
        exact fun h => hthird (hmacs h)
      · rw [heq]
        exact fun h => hin (hmacs h)
  · constructor
    · intro hnext port hport _ third _ _
      have := hnext a.port (by rw [hports]; simp) third
      rwa [hmac, hports, Function.update_self] at this
    · intro hthird port hlearned own
      rw [hmac]
      by_cases hport : port = a.port
      · subst hport
        rw [hports, Function.update_self]
        by_cases hin : own = a.port
        · rw [hin]
          exact hsource.2
        · by_cases hown : own = out
          · rw [hown]
            exact hsource.1
          · exact hthird out hout hfresh own hin hown
      · rw [hports, Function.update_of_ne hport] at hlearned ⊢
        exact hforeign port hlearned own

/-- A learned neighbour is the source of a frame received on the port and never
changes. It differs from the addresses of the three ports in every state if and only
if no frame that is forwarded between two ports, before the first of them has learned
its neighbour, carries the address of the third. -/
theorem neighbors_foreign_iff (arrivals : List Arrival) (w : World C)
    (hmacs : w.wire.DistinctMacs) (hstart : ∀ port, (w.wire.ports port).neighbor_learned = false) :
    (∀ past rest, arrivals = past ++ rest →
      ∀ port, ((past.foldl (handle_arrival sys ops) w).wire.ports port).neighbor_learned = true →
        (∃ a ∈ past, a.port = port ∧
          a.source = ((past.foldl (handle_arrival sys ops) w).wire.ports port).neighbor_mac) ∧
        (arrivals.foldl (handle_arrival sys ops) w).wire.ports port =
          (past.foldl (handle_arrival sys ops) w).wire.ports port) ∧
    ((∀ past rest, arrivals = past ++ rest → (past.foldl (handle_arrival sys ops) w).wire.ForeignNeighbors) ↔
      Meets (fun w a => some (handle_arrival sys ops w a)) (ForeignSource sys ops) w arrivals) := by
  refine ⟨?_, ?_⟩
  · rintro past rest rfl port hlearned
    refine ⟨learned_received sys ops hstart past port hlearned, ?_⟩
    rw [List.foldl_append, handle_arrivals_of_learned sys ops hlearned]
  · have hforeign : w.wire.ForeignNeighbors := by
      intro port hlearned
      rw [hstart] at hlearned
      cases hlearned
    have hstep : ∀ w a next, Wire.DistinctMacs (World.wire w) → Wire.ForeignNeighbors (World.wire w) → True →
        some (handle_arrival sys ops w a) = some next →
        Wire.DistinctMacs next.wire ∧ (next.wire.ForeignNeighbors ↔ ForeignSource sys ops w a) := by
      rintro w a _ hmacs hforeign _ ⟨⟩
      refine ⟨?_, foreign_handle_arrival_iff sys ops hmacs hforeign a⟩
      simpa only [Wire.DistinctMacs, mac_addr_handle_arrival] using hmacs
    rw [← forall_good_iff_meets (fun w => w.wire.DistinctMacs) (fun w => w.wire.ForeignNeighbors) nofun hstep hmacs
      hforeign (meets_total_forall.mpr fun _ _ => trivial)]
    simp [run_total]

theorem start_distinctMacs : Wire.start.DistinctMacs := by
  intro p q h
  have hlast := congrFun h 5
  revert hlast
  cases p <;> cases q <;> decide

/-- A frame on `port_in` from the given address, with the bypass on. -/
def frame_from (source : Slot 6) : Arrival :=
  .port_in
    { policy := BasePolicy.zero
      filtring_is_turned_off := true
      pkt := { dns_query 0 [[97]] with data := set_bytes (dns_query 0 [[97]]).data 6 source }
      env := ⟨⟨0, true, true, 0, true⟩, fun _ _ => none, true, true⟩ }

/-- A frame that carries the address of `port_exception` and is forwarded to
`port_out` makes that address the neighbour of `port_in`. -/
theorem own_port_learned :
    let final := handle_arrival (filter_system udp4_net Inet.mute) (rteCaches 1) ⟨Wire.start, Caches.empty⟩
      (frame_from (Wire.start.ports .port_exception).mac_addr)
    Wire.start.DistinctMacs ∧ (∀ port, (Wire.start.ports port).neighbor_learned = false) ∧
      (final.wire.ports .port_in).neighbor_learned = true ∧
      (final.wire.ports .port_in).neighbor_mac = (final.wire.ports .port_exception).mac_addr := by
  refine ⟨start_distinctMacs, fun _ => rfl, rfl, ?_⟩
  funext k
  revert k
  decide

theorem other_host_learned :
    (handle_arrival (filter_system udp4_net Inet.mute) (rteCaches 1) ⟨Wire.start, Caches.empty⟩
      (frame_from fun _ => 4)).wire.ForeignNeighbors := by
  refine (neighbors_foreign_iff (filter_system udp4_net Inet.mute) (rteCaches 1) [frame_from fun _ => 4]
    ⟨Wire.start, Caches.empty⟩ start_distinctMacs fun _ => rfl).2.mpr ?_ [frame_from fun _ => 4] [] rfl
  refine ⟨?_, fun _ _ => trivial⟩
  intro port _ _ third _ _ heq
  have hfirst := congrFun heq 0
  revert hfirst
  cases third <;> decide

end Neighbors

end grpc_server.dpdk_filter
