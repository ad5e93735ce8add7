import GrpcServer.DpdkFilter.ProcPackets

namespace grpc_server.dpdk_filter

/-- The part of a trace that `f` selects. -/
def Wire.view {β : Type} (f : Event → Option β) (w : Wire) : List β := w.trace.filterMap f

/-- A view of decisions and forwarding calls only. -/
structure Quiet {β : Type} (f : Event → Option β) : Prop where
  passed : f .passed = none
  dropped : f .dropped = none
  access : ∀ m, f (.access m) = none
  tx : ∀ pkt out_port accepted, f (.tx pkt out_port accepted) = none
  free : ∀ m, f (.free m) = none

variable {β : Type} {f : Event → Option β}

@[simp] theorem Wire.view_emit (w : Wire) (e : Event) : (w.emit e).view f = w.view f ++ (f e).toList := by
  rw [Wire.view, Wire.emit, List.filterMap_append, ← Wire.view]
  cases h : f e <;> simp [h]

theorem Quiet.view_transmit (hf : Quiet f) (tx_ok : Bool) (pkt : RteMbuf) (out_port : Port) (w : Wire) :
    (transmit tx_ok pkt out_port w).view f = w.view f := by
  cases tx_ok with
  | true => simp [transmit, hf.passed, hf.access, hf.tx]
  | false => simp [transmit, hf.passed, hf.access, hf.tx, hf.dropped, hf.free]

theorem Wire.view_learn_neighbor_mac (port : Port) (pkt : RteMbuf) (port_2 : Port) (w : Wire) :
    (learn_neighbor_mac port pkt port_2 w).view f = w.view f := by
  unfold learn_neighbor_mac
  split <;> rfl

theorem Quiet.view_forward (hf : Quiet f) (net : RteNet) (tx_ok : Bool) (pkt : RteMbuf)
    (in_port out_port : Port) (w : Wire) :
    (forward_packet_with_rewrite net tx_ok pkt in_port out_port w).view f =
      w.view f ++ (f (.forward pkt in_port out_port)).toList := by
  simp only [forward_packet_with_rewrite]
  split
  · split
    · rw [hf.view_transmit, Wire.view_learn_neighbor_mac]
      simp [hf.access]
    · rw [Wire.view_emit, Wire.view_learn_neighbor_mac]
      simp [hf.access, hf.free]
  · rw [hf.view_transmit, Wire.view_learn_neighbor_mac]
    simp [hf.access]

theorem Quiet.view_decision (hf : Quiet f) (net : RteNet) (tx_ok solution_is_send : Bool) (pkt : RteMbuf)
    (in_port out_port : Port) (w : Wire) :
    (package_sending_decision net tx_ok solution_is_send pkt in_port out_port w).view f =
      w.view f ++ ((f (.decision pkt solution_is_send out_port)).toList ++
        if solution_is_send then (f (.forward pkt in_port out_port)).toList else []) := by
  cases solution_is_send with
  | true => simp [package_sending_decision, hf.view_forward]
  | false => simp [package_sending_decision, hf.dropped, hf.free]

/-- The calls of `forward_packet_with_rewrite` in a trace. -/
def Event.handed : Event → Option (RteMbuf × Port × Port)
  | .forward pkt in_port out_port => some (pkt, in_port, out_port)
  | _ => none

/-- The verdicts in a trace. -/
def Event.verdict : Event → Option (RteMbuf × Bool)
  | .decision pkt solution_is_send _ => some (pkt, solution_is_send)
  | _ => none

theorem quiet_handed : Quiet Event.handed := ⟨rfl, rfl, fun _ => rfl, fun _ _ _ => rfl, fun _ => rfl⟩

theorem quiet_verdict : Quiet Event.verdict := ⟨rfl, rfl, fun _ => rfl, fun _ _ _ => rfl, fun _ => rfl⟩

theorem Wire.mem_handed {w : Wire} {pkt : RteMbuf} {in_port out_port : Port} :
    (pkt, in_port, out_port) ∈ w.view Event.handed ↔ .forward pkt in_port out_port ∈ w.trace := by
  rw [Wire.view, List.mem_filterMap]
  constructor
  · rintro ⟨e, he, hhanded⟩
    cases e with
    | forward pkt in_port out_port =>
      cases hhanded
      exact he
    | _ => cases hhanded
  · exact fun h => ⟨_, h, rfl⟩

theorem view_verdict_received (w : Wire) (m : ℕ) :
    ((w.emit .received).emit (.access m)).view Event.verdict = w.view Event.verdict := by
  simp [Event.verdict]

/-- A named packet that misses the cache. -/
theorem process_packet_enoent {C : Type} {sys : System} {ops : CacheOps C} {env : PacketEnv} {pkt : RteMbuf}
    {caches : C} (policy : BasePolicy) (w : World C) (hdomain : (sys.parse pkt).domain 0 ≠ 0)
    (hport : check_is_exception (sys.parse pkt).number_port = false)
    (hlookup : ops.lookup_dns_cache env.cache (sys.parse pkt).domain w.caches = (.enoent, caches)) :
    (process_packet sys ops policy w (pkt, env)).wire.view Event.verdict =
      w.wire.view Event.verdict ++ [(pkt, domain_solution policy env (sys.parse pkt))] ∧
    (process_packet sys ops policy w (pkt, env)).caches =
      if env.node_alloc_ok then ops.add_to_dns_cache env.cache (sys.parse pkt).domain
        (NodeCache.fresh (domain_solution policy env (sys.parse pkt)))
        policy.ttl_domain caches else caches := by
  rw [process_packet_of_domain hdomain, process_domain, process_with_enoent hport hlookup]
  refine ⟨?_, rfl⟩
  rw [quiet_verdict.view_decision, view_verdict_received]
  cases domain_solution policy env (sys.parse pkt) <;> rfl

/-- A named packet that hits the cache. -/
theorem process_packet_hit {C : Type} {sys : System} {ops : CacheOps C} {env : PacketEnv} {pkt : RteMbuf}
    {caches : C} {node : NodeCache} (policy : BasePolicy) (w : World C)
    (hdomain : (sys.parse pkt).domain 0 ≠ 0) (hport : check_is_exception (sys.parse pkt).number_port = false)
    (hlookup : ops.lookup_dns_cache env.cache (sys.parse pkt).domain w.caches = (.hit node, caches)) :
    (process_packet sys ops policy w (pkt, env)).wire.view Event.verdict =
      w.wire.view Event.verdict ++ [(pkt, node.solution_is_send)] := by
  rw [process_packet_of_domain hdomain, process_domain, process_with_hit hport hlookup,
    quiet_verdict.view_decision, view_verdict_received]
  cases node.solution_is_send <;> rfl

end grpc_server.dpdk_filter
