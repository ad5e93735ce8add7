import GrpcServer.DpdkFilter.Cache
import GrpcServer.DpdkFilter.FiltrPackets
import GrpcServer.DpdkFilter.ParsPackets
import GrpcServer.Worker.Classify

open c_memory ttl_cache grpc_server.worker

namespace grpc_server.dpdk_filter

inductive Port where
  | port_in
  | port_out
  | port_exception
deriving DecidableEq

/-- What `pakage_processing` and its callees do to buffers and counters. -/
inductive Event where
  | received
  | passed
  | dropped
  | decision (pkt : RteMbuf) (solution_is_send : Bool) (out_port : Port)
  | forward (pkt : RteMbuf) (in_port out_port : Port)
  | access (pkt : ℕ)
  | tx (pkt : RteMbuf) (out_port : Port) (accepted : Bool)
  | free (pkt : ℕ)

/-- The ports and the events so far. -/
structure Wire where
  ports : Port → NetPort
  trace : List Event

structure World (C : Type) where
  wire : Wire
  caches : C

def Wire.emit (w : Wire) (e : Event) : Wire := { w with trace := w.trace ++ [e] }

inductive ClassifyType where
  | ip
  | domain

/-- What the calls made while one packet is processed return. A classification
succeeds with a response and the contents `req_clas` had on the stack. -/
structure PacketEnv where
  cache : CacheEnv
  worker_classify : ClassifyType → Str → Option (ClassifyResponse × RequestedClassification)
  node_alloc_ok : Bool
  tx_ok : Bool

/-- The calls for a packet whose classification fails. -/
def failed_env : PacketEnv := ⟨⟨0, true, true, 0, true⟩, fun _ _ => none, true, true⟩

structure System where
  net : RteNet
  inet : Inet
  parse : RteMbuf → InfoOfPakage

/-- The filter with the parser of the source. -/
def filter_system (net : RteNet) (inet : Inet) : System := { net, inet, parse := parsing_pakage net }

@[simp] theorem filter_system_parse (net : RteNet) (inet : Inet) (pkt : RteMbuf) :
    (filter_system net inet).parse pkt = parsing_pakage net pkt := rfl

def learn_neighbor_mac (port : Port) (pkt : RteMbuf) (port_2 : Port) (w : Wire) : Wire :=
  if (w.ports port).neighbor_learned = false ∧ slot_at pkt.data 6 6 ≠ (w.ports port_2).mac_addr ∧
      slot_at pkt.data 6 6 ≠ (w.ports port).mac_addr then
    { w with
      ports := Function.update w.ports port
        { w.ports port with neighbor_mac := slot_at pkt.data 6 6, neighbor_learned := true } }
  else w

def set_bytes {n : ℕ} (data : ℕ → UInt8) (off : ℕ) (bytes : Slot n) (k : ℕ) : UInt8 :=
  if h : off ≤ k ∧ k < off + n then bytes ⟨k - off, by omega⟩ else data k

/-- The Ethernet addresses of a frame that leaves through `port`. -/
def rewrite_ether (port : NetPort) (data : ℕ → UInt8) : ℕ → UInt8 :=
  let data := set_bytes data 6 port.mac_addr
  set_bytes data 0 (if port.neighbor_learned then port.neighbor_mac else fun _ => 0xff)

/-- `time_to_live--` and the new header checksum. -/
def rewrite_ipv4 (net : RteNet) (data : ℕ → UInt8) : ℕ → UInt8 :=
  let data := Function.update data 22 (data 22 - 1)
  let data := set_bytes data 24 (fun _ : Fin 2 => 0)
  let cksum := net.rte_ipv4_cksum fun k => data (14 + k)
  set_bytes data 24 (fun k : Fin 2 => if k = 0 then cksum.hi else cksum.lo)

def transmit (tx_ok : Bool) (pkt : RteMbuf) (out_port : Port) (w : Wire) : Wire :=
  let w := (w.emit (.access pkt.id)).emit (.tx pkt out_port tx_ok)
  let w := if tx_ok then w else (w.emit .dropped).emit (.free pkt.id)
  w.emit .passed

def forward_packet_with_rewrite (net : RteNet) (tx_ok : Bool) (pkt : RteMbuf) (in_port out_port : Port)
    (w : Wire) : Wire :=
  let w := (w.emit (.forward pkt in_port out_port)).emit (.access pkt.id)
  let w := learn_neighbor_mac in_port pkt out_port w
  let data := rewrite_ether (w.ports out_port) pkt.data
  if be16_at data 12 = ⟨0x08, 0x00⟩ then
    if 1 < data 22 then transmit tx_ok { pkt with data := rewrite_ipv4 net data } out_port w
    else w.emit (.free pkt.id)
  else transmit tx_ok { pkt with data } out_port w

def package_sending_decision (net : RteNet) (tx_ok solution_is_send : Bool) (pkt : RteMbuf)
    (in_port out_port : Port) (w : Wire) : Wire :=
  let w := w.emit (.decision pkt solution_is_send out_port)
  if solution_is_send then forward_packet_with_rewrite net tx_ok pkt in_port out_port w
  else (w.emit .dropped).emit (.free pkt.id)

def LIST_EXCEPTION_PORTS : List ℕ := [22]

def check_is_exception (port : Be16) : Bool := LIST_EXCEPTION_PORTS.any (rte_be_to_cpu_16 port == ·)

/-- The zeroed `struct ip_key` filled from the destination address. Frames whose
`ip_version` is neither `IP_4` nor `IP_6` take the IPv6 branch. -/
def ip_key (info_pac : InfoOfPakage) : IpKey :=
  if info_pac.ip_version = IP_4 then ⟨4, fun k => bytesOf info_pac.ip4_dist k.val⟩
  else ⟨6, info_pac.ip6_dist⟩

def ip_str (inet : Inet) (info_pac : InfoOfPakage) : Str :=
  if info_pac.ip_version = IP_4 then inet.ntop4 info_pac.ip4_dist else inet.ntop6 info_pac.ip6_dist

def PacketEnv.req_clas (env : PacketEnv) (type : ClassifyType) (target : Str) : Option RequestedClassification :=
  (env.worker_classify type target).map fun (resp, stack) => classify resp stack

/-- `solution_is_send` on a cache miss: the filter's verdict, or send when the
classification failed. -/
def solution (filtring : RequestedClassification → Bool) : Option RequestedClassification → Bool
  | some req_clas => filtring req_clas
  | none => true

def ip_solution (inet : Inet) (policy : BasePolicy) (env : PacketEnv) (info_pac : InfoOfPakage) : Bool :=
  solution (main_filtring_by_ip · policy info_pac) (env.req_clas .ip (ip_str inet info_pac))

def domain_solution (policy : BasePolicy) (env : PacketEnv) (info_pac : InfoOfPakage) : Bool :=
  solution (main_filtring_by_domain · policy info_pac) (env.req_clas .domain info_pac.domain_str)

variable {C : Type}

/-- The course the two branches of `pakage_processing` share once the cache and
the filter are chosen. -/
def process_with (net : RteNet) (env : PacketEnv) (pkt : RteMbuf) (number_port : Be16)
    (lookup_cache : C → Lookup NodeCache × C) (solution_is_send : Bool) (add_to_cache : NodeCache → C → C)
    (w : World C) : World C :=
  if check_is_exception number_port then
    { w with wire := package_sending_decision net env.tx_ok true pkt .port_in .port_exception w.wire }
  else
    match lookup_cache w.caches with
    | (.hit node, caches) =>
      { wire := package_sending_decision net env.tx_ok node.solution_is_send pkt .port_in .port_out w.wire
        caches }
    | (.enoent, caches) =>
      { wire := package_sending_decision net env.tx_ok solution_is_send pkt .port_in .port_out w.wire
        caches := if env.node_alloc_ok then add_to_cache (NodeCache.fresh solution_is_send) caches
          else caches }
    | (.error, caches) => { wire := (w.wire.emit .dropped).emit (.free pkt.id), caches }

theorem process_with_hit {net : RteNet} {env : PacketEnv} {pkt : RteMbuf} {number_port : Be16}
    {lookup_cache : C → Lookup NodeCache × C} {solution_is_send : Bool} {add_to_cache : NodeCache → C → C}
    {wire : Wire} {before caches : C} {node : NodeCache} (hport : check_is_exception number_port = false)
    (hlookup : lookup_cache before = (.hit node, caches)) :
    process_with net env pkt number_port lookup_cache solution_is_send add_to_cache ⟨wire, before⟩ =
      ⟨package_sending_decision net env.tx_ok node.solution_is_send pkt .port_in .port_out wire, caches⟩ := by
  simp [process_with, hport, hlookup]

theorem process_with_enoent {net : RteNet} {env : PacketEnv} {pkt : RteMbuf} {number_port : Be16}
    {lookup_cache : C → Lookup NodeCache × C} {solution_is_send : Bool} {add_to_cache : NodeCache → C → C}
    {wire : Wire} {before caches : C} (hport : check_is_exception number_port = false)
    (hlookup : lookup_cache before = (.enoent, caches)) :
    process_with net env pkt number_port lookup_cache solution_is_send add_to_cache ⟨wire, before⟩ =
      ⟨package_sending_decision net env.tx_ok solution_is_send pkt .port_in .port_out wire,
        if env.node_alloc_ok then add_to_cache (NodeCache.fresh solution_is_send) caches else caches⟩ := by
  simp [process_with, hport, hlookup]

/-- An invariant of the caches is kept if the lookup keeps it, and the insertion
that follows a miss. -/
theorem process_with_keeps (inv : C → Prop) (net : RteNet) (env : PacketEnv) (pkt : RteMbuf) (number_port : Be16)
    (lookup_cache : C → Lookup NodeCache × C) (solution_is_send : Bool) (add_to_cache : NodeCache → C → C)
    (w : World C) (hinv : inv w.caches) (hlookup : inv (lookup_cache w.caches).2)
    (hadd : check_is_exception number_port = false → (lookup_cache w.caches).1 = .enoent → env.node_alloc_ok = true →
      inv (add_to_cache (NodeCache.fresh solution_is_send) (lookup_cache w.caches).2)) :
    inv (process_with net env pkt number_port lookup_cache solution_is_send add_to_cache w).caches := by
  unfold process_with
  split
  · exact hinv
  · rename_i hport
    rcases hpair : lookup_cache w.caches with ⟨ret, caches⟩
    rw [hpair] at hlookup hadd
    cases ret with
    | hit node => exact hlookup
    | enoent =>
      cases halloc : env.node_alloc_ok with
      | true => exact hadd (Bool.not_eq_true _ ▸ hport) rfl halloc
      | false => exact hlookup
    | error => exact hlookup

/-- The course of a packet as a rule: `inv` of the caches is kept and the packet
gets a `good` verdict, if the lookup and the insertion keep `inv` and both the
cached and the computed verdict are good. -/
theorem process_with_rule (inv : C → Prop) (good : Bool → Prop) (net : RteNet) (env : PacketEnv) (pkt : RteMbuf)
    (number_port : Be16) (lookup_cache : C → Lookup NodeCache × C) (solution_is_send : Bool)
    (add_to_cache : NodeCache → C → C) (w : World C) (hinv : inv w.caches)
    (hlookup : check_is_exception number_port = false → inv (lookup_cache w.caches).2 ∧
      ((lookup_cache w.caches).1 = .enoent ∧ good solution_is_send ∨
        ∃ node, (lookup_cache w.caches).1 = .hit node ∧ good node.solution_is_send))
    (hadd : check_is_exception number_port = false → ∀ caches, inv caches →
      inv (add_to_cache (NodeCache.fresh solution_is_send) caches)) :
    inv (process_with net env pkt number_port lookup_cache solution_is_send add_to_cache w).caches ∧
    ((check_is_exception number_port = true ∧
      (process_with net env pkt number_port lookup_cache solution_is_send add_to_cache w).wire =
        package_sending_decision net env.tx_ok true pkt .port_in .port_exception w.wire) ∨
    check_is_exception number_port = false ∧ ∃ verdict, good verdict ∧
      (process_with net env pkt number_port lookup_cache solution_is_send add_to_cache w).wire =
        package_sending_decision net env.tx_ok verdict pkt .port_in .port_out w.wire) := by
  obtain ⟨wire, before⟩ := w
  cases hport : check_is_exception number_port with
  | true =>
    rw [process_with, if_pos hport]
    exact ⟨hinv, .inl ⟨rfl, rfl⟩⟩
  | false =>
    have hfound := hlookup hport
    rcases hpair : lookup_cache before with ⟨ret, caches⟩
    simp only [hpair] at hfound
    obtain ⟨hcaches, ⟨henoent, hgood⟩ | ⟨node, hnode, hgood⟩⟩ := hfound
    · subst henoent
      rw [process_with_enoent hport hpair]
      refine ⟨?_, .inr ⟨rfl, solution_is_send, hgood, rfl⟩⟩
      cases halloc : env.node_alloc_ok with
      | true => simpa [halloc] using hadd hport caches hcaches
      | false => simpa [halloc] using hcaches
    · subst hnode
      rw [process_with_hit hport hpair]
      exact ⟨hcaches, .inr ⟨rfl, node.solution_is_send, hgood, rfl⟩⟩

/-- A packet without a DNS name. -/
def process_ip (sys : System) (ops : CacheOps C) (policy : BasePolicy) (env : PacketEnv) (pkt : RteMbuf)
    (info_pac : InfoOfPakage) (w : World C) : World C :=
  process_with sys.net env pkt info_pac.number_port (ops.lookup_ip_cache env.cache (ip_key info_pac))
    (ip_solution sys.inet policy env info_pac)
    (fun node => ops.add_to_ip_cache env.cache (ip_key info_pac) node policy.ttl_ip) w

/-- A packet with a DNS name. -/
def process_domain (sys : System) (ops : CacheOps C) (policy : BasePolicy) (env : PacketEnv) (pkt : RteMbuf)
    (info_pac : InfoOfPakage) (w : World C) : World C :=
  process_with sys.net env pkt info_pac.number_port (ops.lookup_dns_cache env.cache info_pac.domain)
    (domain_solution policy env info_pac)
    (fun node => ops.add_to_dns_cache env.cache info_pac.domain node policy.ttl_domain) w

def process_packet (sys : System) (ops : CacheOps C) (policy : BasePolicy) (w : World C) : RteMbuf × PacketEnv → World C
  | (pkt, env) =>
    let w := { w with wire := (w.wire.emit .received).emit (.access pkt.id) }
    let info_pac := sys.parse pkt
    if info_pac.domain 0 = 0 then process_ip sys ops policy env pkt info_pac w
    else process_domain sys ops policy env pkt info_pac w

theorem process_packet_of_ip {sys : System} {ops : CacheOps C} {pkt : RteMbuf} (hdomain : (sys.parse pkt).domain 0 = 0)
    (policy : BasePolicy) (w : World C) (env : PacketEnv) :
    process_packet sys ops policy w (pkt, env) = process_ip sys ops policy env pkt (sys.parse pkt)
      { w with wire := (w.wire.emit .received).emit (.access pkt.id) } := if_pos hdomain

theorem process_packet_of_domain {sys : System} {ops : CacheOps C} {pkt : RteMbuf}
    (hdomain : (sys.parse pkt).domain 0 ≠ 0) (policy : BasePolicy) (w : World C) (env : PacketEnv) :
    process_packet sys ops policy w (pkt, env) = process_domain sys ops policy env pkt (sys.parse pkt)
      { w with wire := (w.wire.emit .received).emit (.access pkt.id) } := if_neg hdomain

/-- `pakage_processing` on the packets `rte_eth_rx_burst` returned, each with
what the calls made for it return. -/
def pakage_processing (sys : System) (ops : CacheOps C) (policy : BasePolicy) (filtring_is_turned_off : Bool)
    (pkts : List (RteMbuf × PacketEnv)) (w : World C) : World C :=
  if filtring_is_turned_off then
    pkts.foldl (fun w (pkt, env) =>
      { w with
        wire := package_sending_decision sys.net env.tx_ok true pkt .port_in .port_out (w.wire.emit .received) }) w
  else pkts.foldl (process_packet sys ops policy) w

def forward_to_out (net : RteNet) (incoming_port outgoing_port : Port) (tap_pkts : List (RteMbuf × Bool))
    (w : Wire) : Wire :=
  tap_pkts.foldl (fun w (pkt, tx_ok) => forward_packet_with_rewrite net tx_ok pkt incoming_port outgoing_port w) w

/-- Successive bursts of `pakage_processing` with filtering on. -/
def process_bursts (sys : System) (ops : CacheOps C) (policy : BasePolicy)
    (bursts : List (List (RteMbuf × PacketEnv))) (w : World C) : World C :=
  bursts.foldl (fun w pkts => pakage_processing sys ops policy false pkts w) w

def Port.number : Port → ℕ
  | .port_in => 0
  | .port_out => 1
  | .port_exception => 2

/-- Ports with distinct addresses that have learned no neighbour, before the
first packet. -/
def Wire.start : Wire :=
  { ports := fun port =>
      { port_id := port.number.toUInt16
        mac_addr := fun k => if k = 5 then port.number.toUInt8 else 2
        neighbor_mac := fun _ => 0
        neighbor_learned := false }
    trace := [] }

theorem process_bursts_eq (sys : System) (ops : CacheOps C) (policy : BasePolicy)
    (bursts : List (List (RteMbuf × PacketEnv))) (w : World C) :
    process_bursts sys ops policy bursts w = bursts.flatten.foldl (process_packet sys ops policy) w := by
  rw [List.foldl_flatten]
  rfl

end grpc_server.dpdk_filter
