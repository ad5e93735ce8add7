import GrpcServer.DpdkFilter.ProcPackets.Keys
import GrpcServer.Transition

open c_memory ttl_cache transition grpc_server.dpdk_filter

namespace grpc_server.worker

/-- The copy of `current_policy` an iteration of `MainLoop` works with. -/
def copy_policy (current_policy : BasePolicy) : BasePolicy :=
  { current_policy with
    ttl_domain := if current_policy.ttl_domain ≤ 0 then DNS_CACHE_DEFAULT_TTL else current_policy.ttl_domain
    ttl_ip := if current_policy.ttl_ip ≤ 0 then IP_CACHE_DEFAULT_TTL else current_policy.ttl_ip }

/-- How far a policy update has got. It holds `policy_mutex` unless idle. -/
inductive UpdateStage where
  | idle
  | replaced
  | ip_cleared
deriving DecidableEq

/-- Where the main loop is: at the top of an iteration, between packets, or
inside a packet that missed its cache. -/
inductive LoopStage where
  | top
  | handling
  | missed (pkt : RteMbuf) (env : PacketEnv)
  | decided (pkt : RteMbuf) (env : PacketEnv) (solution_is_send : Bool) (version : UInt64)

/-- The main loop and the policy-update thread. `local_version` is the version of
`local_policy`; `origin` is the version a stored verdict was computed under. -/
structure Threads where
  current_policy : BasePolicy
  current_config_version : UInt64
  update : UpdateStage
  local_policy : BasePolicy
  local_version : UInt64
  loop : LoopStage
  world : World Caches
  origin : CacheKey → UInt64

inductive ThreadAction where
  | replace_policy (policy : BasePolicy) (version : UInt64)
  | clear_ip_cache
  | clear_dns_cache
  | copy_policy
  | lookup (pkt : RteMbuf) (env : PacketEnv)
  | decide
  | add
  | end_iteration

variable (sys : System) (hz : UInt64)

/-- The lookup of one packet, up to the verdict if the cache knows it. -/
def Threads.lookup (s : Threads) (pkt : RteMbuf) (env : PacketEnv) : Threads :=
  let wire := (s.world.wire.emit .received).emit (.access pkt.id)
  if check_is_exception (sys.parse pkt).number_port then
    { s with
      world := ⟨package_sending_decision sys.net env.tx_ok true pkt .port_in .port_exception wire, s.world.caches⟩ }
  else
    match (lookup_key (sys.parse pkt)).lookup_cache hz env.cache s.world.caches with
    | (.hit node, caches) =>
      { s with
        world :=
          ⟨package_sending_decision sys.net env.tx_ok node.solution_is_send pkt .port_in .port_out wire, caches⟩ }
    | (.enoent, caches) => { s with world := ⟨wire, caches⟩, loop := .missed pkt env }
    | (.error, caches) => { s with world := ⟨(wire.emit .dropped).emit (.free pkt.id), caches⟩ }

/-- The verdict of a packet that missed, computed with `local_policy`. -/
def Threads.decide (s : Threads) (pkt : RteMbuf) (env : PacketEnv) : Threads :=
  let solution_is_send := miss_solution sys s.local_policy env (sys.parse pkt)
  { s with
    world := { s.world with
      wire := package_sending_decision sys.net env.tx_ok solution_is_send pkt .port_in .port_out s.world.wire }
    loop := .decided pkt env solution_is_send s.local_version }

def Threads.add (s : Threads) (pkt : RteMbuf) (env : PacketEnv) (solution_is_send : Bool) (version : UInt64) :
    Threads :=
  { s with
    world := { s.world with
      caches :=
        if env.node_alloc_ok then
          (lookup_key (sys.parse pkt)).add_to_cache env.cache s.local_policy (NodeCache.fresh solution_is_send)
            s.world.caches
        else s.world.caches }
    origin :=
      if has_room env then Function.update s.origin (lookup_key (sys.parse pkt)).stored version else s.origin
    loop := .handling }

/-- One lock-protected section, or one section without a lock, of either thread. -/
def thread_step (s : Threads) : ThreadAction → Option Threads
  | .replace_policy policy version =>
    match s.update with
    | .idle =>
      some { s with current_policy := policy, current_config_version := version, update := .replaced }
    | _ => none
  | .clear_ip_cache =>
    match s.update with
    | .replaced =>
      some { s with
        world := { s.world with caches := clear_ip_cache s.world.caches }, update := .ip_cleared }
    | _ => none
  | .clear_dns_cache =>
    match s.update with
    | .ip_cleared =>
      some { s with world := { s.world with caches := clear_dns_cache s.world.caches }, update := .idle }
    | _ => none
  | .copy_policy =>
    match s.loop, s.update with
    | .top, .idle =>
      some { s with
        local_policy := copy_policy s.current_policy, local_version := s.current_config_version, loop := .handling }
    | _, _ => none
  | .lookup pkt env =>
    match s.loop with
    | .handling => some (s.lookup sys hz pkt env)
    | _ => none
  | .decide =>
    match s.loop with
    | .missed pkt env => some (s.decide sys pkt env)
    | _ => none
  | .add =>
    match s.loop with
    | .decided pkt env solution_is_send version => some (s.add sys pkt env solution_is_send version)
    | _ => none
  | .end_iteration =>
    match s.loop with
    | .handling => some { s with loop := .top }
    | _ => none

theorem Threads.lookup_miss {s : Threads} {pkt : RteMbuf} {env : PacketEnv} {caches : Caches}
    (hport : check_is_exception (sys.parse pkt).number_port = false)
    (hlookup : (lookup_key (sys.parse pkt)).lookup_cache hz env.cache s.world.caches = (.enoent, caches)) :
    s.lookup sys hz pkt env = { s with
      world := ⟨(s.world.wire.emit .received).emit (.access pkt.id), caches⟩, loop := .missed pkt env } := by
  simp [Threads.lookup, hport, hlookup]

theorem Threads.lookup_hit {s : Threads} {pkt : RteMbuf} {env : PacketEnv} {node : NodeCache} {caches : Caches}
    (hport : check_is_exception (sys.parse pkt).number_port = false)
    (hlookup : (lookup_key (sys.parse pkt)).lookup_cache hz env.cache s.world.caches = (.hit node, caches)) :
    s.lookup sys hz pkt env = { s with
      world := ⟨package_sending_decision sys.net env.tx_ok node.solution_is_send pkt .port_in .port_out
        ((s.world.wire.emit .received).emit (.access pkt.id)), caches⟩ } := by
  simp [Threads.lookup, hport, hlookup]

/-- A packet handled without interruption gets what `process_packet` gives it. -/
theorem run_packet_eq_process_packet (s : Threads) (hloop : s.loop = .handling) (pkt : RteMbuf) (env : PacketEnv) :
    ∃ acts next, (acts = [.lookup pkt env] ∨ acts = [.lookup pkt env, .decide, .add]) ∧
      run (thread_step sys hz) s acts = some next ∧ next.loop = .handling ∧
      next.world = process_packet sys (rteCaches hz) s.local_policy s.world (pkt, env) := by
  have hfirst : ∀ rest, run (thread_step sys hz) s (.lookup pkt env :: rest) =
      run (thread_step sys hz) (s.lookup sys hz pkt env) rest := by
    intro rest
    rw [run, thread_step, hloop, Option.bind_some]
  rw [process_packet_eq, process_with]
  cases hport : check_is_exception (sys.parse pkt).number_port with
  | true =>
    refine ⟨_, _, .inl rfl, hfirst [], ?_⟩
    rw [Threads.lookup, if_pos hport]
    exact ⟨hloop, rfl⟩
  | false =>
    rcases hlookup : (lookup_key (sys.parse pkt)).lookup_cache hz env.cache s.world.caches with ⟨ret, caches⟩
    cases ret with
    | hit node =>
      refine ⟨_, _, .inl rfl, hfirst [], ?_⟩
      rw [Threads.lookup_hit sys hz hport hlookup]
      exact ⟨hloop, rfl⟩
    | error =>
      refine ⟨_, _, .inl rfl, hfirst [], ?_⟩
      simp [Threads.lookup, hport, hlookup, hloop]
    | enoent =>
      have hrest := hfirst [.decide, .add]
      rw [Threads.lookup_miss sys hz hport hlookup] at hrest
      exact ⟨_, _, .inr rfl, hrest, rfl, rfl⟩

end grpc_server.worker
