import GrpcServer.DpdkFilter.NetPort

open c_memory grpc_server.dpdk_filter

namespace grpc_server.worker

section Chain

variable {σ α : Type}

/-- `f(a) || f(b) || …` for functions that return 0 on success: the calls up to the
first that fails. There is no result if one of them crashes. -/
def first_failure (f : σ → α → Option (ℤ × σ)) : List α → σ → Option (Bool × σ)
  | [], s => some (false, s)
  | a :: rest, s => match f s a with
    | none => none
    | some (ret, next) => if ret ≠ 0 then some (true, next) else first_failure f rest next

/-- What holds of the calls that succeeded, up to the end or to the first failure. -/
theorem first_failure_cases {f : σ → α → Option (ℤ × σ)} {all : List α} (inv : List α → σ → Prop)
    (hstep : ∀ done a rest s next, all = done ++ a :: rest → inv done s → f s a = some (0, next) →
      inv (done ++ [a]) next)
    {done todo : List α} (hall : all = done ++ todo) {s final : σ} {failed : Bool} (hinit : inv done s)
    (h : first_failure f todo s = some (failed, final)) :
    (failed = false ∧ inv all final) ∨
      ∃ front a rest before ret, all = front ++ a :: rest ∧ inv front before ∧ failed = true ∧ ret ≠ 0 ∧
        f before a = some (ret, final) := by
  induction todo generalizing done s with
  | nil =>
    cases h
    rw [hall, List.append_nil]
    exact .inl ⟨rfl, hinit⟩
  | cons a rest ih =>
    unfold first_failure at h
    split at h
    · cases h
    · rename_i ret next hcall
      split at h
      · rename_i hret
        cases h
        exact .inr ⟨done, a, rest, s, ret, hall, hinit, rfl, hret, hcall⟩
      · rename_i hret
        obtain rfl : ret = 0 := not_ne_iff.mp hret
        exact ih (by rw [hall, List.append_assoc, List.singleton_append]) (hstep done a rest s next hall hinit hcall) h

end Chain

/-- What `initDPDK` meets beside the devices. -/
structure StartEnv where
  with_af_packet : Bool
  eal_init : ℤ
  pool_ok : Bool
  dpdk_port_in : Option Str
  dpdk_port_out : Option Str
  calloc_ok : Port → Bool

/-- The exceptions of `initDPDK`. -/
inductive StartError where
  | eal_init
  | mbuf_pool
  | interfaces
  | init_ports
  | start_ports

/-- DPDK and the ports of the worker, which are null pointers at first. -/
structure Startup (σ : Type) where
  state : σ
  ports : Port → Option NamedPort

/-- The order in which `initDPDK` and `~Worker` go through the ports. -/
def all_ports : List Port := [.port_in, .port_out, .port_exception]

/-- Each port has one turn. -/
theorem not_mem_of_all_ports {done rest : List Port} {r : Port} (hall : all_ports = done ++ r :: rest) : r ∉ done := by
  intro hmem
  have hnodup : all_ports.Nodup := by decide
  rw [hall, List.nodup_append] at hnodup
  exact hnodup.2.2 r hmem r List.mem_cons_self rfl

theorem mem_all_ports (r : Port) : r ∈ all_ports := by
  cases r <;> decide

section Functions

variable {σ : Type} (dpdk : EthDev σ) (env : StartEnv)

def StartEnv.init_structs (iface_in iface_out : Str) : Port → Option NamedPort
  | .port_in => init_struct_af_xdp_port env.with_af_packet (env.calloc_ok .port_in) iface_in
  | .port_out => init_struct_af_xdp_port env.with_af_packet (env.calloc_ok .port_out) iface_out
  | .port_exception => init_struct_tap_port (env.calloc_ok .port_exception) "tap0".toUTF8.data.toList

/-- `net_port_init` of a port. A null pointer crashes. -/
def init_port (s : Startup σ) (r : Port) : Option (ℤ × Startup σ) :=
  (s.ports r).map fun port =>
    match net_port_init dpdk port s.state with
    | (ret, after, state) => (ret, ⟨state, Function.update s.ports r (some after)⟩)

/-- `net_port_start` of the number of a port. -/
def start_port (s : Startup σ) (r : Port) : Option (ℤ × Startup σ) :=
  (s.ports r).map fun port =>
    match net_port_start dpdk port.port_id s.state with
    | (ret, state) => (ret, { s with state })

/-- `initDPDK`, with DPDK as `rte_eal_init` leaves it. -/
def init_dpdk (s : Startup σ) : Option (Except StartError Unit × Startup σ) :=
  if env.eal_init < 0 then some (.error .eal_init, s)
  else if !env.pool_ok then some (.error .mbuf_pool, s)
  else match env.dpdk_port_in, env.dpdk_port_out with
    | some iface_in, some iface_out =>
      match first_failure (init_port dpdk) all_ports { s with ports := env.init_structs iface_in iface_out } with
      | none => none
      | some (true, s) => some (.error .init_ports, s)
      | some (false, s) => match first_failure (start_port dpdk) all_ports s with
        | none => none
        | some (true, s) => some (.error .start_ports, s)
        | some (false, s) => some (.ok (), s)
    | _, _ => some (.error .interfaces, s)

/-- `net_port_close` of a port, which passes over a null pointer. -/
def close_port (s : Startup σ) (r : Port) : Startup σ :=
  match s.ports r with
  | none => s
  | some port => match net_port_close dpdk port s.state with
    | (after, state) => ⟨state, Function.update s.ports r (some after)⟩

/-- `~Worker` without what it does with the caches. -/
def worker_destructor (s : Startup σ) : Startup σ :=
  if (s.ports .port_in).isSome ∧ (s.ports .port_out).isSome then
    { all_ports.foldl (close_port dpdk) s with ports := fun _ => none }
  else s

end Functions

end grpc_server.worker
