import GrpcServer.DpdkFilter.NetPort.Slots
import GrpcServer.Worker.Startup.Managed

open c_memory device_table grpc_server.dpdk_filter

namespace grpc_server.worker

section Runs

variable {σ D : Type} {dpdk : EthDev σ} {table : σ → Table UInt16 Str D} {name : D → Str} {started : D → Bool}
  {base : Table UInt16 Str D} {env : StartEnv} {s final : Startup σ} {own : Port → Option (Claim UInt16 Str)}

theorem port_id_init_structs {iface_in iface_out : Str} {r : Port} {port : NamedPort}
    (h : env.init_structs iface_in iface_out r = some port) : port.port_id = -1 := by
  cases r with
  | port_exception => exact port_id_init_struct_port h
  | port_in =>
    simp only [StartEnv.init_structs, init_struct_af_xdp_port] at h
    split at h <;> exact port_id_init_struct_port h
  | port_out =>
    simp only [StartEnv.init_structs, init_struct_af_xdp_port] at h
    split at h <;> exact port_id_init_struct_port h

/-- A port that is not the first has the first two before or at it. -/
theorem first_ports_mem {front rest : List Port} {r : Port} (hall : all_ports = front ++ r :: rest)
    (hfront : front ≠ []) :
    .port_in ∈ front ++ [r] ∧ .port_out ∈ front ++ [r] := by
  obtain _ | ⟨first, _ | ⟨second, front⟩⟩ := front
  · exact absurd rfl hfront
  · cases hall
    exact ⟨List.mem_cons_self, List.mem_cons_of_mem _ List.mem_cons_self⟩
  · simp only [all_ports, List.cons_append, List.cons.injEq] at hall
    obtain ⟨rfl, rfl, _⟩ := hall
    exact ⟨List.mem_cons_self, List.mem_cons_of_mem _ List.mem_cons_self⟩

/-- At first no port has a device or a number. -/
theorem initialised_init_structs (state : σ) (env : StartEnv) (iface_in iface_out : Str) :
    Initialised table name (table state) [] ⟨state, env.init_structs iface_in iface_out⟩ fun _ => none := by
  refine ⟨ledger_nil _, ?_, ?_⟩
  · intro r hr
    cases hr
  · intro r _
    exact ⟨rfl, fun port hport => port_id_init_structs hport⟩

/-- If a port has a device, `~Worker` will close the ports. -/
def Closable (dpdk : EthDev σ) (table : σ → Table UInt16 Str D) (s : Startup σ)
    (own : Port → Option (Claim UInt16 Str)) : Prop :=
  dpdk.Tidy table → ∀ r, own r ≠ none → (s.ports .port_in).isSome ∧ (s.ports .port_out).isSome

theorem Initialised.allocated {done : List Port} (h : Initialised table name base done s own) {r : Port}
    (hr : r ∈ done) : (s.ports r).isSome := by
  obtain ⟨port, hport, _⟩ := h.holds r hr
  rw [hport]
  rfl

theorem Initialised.closable (h : Initialised table name base all_ports s own) : Closable dpdk table s own :=
  fun _ _ _ => ⟨h.allocated (mem_all_ports _), h.allocated (mem_all_ports _)⟩

/-- `net_port_init` of the three ports. -/
theorem init_ports_managed (hlaws : dpdk.Lawful table name started) {state : σ} {iface_in iface_out : Str}
    {failed : Bool}
    (h : first_failure (init_port dpdk) all_ports ⟨state, env.init_structs iface_in iface_out⟩ = some (failed, s)) :
    ∃ own, Managed dpdk table name (table state) s own ∧ Closable dpdk table s own ∧
      (failed = false → Initialised table name (table state) all_ports s own) := by
  obtain ⟨rfl, own, hdone⟩ | ⟨front, r, rest, before, ret, hall, ⟨own, hdone⟩, rfl, hret, hcall⟩ :=
    first_failure_cases (fun done s => ∃ own, Initialised table name (table state) done s own)
      (fun done r rest s next hall hdone hcall => by
        obtain ⟨own, hdone⟩ := hdone
        exact hdone.init hlaws (not_mem_of_all_ports hall) hcall)
      (List.nil_append _).symm ⟨_, initialised_init_structs state env iface_in iface_out⟩ h
  · exact ⟨own, hdone.managed hlaws, hdone.closable, fun _ => hdone⟩
  · obtain ⟨hsome, now, hmanaged, hnow⟩ := hdone.init_fails hlaws (not_mem_of_all_ports hall) hcall hret
    refine ⟨now, hmanaged, ?_, nofun⟩
    intro ht r' hr'
    rw [hnow ht] at hr' hmanaged
    have hfront : r' ∈ front := by
      by_contra hidle
      exact hr' (hdone.idle r' hidle).1
    have hallocated : ∀ q ∈ front ++ [r], (s.ports q).isSome := by
      intro q hq
      rcases List.mem_append.mp hq with hbefore | hlast
      · obtain ⟨port, _, hown⟩ := hdone.holds q hbefore
        obtain ⟨port, hport, _⟩ := hmanaged.named q _ hown
        rw [hport]
        rfl
      · rw [List.mem_singleton.mp hlast]
        exact hsome
    have hmem := first_ports_mem hall (List.ne_nil_of_mem hfront)
    exact ⟨hallocated _ hmem.1, hallocated _ hmem.2⟩

/-- The ports of `done` have devices that are started. -/
structure StartedPorts (table : σ → Table UInt16 Str D) (name : D → Str) (started : D → Bool)
    (base : Table UInt16 Str D) (own : Port → Option (Claim UInt16 Str)) (done : List Port) (s : Startup σ) : Prop
    extends Initialised table name base all_ports s own where
  started : ∀ r ∈ done, ∀ port d, s.ports r = some port → (table s.state).dev port.port_id = some d → started d = true

/-- One port more has been started. -/
theorem StartedPorts.start (hlaws : dpdk.Lawful table name started) {done : List Port}
    (h : StartedPorts table name started base own done s) {r : Port}
    (hcall : start_port dpdk s r = some (0, final)) : StartedPorts table name started base own (done ++ [r]) final := by
  obtain ⟨hinit, hports, port, hport, hkeeps, hstarted⟩ := h.toInitialised.start hlaws hcall
  refine ⟨hinit, ?_⟩
  intro r' hr' other d hother hd
  rw [hports] at hother
  by_cases hsame : r' = r
  · subst hsame
    cases hport.symm.trans hother
    exact hstarted rfl d hd
  · have hbefore : r' ∈ done := (List.mem_append.mp hr').resolve_right fun hlast => hsame (List.mem_singleton.mp hlast)
    have hne : other.port_id ≠ port.port_id := by
      intro heq
      obtain ⟨_, hmine, hown⟩ := h.holds r' (mem_all_ports r')
      cases hmine.symm.trans hother
      obtain ⟨_, hyours, hown'⟩ := h.holds r (mem_all_ports r)
      cases hyours.symm.trans hport
      exact hsame (h.ledger.number_inj hown hown' rfl (congrArg some heq.symm))
    rw [hkeeps.other _ hne] at hd
    exact h.started r' hbefore other d hother hd

/-- `net_port_start` of the three ports. -/
theorem start_ports_managed (hlaws : dpdk.Lawful table name started) (h : Initialised table name base all_ports s own)
    {failed : Bool} (hloop : first_failure (start_port dpdk) all_ports s = some (failed, final)) :
    Initialised table name base all_ports final own ∧
      (failed = false → StartedPorts table name started base own all_ports final) := by
  have hstart : StartedPorts table name started base own [] s := ⟨h, fun r hr => by cases hr⟩
  obtain ⟨rfl, hdone⟩ | ⟨front, r, rest, before, ret, _, hdone, rfl, _, hcall⟩ :=
    first_failure_cases (StartedPorts table name started base own)
      (fun done r rest s next _ hdone hcall => hdone.start hlaws hcall) (List.nil_append _).symm hstart hloop
  · exact ⟨hdone.toInitialised, fun _ => hdone⟩
  · exact ⟨(hdone.toInitialised.start hlaws hcall).1, nofun⟩

/-- Before the ports are set up there is nothing to close. -/
theorem managed_untouched (dpdk : EthDev σ) (table : σ → Table UInt16 Str D) (name : D → Str) (state : σ) :
    ∃ own, Managed dpdk table name (table state) ⟨state, fun _ => none⟩ own ∧
      Closable dpdk table ⟨state, fun _ => none⟩ own := by
  refine ⟨fun _ => none, ⟨ledger_nil _, ?_, ?_, ?_⟩, ?_⟩
  · intro r c hc
    cases hc
  · intro r port hport
    cases hport
  · intro _ r c port hc
    cases hc
  · intro _ r hr
    exact absurd rfl hr

/-- What `initDPDK` leaves behind, whether it returns or throws. -/
theorem init_dpdk_managed (hlaws : dpdk.Lawful table name started) {state : σ} {result : Except StartError Unit}
    (h : init_dpdk dpdk env ⟨state, fun _ => none⟩ = some (result, s)) :
    ∃ own, Managed dpdk table name (table state) s own ∧ Closable dpdk table s own ∧
      (result = .ok () → StartedPorts table name started (table state) own all_ports s) := by
  have hthrows : ∀ {e : StartError} {s : Startup σ},
      (∃ own, Managed dpdk table name (table state) s own ∧ Closable dpdk table s own) →
      ∃ own, Managed dpdk table name (table state) s own ∧ Closable dpdk table s own ∧
        ((.error e : Except StartError Unit) = .ok () →
          StartedPorts table name started (table state) own all_ports s) := by
    intro e s hmanaged
    obtain ⟨own, hmanaged, hclosable⟩ := hmanaged
    exact ⟨own, hmanaged, hclosable, nofun⟩
  unfold init_dpdk at h
  split at h
  · cases h
    exact hthrows (managed_untouched dpdk table name state)
  · split at h
    · cases h
      exact hthrows (managed_untouched dpdk table name state)
    · split at h
      · split at h
        · cases h
        · rename_i hinit
          cases h
          obtain ⟨own, hmanaged, hclosable, _⟩ := init_ports_managed hlaws hinit
          exact hthrows ⟨own, hmanaged, hclosable⟩
        · rename_i middle hinit
          obtain ⟨own, _, _, hall⟩ := init_ports_managed hlaws hinit
          split at h
          · cases h
          · rename_i hloop
            cases h
            have hdone := (start_ports_managed hlaws (hall rfl) hloop).1
            exact hthrows ⟨own, hdone.managed hlaws, hdone.closable⟩
          · rename_i hloop
            cases h
            obtain ⟨hdone, hstarted⟩ := start_ports_managed hlaws (hall rfl) hloop
            exact ⟨own, hdone.managed hlaws, hdone.closable, fun _ => hstarted rfl⟩
      · cases h
        exact hthrows (managed_untouched dpdk table name state)

/-- The ports are closed one after the other. -/
theorem Managed.close_ports (hlaws : dpdk.Lawful table name started) (rs : List Port)
    (h : Managed dpdk table name base s own) :
    ∃ now, Managed dpdk table name base (rs.foldl (close_port dpdk) s) now ∧
      (dpdk.Tidy table → ∀ r, r ∈ rs ∨ own r = none → now r = none) := by
  induction rs generalizing s own with
  | nil => exact ⟨own, h, fun _ r hr => hr.resolve_left List.not_mem_nil⟩
  | cons first rest ih =>
    obtain ⟨mid, hmid, hother, hfirst⟩ := h.close hlaws first
    obtain ⟨now, hnow, htidy⟩ := ih hmid
    refine ⟨now, hnow, ?_⟩
    intro ht r hr
    apply htidy ht
    by_cases hsame : r = first
    · exact .inr (hsame ▸ hfirst ht)
    · rw [List.mem_cons, or_iff_right hsame] at hr
      rw [hother r hsame]
      exact hr

/-- After `~Worker` the ports have nothing left, if no call failed. -/
theorem worker_destructor_managed (hlaws : dpdk.Lawful table name started) (h : Managed dpdk table name base s own)
    (hclosable : Closable dpdk table s own) :
    ∃ now : Port → Option (Claim UInt16 Str), Ledger name base (table (worker_destructor dpdk s).state) now ∧
      (dpdk.Tidy table → ∀ r, now r = none) := by
  unfold worker_destructor
  split
  · obtain ⟨now, hnow, htidy⟩ := h.close_ports hlaws all_ports
    exact ⟨now, hnow.ledger, fun ht r => htidy ht r (.inl (mem_all_ports r))⟩
  · rename_i hnull
    refine ⟨own, h.ledger, ?_⟩
    intro ht r
    by_contra hheld
    exact hnull (hclosable ht r hheld)

/-- Under the laws of DPDK, whatever calls of it fail while the ports are set up, and
unless a null pointer ends the process: no device that DPDK had before is touched. If
no call fails that takes a device back, after `~Worker` the devices and names are those
of before. If `initDPDK` returns, each port has a new device of its own, which is
started. -/
theorem worker_leaves_devices (dpdk : EthDev σ) (table : σ → Table UInt16 Str D) (name : D → Str) (started : D → Bool)
    (hlaws : dpdk.Lawful table name started) (env : StartEnv) (state : σ) (result : Except StartError Unit)
    (s : Startup σ) (hinit : init_dpdk dpdk env ⟨state, fun _ => none⟩ = some (result, s)) :
    (∀ p d, (table state).dev p = some d → (table s.state).dev p = some d ∧
      (table (worker_destructor dpdk s).state).dev p = some d) ∧
    (dpdk.Tidy table → table (worker_destructor dpdk s).state = table state) ∧
    (result = .ok () → ∃ number : Port → UInt16, Function.Injective number ∧
      ∀ r, (table state).dev (number r) = none ∧ ∃ port d, s.ports r = some port ∧ port.port_id = number r ∧
        (table s.state).dev (number r) = some d ∧ name d = port.dev_name ∧ started d = true) := by
  obtain ⟨own, hmanaged, hclosable, hok⟩ := init_dpdk_managed hlaws hinit
  obtain ⟨now, hnow, htidy⟩ := worker_destructor_managed hlaws hmanaged hclosable
  refine ⟨fun p d hd => ⟨hmanaged.ledger.kept hd, hnow.kept hd⟩, fun ht => hnow.eq_base (htidy ht), ?_⟩
  intro hreturns
  have hdone := hok hreturns
  choose port hport hown using fun r => hdone.holds r (mem_all_ports r)
  refine ⟨fun r => (port r).port_id, ?_, ?_⟩
  · intro r r' heq
    exact hdone.ledger.number_inj (hown r) (hown r') rfl (congrArg some heq.symm)
  · intro r
    obtain ⟨hnew, d, hd, hname⟩ := hdone.ledger.holds r _ _ (hown r) rfl
    exact ⟨hnew, port r, d, hport r, rfl, hd, hname, hdone.started r (mem_all_ports r) (port r) d (hport r) hd⟩

end Runs

section Failing

/-- Every step before the ports succeeds. -/
def willing_env : StartEnv :=
  { with_af_packet := false
    eal_init := 0
    pool_ok := true
    dpdk_port_in := some [97]
    dpdk_port_out := some [98]
    calloc_ok := fun _ => true }

/-- The first number has a device. -/
def one_device : Slots := ⟨fun p => if p = 0 then some ([112], true) else none, []⟩

/-- The second port gets no transmit queue. -/
theorem worker_leaves_devices_failing :
    ∃ s, init_dpdk (slots_dpdk (· = 2)) willing_env ⟨one_device, fun _ => none⟩ = some (.error .init_ports, s) ∧
      s.state.dev 1 ≠ none ∧ (worker_destructor (slots_dpdk (· = 2)) s).state.table = one_device.table := by
  refine ⟨_, rfl, ?_, ?_⟩
  · decide
  · exact (worker_leaves_devices _ _ _ _ (lawful_slots_dpdk _) willing_env one_device _ _ rfl).2.1 (tidy_slots_dpdk _)

end Failing

end grpc_server.worker
