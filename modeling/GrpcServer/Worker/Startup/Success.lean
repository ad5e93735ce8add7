import GrpcServer.Worker.Startup.Teardown

open c_memory device_table grpc_server.dpdk_filter

namespace grpc_server.worker

/-- If each call in turn succeeds, so does the chain. -/
theorem first_failure_succeeds {σ α : Type} {f : σ → α → Option (ℤ × σ)} {all : List α} (inv : List α → σ → Prop)
    (hstep : ∀ done a rest s, all = done ++ a :: rest → inv done s →
      ∃ next, f s a = some (0, next) ∧ inv (done ++ [a]) next)
    {done todo : List α} (hall : all = done ++ todo) {s : σ} (hinit : inv done s) :
    ∃ final, first_failure f todo s = some (false, final) ∧ inv all final := by
  induction todo generalizing done s with
  | nil => exact ⟨s, rfl, by rwa [hall, List.append_nil]⟩
  | cons a rest ih =>
    obtain ⟨next, hcall, hnext⟩ := hstep done a rest s hall hinit
    obtain ⟨final, hrest, hfinal⟩ := ih (by rw [hall, List.append_assoc, List.singleton_append]) hnext
    refine ⟨final, ?_, hfinal⟩
    rw [first_failure, hcall]
    exact hrest

section Success

/-- No step fails that `initDPDK` makes beside the devices. -/
structure StartEnv.Willing (env : StartEnv) : Prop where
  eal_init : ¬ env.eal_init < 0
  pool_ok : env.pool_ok = true
  calloc_ok : ∀ r, env.calloc_ok r = true

/-- The names of the devices that the ports will have. -/
def StartEnv.dev_name (env : StartEnv) (iface_in iface_out : Str) (r : Port) : Str :=
  ((env.init_structs iface_in iface_out r).map NamedPort.dev_name).getD []

variable {σ D : Type} {dpdk : EthDev σ} {table : σ → Table UInt16 Str D} {name : D → Str} {started : D → Bool}
  {limit : UInt16} {env : StartEnv} {iface_in iface_out : Str} {s : Startup σ}

/-- At least `k` numbers below the limit are free. -/
def Free (limit : UInt16) (k : ℕ) (t : Table UInt16 Str D) : Prop :=
  ∃ free : List UInt16, free.Nodup ∧ k ≤ free.length ∧ ∀ p ∈ free, p < limit ∧ t.dev p = none

theorem Free.exists_free {t : Table UInt16 Str D} {k : ℕ} (h : Free limit (k + 1) t) :
    ∃ p, p < limit ∧ t.dev p = none := by
  obtain ⟨free, _, hlength, hfree⟩ := h
  exact ⟨_, hfree _ (List.getElem_mem (Nat.lt_of_lt_of_le (Nat.succ_pos k) hlength))⟩

/-- A new device takes one of them. -/
theorem Free.createsAt {t next : Table UInt16 Str D} {k : ℕ} (h : Free limit (k + 1) t) {p : UInt16} {n : Str}
    (hcreate : CreatesAt name p n t next) : Free limit k next := by
  obtain ⟨free, hnodup, hlength, hfree⟩ := h
  refine ⟨free.erase p, hnodup.erase p, ?_, ?_⟩
  · have hle := List.length_erase_le (a := p) (l := free)
    have hge := List.le_length_erase (a := p) (l := free)
    omega
  · intro q hq
    rw [hnodup.mem_erase_iff] at hq
    rw [hcreate.other q hq.1]
    exact hfree q hq.2

/-- The ports behind `done` can still be initialised. -/
structure Ready (table : σ → Table UInt16 Str D) (name : D → Str) (limit : UInt16) (env : StartEnv)
    (iface_in iface_out : Str) (done : List Port) (s : Startup σ) : Prop where
  free : Free limit (all_ports.length - done.length) (table s.state)
  ports : ∀ r ∉ done, s.ports r = env.init_structs iface_in iface_out r
  unused : ∀ r ∉ done, Unused name (env.dev_name iface_in iface_out r) (table s.state)

theorem StartEnv.Willing.init_structs_eq (h : env.Willing) (iface_in iface_out : Str) (r : Port) :
    ∃ port, env.init_structs iface_in iface_out r = some port := by
  have hcalloc := h.calloc_ok r
  cases r with
  | port_exception => exact ⟨_, if_pos hcalloc⟩
  | port_in =>
    rw [StartEnv.init_structs, init_struct_af_xdp_port]
    split <;> exact ⟨_, if_pos hcalloc⟩
  | port_out =>
    rw [StartEnv.init_structs, init_struct_af_xdp_port]
    split <;> exact ⟨_, if_pos hcalloc⟩

/-- `net_port_init` of the next port succeeds. -/
theorem Ready.init (hlaws : dpdk.Lawful table name started) (hwilling : dpdk.Willing table name limit)
    (henv : env.Willing)
    (hdistinct : ∀ r r', env.dev_name iface_in iface_out r = env.dev_name iface_in iface_out r' → r = r')
    {done rest : List Port} {r : Port} (hall : all_ports = done ++ r :: rest)
    (h : Ready table name limit env iface_in iface_out done s) :
    ∃ next, init_port dpdk s r = some (0, next) ∧
      Ready table name limit env iface_in iface_out (done ++ [r]) next := by
  have hr := not_mem_of_all_ports hall
  obtain ⟨port, hport⟩ := henv.init_structs_eq iface_in iface_out r
  have hname : env.dev_name iface_in iface_out r = port.dev_name := by
    rw [StartEnv.dev_name, hport]
    rfl
  have hroom : all_ports.length - done.length = rest.length + 1 := by
    rw [hall, List.length_append, List.length_cons, Nat.add_sub_cancel_left]
  have hfree := h.free
  rw [hroom] at hfree
  obtain ⟨p, hlimit, hp⟩ := hfree.exists_free
  have hzero := net_port_init_succeeds hlaws hwilling (hname ▸ h.unused r hr) hlimit hp
  rcases hinit : net_port_init dpdk port s.state with ⟨ret, after, state⟩
  rw [hinit] at hzero
  obtain rfl : ret = 0 := hzero
  obtain ⟨_, ⟨hret, _⟩ | ⟨q, _, hcreate, ⟨_, rfl, _⟩ | ⟨hret, _⟩⟩⟩ := net_port_init_cases hlaws hinit
  · exact absurd rfl hret
  · refine ⟨⟨state, Function.update s.ports r (some after)⟩, ?_, ?_, ?_, ?_⟩
    · rw [init_port, h.ports r hr, hport, Option.map_some, hinit]
    · have hleft : all_ports.length - (done ++ [r]).length = rest.length := by
        rw [List.length_append, List.length_singleton, ← Nat.sub_sub, hroom, Nat.add_sub_cancel]
      rw [hleft]
      exact hfree.createsAt hcreate
    all_goals
      intro r' hr'
      rw [List.mem_append, List.mem_singleton, not_or] at hr'
    · exact (Function.update_of_ne hr'.2 _ _).trans (h.ports r' hr'.1)
    · refine hcreate.unused_of_ne (h.unused r' hr'.1) ?_
      rw [← hname]
      exact fun heq => hr'.2 (hdistinct r' r heq)
  · exact absurd rfl hret

/-- `net_port_start` of a port that has a device succeeds. -/
theorem Initialised.start_succeeds (hlaws : dpdk.Lawful table name started) (hwilling : dpdk.Willing table name limit)
    {base : Table UInt16 Str D} {own : Port → Option (Claim UInt16 Str)}
    (h : Initialised table name base all_ports s own) (r : Port) :
    ∃ next, start_port dpdk s r = some (0, next) ∧ Initialised table name base all_ports next own := by
  obtain ⟨port, hport, hown⟩ := h.holds r (mem_all_ports r)
  obtain ⟨_, d, hd, _⟩ := h.ledger.holds r _ _ hown rfl
  have hdev : (table s.state).dev port.port_id ≠ none := by
    rw [hd]
    exact Option.some_ne_none d
  have hcall : start_port dpdk s r = some (0, { s with state := (net_port_start dpdk port.port_id s.state).2 }) := by
    rw [start_port, hport, Option.map_some, ← net_port_start_succeeds hlaws hwilling hdev]
  exact ⟨_, hcall, (h.start hlaws hcall).1⟩

/-- If DPDK has no failure to report and the devices in it have no owners, the names of
the three devices differ and are not in use, and there are three numbers left,
`initDPDK` returns, whatever devices there are and whatever numbers they have. -/
theorem init_dpdk_returns (dpdk : EthDev σ) (table : σ → Table UInt16 Str D) (name : D → Str) (started : D → Bool)
    (limit : UInt16) (hlaws : dpdk.Lawful table name started) (hwilling : dpdk.Willing table name limit)
    (env : StartEnv) (henv : env.Willing) (state : σ) (hfree : Free limit 3 (table state)) (iface_in iface_out : Str)
    (hin : env.dpdk_port_in = some iface_in) (hout : env.dpdk_port_out = some iface_out)
    (hdistinct : ∀ r r', env.dev_name iface_in iface_out r = env.dev_name iface_in iface_out r' → r = r')
    (hunused : ∀ r, Unused name (env.dev_name iface_in iface_out r) (table state)) :
    ∃ s, init_dpdk dpdk env ⟨state, fun _ => none⟩ = some (.ok (), s) := by
  obtain ⟨middle, hinit, _⟩ := first_failure_succeeds (f := init_port dpdk)
    (Ready table name limit env iface_in iface_out)
    (fun done r rest s hall h => h.init hlaws hwilling henv hdistinct hall) (List.nil_append all_ports).symm
    (s := ⟨state, env.init_structs iface_in iface_out⟩) ⟨hfree, fun _ _ => rfl, fun r _ => hunused r⟩
  obtain ⟨own, _, _, hdone⟩ := init_ports_managed hlaws hinit
  obtain ⟨final, hstart, _⟩ := first_failure_succeeds (f := start_port dpdk)
    (fun _ s => Initialised table name (table state) all_ports s own)
    (fun _ r _ _ _ h => h.start_succeeds hlaws hwilling r) (List.nil_append all_ports).symm (hdone rfl)
  refine ⟨final, ?_⟩
  simp only [init_dpdk, if_neg henv.eal_init, henv.pool_ok, Bool.not_true, Bool.false_eq_true, if_false, hin, hout,
    hinit, hstart]

end Success

section Starting

theorem init_dpdk_returns_beside_one :
    ∃ s, init_dpdk (slots_dpdk fun _ => false) willing_env ⟨one_device, fun _ => none⟩ = some (.ok (), s) := by
  refine init_dpdk_returns _ Slots.table Prod.fst Prod.snd 4 (lawful_slots_dpdk _) willing_slots_dpdk willing_env
    ⟨by decide, rfl, fun _ => rfl⟩ one_device ⟨[1, 2, 3], by decide, by decide, ?_⟩ [97] [98] rfl rfl ?_ ?_
  · intro p hp
    simp only [List.mem_cons, List.not_mem_nil, or_false] at hp
    rcases hp with rfl | rfl | rfl <;> exact ⟨by decide, rfl⟩
  · intro r r'
    cases r <;> cases r' <;> decide
  · intro r
    apply Slots.not_used_iff.mp
    cases r <;> rfl

end Starting

end grpc_server.worker
