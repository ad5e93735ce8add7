import GrpcServer.DpdkFilter.NetPort.Laws
import GrpcServer.Worker.Startup

open c_memory device_table grpc_server.dpdk_filter

namespace grpc_server.worker

variable {σ D : Type} {dpdk : EthDev σ} {table : σ → Table UInt16 Str D} {name : D → Str} {started : D → Bool}

/-- The devices are those of the start and those the ports have created. The number
of a port is that of its own device, or of none. -/
structure Managed (dpdk : EthDev σ) (table : σ → Table UInt16 Str D) (name : D → Str) (base : Table UInt16 Str D)
    (s : Startup σ) (own : Port → Option (Claim UInt16 Str)) : Prop where
  ledger : Ledger name base (table s.state) own
  named : ∀ r c, own r = some c → ∃ port, s.ports r = some port ∧ port.dev_name = c.name
  numbered : ∀ r port, s.ports r = some port →
    (table s.state).dev port.port_id = none ∨ ∃ c, own r = some c ∧ c.number = some port.port_id
  tidy : dpdk.Tidy table → ∀ r c port, own r = some c → s.ports r = some port → c.number = some port.port_id

/-- Each port of `done` has a device, all others have no number yet. -/
structure Initialised (table : σ → Table UInt16 Str D) (name : D → Str) (base : Table UInt16 Str D)
    (done : List Port) (s : Startup σ) (own : Port → Option (Claim UInt16 Str)) : Prop where
  ledger : Ledger name base (table s.state) own
  holds : ∀ r ∈ done, ∃ port, s.ports r = some port ∧ own r = some ⟨port.dev_name, some port.port_id⟩
  idle : ∀ r, r ∉ done → own r = none ∧ ∀ port, s.ports r = some port → port.port_id = -1

section Invariant

variable {base : Table UInt16 Str D} {s next : Startup σ} {own now : Port → Option (Claim UInt16 Str)}

/-- A step for the port `r`, which leaves the other ports alone. -/
theorem Managed.step (h : Managed dpdk table name base s own) {r : Port} {after : NamedPort} {state : σ}
    (hledger : Ledger name base (table state) now) (hsame : ∀ r', r' ≠ r → now r' = own r')
    (hothers : ∀ r' port, r' ≠ r → s.ports r' = some port →
      (table state).dev port.port_id = none ∨ ∃ c, own r' = some c ∧ c.number = some port.port_id)
    (hname : ∀ c, now r = some c → after.dev_name = c.name)
    (hnumber : (table state).dev after.port_id = none ∨ ∃ c, now r = some c ∧ c.number = some after.port_id)
    (htidy : dpdk.Tidy table → ∀ c, now r = some c → c.number = some after.port_id) :
    Managed dpdk table name base ⟨state, Function.update s.ports r (some after)⟩ now := by
  refine ⟨hledger, ?_, ?_, ?_⟩
  · intro r' c hc
    by_cases hr : r' = r
    · subst hr
      exact ⟨after, Function.update_self .., hname c hc⟩
    · rw [hsame r' hr] at hc
      obtain ⟨port, hport, hdev⟩ := h.named r' c hc
      exact ⟨port, (Function.update_of_ne hr ..).trans hport, hdev⟩
  · intro r' port hport
    by_cases hr : r' = r
    · subst hr
      cases (Function.update_self ..).symm.trans hport
      exact hnumber
    · rw [hsame r' hr]
      exact hothers r' port hr ((Function.update_of_ne hr ..).symm.trans hport)
  · intro ht r' c port hc hport
    by_cases hr : r' = r
    · subst hr
      cases (Function.update_self ..).symm.trans hport
      exact htidy ht c hc
    · rw [hsame r' hr] at hc
      exact h.tidy ht r' c port hc ((Function.update_of_ne hr ..).symm.trans hport)

/-- The number of a port is that of its own device, or no device can have it. -/
theorem Initialised.numbered (hlaws : dpdk.Lawful table name started) {done : List Port}
    (h : Initialised table name base done s own) {r : Port} {port : NamedPort} (hport : s.ports r = some port)
    (state : σ) : (table state).dev port.port_id = none ∨ ∃ c, own r = some c ∧ c.number = some port.port_id := by
  by_cases hr : r ∈ done
  · obtain ⟨port', hport', hown⟩ := h.holds r hr
    cases hport'.symm.trans hport
    exact .inr ⟨_, hown, rfl⟩
  · rw [(h.idle r hr).2 port hport]
    exact .inl (hlaws.unnumbered state)

theorem Initialised.managed (hlaws : dpdk.Lawful table name started) {done : List Port}
    (h : Initialised table name base done s own) : Managed dpdk table name base s own := by
  have hdone : ∀ r c, own r = some c → r ∈ done := by
    intro r c hc
    by_contra hr
    rw [(h.idle r hr).1] at hc
    cases hc
  refine ⟨h.ledger, ?_, fun r port hport => h.numbered hlaws hport s.state, ?_⟩
  · intro r c hc
    obtain ⟨port, hport, hown⟩ := h.holds r (hdone r c hc)
    rw [hown, Option.some.injEq] at hc
    exact ⟨port, hport, congrArg Claim.name hc⟩
  · intro _ r c port hc hport
    obtain ⟨port', hport', hown⟩ := h.holds r (hdone r c hc)
    cases hport'.symm.trans hport
    rw [hown, Option.some.injEq] at hc
    rw [← hc]

theorem init_port_eq_some {r : Port} {ret : ℤ} (h : init_port dpdk s r = some (ret, next)) :
    ∃ port after, s.ports r = some port ∧ net_port_init dpdk port s.state = (ret, after, next.state) ∧
      next = ⟨next.state, Function.update s.ports r (some after)⟩ := by
  obtain ⟨port, hport, hcall⟩ := Option.map_eq_some_iff.mp h
  rcases hinit : net_port_init dpdk port s.state with ⟨ret', after, state⟩
  rw [hinit] at hcall
  cases hcall
  exact ⟨port, after, hport, hinit, rfl⟩

/-- One port more has been initialised. -/
theorem Initialised.init (hlaws : dpdk.Lawful table name started) {done : List Port} {r : Port}
    (h : Initialised table name base done s own) (hr : r ∉ done) (hcall : init_port dpdk s r = some (0, next)) :
    ∃ now, Initialised table name base (done ++ [r]) next now := by
  obtain ⟨port, after, hport, hinit, hnext⟩ := init_port_eq_some hcall
  obtain ⟨hname, ⟨hret, _⟩ | ⟨p, mid, hcreate, ⟨_, hstate, hid⟩ | ⟨hret, _⟩⟩⟩ := net_port_init_cases hlaws hinit
  · exact absurd rfl hret
  · rw [hnext, hstate]
    refine ⟨_, h.ledger.createsAt (h.idle r hr).1 hcreate, ?_, ?_⟩
    · intro r' hr'
      by_cases hsame : r' = r
      · subst hsame
        refine ⟨after, Function.update_self .., ?_⟩
        rw [Function.update_self, hname, hid]
      · have hbefore : r' ∈ done := (List.mem_append.mp hr').resolve_right fun hlast => hsame (List.mem_singleton.mp hlast)
        obtain ⟨other, hother, hown⟩ := h.holds r' hbefore
        exact ⟨other, (Function.update_of_ne hsame ..).trans hother, (Function.update_of_ne hsame ..).trans hown⟩
    · intro r' hr'
      rw [List.mem_append, List.mem_singleton, not_or] at hr'
      obtain ⟨hnone, hidle⟩ := h.idle r' hr'.1
      refine ⟨(Function.update_of_ne hr'.2 ..).trans hnone, ?_⟩
      intro other hother
      exact hidle other ((Function.update_of_ne hr'.2 ..).symm.trans hother)
  · exact absurd rfl hret

/-- A port whose initialisation fails: if the device that was created for it could be
removed, nothing has happened. -/
theorem Initialised.init_fails (hlaws : dpdk.Lawful table name started) {done : List Port} {r : Port} {ret : ℤ}
    (h : Initialised table name base done s own) (hr : r ∉ done) (hcall : init_port dpdk s r = some (ret, next))
    (hret : ret ≠ 0) :
    (next.ports r).isSome ∧ ∃ now, Managed dpdk table name base next now ∧ (dpdk.Tidy table → now = own) := by
  obtain ⟨port, after, hport, hinit, hnext⟩ := init_port_eq_some hcall
  have hmanaged : Managed dpdk table name base s own := h.managed hlaws
  obtain ⟨hfree, hidle⟩ := h.idle r hr
  have hid : port.port_id = -1 := hidle port hport
  have hothers : ∀ state r' other, r' ≠ r → s.ports r' = some other →
      (table state).dev other.port_id = none ∨ ∃ c, own r' = some c ∧ c.number = some other.port_id :=
    fun state r' other _ hother => h.numbered hlaws hother state
  have hunclaimed : ∀ c, own r ≠ some c := by
    intro c hc
    rw [hfree] at hc
    cases hc
  refine ⟨by rw [hnext]; simp, ?_⟩
  rw [hnext]
  obtain ⟨hname, ⟨_, hstate, hafter⟩ | ⟨p, mid, hcreate, ⟨hzero, _⟩ | ⟨_, hstate, hnumber⟩⟩⟩ :=
    net_port_init_cases hlaws hinit
  · refine ⟨own, hmanaged.step (hstate ▸ h.ledger) (fun _ _ => rfl) (hothers _) ?_ ?_ ?_, fun _ => rfl⟩
    · exact fun c hc => absurd hc (hunclaimed c)
    · rw [hafter, hid]
      exact .inl (hlaws.unnumbered _)
    · exact fun _ c hc => absurd hc (hunclaimed c)
  · exact absurd hzero hret
  · rw [hstate]
    rw [hid] at hnumber
    have hremoves := hlaws.vdev_uninit port.dev_name mid
    by_cases hundo : (dpdk.rte_vdev_uninit port.dev_name mid).1 = 0
    · -- the device is removed again, whatever number the port was given
      obtain ⟨hnames, hgone⟩ := hlaws.vdev_uninit_succeeds port.dev_name mid hundo
      obtain ⟨hledger, hempty⟩ := h.ledger.undo hfree hcreate hremoves hgone hnames
      refine ⟨own, hmanaged.step hledger (fun _ _ => rfl) (hothers _) ?_ ?_ ?_, fun _ => rfl⟩
      · exact fun c hc => absurd hc (hunclaimed c)
      · rcases hnumber with hnumber | hnumber <;> rw [hnumber]
        · exact .inl (hlaws.unnumbered _)
        · exact .inl hempty
      · exact fun _ c hc => absurd hc (hunclaimed c)
    · have huntidy : ¬ dpdk.Tidy table := by
        intro ht
        exact hundo (ht.vdev_uninit _ _ (by rw [hcreate.names]; exact Set.mem_insert _ _))
      obtain ⟨c, hc, hledger, hplace⟩ := h.ledger.undo_fails hfree hcreate hremoves
        (hlaws.vdev_uninit_fails port.dev_name mid hundo)
      have hclaim : Function.update own r (some c) r = some c := Function.update_self ..
      refine ⟨_, hmanaged.step hledger (fun r' hr' => Function.update_of_ne hr' ..) (hothers _) ?_ ?_
        (fun ht => absurd ht huntidy), fun ht => absurd ht huntidy⟩
      · intro c' hc'
        rw [← Option.some.inj (hclaim.symm.trans hc'), hc, hname]
      · rcases hnumber with hnumber | hnumber <;> rw [hnumber]
        · exact .inl (hlaws.unnumbered _)
        · exact hplace.imp_right fun hp => ⟨c, hclaim, hp⟩

/-- Starting a port leaves it its device, which is started if the call succeeds. -/
theorem Initialised.start (hlaws : dpdk.Lawful table name started) (h : Initialised table name base all_ports s own)
    {r : Port} {ret : ℤ} (hcall : start_port dpdk s r = some (ret, next)) :
    Initialised table name base all_ports next own ∧ next.ports = s.ports ∧ ∃ port, s.ports r = some port ∧
      KeepsAt name port.port_id (table s.state) (table next.state) ∧
      (ret = 0 → ∀ d, (table next.state).dev port.port_id = some d → started d = true) := by
  obtain ⟨port, hport, hcall⟩ := Option.map_eq_some_iff.mp hcall
  rcases hstart : net_port_start dpdk port.port_id s.state with ⟨ret', state⟩
  rw [hstart] at hcall
  cases hcall
  obtain ⟨hkeeps, hstarted⟩ := net_port_start_spec hlaws hstart
  obtain ⟨port', hport', hown⟩ := h.holds r (mem_all_ports r)
  cases hport'.symm.trans hport
  exact ⟨⟨h.ledger.keepsAt hkeeps (.inr ⟨r, _, hown, rfl⟩), h.holds, h.idle⟩, rfl, port, hport, hkeeps, hstarted⟩

/-- A step of the port `r` that creates no device leaves it another claim. -/
theorem Managed.set_claim (h : Managed dpdk table name base s own) {r : Port} {after : NamedPort} {state : σ}
    {claim : Option (Claim UInt16 Str)} (hledger : Ledger name base (table state) (Function.update own r claim))
    (hnone : ∀ p, (table s.state).dev p = none → (table state).dev p = none)
    (hname : ∀ c, claim = some c → after.dev_name = c.name)
    (hnumber : (table state).dev after.port_id = none ∨ ∃ c, claim = some c ∧ c.number = some after.port_id)
    (htidy : dpdk.Tidy table → claim = none) :
    ∃ now, Managed dpdk table name base ⟨state, Function.update s.ports r (some after)⟩ now ∧
      (∀ r', r' ≠ r → now r' = own r') ∧ (dpdk.Tidy table → now r = none) := by
  have hself : Function.update own r claim r = claim := Function.update_self ..
  refine ⟨_, h.step hledger (fun r' hr' => Function.update_of_ne hr' ..) ?_ ?_ ?_ ?_,
    fun r' hr' => Function.update_of_ne hr' .., fun ht => hself.trans (htidy ht)⟩
  · intro r' other _ hother
    exact (h.numbered r' other hother).imp_left (hnone _)
  · rw [hself]
    exact hname
  · rw [hself]
    exact hnumber
  · intro ht c hc
    rw [hself, htidy ht] at hc
    cases hc

/-- `net_port_close` of a port: unless a call fails, it has no device any more. -/
theorem Managed.net_port_close (hlaws : dpdk.Lawful table name started) (h : Managed dpdk table name base s own)
    {r : Port} {port after : NamedPort} {state : σ} (hport : s.ports r = some port)
    (hcall : dpdk_filter.net_port_close dpdk port s.state = (after, state)) :
    ∃ now, Managed dpdk table name base ⟨state, Function.update s.ports r (some after)⟩ now ∧
      (∀ r', r' ≠ r → now r' = own r') ∧ (dpdk.Tidy table → now r = none) := by
  have hname : ∀ c, own r = some c → port.dev_name = c.name := by
    intro c hc
    obtain ⟨port', hport', hdev⟩ := h.named r c hc
    cases hport'.symm.trans hport
    exact hdev
  have hnumber := h.numbered r port hport
  obtain ⟨stopped, hkeeps, hcases⟩ := net_port_close_cases hlaws hcall
  have hstopped := h.ledger.keepsAt hkeeps (hnumber.imp_right fun ⟨c, hc, hp⟩ => ⟨r, c, hc, hp⟩)
  obtain ⟨rfl, rfl, htidy⟩ | ⟨hdev, closed, hchange, hcases⟩ := hcases
  · refine h.set_claim ((Function.update_eq_self r own).symm ▸ hstopped) (fun p => hkeeps.changesAt.none) hname
      (hnumber.imp_left hkeeps.changesAt.none) ?_
    intro ht
    by_contra hne
    obtain ⟨c, hc⟩ := Option.ne_none_iff_exists'.mp hne
    obtain ⟨_, d, hd, _⟩ := h.ledger.holds r c _ hc (h.tidy ht r c after hc hport)
    rw [htidy ht] at hd
    cases hd
  -- a device has been stopped, so it is the port's own
  obtain ⟨⟨n, number⟩, hc, hp⟩ := hnumber.resolve_left hdev
  cases hp
  obtain rfl : port.dev_name = n := hname _ hc
  have hnone : ∀ p, (table s.state).dev p = none → (table closed).dev p = none :=
    fun p hp => hchange.none (hkeeps.changesAt.none hp)
  obtain ⟨rfl, rfl, huntidy⟩ | ⟨hgone, hremoves, hcases⟩ := hcases
  · rcases hchange.at_p with hgone | hkept
    · refine h.set_claim (hstopped.loses hc hchange hgone) hnone ?_ (.inl hgone) fun ht => absurd ht huntidy
      intro c hclaim
      cases hclaim
      rfl
    · have hledger := hstopped.keepsAt ⟨hchange.names, hchange.other, hkept⟩ (.inr ⟨r, _, hc, rfl⟩)
      exact h.set_claim ((Function.update_eq_self r own).symm ▸ hledger) hnone hname (.inr ⟨_, hc, rfl⟩)
        fun ht => absurd ht huntidy
  have hlost := hstopped.loses hc hchange hgone
  have hclaim : Function.update own r (some ⟨port.dev_name, none⟩) r =
      some (⟨port.dev_name, none⟩ : Claim UInt16 Str) := Function.update_self ..
  obtain ⟨rfl, hnames, htidy⟩ | ⟨rfl, hnames, hnamed⟩ := hcases
  · have hledger : Ledger name base (table state) (Function.update own r (some ⟨after.dev_name, none⟩)) := by
      rcases hlost.remove_fails hclaim hremoves hnames with hsame | ⟨hsame, _⟩
      · exact hsame
      · rwa [Function.update_idem] at hsame
    refine h.set_claim hledger (fun p hp => hremoves.none (hnone p hp)) ?_ (.inl (hremoves.none hgone)) ?_
    · intro c hc
      cases hc
      rfl
    · intro ht
      exact absurd ((hlost.names _).mpr (.inr ⟨r, _, hclaim, rfl⟩)) (htidy ht)
  · have hledger := hlost.removes hclaim hremoves hnamed hnames
    rw [Function.update_idem] at hledger
    refine h.set_claim hledger (fun p hp => hremoves.none (hnone p hp)) ?_ (.inl (hlaws.unnumbered _)) fun _ => rfl
    intro c hc
    cases hc

/-- A port is closed. -/
theorem Managed.close (hlaws : dpdk.Lawful table name started) (h : Managed dpdk table name base s own) (r : Port) :
    ∃ now, Managed dpdk table name base (close_port dpdk s r) now ∧ (∀ r', r' ≠ r → now r' = own r') ∧
      (dpdk.Tidy table → now r = none) := by
  unfold close_port
  split
  · rename_i hnull
    refine ⟨own, h, fun _ _ => rfl, ?_⟩
    intro _
    by_contra hne
    obtain ⟨c, hc⟩ := Option.ne_none_iff_exists'.mp hne
    obtain ⟨port, hport, _⟩ := h.named r c hc
    rw [hnull] at hport
    cases hport
  · rename_i port hport
    exact h.net_port_close hlaws hport rfl

end Invariant

end grpc_server.worker
