import GrpcServer.Protocol.Agreement

open c_memory transition grpc_server.dpdk_filter grpc_server.communication grpc_server.manager grpc_server.worker

namespace grpc_server.protocol

variable {V S : Type} {codec : Codec V S} {inet : Inet} {s next : State V S}

/-- A worker that keeps its version, and waits for nothing new. -/
theorem Agreement.set_worker (h : Agreement codec s) (worker_id : UInt64) {w : Worker S}
    (hversion : w.current_config_version = (s.workers worker_id).current_config_version)
    (hadopted : w.adopted = (s.workers worker_id).adopted)
    (hwaiting : ∀ n, w.waiting = some n → (s.workers worker_id).waiting = some n) :
    Agreement codec (s.set_worker worker_id w) := by
  have hkeep := fun other => s.workers_set_worker worker_id other w
  refine h.quiet rfl rfl rfl rfl ?_ ?_ ?_
  · intro other
    obtain ⟨rfl, heq⟩ | ⟨_, heq⟩ := hkeep other
    · rw [heq, hversion]
    · rw [heq]
  · intro other
    obtain ⟨rfl, heq⟩ | ⟨_, heq⟩ := hkeep other
    · rw [heq, hadopted]
    · rw [heq]
  · intro other n hwait
    obtain ⟨rfl, heq⟩ | ⟨_, heq⟩ := hkeep other
    · exact hwaiting n (heq ▸ hwait)
    · exact heq ▸ hwait

/-- The worker adopts the policy it waited for. -/
theorem Agreement.adopt (h : Agreement codec s) {worker_id : UInt64} {n : ℕ} {c : Call S} {pol : WorkerPolicy S}
    (hwait : (s.workers worker_id).waiting = some n) (hcall : s.calls n = some c) (hpol : Provides codec c.stage pol)
    {w : Worker S} (hversion : w.current_config_version = pol.config_version) (hadopted : w.adopted = pol)
    (hwaiting : w.waiting = none) : Agreement codec (s.set_worker worker_id w) := by
  have hkeep := fun other => s.workers_set_worker worker_id other w
  have hwaits : ∀ other m, ((s.set_worker worker_id w).workers other).waiting = some m →
      other ≠ worker_id ∧ (s.workers other).waiting = some m := by
    intro other m hm
    obtain ⟨_, heq⟩ | ⟨hne, heq⟩ := hkeep other
    · rw [heq, hwaiting] at hm
      cases hm
    · rw [heq] at hm
      exact ⟨hne, hm⟩
  have hactive : ∀ m d, Active (s.set_worker worker_id w) m d → Active s m d :=
    fun m d hd => ⟨hd.1, hd.2.1, hd.2.2.imp id fun hm => (hwaits _ _ hm).2⟩
  have hgood := h.answer worker_id n c pol hwait hcall hpol
  obtain ⟨_, hawaited, hworker, hpolled, hrequested⟩ := h.awaited worker_id n hwait
  cases hcall.symm.trans hawaited
  subst hworker
  refine ⟨h.snapshots.congr rfl rfl rfl rfl, ?_, ?_, ?_, ?_, ?_, fun m d hd => h.asked m d (hactive m d hd), h.outdated,
    fun m d pol hd => h.newer m d pol (hactive m d hd), ?_⟩
  · intro other
    obtain ⟨_, heq⟩ | ⟨_, heq⟩ := hkeep other
    · rw [heq, hversion, hadopted]
    · rw [heq]
      exact h.version other
  · intro other
    obtain ⟨rfl, heq⟩ | ⟨_, heq⟩ := hkeep other
    · rw [heq, hadopted]
      exact hgood.congr rfl rfl
    · rw [heq]
      exact (h.adopted other).congr rfl rfl
  · intro other m hm
    obtain ⟨hne, hm⟩ := hwaits other m hm
    rw [((hkeep other).resolve_left fun heq => hne heq.1).2]
    exact h.awaited other m hm
  · intro other m d p hm hd hp
    exact (h.answer other m d p (hwaits other m hm).2 hd hp).congr rfl rfl
  · intro other m d hm hd hold
    exact h.stale other m d (hwaits other m hm).2 hd hold
  · intro m d hd hopen hdpolled
    have hbehind := h.behind m d hd hopen hdpolled
    obtain ⟨hsame, heq⟩ | ⟨_, heq⟩ := hkeep d.worker_id
    · -- an open poll of the same worker: the adopted answer is of this lifetime
      have hlife : c.life = s.life := by
        by_contra hold
        exact h.stale c.worker_id n c hwait hcall hold m d hd hopen hdpolled hsame
      have hasked := h.asked n c ⟨hcall, hpolled, .inr hwait⟩ hlife
      obtain ⟨hbegun, hle, _⟩ := (h.snapshots.calls n c hcall hlife).provides pol hpol
      rw [heq, hversion]
      rw [hsame, ← hrequested] at hbehind
      refine .inr ⟨hle, ?_⟩
      change _ ∨ s.version.toNat < _
      obtain heq | ⟨hv, hd | hd⟩ := hbehind
      · rw [heq]
        omega
      · omega
      · exact .inr hd
    · rw [heq]
      exact hbehind

theorem State.version_lt_install {version : UInt64} (cfg : TOMLConfig V) (hcount : s.version.toNat + 1 < 2 ^ 64)
    (hlt : s.version.toNat < version.toNat) (hne : version ≠ s.version + 1) :
    (s.install cfg).version.toNat < version.toNat := by
  have hnext := s.version_install cfg hcount
  have hnat : version.toNat ≠ (s.install cfg).version.toNat := fun heq => hne (UInt64.toNat_inj.mp heq)
  omega

/-- A configuration is installed under a number that nobody carries. -/
theorem Agreement.install (h : Agreement codec s) (cfg : TOMLConfig V) (hcount : s.version.toNat + 1 < 2 ^ 64)
    (hfree : ¬ Carried codec s (s.version + 1)) (hsnapshots : Snapshots codec (s.install cfg)) :
    Agreement codec (s.install cfg) := by
  have hnext := s.version_install cfg hcount
  have hversions : ∀ worker_id, (s.workers worker_id).current_config_version ≠ s.version + 1 :=
    fun worker_id heq => hfree (.inl ⟨worker_id, heq⟩)
  have hopens : ∀ n c, s.calls n = some c → c.polled = true → c.Open → c.requested ≠ s.version + 1 :=
    fun n c hcall hpolled hopen heq => hfree (.inr (.inl ⟨n, c, hcall, hpolled, hopen, heq⟩))
  have hgood : ∀ worker_id pol, pol.config_version ≠ s.version + 1 → Good codec s worker_id pol →
      Good codec (s.install cfg) worker_id pol :=
    fun worker_id pol hne hpol =>
      hpol.imp (fun hlt => State.version_lt_install cfg hcount hlt hne) fun hmatches => hmatches.append rfl
  refine ⟨hsnapshots, h.version, ?_, h.awaited, ?_, h.stale, ?_, ?_, h.newer, ?_⟩
  · intro worker_id
    exact hgood _ _ (h.version worker_id ▸ hversions worker_id) (h.adopted worker_id)
  · intro worker_id n c pol hwait hcall hpol
    refine hgood _ _ ?_ (h.answer worker_id n c pol hwait hcall hpol)
    exact fun heq => hfree (.inr (.inr ⟨worker_id, n, c, pol, hwait, hcall, hpol, heq⟩))
  · intro n c hactive hlife
    refine (h.asked n c hactive hlife).imp id fun hlt => State.version_lt_install cfg hcount hlt ?_
    obtain ⟨hcall, hpolled, hopen | hwait⟩ := hactive
    · exact hopens n c hcall hpolled hopen
    · obtain ⟨d, hd, _, _, hrequested⟩ := h.awaited c.worker_id n hwait
      cases hcall.symm.trans hd
      exact hrequested ▸ hversions c.worker_id
  · intro n c hcall hpolled hstage
    exact hopens n c hcall hpolled (Call.open_of_stage hstage nofun)
  · intro n c hcall hopen hpolled
    refine (h.behind n c hcall hopen hpolled).imp id fun hbehind => ⟨?_, hbehind.2.imp id fun hlt => ?_⟩
    · exact hbehind.1.trans (hnext ▸ Nat.le_succ _)
    · exact State.version_lt_install cfg hcount hlt (hopens n c hcall hpolled hopen)

/-- After a restart the version is 0 and every other version is one that the new
lifetime has yet to reach. -/
theorem Agreement.restart (h : Agreement codec s) (hnew : next.manager = new_manager)
    (hcalls : next.calls = fun n => (s.calls n).map Call.interrupt) (hworkers : next.workers = s.workers)
    (hlife : next.life = s.life + 1) (hsnapshots : Snapshots codec next) : Agreement codec next := by
  have hversion : next.version = 0 := by rw [State.version, hnew]; rfl
  have hgood : ∀ worker_id pol, Good codec s worker_id pol → Good codec next worker_id pol := by
    intro worker_id pol hpol
    by_cases hzero : pol.config_version.toNat = 0
    · obtain hlt | ⟨config, hconfig, hmerge⟩ := hpol
      · omega
      · refine .inr ⟨config, ?_, hmerge⟩
        rw [hzero] at hconfig ⊢
        exact hconfig
    · exact .inl (by rw [hversion]; exact Nat.pos_of_ne_zero hzero)
  have hold : ∀ n d, next.calls n = some d → ∃ c, s.calls n = some c ∧ d = c.interrupt := by
    intro n d hd
    rw [hcalls] at hd
    obtain ⟨c, hc, heq⟩ := Option.map_eq_some_iff.mp hd
    exact ⟨c, hc, heq.symm⟩
  have hclosed : ∀ n d, next.calls n = some d → ¬ d.Open := by
    intro n d hd
    obtain ⟨c, _, rfl⟩ := hold n d hd
    exact c.interrupt_eq.2.2.2.2.1
  refine ⟨hsnapshots, ?_, ?_, ?_, ?_, ?_, ?_, ?_, ?_, ?_⟩
  · rw [hworkers]
    exact h.version
  · rw [hworkers]
    exact fun worker_id => hgood worker_id _ (h.adopted worker_id)
  · intro worker_id n hwait
    rw [hworkers] at hwait ⊢
    obtain ⟨c, hc, hworker, hpolled, hrequested⟩ := h.awaited worker_id n hwait
    obtain ⟨hw, hr, hp, _⟩ := c.interrupt_eq
    exact ⟨c.interrupt, (congrFun hcalls n).trans (congrArg (Option.map _) hc), hw.trans hworker, hp.trans hpolled,
      hr.trans hrequested⟩
  · intro worker_id n d pol hwait hd hpol
    rw [hworkers] at hwait
    obtain ⟨c, hc, rfl⟩ := hold n d hd
    exact hgood worker_id pol (h.answer worker_id n c pol hwait hc hpol.of_interrupt)
  · exact fun _ _ _ _ _ _ m d hd hopen => absurd hopen (hclosed m d hd)
  · intro n d hactive hnow
    obtain ⟨c, hc, rfl⟩ := hold n d hactive.1
    have hle := h.snapshots.life_le n c hc
    rw [c.interrupt_eq.2.2.2.1, hlife] at hnow
    omega
  · intro n d hd _ hstage
    obtain ⟨c, _, rfl⟩ := hold n d hd
    exact absurd hstage c.interrupt_eq.2.2.2.2.2
  · intro n d pol hactive hpol
    obtain ⟨hd, hpolled, hopen | hwait⟩ := hactive
    · exact absurd hopen (hclosed n d hd)
    · obtain ⟨c, hc, rfl⟩ := hold n d hd
      obtain ⟨hw, hr, hp, _⟩ := c.interrupt_eq
      rw [hworkers, hw] at hwait
      rw [hr]
      exact h.newer n c pol ⟨hc, hp.symm.trans hpolled, .inr hwait⟩ hpol.of_interrupt
  · exact fun n d hd hopen => absurd hopen (hclosed n d hd)

theorem Agreement.step {a : Action} (h : Agreement codec s) (hallowed : Unambiguous codec s a)
    (hmove : Moves codec inet s a next) : Agreement codec next := by
  have hsnapshots := h.snapshots.step hallowed.countable hmove
  cases hmove with
  | load_failed _ => exact h
  | install hparse =>
    obtain ⟨hcount, hfree⟩ := hallowed (by rw [hparse]; rfl)
    exact h.install _ hcount hfree hsnapshots
  | restart => exact h.restart rfl rfl rfl rfl hsnapshots
  | toggle_filtering worker_id enabled =>
    exact h.quiet (set_filtering_enabled_policy_manager worker_id enabled _) rfl rfl rfl (fun _ => rfl) (fun _ => rfl)
      fun _ _ => id
  | request worker_id config_version hfree => exact h.request hfree worker_id config_version
  | poll hfree _ => exact h.poll hfree (s.polls _ _) hsnapshots
  | @register n c hcall hstage =>
    have hmoved : Agreement codec (s.set_call n { c with stage := .registered }) :=
      h.advance hcall (Call.open_of_stage hstage nofun) (fun _ hpol => False.elim hpol) nofun
    exact hmoved.quiet (register_worker_policy_manager _ _) rfl rfl rfl (fun _ => rfl) (fun _ => rfl) fun _ _ => id
  | read_version hcall hstage =>
    refine h.advance hcall (Call.open_of_stage hstage nofun)
      (fun _ hpol => (not_provides_read_version _ hpol).elim) fun hout heq => ?_
    have hequal : s.manager.policy_manager.version = _ := heq.symm
    rw [read_version, if_pos hequal] at hout
    cases hout
  | build_policy hcall hstage =>
    refine h.advance hcall (Call.open_of_stage hstage nofun)
      (fun _ hpol => .inr ⟨hstage, hpol.of_build_policy⟩) fun hout => ?_
    unfold build_policy at hout
    split at hout <;> cases hout
  | finish hcall hfinish =>
    obtain ⟨⟨resp, rfl⟩, hopen⟩ := finish_answered hfinish
    exact h.advance hcall hopen (fun _ hpol => .inl (hpol.of_finish hfinish)) nofun
  | @deliver worker_id trust n c resp hwait hcall hstage _ =>
    obtain ⟨pol, _, rfl⟩ | ⟨hversion, _, hadopted, hnone⟩ := (s.workers worker_id).receive_cases inet trust resp
    · exact h.adopt hwait hcall (provides_of_answered hstage) rfl rfl rfl
    · refine h.set_worker worker_id hversion hadopted fun m hm => ?_
      rw [hnone] at hm
      cases hm
  | @give_up worker_id _ _ => exact h.set_worker worker_id rfl rfl nofun
  | copy_policy worker_id => exact h.set_worker worker_id rfl rfl fun _ => id

theorem Agreement.start (codec : Codec V S) (memory : UInt64 → BasePolicy) : Agreement codec (State.start memory) := by
  have hempty : ∀ worker_id, (State.start memory : State V S).Matches codec worker_id WorkerPolicy.empty :=
    fun worker_id => ⟨TOMLConfig.empty, rfl, rfl⟩
  have hcalls : ∀ n c, (State.start memory : State V S).calls n ≠ some c := by
    intro n c h
    cases h
  have hwaiting : ∀ worker_id n, ((State.start memory : State V S).workers worker_id).waiting ≠ some n := by
    intro worker_id n h
    cases h
  have hsnapshots : Snapshots codec (State.start memory) :=
    ⟨⟨rfl, rfl⟩, fun n c h => absurd h (hcalls n c), fun n c h => absurd h (hcalls n c),
      fun n c h => absurd h (hcalls n c)⟩
  refine ⟨hsnapshots, fun _ => rfl, fun worker_id => .inr (hempty worker_id), ?_, ?_, ?_, ?_, ?_, ?_, ?_⟩
  · exact fun worker_id n h => absurd h (hwaiting worker_id n)
  · exact fun worker_id n _ _ h => absurd h (hwaiting worker_id n)
  · exact fun worker_id n _ h => absurd h (hwaiting worker_id n)
  · exact fun n c h => absurd h.1 (hcalls n c)
  · exact fun n c h => absurd h (hcalls n c)
  · exact fun n c _ h => absurd h.1 (hcalls n c)
  · exact fun n c h => absurd h (hcalls n c)

end grpc_server.protocol
