import GrpcServer.Protocol.Snapshot

open c_memory transition grpc_server.dpdk_filter grpc_server.communication grpc_server.manager grpc_server.worker

namespace grpc_server.protocol

variable {V S : Type} {codec : Codec V S} {inet : Inet} {s next : State V S}

/-- The policy is that of its version in the present lifetime, or its version is
one the controller has yet to reach. -/
def Good (codec : Codec V S) (s : State V S) (worker_id : UInt64) (pol : WorkerPolicy S) : Prop :=
  s.version.toNat < pol.config_version.toNat ∨ s.Matches codec worker_id pol

/-- A poll the controller works on or its worker waits for. -/
def Active (s : State V S) (n : ℕ) (c : Call S) : Prop :=
  s.calls n = some c ∧ c.polled = true ∧ (c.Open ∨ (s.workers c.worker_id).waiting = some n)

/-- A worker, a poll under way or an answer on its way carries the version. -/
def Carried (codec : Codec V S) (s : State V S) (version : UInt64) : Prop :=
  (∃ worker_id, (s.workers worker_id).current_config_version = version) ∨
  (∃ n c, s.calls n = some c ∧ c.polled = true ∧ c.Open ∧ c.requested = version) ∨
  ∃ worker_id n c pol, (s.workers worker_id).waiting = some n ∧ s.calls n = some c ∧ Provides codec c.stage pol ∧
    pol.config_version = version

/-- No update installs a version number that is still carried from an earlier
lifetime. -/
def Unambiguous (codec : Codec V S) (s : State V S) : Action → Prop
  | .load_config config_data =>
    (codec.toml_unmarshal config_data).isSome = true → s.version.toNat + 1 < 2 ^ 64 ∧ ¬ Carried codec s (s.version + 1)
  | _ => True

theorem Unambiguous.countable {a : Action} (h : Unambiguous codec s a) : Countable codec s a := by
  cases a with
  | load_config config_data => exact fun hparse => (h hparse).1
  | _ => trivial

structure Agreement (codec : Codec V S) (s : State V S) : Prop where
  snapshots : Snapshots codec s
  version : ∀ worker_id, (s.workers worker_id).adopted.config_version = (s.workers worker_id).current_config_version
  adopted : ∀ worker_id, Good codec s worker_id (s.workers worker_id).adopted
  awaited : ∀ worker_id n, (s.workers worker_id).waiting = some n → ∃ c, s.calls n = some c ∧
    c.worker_id = worker_id ∧ c.polled = true ∧ c.requested = (s.workers worker_id).current_config_version
  answer : ∀ worker_id n c pol, (s.workers worker_id).waiting = some n → s.calls n = some c →
    Provides codec c.stage pol → Good codec s worker_id pol
  stale : ∀ worker_id n c, (s.workers worker_id).waiting = some n → s.calls n = some c → c.life ≠ s.life →
    ∀ m d, s.calls m = some d → d.Open → d.polled = true → d.worker_id ≠ worker_id
  asked : ∀ n c, Active s n c → c.life = s.life →
    c.requested.toNat ≤ c.begun.toNat ∨ s.version.toNat < c.requested.toNat
  outdated : ∀ n c, s.calls n = some c → c.polled = true → c.stage = .outdated → c.requested ≠ s.version
  newer : ∀ n c pol, Active s n c → Provides codec c.stage pol → pol.config_version ≠ c.requested
  behind : ∀ n c, s.calls n = some c → c.Open → c.polled = true →
    c.requested = (s.workers c.worker_id).current_config_version ∨
    (s.workers c.worker_id).current_config_version.toNat ≤ s.version.toNat ∧
      (c.requested.toNat ≤ (s.workers c.worker_id).current_config_version.toNat ∨
        s.version.toNat < c.requested.toNat)

theorem Good.congr {worker_id : UInt64} {pol : WorkerPolicy S} (h : Good codec s worker_id pol)
    (hpm : next.manager.policy_manager = s.manager.policy_manager) (hinstalled : next.installed = s.installed) :
    Good codec next worker_id pol := by
  have hversion : next.version = s.version := congrArg PolicyManager.version hpm
  have hsame : next.installed = s.installed ++ [] := by rw [hinstalled, List.append_nil]
  rw [Good, hversion]
  exact h.imp id fun hmatches => hmatches.append hsame

theorem Call.interrupt_eq (c : Call S) : c.interrupt.worker_id = c.worker_id ∧ c.interrupt.requested = c.requested ∧
    c.interrupt.polled = c.polled ∧ c.interrupt.life = c.life ∧ ¬ c.interrupt.Open ∧ c.interrupt.stage ≠ .outdated := by
  unfold Call.interrupt
  split
  · rename_i resp hstage
    exact ⟨rfl, rfl, rfl, rfl, fun hopen => hopen resp hstage, by rw [hstage]; nofun⟩
  · exact ⟨rfl, rfl, rfl, rfl, fun hopen => hopen none rfl, nofun⟩

theorem Provides.of_interrupt {c : Call S} {pol : WorkerPolicy S} (h : Provides codec c.interrupt.stage pol) :
    Provides codec c.stage pol := by
  unfold Call.interrupt at h
  split at h
  · exact h
  · exact False.elim h

theorem State.calls_set_call {n m : ℕ} {c d : Call S} (h : (s.set_call n c).calls m = some d) :
    (m = n ∧ d = c) ∨ (m ≠ n ∧ s.calls m = some d) := by
  by_cases hm : m = n
  · subst hm
    simp only [State.set_call, Function.update_self, Option.some.injEq] at h
    exact .inl ⟨rfl, h.symm⟩
  · simp only [State.set_call, Function.update_of_ne hm] at h
    exact .inr ⟨hm, h⟩

theorem State.workers_set_worker (s : State V S) (worker_id other : UInt64) (w : Worker S) :
    (other = worker_id ∧ (s.set_worker worker_id w).workers other = w) ∨
    (other ≠ worker_id ∧ (s.set_worker worker_id w).workers other = s.workers other) := by
  by_cases hother : other = worker_id
  · subst hother
    exact .inl ⟨rfl, Function.update_self ..⟩
  · exact .inr ⟨hother, Function.update_of_ne hother ..⟩

/-- Steps that leave the calls and the workers' versions alone; a worker may stop
waiting. -/
theorem Agreement.quiet (h : Agreement codec s) (hpm : next.manager.policy_manager = s.manager.policy_manager)
    (hinstalled : next.installed = s.installed) (hlife : next.life = s.life) (hcalls : next.calls = s.calls)
    (hversions : ∀ worker_id, (next.workers worker_id).current_config_version =
      (s.workers worker_id).current_config_version)
    (hadopted : ∀ worker_id, (next.workers worker_id).adopted = (s.workers worker_id).adopted)
    (hwaiting : ∀ worker_id n, (next.workers worker_id).waiting = some n →
      (s.workers worker_id).waiting = some n) : Agreement codec next := by
  have hversion : next.version = s.version := congrArg PolicyManager.version hpm
  have hactive : ∀ n c, Active next n c → Active s n c := by
    intro n c hc
    rw [Active, hcalls] at hc
    exact ⟨hc.1, hc.2.1, hc.2.2.imp id (hwaiting _ _)⟩
  refine ⟨h.snapshots.congr hpm hinstalled hlife hcalls, ?_, ?_, ?_, ?_, ?_, ?_, ?_, ?_, ?_⟩
  · intro worker_id
    rw [hadopted, hversions]
    exact h.version worker_id
  · intro worker_id
    rw [hadopted]
    exact (h.adopted worker_id).congr hpm hinstalled
  · intro worker_id n hwait
    rw [hcalls, hversions]
    exact h.awaited worker_id n (hwaiting _ _ hwait)
  · intro worker_id n c pol hwait hcall hpol
    rw [hcalls] at hcall
    exact (h.answer worker_id n c pol (hwaiting _ _ hwait) hcall hpol).congr hpm hinstalled
  · intro worker_id n c hwait hcall hold
    rw [hcalls] at hcall ⊢
    rw [hlife] at hold
    exact h.stale worker_id n c (hwaiting _ _ hwait) hcall hold
  · intro n c hc hnow
    rw [hversion]
    rw [hlife] at hnow
    exact h.asked n c (hactive n c hc) hnow
  · rw [hcalls, hversion]
    exact h.outdated
  · exact fun n c pol hc => h.newer n c pol (hactive n c hc)
  · rw [hcalls, hversion]
    intro n c hcall hopen hpolled
    rw [hversions]
    exact h.behind n c hcall hopen hpolled

/-- After a call has moved to another stage, every call is one of before. -/
theorem State.calls_advance {n m : ℕ} {c d : Call S} {stage : Stage S} (hcall : s.calls n = some c) (hopen : c.Open)
    (hd : (s.set_call n { c with stage }).calls m = some d) :
    ∃ e, s.calls m = some e ∧ d.worker_id = e.worker_id ∧ d.requested = e.requested ∧ d.polled = e.polled ∧
      d.life = e.life ∧ d.begun = e.begun ∧ (d.Open → e.Open) ∧ ((e = c ∧ d.stage = stage) ∨ d = e) := by
  obtain ⟨rfl, rfl⟩ | ⟨_, hd⟩ := State.calls_set_call hd
  · exact ⟨c, hcall, rfl, rfl, rfl, rfl, rfl, fun _ => hopen, .inl ⟨rfl, rfl⟩⟩
  · exact ⟨d, hd, rfl, rfl, rfl, rfl, rfl, id, .inr rfl⟩

theorem Active.of_advance {n m : ℕ} {c d : Call S} {stage : Stage S} (hcall : s.calls n = some c) (hopen : c.Open)
    (hd : Active (s.set_call n { c with stage }) m d) :
    ∃ e, Active s m e ∧ d.requested = e.requested ∧ d.life = e.life ∧ d.begun = e.begun ∧
      ((e = c ∧ d.stage = stage) ∨ d = e) := by
  obtain ⟨e, he, hworker, hrequested, hpolled, hlife, hbegun, heopen, hstage⟩ := State.calls_advance hcall hopen hd.1
  refine ⟨e, ⟨he, hpolled ▸ hd.2.1, ?_⟩, hrequested, hlife, hbegun, hstage⟩
  exact hd.2.2.imp heopen fun hwait => hworker ▸ hwait

/-- An open call moves on. -/
theorem Agreement.advance (h : Agreement codec s) {n : ℕ} {c : Call S} (hcall : s.calls n = some c) (hopen : c.Open)
    {stage : Stage S} (hprovides : ∀ pol, Provides codec stage pol → Provides codec c.stage pol ∨
      c.stage = .outdated ∧ pol = get_worker_policy_proto codec.new_struct s.manager.policy_manager c.worker_id)
    (houtdated : stage = .outdated → c.requested ≠ s.version) :
    Agreement codec (s.set_call n { c with stage }) := by
  have hproto := h.snapshots.recorded.matches_proto codec c.worker_id
  refine ⟨h.snapshots.advance hcall hopen fun pol hpol => (hprovides pol hpol).imp id And.right, h.version,
    fun worker_id => (h.adopted worker_id).congr rfl rfl, ?_, ?_, ?_, ?_, ?_, ?_, ?_⟩
  · intro worker_id m hwait
    obtain ⟨e, he, hworker, hpolled, hrequested⟩ := h.awaited worker_id m hwait
    by_cases hm : m = n
    · subst hm
      cases hcall.symm.trans he
      exact ⟨_, Function.update_self .., hworker, hpolled, hrequested⟩
    · exact ⟨e, (Function.update_of_ne hm ..).trans he, hworker, hpolled, hrequested⟩
  · intro worker_id m d pol hwait hd hpol
    obtain ⟨e, he, _, _, _, _, _, _, hstage⟩ := State.calls_advance hcall hopen hd
    obtain ⟨rfl, hstage⟩ | rfl := hstage
    · obtain hbefore | ⟨_, rfl⟩ := hprovides pol (hstage ▸ hpol)
      · exact (h.answer worker_id m e pol hwait he hbefore).congr rfl rfl
      · obtain ⟨_, hawaited, hworker, _⟩ := h.awaited worker_id m hwait
        cases he.symm.trans hawaited
        subst hworker
        exact .inr (hproto.2.append (List.append_nil _).symm)
    · exact (h.answer worker_id m d pol hwait he hpol).congr rfl rfl
  · intro worker_id m d hwait hd hlife k g hg hgopen hgpolled
    obtain ⟨e, he, _, _, _, helife, _⟩ := State.calls_advance hcall hopen hd
    obtain ⟨f, hf, hfworker, _, hfpolled, _, _, hfopen, _⟩ := State.calls_advance hcall hopen hg
    rw [hfworker]
    exact h.stale worker_id m e hwait he (helife ▸ hlife) k f hf (hfopen hgopen) (hfpolled ▸ hgpolled)
  · intro m d hd hlife
    obtain ⟨e, he, hrequested, helife, hbegun, _⟩ := hd.of_advance hcall hopen
    rw [hrequested, hbegun]
    exact h.asked m e he (helife ▸ hlife)
  · intro m d hd hpolled hdstage
    obtain ⟨e, he, _, hrequested, hepolled, _, _, _, hstage⟩ := State.calls_advance hcall hopen hd
    rw [hrequested]
    obtain ⟨rfl, hstage⟩ | rfl := hstage
    · exact houtdated (hstage ▸ hdstage)
    · exact h.outdated m d he hpolled hdstage
  · intro m d pol hd hpol
    obtain ⟨e, he, hrequested, _, _, hstage⟩ := hd.of_advance hcall hopen
    rw [hrequested]
    obtain ⟨rfl, hstage⟩ | rfl := hstage
    · obtain hbefore | ⟨hwas, rfl⟩ := hprovides pol (hstage ▸ hpol)
      · exact h.newer m e pol he hbefore
      · rw [hproto.1]
        exact (h.outdated m e he.1 he.2.1 hwas).symm
    · exact h.newer m d pol he hpol
  · intro m d hd hdopen hpolled
    obtain ⟨e, he, hworker, hrequested, hepolled, _, _, heopen, _⟩ := State.calls_advance hcall hopen hd
    rw [hrequested, hworker]
    exact h.behind m e he (heopen hdopen) (hepolled ▸ hpolled)

theorem Agreement.waiting_ne (h : Agreement codec s) {n : ℕ} (hfree : s.calls n = none) {worker_id : UInt64} {m : ℕ}
    (hwait : (s.workers worker_id).waiting = some m) : m ≠ n := by
  rintro rfl
  obtain ⟨c, hc, _⟩ := h.awaited worker_id m hwait
  rw [hfree] at hc
  cases hc

/-- A call that no worker made. -/
theorem Agreement.request (h : Agreement codec s) {n : ℕ} (hfree : s.calls n = none) (worker_id requested : UInt64) :
    Agreement codec (s.begin_call n worker_id requested false) := by
  have hold : ∀ m d, (s.begin_call n worker_id requested false).calls m = some d → d.polled = true →
      s.calls m = some d := by
    intro m d hd hpolled
    obtain ⟨_, rfl⟩ | ⟨_, hd⟩ := State.calls_set_call hd
    · cases hpolled
    · exact hd
  have hkeep : ∀ m, m ≠ n → (s.begin_call n worker_id requested false).calls m = s.calls m :=
    fun m hm => Function.update_of_ne hm ..
  refine ⟨h.snapshots.begin_call .., h.version, fun worker_id => (h.adopted worker_id).congr rfl rfl, ?_, ?_, ?_, ?_,
    ?_, ?_, ?_⟩
  · intro worker_id m hwait
    rw [hkeep m (h.waiting_ne hfree hwait)]
    exact h.awaited worker_id m hwait
  · intro worker_id m d pol hwait hd hpol
    rw [hkeep m (h.waiting_ne hfree hwait)] at hd
    exact (h.answer worker_id m d pol hwait hd hpol).congr rfl rfl
  · intro worker_id m d hwait hd hlife k g hg hopen hpolled
    rw [hkeep m (h.waiting_ne hfree hwait)] at hd
    exact h.stale worker_id m d hwait hd hlife k g (hold k g hg hpolled) hopen hpolled
  · exact fun m d hd => h.asked m d ⟨hold m d hd.1 hd.2.1, hd.2⟩
  · exact fun m d hd hpolled => h.outdated m d (hold m d hd hpolled) hpolled
  · exact fun m d pol hd => h.newer m d pol ⟨hold m d hd.1 hd.2.1, hd.2⟩
  · exact fun m d hd hopen hpolled => h.behind m d (hold m d hd hpolled) hopen hpolled

/-- What a poll changes. -/
structure Polls (s : State V S) (n : ℕ) (worker_id : UInt64) (next : State V S) : Prop where
  policy_manager : next.manager.policy_manager = s.manager.policy_manager
  installed : next.installed = s.installed
  life : next.life = s.life
  new_call : next.calls n = some (s.new_call worker_id (s.workers worker_id).current_config_version true)
  calls : ∀ m, m ≠ n → next.calls m = s.calls m
  versions : ∀ other, (next.workers other).current_config_version = (s.workers other).current_config_version
  adopted : ∀ other, (next.workers other).adopted = (s.workers other).adopted
  waiting : ∀ other m, (next.workers other).waiting = some m →
    (other = worker_id ∧ m = n) ∨ (other ≠ worker_id ∧ (s.workers other).waiting = some m)

theorem State.polls (s : State V S) (n : ℕ) (worker_id : UInt64) :
    Polls s n worker_id ((s.begin_call n worker_id (s.workers worker_id).current_config_version true).set_worker
      worker_id ((s.workers worker_id).wait_for n)) := by
  have hkeep := fun other => (s.begin_call n worker_id (s.workers worker_id).current_config_version
    true).workers_set_worker worker_id other ((s.workers worker_id).wait_for n)
  refine ⟨rfl, rfl, rfl, Function.update_self .., fun m hm => Function.update_of_ne hm .., ?_, ?_, ?_⟩
  · intro other
    obtain ⟨rfl, heq⟩ | ⟨_, heq⟩ := hkeep other <;> rw [heq] <;> rfl
  · intro other
    obtain ⟨rfl, heq⟩ | ⟨_, heq⟩ := hkeep other <;> rw [heq] <;> rfl
  · intro other m hwait
    obtain ⟨hsame, heq⟩ | ⟨hne, heq⟩ := hkeep other
    · rw [heq] at hwait
      exact .inl ⟨hsame, (Option.some.inj hwait).symm⟩
    · rw [heq] at hwait
      exact .inr ⟨hne, hwait⟩

theorem Polls.active {n : ℕ} {worker_id : UInt64} (hpolls : Polls s n worker_id next) {m : ℕ} {d : Call S}
    (hd : Active next m d) :
    (m = n ∧ d = s.new_call worker_id (s.workers worker_id).current_config_version true) ∨ Active s m d := by
  obtain ⟨hcall, hpolled, hactive⟩ := hd
  by_cases hm : m = n
  · subst hm
    exact .inl ⟨rfl, Option.some.inj (hcall.symm.trans hpolls.new_call)⟩
  · rw [hpolls.calls m hm] at hcall
    refine .inr ⟨hcall, hpolled, hactive.imp id fun hwait => ?_⟩
    exact ((hpolls.waiting _ _ hwait).resolve_left fun heq => hm heq.2).2

/-- A worker sends its version and waits. -/
theorem Agreement.poll (h : Agreement codec s) {n : ℕ} {worker_id : UInt64} (hfree : s.calls n = none)
    (hpolls : Polls s n worker_id next) (hsnapshots : Snapshots codec next) : Agreement codec next := by
  have hversion : next.version = s.version := congrArg PolicyManager.version hpolls.policy_manager
  refine ⟨hsnapshots, ?_, ?_, ?_, ?_, ?_, ?_, ?_, ?_, ?_⟩
  · intro other
    rw [hpolls.versions, hpolls.adopted]
    exact h.version other
  · intro other
    rw [hpolls.adopted]
    exact (h.adopted other).congr hpolls.policy_manager hpolls.installed
  · intro other m hwait
    rw [hpolls.versions]
    obtain ⟨rfl, rfl⟩ | ⟨_, hwait⟩ := hpolls.waiting other m hwait
    · exact ⟨_, hpolls.new_call, rfl, rfl, rfl⟩
    · rw [hpolls.calls m (h.waiting_ne hfree hwait)]
      exact h.awaited other m hwait
  · intro other m d pol hwait hd hpol
    obtain ⟨rfl, rfl⟩ | ⟨_, hwait⟩ := hpolls.waiting other m hwait
    · cases hpolls.new_call.symm.trans hd
      exact False.elim hpol
    · rw [hpolls.calls m (h.waiting_ne hfree hwait)] at hd
      exact (h.answer other m d pol hwait hd hpol).congr hpolls.policy_manager hpolls.installed
  · intro other m d hwait hd hold k g hg hopen hpolled
    rw [hpolls.life] at hold
    obtain ⟨rfl, rfl⟩ | ⟨hother, hwait⟩ := hpolls.waiting other m hwait
    · cases hpolls.new_call.symm.trans hd
      exact absurd rfl hold
    · rw [hpolls.calls m (h.waiting_ne hfree hwait)] at hd
      by_cases hk : k = n
      · subst hk
        cases hpolls.new_call.symm.trans hg
        exact hother.symm
      · rw [hpolls.calls k hk] at hg
        exact h.stale other m d hwait hd hold k g hg hopen hpolled
  · intro m d hd hnow
    rw [hversion]
    rw [hpolls.life] at hnow
    obtain ⟨rfl, rfl⟩ | hd := hpolls.active hd
    · exact le_or_gt _ _
    · exact h.asked m d hd hnow
  · intro m d hd hpolled hstage
    rw [hversion]
    by_cases hm : m = n
    · subst hm
      cases hpolls.new_call.symm.trans hd
      cases hstage
    · rw [hpolls.calls m hm] at hd
      exact h.outdated m d hd hpolled hstage
  · intro m d pol hd hpol
    obtain ⟨rfl, rfl⟩ | hd := hpolls.active hd
    · exact False.elim hpol
    · exact h.newer m d pol hd hpol
  · intro m d hd hopen hpolled
    rw [hversion, hpolls.versions]
    by_cases hm : m = n
    · subst hm
      cases hpolls.new_call.symm.trans hd
      exact .inl rfl
    · rw [hpolls.calls m hm] at hd
      exact h.behind m d hd hopen hpolled

end grpc_server.protocol
