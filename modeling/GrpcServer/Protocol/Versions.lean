import GrpcServer.Protocol.Agreement.Step
import GrpcServer.Worker.Policy.Bounds

open c_memory transition grpc_server.dpdk_filter grpc_server.communication grpc_server.manager grpc_server.worker

namespace grpc_server.protocol

variable {V S : Type} {codec : Codec V S} {inet : Inet} {s next : State V S}

/-- The configuration an action installs. -/
def installs (codec : Codec V S) : Action → Option (TOMLConfig V)
  | .load_config config_data => codec.toml_unmarshal config_data
  | _ => none

/-- A step of a controller that is not restarted and does not overflow its
version. -/
def InOneLife (codec : Codec V S) (s : State V S) (a : Action) : Prop := a ≠ .restart ∧ Countable codec s a

theorem Moves.installed {a : Action} (h : Moves codec inet s a next) (hrestart : a ≠ .restart) :
    next.installed = s.installed ++ (installs codec a).toList := by
  cases h with
  | load_failed hparse => simp [installs, hparse]
  | install hparse => simp [installs, hparse, State.install]
  | restart => exact absurd rfl hrestart
  | _ => exact (List.append_nil _).symm

theorem run_installed {acts : List Action} {final : State V S} (hrestart : ∀ a ∈ acts, a ≠ .restart)
    (hrun : run (step codec inet) s acts = some final) :
    final.installed = s.installed ++ acts.filterMap (installs codec) := by
  induction acts generalizing s with
  | nil =>
    cases hrun
    exact (List.append_nil _).symm
  | cons a rest ih =>
    obtain ⟨middle, hmiddle, hrest⟩ := run_cons_eq_some.mp hrun
    rw [ih (fun b hb => hrestart b (List.mem_cons_of_mem _ hb)) hrest,
      (moves_of_step hmiddle).installed (hrestart a List.mem_cons_self), List.append_assoc, List.filterMap_cons]
    cases installs codec a <;> rfl

/-- Fewer than 2^64 updates never overflow the version. -/
theorem meets_inOneLife (h : Recorded s) {acts : List Action} (hrestart : ∀ a ∈ acts, a ≠ .restart)
    (hcount : s.installed.length + (acts.filterMap (installs codec)).length < 2 ^ 64) :
    Meets (step codec inet) (InOneLife codec) s acts := by
  induction acts generalizing s with
  | nil => trivial
  | cons a rest ih =>
    have hlen : (a :: rest).filterMap (installs codec) =
        (installs codec a).toList ++ rest.filterMap (installs codec) := by
      rw [List.filterMap_cons]
      cases installs codec a <;> rfl
    rw [hlen, List.length_append] at hcount
    have hcountable : Countable codec s a := by
      cases a with
      | load_config config_data =>
        intro hparse
        obtain ⟨cfg, hcfg⟩ := Option.isSome_iff_exists.mp hparse
        rw [installs, hcfg, Option.toList_some, List.length_singleton] at hcount
        rw [h.version]
        omega
      | _ => trivial
    refine ⟨⟨hrestart a List.mem_cons_self, hcountable⟩, fun middle hmiddle => ?_⟩
    have hmove := moves_of_step hmiddle
    refine ih (h.step hcountable hmove) (fun b hb => hrestart b (List.mem_cons_of_mem _ hb)) ?_
    rw [hmove.installed (hrestart a List.mem_cons_self), List.length_append]
    omega

/-- In its first lifetime a controller is ahead of every worker. -/
structure Fresh (s : State V S) : Prop where
  life : s.life = 0
  versions : ∀ worker_id, (s.workers worker_id).current_config_version.toNat ≤ s.version.toNat
  requested : ∀ n c, s.calls n = some c → c.polled = true → c.requested.toNat ≤ c.begun.toNat

theorem Fresh.snapshot (hfresh : Fresh s) (h : Snapshots codec s) {n : ℕ} {c : Call S} (hcall : s.calls n = some c) :
    Snapshot codec s c := by
  refine h.calls n c hcall ?_
  have hle := h.life_le n c hcall
  rw [hfresh.life] at hle ⊢
  exact Nat.eq_zero_of_le_zero hle

theorem Fresh.unambiguous (hfresh : Fresh s) (h : Agreement codec s) {a : Action} (hcount : Countable codec s a) :
    Unambiguous codec s a := by
  cases a with
  | load_config config_data =>
    intro hparse
    have hroom := hcount hparse
    have hnext : (s.version + 1).toNat = s.version.toNat + 1 := s.version_install TOMLConfig.empty hroom
    refine ⟨hroom, ?_⟩
    rintro (⟨worker_id, heq⟩ | ⟨n, c, hcall, hpolled, _, heq⟩ | ⟨_, n, c, pol, _, hcall, hpol, heq⟩)
    · have hle := hfresh.versions worker_id
      rw [heq] at hle
      omega
    · have hle := (hfresh.requested n c hcall hpolled).trans (hfresh.snapshot h.snapshots hcall).begun_le
      rw [heq] at hle
      omega
    · have hle := ((hfresh.snapshot h.snapshots hcall).provides pol hpol).2.1
      rw [heq] at hle
      omega
  | _ => trivial

theorem Fresh.congr (hfresh : Fresh s) (hversion : next.version = s.version) (hlife : next.life = s.life)
    (hversions : ∀ worker_id, (next.workers worker_id).current_config_version =
      (s.workers worker_id).current_config_version)
    (hcalls : ∀ n d, next.calls n = some d → d.polled = true → ∃ c, s.calls n = some c ∧ c.polled = true ∧
      d.requested = c.requested ∧ d.begun = c.begun) : Fresh next := by
  refine ⟨hlife.trans hfresh.life, ?_, ?_⟩
  · intro worker_id
    rw [hversions, hversion]
    exact hfresh.versions worker_id
  · intro n d hd hpolled
    obtain ⟨c, hc, hcpolled, hrequested, hbegun⟩ := hcalls n d hd hpolled
    rw [hrequested, hbegun]
    exact hfresh.requested n c hc hcpolled

theorem Fresh.set_call (hfresh : Fresh s) (n : ℕ) {c : Call S}
    (hc : c.polled = true → c.requested.toNat ≤ c.begun.toNat) : Fresh (s.set_call n c) := by
  refine ⟨hfresh.life, hfresh.versions, ?_⟩
  intro m d hd
  obtain ⟨_, rfl⟩ | ⟨_, hd⟩ := State.calls_set_call hd
  · exact hc
  · exact hfresh.requested m d hd

theorem Fresh.advance (hfresh : Fresh s) {n : ℕ} {c : Call S} (hcall : s.calls n = some c) (stage : Stage S) :
    Fresh (s.set_call n { c with stage }) := hfresh.set_call n (hfresh.requested n c hcall)

theorem Fresh.set_worker (hfresh : Fresh s) (worker_id : UInt64) {w : Worker S}
    (hw : w.current_config_version.toNat ≤ s.version.toNat) : Fresh (s.set_worker worker_id w) := by
  refine ⟨hfresh.life, ?_, hfresh.requested⟩
  intro other
  obtain ⟨_, heq⟩ | ⟨_, heq⟩ := s.workers_set_worker worker_id other w
  · rw [heq]
    exact hw
  · rw [heq]
    exact hfresh.versions other

/-- The policy a worker adopts is newer than the one it has. -/
theorem Fresh.lt_of_answer (hfresh : Fresh s) (h : Agreement codec s) {worker_id : UInt64} {n : ℕ} {c : Call S}
    {pol : WorkerPolicy S} (hwait : (s.workers worker_id).waiting = some n) (hcall : s.calls n = some c)
    (hpol : Provides codec c.stage pol) :
    (s.workers worker_id).current_config_version.toNat < pol.config_version.toNat ∧
      pol.config_version.toNat ≤ s.version.toNat := by
  obtain ⟨_, hawaited, hworker, hpolled, hrequested⟩ := h.awaited worker_id n hwait
  cases hcall.symm.trans hawaited
  obtain ⟨hbegun, hle, _⟩ := (hfresh.snapshot h.snapshots hcall).provides pol hpol
  have hne := h.newer n c pol ⟨hcall, hpolled, .inr (hworker ▸ hwait)⟩ hpol
  have hasked := hfresh.requested n c hcall hpolled
  have hnat : pol.config_version.toNat ≠ c.requested.toNat := fun heq => hne (UInt64.toNat_inj.mp heq)
  rw [← hrequested]
  omega

theorem Fresh.step {a : Action} (hfresh : Fresh s) (h : Agreement codec s) (hallowed : InOneLife codec s a)
    (hmove : Moves codec inet s a next) : Fresh next := by
  cases hmove with
  | load_failed _ => exact hfresh
  | @install config_data cfg hparse =>
    have hnext := s.version_install cfg (hallowed.2 (by rw [hparse]; rfl))
    refine ⟨hfresh.life, fun worker_id => ?_, hfresh.requested⟩
    exact (hfresh.versions worker_id).trans (hnext ▸ Nat.le_succ _)
  | restart => exact absurd rfl hallowed.1
  | toggle_filtering worker_id enabled =>
    exact hfresh.congr (congrArg PolicyManager.version (set_filtering_enabled_policy_manager worker_id enabled _)) rfl
      (fun _ => rfl) fun n d hd hpolled => ⟨d, hd, hpolled, rfl, rfl⟩
  | request worker_id config_version _ => exact hfresh.set_call _ nofun
  | @poll n worker_id _ _ =>
    have hcalled := hfresh.set_call n (c := s.new_call worker_id (s.workers worker_id).current_config_version true)
      fun _ => hfresh.versions worker_id
    exact hcalled.set_worker worker_id (hfresh.versions worker_id)
  | @register n c hcall hstage =>
    exact (hfresh.advance hcall .registered).congr
      (congrArg PolicyManager.version (register_worker_policy_manager _ _)) rfl (fun _ => rfl)
      fun n d hd hpolled => ⟨d, hd, hpolled, rfl, rfl⟩
  | read_version hcall _ => exact hfresh.advance hcall _
  | build_policy hcall _ => exact hfresh.advance hcall _
  | finish hcall _ => exact hfresh.advance hcall _
  | @deliver worker_id trust n c resp hwait hcall hstage _ =>
    obtain ⟨pol, _, rfl⟩ | ⟨hversion, _⟩ := (s.workers worker_id).receive_cases inet trust resp
    · exact hfresh.set_worker worker_id (hfresh.lt_of_answer h hwait hcall (provides_of_answered hstage)).2
    · exact hfresh.set_worker worker_id (hversion ▸ hfresh.versions worker_id)
  | @give_up worker_id _ _ => exact hfresh.set_worker worker_id (hfresh.versions worker_id)
  | copy_policy worker_id => exact hfresh.set_worker worker_id (hfresh.versions worker_id)

theorem Fresh.version_le {a : Action} (hfresh : Fresh s) (h : Agreement codec s) (hmove : Moves codec inet s a next)
    (worker_id : UInt64) : (s.workers worker_id).current_config_version.toNat ≤
      (next.workers worker_id).current_config_version.toNat := by
  have hkeep : ∀ (t : State V S) (other : UInt64) {w : Worker S}, t.workers = s.workers →
      (s.workers other).current_config_version.toNat ≤ w.current_config_version.toNat →
      (s.workers worker_id).current_config_version.toNat ≤
        ((t.set_worker other w).workers worker_id).current_config_version.toNat := by
    intro t other w hworkers hle
    obtain ⟨rfl, heq⟩ | ⟨_, heq⟩ := t.workers_set_worker other worker_id w
    · rw [heq]
      exact hle
    · rw [heq, hworkers]
  cases hmove with
  | poll _ _ => exact hkeep _ _ rfl le_rfl
  | @deliver other trust n c resp hwait hcall hstage _ =>
    obtain ⟨pol, _, rfl⟩ | ⟨hversion, _⟩ := (s.workers other).receive_cases inet trust resp
    · exact hkeep _ _ rfl (hfresh.lt_of_answer h hwait hcall (provides_of_answered hstage)).1.le
    · exact hkeep _ _ rfl (hversion ▸ le_rfl)
  | give_up _ => exact hkeep _ _ rfl le_rfl
  | copy_policy _ => exact hkeep _ _ rfl le_rfl
  | _ => exact le_rfl

/-- A call finds its version unchanged at the comparison, and keeps that answer. -/
theorem Moves.foundUnchanged {a : Action} (h : Moves codec inet s a next) {n : ℕ} {d : Call S}
    (hd : next.calls n = some d) (hunchanged : FoundUnchanged d.stage) :
    ∃ c, s.calls n = some c ∧ c.requested = d.requested ∧
      (FoundUnchanged c.stage ∨ c.Open ∧ s.version = d.requested) := by
  have hmoved : ∀ {m : ℕ} {c : Call S} (stage : Stage S), s.calls m = some c →
      (FoundUnchanged stage → FoundUnchanged c.stage ∨ c.Open ∧ s.version = c.requested) →
      (s.set_call m { c with stage }).calls n = some d → ∃ c, s.calls n = some c ∧ c.requested = d.requested ∧
        (FoundUnchanged c.stage ∨ c.Open ∧ s.version = d.requested) := by
    intro m c stage hcall hstage hd
    obtain ⟨rfl, rfl⟩ | ⟨_, hd⟩ := State.calls_set_call hd
    · exact ⟨c, hcall, rfl, hstage hunchanged⟩
    · exact ⟨d, hd, rfl, .inl hunchanged⟩
  have hbegun : ∀ {m : ℕ} {worker_id requested : UInt64} {polled : Bool},
      (s.begin_call m worker_id requested polled).calls n = some d → ∃ c, s.calls n = some c ∧
        c.requested = d.requested ∧ (FoundUnchanged c.stage ∨ c.Open ∧ s.version = d.requested) := by
    intro m worker_id requested polled hd
    obtain ⟨_, rfl⟩ | ⟨_, hd⟩ := State.calls_set_call hd
    · exact False.elim hunchanged
    · exact ⟨d, hd, rfl, .inl hunchanged⟩
  cases h with
  | restart =>
    obtain ⟨c, hc, rfl⟩ := Option.map_eq_some_iff.mp hd
    refine ⟨c, hc, c.interrupt_eq.2.1.symm, .inl ?_⟩
    unfold Call.interrupt at hunchanged
    split at hunchanged
    · exact hunchanged
    · exact False.elim hunchanged
  | request _ _ _ => exact hbegun hd
  | poll _ _ => exact hbegun hd
  | register hcall _ => exact hmoved .registered hcall (fun h => False.elim h) hd
  | read_version hcall hstage =>
    exact hmoved _ hcall (fun h => .inr ⟨Call.open_of_stage hstage nofun, foundUnchanged_read_version h⟩) hd
  | build_policy hcall _ => exact hmoved _ hcall (fun h => absurd h not_foundUnchanged_build_policy) hd
  | finish hcall hfinish => exact hmoved _ hcall (fun h => .inl (h.of_finish hfinish)) hd
  | _ => exact ⟨d, hd, rfl, .inl hunchanged⟩

theorem Fresh.start (memory : UInt64 → BasePolicy) : Fresh (State.start memory : State V S) :=
  ⟨rfl, fun _ => le_rfl, nofun⟩

/-- A further invariant along a run without restarts. -/
theorem run_inOneLife (inv : State V S → Prop)
    (hstep : ∀ t a next, Agreement codec t → Fresh t → inv t → Moves codec inet t a next → inv next)
    (h : Agreement codec s) (hfresh : Fresh s) (hinit : inv s) {acts : List Action} {final : State V S}
    (hrestart : ∀ a ∈ acts, a ≠ .restart)
    (hcount : s.installed.length + (acts.filterMap (installs codec)).length < 2 ^ 64)
    (hrun : run (step codec inet) s acts = some final) : Agreement codec final ∧ Fresh final ∧ inv final := by
  refine run_invariant (fun t => Agreement codec t ∧ Fresh t ∧ inv t) ?_ ⟨h, hfresh, hinit⟩
    (meets_inOneLife h.snapshots.recorded hrestart hcount) hrun
  intro t a next ⟨ht, htfresh, hinv⟩ hallowed hnext
  have hmove := moves_of_step hnext
  exact ⟨ht.step (htfresh.unambiguous ht hallowed.2) hmove, htfresh.step ht hallowed hmove,
    hstep t a next ht htfresh hinv hmove⟩

/-- The invariants of a run from the start. -/
theorem run_start {acts : List Action} {final : State V S} {memory : UInt64 → BasePolicy}
    (hrestart : ∀ a ∈ acts, a ≠ .restart) (hcount : (acts.filterMap (installs codec)).length < 2 ^ 64)
    (hrun : run (step codec inet) (State.start memory) acts = some final) :
    Agreement codec final ∧ Fresh final ∧ final.installed = acts.filterMap (installs codec) := by
  obtain ⟨hfinal, hfresh, _⟩ := run_inOneLife (fun _ => True) (fun _ _ _ _ _ _ _ => trivial)
    (Agreement.start codec memory) (Fresh.start memory) trivial hrestart
    (by simpa [State.start] using hcount) hrun
  exact ⟨hfinal, hfresh, run_installed hrestart hrun⟩

/-- No worker goes back to an older version. -/
theorem run_version_le (h : Agreement codec s) (hfresh : Fresh s) {acts : List Action} {final : State V S}
    (hrestart : ∀ a ∈ acts, a ≠ .restart)
    (hcount : s.installed.length + (acts.filterMap (installs codec)).length < 2 ^ 64)
    (hrun : run (step codec inet) s acts = some final) (worker_id : UInt64) :
    (s.workers worker_id).current_config_version.toNat ≤
      (final.workers worker_id).current_config_version.toNat := by
  refine (run_inOneLife (fun t => (s.workers worker_id).current_config_version.toNat ≤
    (t.workers worker_id).current_config_version.toNat) ?_ h hfresh le_rfl hrestart hcount hrun).2.2
  exact fun t a next ht htfresh hle hmove => hle.trans (htfresh.version_le ht hmove worker_id)

theorem run_foundUnchanged {acts : List Action} {final : State V S} (memory : UInt64 → BasePolicy)
    (hrun : run (step codec inet) (State.start memory) acts = some final) {n : ℕ} {c : Call S}
    (hcall : final.calls n = some c) (hunchanged : FoundUnchanged c.stage) :
    ∃ past later middle d, acts = past ++ later ∧ run (step codec inet) (State.start memory) past = some middle ∧
      middle.calls n = some d ∧ d.Open ∧ middle.version = c.requested := by
  refine run_history (fun acts s => ∀ n c, s.calls n = some c → FoundUnchanged c.stage →
    ∃ past later middle d, acts = past ++ later ∧ run (step codec inet) (State.start memory) past = some middle ∧
      middle.calls n = some d ∧ d.Open ∧ middle.version = c.requested) nofun ?_ hrun n c hcall hunchanged
  intro past last a next hpast hinv hstep n c hcall hunchanged
  obtain ⟨d, hd, hrequested, hbefore | ⟨hopen, hversion⟩⟩ := (moves_of_step hstep).foundUnchanged hcall hunchanged
  · obtain ⟨earlier, later, middle, e, hsplit, hmiddle, he, heopen, hversion⟩ := hinv n d hd hbefore
    exact ⟨earlier, later ++ [a], middle, e, by rw [hsplit, List.append_assoc], hmiddle, he, heopen,
      hversion.trans hrequested⟩
  · exact ⟨past, [a], last, d, rfl, hpast, hd, hopen, hversion⟩

/-- In every run without a restart and with fewer than 2^64 updates: the version
counts the successful updates and the configuration is the last of them; a failed
update changes nothing; a provided policy of version `v` is the merge of configuration
`v`, not older than the call; `unchanged` means that the requested version was current
during the call; no worker goes back to an older version. -/
theorem versioned_snapshots (codec : Codec V S) (inet : Inet) (memory : UInt64 → BasePolicy) (acts : List Action)
    (final : State V S) (hrestart : ∀ a ∈ acts, a ≠ .restart)
    (hcount : (acts.filterMap (installs codec)).length < 2 ^ 64)
    (hrun : run (step codec inet) (State.start memory) acts = some final) :
    (final.version.toNat = (acts.filterMap (installs codec)).length ∧
      final.manager.policy_manager.config = (TOMLConfig.empty :: acts.filterMap (installs codec)).getLast?) ∧
    (∀ config_data, codec.toml_unmarshal config_data = none →
      step codec inet final (.load_config config_data) = some final) ∧
    (∀ n c pol, final.calls n = some c → Provides codec c.stage pol →
      c.begun.toNat ≤ pol.config_version.toNat ∧
      ∃ config, (TOMLConfig.empty :: acts.filterMap (installs codec))[pol.config_version.toNat]? = some config ∧
        pol = merge codec.new_struct config c.worker_id pol.config_version) ∧
    (∀ n c, final.calls n = some c → FoundUnchanged c.stage →
      ∃ past later middle d, acts = past ++ later ∧ run (step codec inet) (State.start memory) past = some middle ∧
        middle.calls n = some d ∧ d.Open ∧ middle.version = c.requested) ∧
    ∀ past later middle, acts = past ++ later → run (step codec inet) (State.start memory) past = some middle →
      ∀ worker_id, (middle.workers worker_id).current_config_version.toNat ≤
        (final.workers worker_id).current_config_version.toNat := by
  obtain ⟨hfinal, hfresh, hinstalled⟩ := run_start hrestart hcount hrun
  refine ⟨⟨?_, ?_⟩, ?_, ?_, fun n c => run_foundUnchanged memory hrun, ?_⟩
  · rw [← hinstalled]
    exact hfinal.snapshots.recorded.version
  · rw [hfinal.snapshots.recorded.config, hfinal.snapshots.recorded.version, State.config_at, ← hinstalled,
      List.getLast?_eq_getElem?, List.length_cons, Nat.add_sub_cancel]
  · intro config_data hparse
    simp only [step, manager_update_config, update_config_of_none _ hparse, hparse, Option.toList_none,
      List.append_nil]
  · intro n c pol hcall hpol
    obtain ⟨hbegun, _, config, hconfig, hmerge⟩ := (hfresh.snapshot hfinal.snapshots hcall).provides pol hpol
    rw [State.config_at, hinstalled] at hconfig
    exact ⟨hbegun, config, hconfig, hmerge⟩
  · rintro past later middle rfl hpast worker_id
    rw [List.filterMap_append, List.length_append] at hcount
    obtain ⟨hpast_acts, hlater_acts⟩ := List.forall_mem_append.mp hrestart
    obtain ⟨hmiddle, hmfresh, hinstalled_past⟩ := run_start hpast_acts (by omega) hpast
    rw [run_append, hpast] at hrun
    exact run_version_le hmiddle hmfresh hlater_acts (by rw [hinstalled_past]; exact hcount) hrun worker_id

/-- The lines `[global.rules]` and `block_domains = ["a"]`. -/
def blocking_toml : Str :=
  [91, 103, 108, 111, 98, 97, 108, 46, 114, 117, 108, 101, 115, 93, 10] ++
  [98, 108, 111, 99, 107, 95, 100, 111, 109, 97, 105, 110, 115, 32, 61, 32, 91, 34, 97, 34, 93, 10]

/-- The policy of worker 1 under this configuration, as the first version. -/
def first_policy : WorkerPolicy Unit := merge (fun _ => none) (blocking_config 1) 1 1

/-- Its message: the string `a` in field 3 and the number 1 in field 10. -/
def first_policy_bytes : Str := [26, 1, 97, 80, 1]

/-- What the parser and the codec do with these texts and the empty one. -/
def sample_codec : Codec Unit Unit :=
  { toml_unmarshal := fun config_data =>
      if config_data = blocking_toml then some (blocking_config 1)
      else if config_data = [] then some TOMLConfig.empty
      else none
    new_struct := fun _ => none
    proto_marshal := fun policy => if policy = first_policy then some first_policy_bytes else none
    proto_unmarshal := fun policy_bytes => if policy_bytes = first_policy_bytes then some first_policy else none
    round_trip := by
      intro policy policy_bytes h
      split at h
      · rename_i heq
        cases h
        rw [if_pos rfl, heq]
      · cases h }

/-- Worker 1 polls. The first update falls between the beginning of the poll and
its comparison of versions, and a failing one before its policy is built. -/
def updated_poll : List Action :=
  [.poll 0 1, .register 0, .load_config blocking_toml, .read_version 0, .load_config [91], .build_policy 0, .finish 0,
    .deliver 1 []]

theorem versioned_snapshots_first :
    ∃ (final : State Unit Unit) (c : Call Unit),
      run (step sample_codec Inet.mute) (State.start fun _ => BasePolicy.zero) updated_poll = some final ∧
      final.calls 0 = some c ∧ Provides sample_codec c.stage first_policy ∧
      final.version.toNat = 1 ∧ c.begun.toNat ≤ first_policy.config_version.toNat := by
  refine ⟨_, _, rfl, rfl, rfl, ?_⟩
  obtain ⟨⟨hversion, _⟩, _, hprovided, _⟩ := versioned_snapshots sample_codec Inet.mute (fun _ => BasePolicy.zero)
    updated_poll _ (by simp [updated_poll]) (by decide) rfl
  exact ⟨hversion, (hprovided 0 _ first_policy rfl rfl).1⟩

end grpc_server.protocol
