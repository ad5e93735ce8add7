import GrpcServer.Protocol

open c_memory transition grpc_server.dpdk_filter grpc_server.communication grpc_server.manager grpc_server.worker

namespace grpc_server.protocol

variable {V S : Type} {codec : Codec V S} {inet : Inet} {s next : State V S}

/-- The configuration number `v` of the present lifetime; number 0 is empty. -/
def State.config_at (s : State V S) (v : ℕ) : Option (TOMLConfig V) := (TOMLConfig.empty :: s.installed)[v]?

/-- The policy is the merge, for the worker, of the configuration with the number
it carries. -/
def State.Matches (codec : Codec V S) (s : State V S) (worker_id : UInt64) (pol : WorkerPolicy S) : Prop :=
  ∃ config, s.config_at pol.config_version.toNat = some config ∧
    pol = merge codec.new_struct config worker_id pol.config_version

/-- The policy a call hands out, or has built and will hand out. -/
def Provides (codec : Codec V S) : Stage S → WorkerPolicy S → Prop
  | .built policy_bytes, pol => codec.proto_unmarshal policy_bytes = some pol
  | .answered (some ⟨.provided provided, _⟩), pol => provided = pol
  | _, _ => False

theorem provides_of_answered {stage : Stage S} {pol : WorkerPolicy S} {filtering_enabled : Bool}
    (hstage : stage = .answered (some ⟨.provided pol, filtering_enabled⟩)) : Provides codec stage pol := by
  rw [hstage]
  rfl

/-- The call found the requested version to be the current one. -/
def FoundUnchanged : Stage S → Prop
  | .unchanged => True
  | .answered (some ⟨.unchanged, _⟩) => True
  | _ => False

section Stages

variable {worker_id : UInt64} {m : Manager V} {stage : Stage S} {pol : WorkerPolicy S}

theorem not_provides_read_version (requested : UInt64) : ¬ Provides codec (read_version requested m) pol := by
  unfold read_version
  split <;> exact id

theorem Provides.of_build_policy (h : Provides codec (build_policy codec worker_id m) pol) :
    pol = get_worker_policy_proto codec.new_struct m.policy_manager worker_id := by
  unfold build_policy at h
  split at h
  · rename_i policy_bytes hbytes
    exact Option.some.inj (h.symm.trans (codec.round_trip _ _ hbytes))
  · exact h.elim

theorem Provides.of_finish {after : Stage S} (hfinish : finish codec worker_id m stage = some after)
    (h : Provides codec after pol) : Provides codec stage pol := by
  unfold finish at hfinish
  split at hfinish
  · cases hfinish
    exact h
  · split at hfinish
    · rename_i policy hpolicy
      cases hfinish
      exact hpolicy.trans (congrArg some h)
    · cases hfinish
      exact h.elim
  · cases hfinish

theorem foundUnchanged_read_version {requested : UInt64} (h : FoundUnchanged (read_version requested m : Stage S)) :
    m.policy_manager.version = requested := by
  unfold read_version at h
  split at h
  · rename_i heq
    exact heq
  · exact h.elim

theorem not_foundUnchanged_build_policy : ¬ FoundUnchanged (build_policy codec worker_id m) := by
  unfold build_policy
  split <;> exact id

theorem FoundUnchanged.of_finish {after : Stage S} (hfinish : finish codec worker_id m stage = some after)
    (h : FoundUnchanged after) : FoundUnchanged stage := by
  unfold finish at hfinish
  split at hfinish
  · trivial
  · split at hfinish <;> cases hfinish <;> exact h.elim
  · cases hfinish

theorem finish_answered {after : Stage S} (hfinish : finish codec worker_id m stage = some after) :
    (∃ resp, after = .answered resp) ∧ ∀ resp, stage ≠ .answered resp := by
  unfold finish at hfinish
  split at hfinish
  · cases hfinish
    exact ⟨⟨_, rfl⟩, nofun⟩
  · split at hfinish <;> cases hfinish <;> exact ⟨⟨_, rfl⟩, nofun⟩
  · cases hfinish

end Stages

theorem Call.open_of_stage {c : Call S} {stage : Stage S} (hstage : c.stage = stage)
    (h : ∀ resp, stage ≠ .answered resp) : c.Open := by
  intro resp
  rw [hstage]
  exact h resp

/-- The controller's version counts the configurations installed in this
lifetime, and its configuration is the last of them. -/
structure Recorded (s : State V S) : Prop where
  version : s.version.toNat = s.installed.length
  config : s.manager.policy_manager.config = s.config_at s.version.toNat

/-- The version does not wrap around. -/
def Countable (codec : Codec V S) (s : State V S) : Action → Prop
  | .load_config config_data => (codec.toml_unmarshal config_data).isSome = true → s.version.toNat + 1 < 2 ^ 64
  | _ => True

theorem State.config_at_append {configs : List (TOMLConfig V)} (hnext : next.installed = s.installed ++ configs)
    {v : ℕ} {config : TOMLConfig V} (h : s.config_at v = some config) : next.config_at v = some config := by
  rw [State.config_at, hnext, ← List.cons_append, List.getElem?_append_left (List.getElem?_eq_some_iff.mp h).1]
  exact h

theorem State.Matches.append {configs : List (TOMLConfig V)} (hnext : next.installed = s.installed ++ configs)
    {worker_id : UInt64} {pol : WorkerPolicy S} (h : s.Matches codec worker_id pol) :
    next.Matches codec worker_id pol := by
  obtain ⟨config, hconfig, hpol⟩ := h
  exact ⟨config, State.config_at_append hnext hconfig, hpol⟩

theorem Recorded.matches_proto (h : Recorded s) (codec : Codec V S) (worker_id : UInt64) :
    (get_worker_policy_proto codec.new_struct s.manager.policy_manager worker_id).config_version = s.version ∧
    s.Matches codec worker_id (get_worker_policy_proto codec.new_struct s.manager.policy_manager worker_id) := by
  have hlt : s.version.toNat < (TOMLConfig.empty :: s.installed).length := by
    rw [h.version, List.length_cons]
    exact Nat.lt_succ_self _
  obtain ⟨config, hconfig⟩ : ∃ config, s.config_at s.version.toNat = some config :=
    ⟨_, List.getElem?_eq_getElem hlt⟩
  have hproto : get_worker_policy_proto codec.new_struct s.manager.policy_manager worker_id =
      merge codec.new_struct config worker_id s.version := by
    rw [get_worker_policy_proto, h.config, hconfig]
    rfl
  rw [hproto, merge_config_version]
  refine ⟨rfl, config, ?_, ?_⟩
  · rw [merge_config_version]
    exact hconfig
  · rw [merge_config_version]

theorem Recorded.congr (h : Recorded s) (hpm : next.manager.policy_manager = s.manager.policy_manager)
    (hinstalled : next.installed = s.installed) : Recorded next := by
  refine ⟨?_, ?_⟩
  · rw [State.version, hpm, hinstalled]
    exact h.version
  · rw [State.version, State.config_at, hpm, hinstalled]
    exact h.config

theorem State.version_install (s : State V S) (cfg : TOMLConfig V) (hcount : s.version.toNat + 1 < 2 ^ 64) :
    (s.install cfg).version.toNat = s.version.toNat + 1 := by
  change (s.version + 1).toNat = _
  rw [UInt64.toNat_add, UInt64.toNat_one, Nat.mod_eq_of_lt hcount]

theorem Recorded.install (h : Recorded s) (cfg : TOMLConfig V) (hcount : s.version.toNat + 1 < 2 ^ 64) :
    Recorded (s.install cfg) := by
  have hversion := s.version_install cfg hcount
  refine ⟨?_, ?_⟩
  · rw [hversion, h.version, State.install, List.length_append, List.length_singleton]
  · rw [hversion, h.version]
    simp [State.install, State.config_at]

theorem Recorded.step {a : Action} (h : Recorded s) (hcount : Countable codec s a) (hmove : Moves codec inet s a next) :
    Recorded next := by
  cases hmove with
  | load_failed _ => exact h
  | install hparse => exact h.install _ (hcount (by rw [hparse]; rfl))
  | restart => exact ⟨rfl, rfl⟩
  | toggle_filtering worker_id enabled =>
    exact h.congr (set_filtering_enabled_policy_manager worker_id enabled _) rfl
  | register _ _ => exact h.congr (register_worker_policy_manager _ _) rfl
  | _ => exact h.congr rfl rfl

/-- What holds of a call of the present lifetime: a policy it provides is that of
a version between the one at its beginning and the present one. -/
structure Snapshot (codec : Codec V S) (s : State V S) (c : Call S) : Prop where
  begun_le : c.begun.toNat ≤ s.version.toNat
  provides : ∀ pol, Provides codec c.stage pol → c.begun.toNat ≤ pol.config_version.toNat ∧
    pol.config_version.toNat ≤ s.version.toNat ∧ s.Matches codec c.worker_id pol

structure Snapshots (codec : Codec V S) (s : State V S) : Prop where
  recorded : Recorded s
  life_le : ∀ n c, s.calls n = some c → c.life ≤ s.life
  open_life : ∀ n c, s.calls n = some c → c.Open → c.life = s.life
  calls : ∀ n c, s.calls n = some c → c.life = s.life → Snapshot codec s c

theorem Snapshot.congr {c : Call S} (h : Snapshot codec s c)
    (hpm : next.manager.policy_manager = s.manager.policy_manager) (hinstalled : next.installed = s.installed) :
    Snapshot codec next c := by
  have hversion : next.version = s.version := congrArg PolicyManager.version hpm
  have hsame : next.installed = s.installed ++ [] := by rw [hinstalled, List.append_nil]
  refine ⟨by rw [hversion]; exact h.begun_le, ?_⟩
  intro pol hpol
  obtain ⟨hbegun, hle, hmatches⟩ := h.provides pol hpol
  exact ⟨hbegun, by rw [hversion]; exact hle, hmatches.append hsame⟩

theorem Snapshots.congr (h : Snapshots codec s) (hpm : next.manager.policy_manager = s.manager.policy_manager)
    (hinstalled : next.installed = s.installed) (hlife : next.life = s.life) (hcalls : next.calls = s.calls) :
    Snapshots codec next := by
  refine ⟨h.recorded.congr hpm hinstalled, ?_, ?_, ?_⟩
  · rw [hcalls, hlife]
    exact h.life_le
  · rw [hcalls, hlife]
    exact h.open_life
  · rw [hcalls, hlife]
    exact fun n c hcall hc => (h.calls n c hcall hc).congr hpm hinstalled

/-- A call of the present lifetime is begun or moves on. -/
theorem Snapshots.set_call (h : Snapshots codec s) (n : ℕ) {c : Call S} (hlife : c.life ≤ s.life)
    (hopen : c.Open → c.life = s.life) (hc : c.life = s.life → Snapshot codec s c) :
    Snapshots codec (s.set_call n c) := by
  have hcases : ∀ m d, (s.set_call n c).calls m = some d → d = c ∨ s.calls m = some d := by
    intro m d hcall
    by_cases hm : m = n
    · subst hm
      simp only [State.set_call, Function.update_self, Option.some.injEq] at hcall
      exact .inl hcall.symm
    · simp only [State.set_call, Function.update_of_ne hm] at hcall
      exact .inr hcall
  refine ⟨h.recorded.congr rfl rfl, ?_, ?_, ?_⟩
  · intro m d hcall
    obtain rfl | hold := hcases m d hcall
    · exact hlife
    · exact h.life_le m d hold
  · intro m d hcall
    obtain rfl | hold := hcases m d hcall
    · exact hopen
    · exact h.open_life m d hold
  · intro m d hcall hd
    obtain rfl | hold := hcases m d hcall
    · exact (hc hd).congr rfl rfl
    · exact (h.calls m d hold hd).congr rfl rfl

theorem Snapshots.begin_call (h : Snapshots codec s) (n : ℕ) (worker_id requested : UInt64) (polled : Bool) :
    Snapshots codec (s.begin_call n worker_id requested polled) :=
  h.set_call n le_rfl (fun _ => rfl) fun _ => ⟨le_rfl, fun _ hpol => hpol.elim⟩

/-- An open call moves to a stage whose policy, if any, is the present one or the
one it provided before. -/
theorem Snapshots.advance (h : Snapshots codec s) {n : ℕ} {c : Call S} (hcall : s.calls n = some c) (hopen : c.Open)
    {stage : Stage S} (hstage : ∀ pol, Provides codec stage pol → Provides codec c.stage pol ∨
      pol = get_worker_policy_proto codec.new_struct s.manager.policy_manager c.worker_id) :
    Snapshots codec (s.set_call n { c with stage }) := by
  have hlife := h.open_life n c hcall hopen
  have hc := h.calls n c hcall hlife
  refine h.set_call n (h.life_le n c hcall) (fun _ => hlife) fun _ => ⟨hc.begun_le, ?_⟩
  intro pol hpol
  obtain hbefore | rfl := hstage pol hpol
  · exact hc.provides pol hbefore
  · obtain ⟨hversion, hmatches⟩ := h.recorded.matches_proto codec c.worker_id
    rw [hversion]
    exact ⟨hc.begun_le, le_rfl, hmatches⟩

theorem Snapshots.step {a : Action} (h : Snapshots codec s) (hcount : Countable codec s a)
    (hmove : Moves codec inet s a next) : Snapshots codec next := by
  cases hmove with
  | load_failed _ => exact h
  | @install config_data cfg hparse =>
    have hroom := hcount (by rw [hparse]; rfl)
    refine ⟨h.recorded.install cfg hroom, h.life_le, h.open_life, ?_⟩
    intro n c hcall hlife
    have hc := h.calls n c hcall hlife
    have hversion := s.version_install cfg hroom
    refine ⟨by have := hc.begun_le; omega, ?_⟩
    intro pol hpol
    obtain ⟨hbegun, hle, hmatches⟩ := hc.provides pol hpol
    exact ⟨hbegun, by omega, hmatches.append rfl⟩
  | restart =>
    have hold : ∀ n c, (s.calls n).map Call.interrupt = some c → c.life ≤ s.life ∧ ¬ c.Open := by
      intro n c hcall
      obtain ⟨d, hd, rfl⟩ := Option.map_eq_some_iff.mp hcall
      have hlife := h.life_le n d hd
      unfold Call.interrupt
      split
      · rename_i resp hstage
        exact ⟨hlife, fun hopen => hopen resp hstage⟩
      · exact ⟨hlife, fun hopen => hopen none rfl⟩
    refine ⟨⟨rfl, rfl⟩, ?_, ?_, ?_⟩
    · exact fun n c hcall => (hold n c hcall).1.trans (Nat.le_succ _)
    · exact fun n c hcall hopen => absurd hopen (hold n c hcall).2
    · exact fun n c hcall hlife => absurd (hlife ▸ (hold n c hcall).1) (Nat.not_succ_le_self _)
  | toggle_filtering worker_id enabled =>
    exact h.congr (set_filtering_enabled_policy_manager worker_id enabled _) rfl rfl rfl
  | request worker_id config_version _ => exact h.begin_call ..
  | poll _ _ => exact (h.begin_call ..).congr rfl rfl rfl rfl
  | @register n c hcall hstage =>
    have hmoved : Snapshots codec (s.set_call n { c with stage := .registered }) :=
      h.advance hcall (Call.open_of_stage hstage nofun) fun _ hpol => False.elim hpol
    exact hmoved.congr (register_worker_policy_manager _ _) rfl rfl rfl
  | read_version hcall hstage =>
    exact h.advance hcall (Call.open_of_stage hstage nofun) fun _ hpol => (not_provides_read_version _ hpol).elim
  | build_policy hcall hstage =>
    exact h.advance hcall (Call.open_of_stage hstage nofun) fun _ hpol => .inr hpol.of_build_policy
  | finish hcall hfinish =>
    exact h.advance hcall (finish_answered hfinish).2 fun _ hpol => .inl (hpol.of_finish hfinish)
  | deliver _ _ _ _ => exact h.congr rfl rfl rfl rfl
  | give_up _ => exact h.congr rfl rfl rfl rfl
  | copy_policy _ => exact h.congr rfl rfl rfl rfl

end grpc_server.protocol
