import GrpcServer.Protocol.Versions

open transition grpc_server.dpdk_filter grpc_server.communication grpc_server.manager

namespace grpc_server.protocol

variable {V S : Type} {codec : Codec V S} {inet : Inet}

/-- What a command says about `worker_id`. Worker 0 stands for all workers. -/
def Action.commands (worker_id : UInt64) : Action → Option Bool
  | .toggle_filtering id enabled => if id = worker_id ∨ id = 0 then some enabled else none
  | _ => none

/-- The value of the latest command to the worker or to all, and `true` if there
was none. -/
def commanded (worker_id : UInt64) (past : List Action) : Bool :=
  (past.filterMap (Action.commands worker_id)).getLast?.getD true

/-- The latest command to the worker switched the filtering of all workers off
before `filteringEnabled` had an entry for this one. -/
def Missed (codec : Codec V S) (inet : Inet) (start : State V S) (worker_id : UInt64) (past : List Action) : Prop :=
  ∃ before after s, past = before ++ .toggle_filtering 0 false :: after ∧ run (step codec inet) start before = some s ∧
    s.manager.filtering_enabled worker_id = none ∧ ∀ a ∈ after, a.commands worker_id = none

theorem commanded_concat (worker_id : UInt64) (past : List Action) (a : Action) :
    commanded worker_id (past ++ [a]) = (a.commands worker_id).getD (commanded worker_id past) := by
  rw [commanded, commanded, List.filterMap_append]
  cases h : a.commands worker_id <;> simp [h]

variable {s next : State V S}

/-- Nothing but a command to the worker and a restart changes its flag. -/
theorem Moves.is_filtering_enabled {a : Action} (h : Moves codec inet s a next) (hrestart : a ≠ .restart)
    {worker_id : UInt64} (hcommands : a.commands worker_id = none) :
    is_filtering_enabled worker_id next.manager = manager.is_filtering_enabled worker_id s.manager := by
  cases h with
  | toggle_filtering other enabled =>
    have hother : other ≠ worker_id ∧ other ≠ 0 := by
      simpa [Action.commands] using hcommands
    exact is_filtering_enabled_set_other hother.1 hother.2 enabled s.manager
  | restart => exact absurd rfl hrestart
  | register _ _ => exact is_filtering_enabled_register worker_id _ s.manager
  | _ => rfl

variable {start : State V S} {worker_id : UInt64} {past : List Action}

theorem missed_concat_of_none {a : Action} (ha : a.commands worker_id = none) :
    Missed codec inet start worker_id (past ++ [a]) ↔ Missed codec inet start worker_id past := by
  constructor
  · rintro ⟨before, after, s, hpast, hrun, hnone, hafter⟩
    rcases List.eq_nil_or_concat after with rfl | ⟨front, b, rfl⟩
    · obtain ⟨_, hlast⟩ := List.append_inj' hpast rfl
      cases hlast
      simp [Action.commands] at ha
    · rw [List.concat_eq_append, ← List.cons_append, ← List.append_assoc] at hpast
      obtain ⟨hfront, _⟩ := List.append_inj' hpast rfl
      exact ⟨before, front, s, hfront, hrun, hnone, fun c hc => hafter c (by simp [hc])⟩
  · rintro ⟨before, after, s, rfl, hrun, hnone, hafter⟩
    refine ⟨before, after ++ [a], s, by simp, hrun, hnone, ?_⟩
    intro b hb
    rcases List.mem_append.mp hb with hb | hb
    · exact hafter b hb
    · rwa [List.mem_singleton.mp hb]

theorem missed_concat_toggle {other : UInt64} {enabled : Bool} (hrun : run (step codec inet) start past = some s)
    (haddressed : other = worker_id ∨ other = 0) :
    Missed codec inet start worker_id (past ++ [.toggle_filtering other enabled]) ↔
      other = 0 ∧ enabled = false ∧ s.manager.filtering_enabled worker_id = none := by
  constructor
  · rintro ⟨before, after, middle, hpast, hbefore, hnone, hafter⟩
    rcases List.eq_nil_or_concat after with rfl | ⟨front, b, rfl⟩
    · obtain ⟨hfront, hlast⟩ := List.append_inj' hpast rfl
      cases hlast
      subst hfront
      rw [hrun] at hbefore
      cases hbefore
      exact ⟨rfl, rfl, hnone⟩
    · rw [List.concat_eq_append, ← List.cons_append, ← List.append_assoc] at hpast
      obtain ⟨_, hlast⟩ := List.append_inj' hpast rfl
      cases hlast
      have hlater := hafter (.toggle_filtering other enabled) (by simp)
      simp [Action.commands, haddressed] at hlater
  · rintro ⟨rfl, rfl, hnone⟩
    exact ⟨past, [], s, rfl, hrun, hnone, nofun⟩

/-- The flag of every worker after a run of one lifetime. -/
theorem run_is_filtering_enabled_iff (memory : UInt64 → BasePolicy) (worker_id : UInt64) {past : List Action}
    (hrestart : ∀ a ∈ past, a ≠ .restart) (hrun : run (step codec inet) (State.start memory) past = some s) :
    is_filtering_enabled worker_id s.manager = commanded worker_id past ↔
      ¬ Missed codec inet (State.start memory) worker_id past := by
  refine run_history (fun past s => (∀ a ∈ past, a ≠ .restart) →
      (is_filtering_enabled worker_id s.manager = commanded worker_id past ↔
        ¬ Missed codec inet (State.start memory) worker_id past)) ?_ ?_ hrun hrestart
  · intro _
    refine iff_of_true rfl ?_
    rintro ⟨before, after, _, hpast, _⟩
    simp at hpast
  · intro past last a next hlast ih hstep hrestart
    have hmove := moves_of_step hstep
    have ih := ih fun b hb => hrestart b (List.mem_append_left _ hb)
    cases hcommands : a.commands worker_id with
    | none =>
      rw [hmove.is_filtering_enabled (hrestart a (by simp)) hcommands, commanded_concat, hcommands,
        missed_concat_of_none hcommands]
      exact ih
    | some value =>
      cases hmove with
      | toggle_filtering other enabled =>
        have haddressed : other = worker_id ∨ other = 0 := by
          by_contra hnot
          simp [Action.commands, hnot] at hcommands
        have hvalue : value = enabled := by
          simpa [Action.commands, haddressed] using hcommands.symm
        subst hvalue
        rw [commanded_concat, hcommands, missed_concat_toggle hlast haddressed]
        by_cases hall : other = 0
        · -- A broadcast leaves a worker that is not in the map at the default.
          subst hall
          rw [is_filtering_enabled_set_all]
          cases last.manager.filtering_enabled worker_id <;> cases value <;> simp
        · obtain rfl := haddressed.resolve_right hall
          rw [is_filtering_enabled_set_self hall]
          simp [hall]
      | _ => simp [Action.commands] at hcommands

/-- An answer reports the flag the map holds when the call ends. -/
theorem filtering_enabled_of_finish {m : Manager V} {stage : Stage S} {resp : GetPolicyResponse S}
    (h : finish codec worker_id m stage = some (.answered (some resp))) :
    resp.filtering_enabled = is_filtering_enabled worker_id m := by
  cases stage with
  | unchanged =>
    cases h
    rfl
  | built policy_bytes =>
    simp only [finish] at h
    split at h
    · cases h
      rfl
    · cases h
  | _ => cases h

/-- In a run without restart, the flag an answer reports is the latest command's
exactly when that command was not a broadcast that switched the filtering off before
the worker had an entry. Registering changes no flag. -/
theorem filtering_last_command_iff (codec : Codec V S) (inet : Inet) (memory : UInt64 → BasePolicy)
    (past : List Action) (s : State V S) (hrestart : ∀ a ∈ past, a ≠ .restart)
    (hrun : run (step codec inet) (State.start memory) past = some s) :
    (∀ n c next resp, s.calls n = some c → step codec inet s (.finish n) = some next →
      next.calls n = some { c with stage := .answered (some resp) } →
      (resp.filtering_enabled = commanded c.worker_id past ↔
        ¬ Missed codec inet (State.start memory) c.worker_id past)) ∧
    ∀ n next worker_id, step codec inet s (.register n) = some next →
      is_filtering_enabled worker_id next.manager = is_filtering_enabled worker_id s.manager := by
  constructor
  · intro n c next resp hcall hstep hanswer
    cases moves_of_step hstep with
    | finish hfound hfinish =>
      cases hcall.symm.trans hfound
      cases (Function.update_self ..).symm.trans hanswer
      rw [filtering_enabled_of_finish hfinish]
      exact run_is_filtering_enabled_iff memory c.worker_id hrestart hrun
  · intro n next worker_id hstep
    exact (moves_of_step hstep).is_filtering_enabled nofun rfl

/-- All workers are switched off, then worker 5 polls for the first time. -/
def late_worker : List Action := [.toggle_filtering 0 false, .poll 0 5, .register 0, .read_version 0]

/-- A worker that comes after the broadcast is told to filter. -/
theorem filtering_command_missed :
    ∃ s next c resp,
      run (step sample_codec Inet.mute) (State.start fun _ => BasePolicy.zero) late_worker = some s ∧
      s.calls 0 = some c ∧ step sample_codec Inet.mute s (.finish 0) = some next ∧
      next.calls 0 = some { c with stage := .answered (some resp) } ∧
      resp.filtering_enabled ≠ commanded c.worker_id late_worker :=
  ⟨_, _, _, _, rfl, rfl, rfl, rfl, by decide⟩

/-- Worker 5 has registered when all workers are switched off. -/
theorem filtering_last_command_known :
    let past : List Action :=
      [.poll 0 5, .register 0, .toggle_filtering 5 true, .toggle_filtering 0 false, .read_version 0]
    ∃ s next c resp,
      run (step sample_codec Inet.mute) (State.start fun _ => BasePolicy.zero) past = some s ∧
      s.calls 0 = some c ∧ step sample_codec Inet.mute s (.finish 0) = some next ∧
      next.calls 0 = some { c with stage := .answered (some resp) } ∧
      ¬ Missed sample_codec Inet.mute (State.start fun _ => BasePolicy.zero) c.worker_id past := by
  intro past
  refine ⟨_, _, _, _, rfl, rfl, rfl, rfl, ?_⟩
  exact ((filtering_last_command_iff sample_codec Inet.mute (fun _ => BasePolicy.zero) past _ (by simp [past]) rfl).1
    0 _ _ _ rfl rfl rfl).mp (by decide)

end grpc_server.protocol
