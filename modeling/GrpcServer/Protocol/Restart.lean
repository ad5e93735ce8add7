import GrpcServer.Protocol.Versions

open c_memory transition grpc_server.dpdk_filter grpc_server.communication grpc_server.manager grpc_server.worker

namespace grpc_server.protocol

variable {V S : Type} {codec : Codec V S} {inet : Inet}

/-- What a poll finds unchanged is what its worker adopted last. -/
theorem Agreement.unchanged {s : State V S} (h : Agreement codec s) {n : ℕ} {c : Call S} (hcall : s.calls n = some c)
    (hopen : c.Open) (hpolled : c.polled = true) (hversion : s.version = c.requested) :
    (s.workers c.worker_id).adopted.SameRules
      (get_worker_policy_proto codec.new_struct s.manager.policy_manager c.worker_id) := by
  have hcurrent : (s.workers c.worker_id).current_config_version = s.version := by
    obtain heq | ⟨hle, hrequested⟩ := h.behind n c hcall hopen hpolled
    · exact heq.symm.trans hversion.symm
    · rw [← hversion] at hrequested
      exact UInt64.toNat_inj.mp (by omega)
  have hadopted := h.adopted c.worker_id
  rw [Good, h.version, hcurrent] at hadopted
  obtain ⟨config, hconfig, hmerge⟩ := hadopted.resolve_left (Nat.lt_irrefl _)
  rw [h.version, hcurrent] at hconfig hmerge
  rw [WorkerPolicy.SameRules, hmerge, get_worker_policy_proto, h.snapshots.recorded.config, hconfig]
  exact (merge_with_version ..).trans (merge_with_version ..).symm

/-- In every run, restarts included, in which no update installs a version number that
a worker, a poll or an answer still carries, a poll that finds its version unchanged
comes from a worker whose last adopted policy is the one the controller would have
built. -/
theorem unchanged_answer_agrees (codec : Codec V S) (inet : Inet) (memory : UInt64 → BasePolicy)
    (acts : List Action) (final next : State V S)
    (hmeets : Meets (step codec inet) (Unambiguous codec) (State.start memory) acts)
    (hrun : run (step codec inet) (State.start memory) acts = some final) (n : ℕ) (c after : Call S)
    (hcall : final.calls n = some c) (hpolled : c.polled = true)
    (hcompare : step codec inet final (.read_version n) = some next) (hafter : next.calls n = some after)
    (hunchanged : FoundUnchanged after.stage) :
    (final.workers c.worker_id).adopted.SameRules
      (get_worker_policy_proto codec.new_struct final.manager.policy_manager c.worker_id) := by
  have hfinal : Agreement codec final := run_invariant (Agreement codec)
    (fun s a next h hallowed hstep => h.step hallowed (moves_of_step hstep)) (Agreement.start codec memory) hmeets hrun
  cases moves_of_step hcompare with
  | read_version hfound hstage =>
    cases hcall.symm.trans hfound
    cases (Function.update_self ..).symm.trans hafter
    exact hfinal.unchanged hcall (Call.open_of_stage hstage nofun) hpolled (foundUnchanged_read_version hunchanged)

/-- Worker 1 adopts the first version, the controller restarts and gets another
configuration, and worker 1 polls again. -/
def restarted : List Action :=
  [.load_config blocking_toml, .poll 0 1, .register 0, .read_version 0, .build_policy 0, .finish 0, .deliver 1 [],
    .restart, .load_config [], .poll 1 1, .register 1]

/-- After a restart another configuration is found unchanged because it carries
the number of the old one. -/
theorem unchanged_answer_disagrees :
    ∃ final next c after,
      run (step sample_codec Inet.mute) (State.start fun _ => BasePolicy.zero) restarted = some final ∧
      final.calls 1 = some c ∧ c.polled = true ∧
      step sample_codec Inet.mute final (.read_version 1) = some next ∧ next.calls 1 = some after ∧
      FoundUnchanged after.stage ∧
      ¬ (final.workers c.worker_id).adopted.SameRules
        (get_worker_policy_proto sample_codec.new_struct final.manager.policy_manager c.worker_id) := by
  refine ⟨_, _, _, _, rfl, rfl, rfl, rfl, rfl, trivial, ?_⟩
  intro h
  have hdomains : [[97]] = ([] : List Str) := congrArg WorkerPolicy.block_domains h
  cases hdomains

theorem not_carried_of_idle {codec : Codec V S} {s : State V S} {version : UInt64}
    (hversion : version ≠ 0) (hworkers : ∀ worker_id, (s.workers worker_id).current_config_version = 0)
    (hcalls : ∀ n, s.calls n = none) : ¬ Carried codec s version := by
  rintro (⟨worker_id, heq⟩ | ⟨n, c, hcall, -⟩ | ⟨_, n, c, _, -, hcall, -⟩)
  · exact hversion (heq.symm.trans (hworkers worker_id))
  · rw [hcalls n] at hcall
    cases hcall
  · rw [hcalls n] at hcall
    cases hcall

/-- The controller restarts and gets another configuration before worker 1 adopts it
and polls once more. -/
def adopted_once : List Action :=
  [.load_config [], .restart, .load_config blocking_toml, .poll 0 1, .register 0, .read_version 0, .build_policy 0,
    .finish 0, .deliver 1 [], .poll 1 1, .register 1]

theorem unambiguous_adopted_once :
    Meets (step sample_codec Inet.mute) (Unambiguous sample_codec)
      (State.start (V := Unit) (S := Unit) fun _ => BasePolicy.zero) adopted_once := by
  refine .cons (fun _ => ⟨by decide, ?_⟩) rfl (.cons trivial rfl (.cons (fun _ => ⟨by decide, ?_⟩) rfl ?_))
  · exact not_carried_of_idle (by decide) (fun _ => rfl) fun _ => rfl
  · exact not_carried_of_idle (by decide) (fun _ => rfl) fun _ => rfl
  · exact .cons trivial rfl (.cons trivial rfl (.cons trivial rfl (.cons trivial rfl (.cons trivial rfl
      (.cons trivial rfl (.cons trivial rfl (.cons trivial rfl trivial)))))))

/-- Worker 1 holds the policy it adopted when its second poll finds the version
unchanged. -/
theorem unchanged_answer_agrees_adopted :
    ∃ final : State Unit Unit,
      run (step sample_codec Inet.mute) (State.start fun _ => BasePolicy.zero) adopted_once = some final ∧
      (final.workers 1).adopted.block_domains = [[97]] ∧
      (final.workers 1).adopted.SameRules
        (get_worker_policy_proto sample_codec.new_struct final.manager.policy_manager 1) := by
  refine ⟨_, rfl, rfl, ?_⟩
  exact unchanged_answer_agrees sample_codec Inet.mute (fun _ => BasePolicy.zero) adopted_once _ _
    unambiguous_adopted_once rfl 1 _ _ rfl rfl rfl rfl trivial

end grpc_server.protocol
