import GrpcServer.Protocol.Versions
import GrpcServer.Worker.Policy.Encoding

open c_memory transition grpc_server.dpdk_filter grpc_server.communication grpc_server.manager grpc_server.worker

namespace grpc_server.protocol

variable {V S : Type} {codec : Codec V S} {inet : Inet} {memory : UInt64 → BasePolicy} {s next : State V S}

/-- What `current_policy` holds: the bytes it was created with while no policy has
been adopted, afterwards what the copy loops made of the adopted one. -/
def Worker.Stores (inet : Inet) (memory : BasePolicy) (w : Worker S) : Prop :=
  (w.current_config_version = 0 ∧ w.current_policy = some memory) ∨
  (w.current_config_version ≠ 0 ∧ ∃ trust : List (Sigma fun _ : Str => Int32),
    (trust : Multiset (Sigma fun _ : Str => Int32)) = w.adopted.block_by_trust.entries ∧
    w.current_policy = store_policy inet trust w.adopted)

def Stores (inet : Inet) (memory : UInt64 → BasePolicy) (s : State V S) : Prop :=
  ∀ worker_id, (s.workers worker_id).Stores inet (memory worker_id)

/-- The policy an iteration of the worker's main loop works with is, up to the
defaults for the cache lifetimes, the encoding of the merge of the configuration
whose number the worker reports. -/
def Enforces (codec : Codec V S) (inet : Inet) (s : State V S) (worker_id : UInt64) : Prop :=
  ∃ (config : TOMLConfig V) (trust : List (Sigma fun _ : Str => Int32)),
    s.config_at (s.workers worker_id).current_config_version.toNat = some config ∧
    (trust : Multiset (Sigma fun _ : Str => Int32)) =
      (merge codec.new_struct config worker_id (s.workers worker_id).current_config_version).block_by_trust.entries ∧
    (s.workers worker_id).local_policy = some (grpc_server.worker.copy_policy (encoding inet trust
      (merge codec.new_struct config worker_id (s.workers worker_id).current_config_version)))

theorem Stores.set_worker (h : Stores inet memory s) (changed : UInt64) {w : Worker S}
    (hw : w.Stores inet (memory changed)) : Stores inet memory (s.set_worker changed w) := by
  intro worker_id
  obtain ⟨rfl, heq⟩ | ⟨_, heq⟩ := s.workers_set_worker changed worker_id w
  · rw [heq]
    exact hw
  · rw [heq]
    exact h worker_id

theorem Stores.step {a : Action} (hstores : Stores inet memory s) (hfresh : Fresh s) (h : Agreement codec s)
    (hmove : Moves codec inet s a next) : Stores inet memory next := by
  cases hmove with
  | @poll n worker_id _ _ =>
    have hcalled : Stores inet memory
        (s.begin_call n worker_id (s.workers worker_id).current_config_version true) := hstores
    exact hcalled.set_worker worker_id (hstores worker_id)
  | @deliver worker_id trust n c resp hwait hcall hstage htrust =>
    obtain ⟨pol, _, rfl⟩ | ⟨hversion, hpolicy, hadopted, _⟩ := (s.workers worker_id).receive_cases inet trust resp
    · have hlt := (hfresh.lt_of_answer h hwait hcall (provides_of_answered hstage)).1
      have hne : pol.config_version ≠ 0 := by
        intro hzero
        rw [hzero] at hlt
        exact Nat.not_lt_zero _ hlt
      exact hstores.set_worker worker_id (.inr ⟨hne, trust, htrust, rfl⟩)
    · refine hstores.set_worker worker_id ?_
      rw [Worker.Stores, hversion, hpolicy, hadopted]
      exact hstores worker_id
  | @give_up worker_id _ _ => exact hstores.set_worker worker_id (hstores worker_id)
  | copy_policy worker_id => exact hstores.set_worker worker_id (hstores worker_id)
  | _ => exact hstores

theorem run_stores {acts : List Action} {final : State V S} (hrestart : ∀ a ∈ acts, a ≠ .restart)
    (hcount : (acts.filterMap (installs codec)).length < 2 ^ 64)
    (hrun : run (step codec inet) (State.start memory) acts = some final) : Stores inet memory final :=
  (run_inOneLife (Stores inet memory) (fun _ _ _ ht hfresh hstores hmove => hstores.step hfresh ht hmove)
    (Agreement.start codec memory) (Fresh.start memory) (fun _ => .inl ⟨rfl, rfl⟩) hrestart
    (by simpa [State.start] using hcount) hrun).2.2

/-- The empty policy is encoded as zeroes. -/
theorem encoding_merge_empty (new_struct : (Finmap fun _ : Str => V) → Option S) (inet : Inet)
    (worker_id version : UInt64) {trust : List (Sigma fun _ : Str => Int32)}
    (htrust : (trust : Multiset (Sigma fun _ : Str => Int32)) =
      (merge new_struct TOMLConfig.empty worker_id version).block_by_trust.entries) :
    encoding inet trust (merge new_struct TOMLConfig.empty worker_id version) = BasePolicy.zero := by
  have hnil : trust = [] := (Multiset.coe_eq_zero _).mp htrust
  rw [hnil, merge_empty]
  rfl

theorem enforces_copy_zero_iff {worker_id : UInt64} {held : BasePolicy}
    (hversion : (s.workers worker_id).current_config_version = 0)
    (hheld : (s.workers worker_id).current_policy = some held) :
    Enforces codec inet (s.set_worker worker_id (s.workers worker_id).copy_policy) worker_id ↔
      grpc_server.worker.copy_policy held = grpc_server.worker.copy_policy BasePolicy.zero := by
  have hworker : (s.set_worker worker_id (s.workers worker_id).copy_policy).workers worker_id =
      (s.workers worker_id).copy_policy := Function.update_self ..
  have hlocal : (s.workers worker_id).copy_policy.local_policy =
      some (grpc_server.worker.copy_policy held) := by
    rw [Worker.copy_policy, hheld, Option.map_some]
  have hreported : (s.workers worker_id).copy_policy.current_config_version = 0 := hversion
  rw [Enforces, hworker, hreported, hlocal]
  constructor
  · rintro ⟨config, trust, hconfig, htrust, heq⟩
    have hempty : config = TOMLConfig.empty := (Option.some.inj hconfig).symm
    subst hempty
    rw [encoding_merge_empty _ _ _ _ htrust] at heq
    exact Option.some.inj heq
  · intro heq
    refine ⟨TOMLConfig.empty, [], rfl, rfl, ?_⟩
    rw [heq, encoding_merge_empty _ _ _ _ rfl]

theorem enforces_copy_of_adopted {worker_id : UInt64} {pol : WorkerPolicy S}
    {trust : List (Sigma fun _ : Str => Int32)} (hadopted : s.Matches codec worker_id pol)
    (hversion : pol.config_version = (s.workers worker_id).current_config_version)
    (htrust : (trust : Multiset (Sigma fun _ : Str => Int32)) = pol.block_by_trust.entries) (hfits : Fits pol)
    (hstored : (s.workers worker_id).current_policy = store_policy inet trust pol) :
    Enforces codec inet (s.set_worker worker_id (s.workers worker_id).copy_policy) worker_id := by
  obtain ⟨config, hconfig, hmerge⟩ := hadopted
  have hworker : (s.set_worker worker_id (s.workers worker_id).copy_policy).workers worker_id =
      (s.workers worker_id).copy_policy := Function.update_self ..
  have hreported : (s.workers worker_id).copy_policy.current_config_version = pol.config_version := hversion.symm
  rw [Enforces, hworker, hreported]
  refine ⟨config, trust, hconfig, ?_, ?_⟩
  · rw [← hmerge]
    exact htrust
  · rw [← hmerge, Worker.copy_policy, hstored, store_policy_of_fits hfits, Option.map_some]

/-- In every run without a restart in which all lists fit, whatever becomes of the
polls, the policy an iteration copies is that of the reported version exactly when a
policy has been adopted or the uninitialised memory happened to hold the empty one. -/
theorem enforces_reported_version_iff (codec : Codec V S) (inet : Inet) (memory : UInt64 → BasePolicy)
    (acts : List Action) (final next : State V S) (worker_id : UInt64) (hrestart : ∀ a ∈ acts, a ≠ .restart)
    (hcount : (acts.filterMap (installs codec)).length < 2 ^ 64)
    (hfits : ∀ config ∈ acts.filterMap (installs codec), ∀ version,
      Fits (merge codec.new_struct config worker_id version))
    (hrun : run (step codec inet) (State.start memory) acts = some final)
    (hcopy : step codec inet final (.copy_policy worker_id) = some next) :
    Enforces codec inet next worker_id ↔
      (final.workers worker_id).current_config_version ≠ 0 ∨
        grpc_server.worker.copy_policy (memory worker_id) = grpc_server.worker.copy_policy BasePolicy.zero := by
  cases hcopy
  obtain ⟨hzero, hmemory⟩ | ⟨hne, trust, htrust, hstored⟩ := run_stores hrestart hcount hrun worker_id
  · rw [enforces_copy_zero_iff hzero hmemory]
    exact ⟨.inr, fun h => h.resolve_left fun hne => hne hzero⟩
  · refine iff_of_true ?_ (.inl hne)
    obtain ⟨hfinal, hfresh, hinstalled⟩ := run_start hrestart hcount hrun
    have hle := hfresh.versions worker_id
    rw [← hfinal.version] at hle
    have hmatches := (hfinal.adopted worker_id).resolve_left (Nat.not_lt.mpr hle)
    refine enforces_copy_of_adopted hmatches (hfinal.version worker_id) htrust ?_ hstored
    obtain ⟨config, hconfig, hmerge⟩ := hmatches
    rw [hmerge]
    rw [State.config_at, hinstalled] at hconfig
    obtain rfl | hmem := List.mem_cons.mp (List.mem_of_getElem? hconfig)
    · exact ⟨Nat.zero_le _, Nat.zero_le _, Nat.zero_le _⟩
    · exact hfits config hmem _

/-- Memory in which every slot for a blocked domain is taken. -/
def dirty_memory : BasePolicy := { BasePolicy.zero with block_domains := fun _ _ => 97 }

/-- A fresh worker is told that its version 0 is unchanged and filters with
whatever its memory held. -/
theorem enforces_nothing_at_version_zero :
    ∃ final next : State Unit Unit,
      run (step sample_codec Inet.mute) (State.start fun _ => dirty_memory)
        [.poll 0 1, .register 0, .read_version 0, .finish 0, .deliver 1 []] = some final ∧
      step sample_codec Inet.mute final (.copy_policy 1) = some next ∧
      ¬ Enforces sample_codec Inet.mute next 1 := by
  refine ⟨_, _, rfl, rfl, ?_⟩
  intro henforces
  have h := (enforces_copy_zero_iff rfl rfl).mp henforces
  have hbyte : (97 : UInt8) = 0 := congrArg (fun p : BasePolicy => p.block_domains 0 0) h
  exact absurd hbyte (by decide)

/-- The same worker filters with the first version once that has reached it. -/
theorem enforces_reported_version_first :
    ∃ final next : State Unit Unit,
      run (step sample_codec Inet.mute) (State.start fun _ => dirty_memory) updated_poll = some final ∧
      step sample_codec Inet.mute final (.copy_policy 1) = some next ∧
      Enforces sample_codec Inet.mute next 1 := by
  refine ⟨_, _, rfl, rfl, ?_⟩
  refine (enforces_reported_version_iff sample_codec Inet.mute (fun _ => dirty_memory) updated_poll _ _ 1
    (by simp [updated_poll]) (by decide) ?_ rfl rfl).mpr (.inl (by decide))
  intro config hmem version
  have hconfig : config = blocking_config 1 := List.mem_singleton.mp hmem
  rw [hconfig]
  exact ⟨Nat.zero_le _, (by decide : 1 ≤ MAX_DOMAINS), Nat.zero_le _⟩

end grpc_server.protocol
