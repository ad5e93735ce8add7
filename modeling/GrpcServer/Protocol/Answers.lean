import GrpcServer.Manager.PolicyManager.Merge
import GrpcServer.Protocol.Versions
import Mathlib.Data.Countable.Basic
import Mathlib.Logic.Equiv.List

open c_memory transition grpc_server.dpdk_filter grpc_server.communication grpc_server.manager grpc_server.worker

namespace grpc_server.protocol

variable {V S : Type}

/-- A string of the rules that a policy is built from. -/
def Mentions (rules : TOMLRules V) (s : Str) : Prop :=
  s ∈ rules.block_categories ∨ s ∈ rules.block_by_trust ∨ s ∈ rules.block_domains ∨ s ∈ rules.allow_domains ∨
    s ∈ rules.block_ips ∨ s ∈ rules.allow_ips

/-- A string of a policy's message. -/
def Carries (pol : WorkerPolicy S) (s : Str) : Prop :=
  s ∈ pol.block_categories ∨ s ∈ pol.block_by_trust ∨ s ∈ pol.block_domains ∨ s ∈ pol.allow_domains ∨
    s ∈ pol.block_ips ∨ s ∈ pol.allow_ips

/-- All strings of a configuration that can get into a policy satisfy `text`. -/
def TextualConfig (text : Str → Prop) (cfg : TOMLConfig V) : Prop :=
  (∀ s, Mentions cfg.global s → text s) ∧
    ∀ name rules, cfg.filters.lookup name = some rules → ∀ s, Mentions rules s → text s

/-- What is asked of the libraries: the TOML parser yields texts (UTF-8, as it
reads nothing else), and `proto.Marshal` writes every policy whose strings are texts
and whose `extra` was made by `structpb.NewStruct`. -/
structure WritesTexts (text : Str → Prop) (codec : Codec V S) : Prop where
  parsed : ∀ config_data cfg, codec.toml_unmarshal config_data = some cfg → TextualConfig text cfg
  written : ∀ pol : WorkerPolicy S, (∀ s, Carries pol s → text s) →
    (∀ value, pol.extra = some value → ∃ fields, codec.new_struct fields = some value) →
    ∃ bytes, codec.proto_marshal pol = some bytes

theorem not_mentions_empty (s : Str) : ¬ Mentions (TOMLRules.empty : TOMLRules V) s := by
  simp [Mentions, TOMLRules.empty, Finmap.notMem_empty]

theorem textualConfig_empty (text : Str → Prop) : TextualConfig text (TOMLConfig.empty : TOMLConfig V) := by
  refine ⟨fun s hs => absurd hs (not_mentions_empty s), ?_⟩
  intro name rules hrules
  cases hrules

section Merge

variable {new_struct : (Finmap fun _ : Str => V) → Option S} {cfg : TOMLConfig V} {worker_id version : UInt64}

/-- The strings of a worker's policy stand in the configuration. -/
theorem mentions_of_carries {s : Str} (h : Carries (merge new_struct cfg worker_id version) s) :
    Mentions cfg.global s ∨ Mentions (filter_rules cfg worker_id) s := by
  rw [merge_eq] at h
  simp only [Carries, merge_filter, global_policy] at h
  have hlist := fun global filter => (@mem_append_missing global filter s).mp
  unfold Mentions
  rcases h with h | h | h | h | h | h
  · exact (hlist _ _ h).imp .inl .inl
  · exact (Finmap.mem_union.mp h).symm.imp (.inr ∘ .inl) (.inr ∘ .inl)
  · exact (hlist _ _ h).imp (.inr ∘ .inr ∘ .inl) (.inr ∘ .inr ∘ .inl)
  · exact (hlist _ _ h).imp (.inr ∘ .inr ∘ .inr ∘ .inl) (.inr ∘ .inr ∘ .inr ∘ .inl)
  · exact (hlist _ _ h).imp (.inr ∘ .inr ∘ .inr ∘ .inr ∘ .inl) (.inr ∘ .inr ∘ .inr ∘ .inr ∘ .inl)
  · exact (hlist _ _ h).imp (.inr ∘ .inr ∘ .inr ∘ .inr ∘ .inr) (.inr ∘ .inr ∘ .inr ∘ .inr ∘ .inr)

theorem extra_of_merge {value : S} (h : (merge new_struct cfg worker_id version).extra = some value) :
    ∃ fields, new_struct fields = some value := by
  unfold merge at h
  split at h
  · cases h
  · rename_i filter _
    simp only [merge_filter, merge_extra] at h
    split at h
    · exact ⟨_, h⟩
    · split at h
      · exact ⟨_, h⟩
      · cases h

theorem TextualConfig.carries {text : Str → Prop} (hcfg : TextualConfig text cfg) {s : Str}
    (h : Carries (merge new_struct cfg worker_id version) s) : text s := by
  rcases mentions_of_carries h with hglobal | hfilter
  · exact hcfg.1 s hglobal
  · unfold filter_rules at hfilter
    cases hlookup : cfg.filters.lookup (filter_name worker_id) with
    | some rules =>
      rw [hlookup] at hfilter
      exact hcfg.2 _ rules hlookup s hfilter
    | none =>
      rw [hlookup] at hfilter
      exact absurd hfilter (not_mentions_empty s)

end Merge

section Answers

variable {text : Str → Prop} {codec : Codec V S} {inet : Inet} {s next : State V S}

/-- The call has not failed, and what has been written for it can be read. -/
def Answerable (codec : Codec V S) : Stage S → Prop
  | .answered resp => ∃ answer, resp = some answer
  | .built bytes => ∃ pol, codec.proto_unmarshal bytes = some pol
  | _ => True

/-- No call has failed so far, and none that is under way will. -/
structure Answering (text : Str → Prop) (codec : Codec V S) (s : State V S) : Prop where
  config : ∀ cfg, s.manager.policy_manager.config = some cfg → TextualConfig text cfg
  calls : ∀ n c, s.calls n = some c → Answerable codec c.stage

theorem Answering.congr (h : Answering text codec s) (hcalls : next.calls = s.calls)
    (hconfig : next.manager.policy_manager = s.manager.policy_manager) : Answering text codec next := by
  constructor
  · rw [hconfig]
    exact h.config
  · rw [hcalls]
    exact h.calls

theorem Answering.set_call (h : Answering text codec s) (n : ℕ) {c : Call S} (hc : Answerable codec c.stage) :
    Answering text codec (s.set_call n c) := by
  refine ⟨h.config, ?_⟩
  intro m d hd
  obtain ⟨_, rfl⟩ | ⟨_, hd⟩ := State.calls_set_call hd
  · exact hc
  · exact h.calls m d hd

/-- The policy of every worker can be written and is read back. -/
theorem Answering.build_policy (h : Answering text codec s) (hwrites : WritesTexts text codec) (worker_id : UInt64) :
    Answerable codec (manager.build_policy codec worker_id s.manager) := by
  obtain ⟨cfg, version, hcfg, hmerge⟩ : ∃ cfg version, TextualConfig text cfg ∧
      get_worker_policy_proto codec.new_struct s.manager.policy_manager worker_id =
        merge codec.new_struct cfg worker_id version := by
    unfold get_worker_policy_proto
    cases hconfig : s.manager.policy_manager.config with
    | none => exact ⟨TOMLConfig.empty, 0, textualConfig_empty text, rfl⟩
    | some cfg => exact ⟨cfg, _, h.config cfg hconfig, rfl⟩
  obtain ⟨bytes, hbytes⟩ := hwrites.written (merge codec.new_struct cfg worker_id version)
    (fun s hs => hcfg.carries hs) fun value hvalue => extra_of_merge hvalue
  rw [manager.build_policy, hmerge, hbytes]
  exact ⟨_, codec.round_trip _ _ hbytes⟩

theorem Answering.step (h : Answering text codec s) (hwrites : WritesTexts text codec) {a : Action}
    (hrestart : a ≠ .restart) (hmove : Moves codec inet s a next) : Answering text codec next := by
  cases hmove with
  | load_failed => exact h
  | install hparse =>
    refine ⟨?_, h.calls⟩
    intro cfg hcfg
    cases hcfg
    exact hwrites.parsed _ _ hparse
  | toggle_filtering worker_id enabled => exact h.congr rfl (set_filtering_enabled_policy_manager ..)
  | restart => exact absurd rfl hrestart
  | request worker_id config_version hfree => exact h.set_call _ trivial
  | @poll n worker_id hfree hidle =>
    have hcalls : Answering text codec (s.begin_call n worker_id (s.workers worker_id).current_config_version true) :=
      h.set_call n trivial
    exact hcalls.congr rfl rfl
  | @register n c hcall hstage =>
    have hcalls : Answering text codec (s.set_call n { c with stage := .registered }) := h.set_call n trivial
    exact hcalls.congr rfl (register_worker_policy_manager ..)
  | @read_version n c hcall hstage =>
    apply h.set_call n
    simp only [manager.read_version]
    split <;> trivial
  | @build_policy n c hcall hstage => exact h.set_call n (h.build_policy hwrites c.worker_id)
  | @finish n c stage hcall hfinish =>
    have hc := h.calls n c hcall
    unfold manager.finish at hfinish
    split at hfinish
    · cases hfinish
      exact h.set_call n ⟨_, rfl⟩
    · rename_i bytes hstage
      rw [hstage] at hc
      obtain ⟨pol, hread⟩ := hc
      rw [hread] at hfinish
      cases hfinish
      exact h.set_call n ⟨_, rfl⟩
    · cases hfinish
  | deliver hwaiting hcall hstage htrust => exact h.congr rfl rfl
  | give_up hwaiting => exact h.congr rfl rfl
  | copy_policy worker_id => exact h.congr rfl rfl

end Answers

section Letter

/-- Policies are countable, so that each can be given bytes of its own. -/
theorem exists_policy_bytes : ∃ policy_bytes : WorkerPolicy Unit → Str, Function.Injective policy_bytes := by
  have hbyte := Function.Injective.countable fun a b => (@UInt8.toNat_inj a b).mp
  have hint := Function.Injective.countable fun a b => (@Int32.toInt_inj a b).mp
  have hlong := Function.Injective.countable fun a b => (@UInt64.toNat_inj a b).mp
  have hfields : Function.Injective fun pol : WorkerPolicy Unit =>
      ((pol.block_categories, pol.block_by_trust.entries, pol.block_domains),
        (pol.allow_domains, pol.block_ips, pol.allow_ips),
        (pol.min_trust_level, pol.ttl_ip, pol.ttl_domain), pol.config_version, pol.extra) := by
    intro first second heq
    obtain ⟨⟩ := first
    obtain ⟨⟩ := second
    simp only [Prod.mk.injEq, ← Finmap.ext_iff] at heq
    simp [heq]
  have hcountable := hfields.countable
  obtain ⟨number, hnumber⟩ := exists_injective_nat (WorkerPolicy Unit)
  exact ⟨_, (List.replicate_left_injective (0 : UInt8)).comp hnumber⟩

noncomputable def policy_bytes : WorkerPolicy Unit → Str := exists_policy_bytes.choose

end Letter

end grpc_server.protocol
