import GrpcServer.DataServer.Deployed
import GrpcServer.Worker.MainLoop.Coherence

open c_memory transition ttl_cache grpc_server.service grpc_server.dpdk_filter

namespace grpc_server.grpcserver

open worker (Threads ThreadAction LoopStage UpdateStage thread_step)

/-- A policy of the list blocks the packet, if it is dropped. -/
def Justified (policies : List BasePolicy) (info_pac : InfoOfPakage) (verdict : Bool) : Prop :=
  verdict = false → ∃ policy ∈ policies, blocked policy info_pac = true

theorem justified_true (policies : List BasePolicy) (info_pac : InfoOfPakage) : Justified policies info_pac true := by
  intro hdropped
  cases hdropped

theorem Justified.mono {policies more : List BasePolicy} (hsub : policies ⊆ more) {info_pac : InfoOfPakage}
    {verdict : Bool} (h : Justified policies info_pac verdict) : Justified more info_pac verdict := by
  intro hdropped
  obtain ⟨policy, hmem, hblocked⟩ := h hdropped
  exact ⟨policy, hsub hmem, hblocked⟩

theorem goodEntries_justified_mono {policies more : List BasePolicy} (hsub : policies ⊆ more) {caches : Caches}
    (h : GoodEntries (Justified policies) caches) : GoodEntries (Justified more) caches := by
  refine EveryEntry.mono h ?_
  intro key node hgood info_pac hkey
  exact (hgood info_pac hkey).mono hsub

theorem sharedByKey_justified (inet : Inet) (policies : List BasePolicy) : SharedByKey (Justified policies) := by
  intro first second verdict hterm hkey hgood hdropped
  obtain ⟨policy, hmem, hblocked⟩ := hgood hdropped
  exact ⟨policy, hmem, (same_of_key hterm hkey inet policy).2 ▸ hblocked⟩

section Caches

variable {good : InfoOfPakage → Bool → Prop} {hz : UInt64} {env : CacheEnv} {caches : Caches}

theorem goodEntries_add_to_cache (hshared : SharedByKey good) (h : GoodEntries good caches) (policy : BasePolicy)
    {info_pac : InfoOfPakage} (hterm : info_pac.domain.Terminated) {verdict : Bool} (hgood : good info_pac verdict) :
    GoodEntries good ((lookup_key info_pac).add_to_cache env policy (NodeCache.fresh verdict) caches) := by
  rw [CacheKey.add_to_cache_eq]
  split
  · refine EveryEntry.insert h fun second hkey => ?_
    exact hshared info_pac second verdict hterm hkey.symm hgood
  · exact h

end Caches

/-- A packet whose name ends in its array, and whose classification is the
controller's or fails. -/
def Deployed (sys : System) (svc : Service) (pkt : RteMbuf) (env : PacketEnv) : Prop :=
  (sys.parse pkt).domain.Terminated ∧ AnsweredBy svc env

/-- What is known of the packet the main loop is inside of. -/
def StageJustified (sys : System) (svc : Service) (policies : List BasePolicy) :
    LoopStage → Prop
  | .top => True
  | .handling => True
  | .missed pkt env => Deployed sys svc pkt env
  | .decided pkt _ solution_is_send _ =>
    (sys.parse pkt).domain.Terminated ∧ Justified policies (sys.parse pkt) solution_is_send

/-- Every verdict given, stored or about to be stored is one a policy of the list
accounts for. -/
structure ThreadsJustified (sys : System) (svc : Service) (policies : List BasePolicy)
    (s : Threads) : Prop where
  current_policy : s.current_policy ∈ policies
  local_policy : ∃ policy ∈ policies, ∀ info_pac, blocked s.local_policy info_pac = blocked policy info_pac
  entries : GoodEntries (Justified policies) s.world.caches
  stage : StageJustified sys svc policies s.loop
  trace : ∀ verdict ∈ s.world.wire.view Event.verdict, Justified policies (sys.parse verdict.1) verdict.2

/-- The policies an action brings. -/
def replacement : ThreadAction → Option BasePolicy
  | .replace_policy policy _ => some policy
  | _ => none

/-- Each packet that is looked up is one of the deployment. -/
def DeployedAction (sys : System) (svc : Service) : ThreadAction → Prop
  | .lookup pkt env => Deployed sys svc pkt env
  | _ => True

section Step

variable {sys : System} {hz : UInt64} {svc : Service} {policies : List BasePolicy} {s next : Threads}

theorem ThreadsJustified.mono {more : List BasePolicy} (h : ThreadsJustified sys svc policies s)
    (hsub : policies ⊆ more) : ThreadsJustified sys svc more s := by
  refine ⟨hsub h.current_policy, ?_, ?_, ?_, fun verdict hverdict => (h.trace verdict hverdict).mono hsub⟩
  · obtain ⟨policy, hmem, hsame⟩ := h.local_policy
    exact ⟨policy, hsub hmem, hsame⟩
  · exact goodEntries_justified_mono hsub h.entries
  · have hstage := h.stage
    cases hloop : s.loop with
    | decided pkt env solution_is_send version =>
      rw [hloop] at hstage
      exact ⟨hstage.1, hstage.2.mono hsub⟩
    | missed pkt env =>
      rw [hloop] at hstage
      exact hstage
    | _ => trivial

/-- One more verdict on the wire. -/
theorem justified_decision {wire : Wire}
    (h : ∀ verdict ∈ wire.view Event.verdict, Justified policies (sys.parse verdict.1) verdict.2) {pkt : RteMbuf}
    {solution_is_send : Bool} (hgood : Justified policies (sys.parse pkt) solution_is_send) (tx_ok : Bool)
    (in_port out_port : Port) :
    ∀ verdict ∈ (package_sending_decision sys.net tx_ok solution_is_send pkt in_port out_port wire).view Event.verdict,
      Justified policies (sys.parse verdict.1) verdict.2 := by
  rw [view_verdict_decision]
  intro verdict hverdict
  rcases List.mem_append.mp hverdict with hbefore | hnew
  · exact h verdict hbefore
  · rw [List.mem_singleton.mp hnew]
    exact hgood

theorem ThreadsJustified.lookup (h : ThreadsJustified sys svc policies s)
    {pkt : RteMbuf} {env : PacketEnv} (hdeployed : Deployed sys svc pkt env) :
    ThreadsJustified sys svc policies (s.lookup sys hz pkt env) := by
  have htrace : ∀ verdict ∈ ((s.world.wire.emit .received).emit (.access pkt.id)).view Event.verdict,
      Justified policies (sys.parse verdict.1) verdict.2 := by
    rw [view_verdict_received]
    exact h.trace
  have hentries := EveryEntry.lookup_cache h.entries hz env.cache (lookup_key (sys.parse pkt))
  unfold Threads.lookup
  simp only
  split
  · exact ⟨h.current_policy, h.local_policy, h.entries, h.stage, justified_decision htrace (justified_true _ _) _ _ _⟩
  · split <;> rename_i hlookup
    · have hserved := h.entries _ _ (entry_of_hit (congrArg Prod.fst hlookup)) (sys.parse pkt) rfl
      rw [hlookup] at hentries
      exact ⟨h.current_policy, h.local_policy, hentries, h.stage, justified_decision htrace hserved _ _ _⟩
    · rw [hlookup] at hentries
      exact ⟨h.current_policy, h.local_policy, hentries, hdeployed, htrace⟩
    · rw [hlookup] at hentries
      refine ⟨h.current_policy, h.local_policy, hentries, h.stage, ?_⟩
      simpa [Event.verdict] using h.trace

theorem justified_miss_solution (h : ThreadsJustified sys svc policies s)
    (pkt : RteMbuf) {env : PacketEnv} (hanswered : AnsweredBy svc env) :
    Justified policies (sys.parse pkt) (miss_solution sys s.local_policy env (sys.parse pkt)) := by
  intro hdropped
  obtain ⟨policy, hmem, hsame⟩ := h.local_policy
  refine ⟨policy, hmem, ?_⟩
  rw [← hsame]
  exact (miss_solution_of_answered (p := (pkt, env)) hanswered).1 hdropped

/-- One action of either thread. -/
theorem ThreadsJustified.step (h : ThreadsJustified sys svc policies s)
    {a : ThreadAction} (hnew : ∀ policy ∈ replacement a, policy ∈ policies) (ha : DeployedAction sys svc a)
    (hstep : thread_step sys hz s a = some next) : ThreadsJustified sys svc policies next := by
  cases a with
  | replace_policy policy version =>
    simp only [thread_step] at hstep
    split at hstep
    · cases hstep
      exact ⟨hnew policy rfl, h.local_policy, h.entries, h.stage, h.trace⟩
    · cases hstep
  | clear_ip_cache =>
    simp only [thread_step] at hstep
    split at hstep
    · cases hstep
      exact ⟨h.current_policy, h.local_policy, EveryEntry.clear_ip_cache h.entries, h.stage, h.trace⟩
    · cases hstep
  | clear_dns_cache =>
    simp only [thread_step] at hstep
    split at hstep
    · cases hstep
      exact ⟨h.current_policy, h.local_policy, EveryEntry.clear_dns_cache h.entries, h.stage, h.trace⟩
    · cases hstep
  | copy_policy =>
    simp only [thread_step] at hstep
    split at hstep
    · cases hstep
      exact ⟨h.current_policy, ⟨_, h.current_policy, blocked_copy_policy _⟩, h.entries, trivial, h.trace⟩
    · cases hstep
  | lookup pkt env =>
    simp only [thread_step] at hstep
    split at hstep
    · cases hstep
      exact h.lookup ha
    · cases hstep
  | decide =>
    simp only [thread_step] at hstep
    split at hstep
    · rename_i pkt env hloop
      cases hstep
      have hdeployed := h.stage
      rw [hloop] at hdeployed
      have hgood := justified_miss_solution h pkt hdeployed.2
      exact ⟨h.current_policy, h.local_policy, h.entries, ⟨hdeployed.1, hgood⟩,
        justified_decision h.trace hgood _ _ _⟩
    · cases hstep
  | add =>
    simp only [thread_step] at hstep
    split at hstep
    · rename_i pkt env solution_is_send version hloop
      cases hstep
      have hdecided := h.stage
      rw [hloop] at hdecided
      refine ⟨h.current_policy, h.local_policy, ?_, trivial, h.trace⟩
      simp only [Threads.add]
      split
      · exact goodEntries_add_to_cache (sharedByKey_justified sys.inet policies) h.entries _ hdecided.1 hdecided.2
      · exact h.entries
    · cases hstep
  | end_iteration =>
    simp only [thread_step] at hstep
    split at hstep
    · cases hstep
      exact ⟨h.current_policy, h.local_policy, h.entries, trivial, h.trace⟩
    · cases hstep

end Step

section Letter

end Letter

end grpc_server.grpcserver
