import GrpcServer.DpdkFilter.ParsPackets.Query
import GrpcServer.DpdkFilter.ProcPackets.View

open c_memory ttl_cache

namespace grpc_server.dpdk_filter

/-- The name is on the block list and not on the allow list. -/
def NameBlocked (policy : BasePolicy) (name : Str) : Prop :=
  Listed policy.block_domains policy.block_domain name ∧ ¬ Listed policy.allow_domains policy.allow_domain name

/-- The packet asks for an explicitly blocked domain on a filtered port. -/
def ExplicitlyBlocked (policy : BasePolicy) (info_pac : InfoOfPakage) : Prop :=
  info_pac.domain 0 ≠ 0 ∧ check_is_exception info_pac.number_port = false ∧
    NameBlocked policy info_pac.domain_str

/-- Blocked names are classified, and no overlong name is stored under a blocked one. -/
def Answered (policy : BasePolicy) (env : PacketEnv) (info_pac : InfoOfPakage) : Prop :=
  info_pac.domain 0 ≠ 0 → check_is_exception info_pac.number_port = false →
    (NameBlocked policy info_pac.domain_str →
      (env.worker_classify .domain info_pac.domain_str).isSome = true) ∧
    (NameBlocked policy (dns_key_copy info_pac.domain).str → info_pac.domain.Terminated)

theorem main_filtring_by_domain_of_blocked {req_clas : RequestedClassification} {policy : BasePolicy}
    {info_pac : InfoOfPakage} (h : NameBlocked policy info_pac.domain_str) :
    main_filtring_by_domain req_clas policy info_pac = false :=
  if_pos ((check_domain_iff ..).mpr h.1)

theorem domain_solution_of_answered {policy : BasePolicy} {env : PacketEnv} {info_pac : InfoOfPakage}
    (hblocked : NameBlocked policy info_pac.domain_str)
    (hanswer : (env.worker_classify .domain info_pac.domain_str).isSome = true) :
    domain_solution policy env info_pac = false := by
  obtain ⟨answer, hsome⟩ := Option.isSome_iff_exists.mp hanswer
  rw [domain_solution, PacketEnv.req_clas, hsome]
  exact main_filtring_by_domain_of_blocked hblocked

/-- No stored verdict sends a blocked name. -/
def SafelyStored (policy : BasePolicy) (caches : Caches) : Prop :=
  Holds (fun key node => key.Terminated ∧ (NameBlocked policy key.str → node.solution_is_send = false))
    caches.dns_hash

/-- No blocked packet was handed to `port_out`. -/
def SafelyHanded (policy : BasePolicy) (parse : RteMbuf → InfoOfPakage) (w : Wire) : Prop :=
  ∀ pkt in_port, (pkt, in_port, Port.port_out) ∈ w.view Event.handed → ¬ ExplicitlyBlocked policy (parse pkt)

def Guarded (policy : BasePolicy) (parse : RteMbuf → InfoOfPakage) (w : World Caches) : Prop :=
  SafelyStored policy w.caches ∧ SafelyHanded policy parse w.wire

theorem SafelyHanded.decision {policy : BasePolicy} {parse : RteMbuf → InfoOfPakage} {w : Wire}
    (h : SafelyHanded policy parse w) (net : RteNet) (tx_ok solution_is_send : Bool) (pkt : RteMbuf)
    (out_port : Port)
    (hpkt : solution_is_send = true → out_port = .port_out → ¬ ExplicitlyBlocked policy (parse pkt)) :
    SafelyHanded policy parse (package_sending_decision net tx_ok solution_is_send pkt .port_in out_port w) := by
  intro other in_port hmem
  rw [quiet_handed.view_decision] at hmem
  rcases List.mem_append.mp hmem with hold | hnew
  · exact h other in_port hold
  · cases solution_is_send with
    | true =>
      simp only [Event.handed, Option.toList_none, Option.toList_some, List.nil_append, if_true,
        List.mem_singleton, Prod.mk.injEq] at hnew
      rw [hnew.1]
      exact hpkt rfl hnew.2.2.symm
    | false => exact absurd hnew (by simp [Event.handed])

theorem SafelyStored.lookup_dns {policy : BasePolicy} {caches : Caches} (h : SafelyStored policy caches)
    (hz : UInt64) (env : CacheEnv) (domain : DomainKey) :
    SafelyStored policy (lookup_dns_cache hz env domain caches).2 ∧
    ((lookup_dns_cache hz env domain caches).1 = .enoent ∨
      ∃ node, (lookup_dns_cache hz env domain caches).1 = .hit node ∧ domain.Terminated ∧
        (NameBlocked policy domain.str → node.solution_is_send = false)) :=
  ⟨h.lookup _ _ _, h.answer _ _ _⟩

section Guard

variable {sys : System} {hz : UInt64} {policy : BasePolicy} {w : World Caches}

theorem process_ip_guarded (hw : Guarded policy sys.parse w) (env : PacketEnv) {pkt : RteMbuf}
    (hdomain : (sys.parse pkt).domain 0 = 0) :
    Guarded policy sys.parse (process_ip sys (rteCaches hz) policy env pkt (sys.parse pkt) w) := by
  obtain ⟨hstored, hhanded⟩ := hw
  have hfree : ¬ ExplicitlyBlocked policy (sys.parse pkt) := fun hblocked => hblocked.1 hdomain
  have hanything : Holds (fun _ _ => True) w.caches.ip_hash := fun _ _ _ => trivial
  have hfound := hanything.answer (NodeCache.expired hz env.cache.lookup_cycles) env.cache.del_key_ok
    (ip_key (sys.parse pkt))
  obtain ⟨hkept, hwire⟩ := process_with_rule (SafelyStored policy) (fun _ => True) sys.net env pkt
    (sys.parse pkt).number_port (lookup_ip_cache hz env.cache (ip_key (sys.parse pkt)))
    (ip_solution sys.inet policy env (sys.parse pkt))
    (fun node => add_to_ip_cache env.cache (ip_key (sys.parse pkt)) node policy.ttl_ip) w hstored
    (fun _ => ⟨hstored, hfound.imp (fun henoent => ⟨henoent, trivial⟩) id⟩)
    (fun _ caches hcaches => hcaches)
  refine ⟨hkept, ?_⟩
  obtain ⟨_, hwire⟩ | ⟨_, verdict, _, hwire⟩ := hwire
  · exact hwire ▸ hhanded.decision sys.net env.tx_ok true pkt .port_exception fun _ hport => nomatch hport
  · exact hwire ▸ hhanded.decision sys.net env.tx_ok verdict pkt .port_out fun _ _ => hfree

theorem process_domain_guarded (hw : Guarded policy sys.parse w) {env : PacketEnv} {pkt : RteMbuf}
    (hdomain : (sys.parse pkt).domain 0 ≠ 0) (hanswered : Answered policy env (sys.parse pkt)) :
    Guarded policy sys.parse (process_domain sys (rteCaches hz) policy env pkt (sys.parse pkt) w) := by
  obtain ⟨hstored, hhanded⟩ := hw
  obtain ⟨hlooked, hfound⟩ := hstored.lookup_dns hz env.cache (sys.parse pkt).domain
  obtain ⟨hkept, hwire⟩ := process_with_rule (SafelyStored policy)
    (fun verdict => NameBlocked policy (sys.parse pkt).domain_str → verdict = false) sys.net env pkt
    (sys.parse pkt).number_port (lookup_dns_cache hz env.cache (sys.parse pkt).domain)
    (domain_solution policy env (sys.parse pkt))
    (fun node => add_to_dns_cache env.cache (sys.parse pkt).domain node policy.ttl_domain) w hstored
    (by
      intro hport
      obtain ⟨hclassified, _⟩ := hanswered hdomain hport
      refine ⟨hlooked, hfound.imp ?_ ?_⟩
      · exact fun henoent => ⟨henoent, fun hname => domain_solution_of_answered hname (hclassified hname)⟩
      · rintro ⟨node, hnode, hterm, hverdict⟩
        refine ⟨node, hnode, fun hname => hverdict ?_⟩
        rwa [← InfoOfPakage.domain_str_of_terminated hterm])
    (by
      intro hport caches hcaches
      obtain ⟨hclassified, hshort⟩ := hanswered hdomain hport
      refine Holds.add hcaches _ ⟨dns_key_copy_terminated _, fun hname => ?_⟩
      -- a blocked key was copied from the whole name, so the name itself was classified
      have hterm := hshort hname
      rw [dns_key_copy_str_of_terminated hterm, ← InfoOfPakage.domain_str_of_terminated hterm] at hname
      exact domain_solution_of_answered hname (hclassified hname))
  refine ⟨hkept, ?_⟩
  obtain ⟨_, hwire⟩ | ⟨_, verdict, hverdict, hwire⟩ := hwire
  · exact hwire ▸ hhanded.decision sys.net env.tx_ok true pkt .port_exception fun _ hport => nomatch hport
  · refine hwire ▸ hhanded.decision sys.net env.tx_ok verdict pkt .port_out ?_
    intro hsend _ hblocked
    rw [hverdict hblocked.2.2] at hsend
    cases hsend

theorem process_packet_guarded (hw : Guarded policy sys.parse w) {p : RteMbuf × PacketEnv}
    (hanswered : Answered policy p.2 (sys.parse p.1)) :
    Guarded policy sys.parse (process_packet sys (rteCaches hz) policy w p) := by
  obtain ⟨pkt, env⟩ := p
  have hreceived : Guarded policy sys.parse
      { w with wire := (w.wire.emit .received).emit (.access pkt.id) } := by
    refine ⟨hw.1, ?_⟩
    simpa [SafelyHanded, Event.handed] using hw.2
  by_cases hdomain : (sys.parse pkt).domain 0 = 0
  · rw [process_packet_of_ip hdomain]
    exact process_ip_guarded hreceived env hdomain
  · rw [process_packet_of_domain hdomain]
    exact process_domain_guarded hreceived hdomain hanswered

end Guard

/-- From empty caches, in every run whose packets are all `Answered`, no explicitly
blocked packet is handed to `forward_packet_with_rewrite` towards `port_out`, from
either path. -/
theorem blocked_domain_never_forwarded (sys : System) (hz : UInt64) (policy : BasePolicy)
    (bursts : List (List (RteMbuf × PacketEnv)))
    (hanswered : ∀ p ∈ bursts.flatten, Answered policy p.2 (sys.parse p.1)) (wire : Wire)
    (hstart : wire.trace = []) (pkt : RteMbuf) (in_port : Port)
    (hpkt : .forward pkt in_port .port_out ∈
      (process_bursts sys (rteCaches hz) policy bursts ⟨wire, Caches.empty⟩).wire.trace) :
    ¬ ExplicitlyBlocked policy (sys.parse pkt) := by
  have hrun : Guarded policy sys.parse
      (process_bursts sys (rteCaches hz) policy bursts ⟨wire, Caches.empty⟩) := by
    rw [process_bursts_eq]
    refine List.foldlRecOn (motive := Guarded policy sys.parse) _ _ ⟨holds_empty _, ?_⟩ ?_
    · intro other port hmem
      rw [Wire.mem_handed, hstart] at hmem
      cases hmem
    · intro w hw p hp
      exact process_packet_guarded hw (hanswered p hp)
  exact hrun.2 pkt in_port (Wire.mem_handed.mpr hpkt)

/-- A policy whose only entry blocks one name. -/
def blocking (name : Str) : BasePolicy :=
  { BasePolicy.zero with
    block_domains := fun i => if i = 0 then strncpy (fun _ => 0) name (DOMAIN_MAX_LEN - 1) else fun _ => 0 }

/-- A name in the first slot of the block list. -/
theorem listed_of_first_slot {policy : BasePolicy} {name : Str}
    (hslot : policy.block_domains 0 = strncpy (fun _ => 0) name (DOMAIN_MAX_LEN - 1)) (hbytes : ∀ b ∈ name, b ≠ 0)
    (hne : name ≠ []) (hlen : name.length < DOMAIN_MAX_LEN) :
    Listed policy.block_domains policy.block_domain name := by
  refine ⟨0, ?_, ?_⟩
  · intro j hj
    obtain ⟨b, rest, rfl⟩ := List.exists_cons_of_ne_nil hne
    rw [Fin.le_zero_iff.mp hj, hslot]
    simpa [strncpy, cut_eq_self hbytes] using hbytes b List.mem_cons_self
  · have hterm : (policy.block_domains 0).Terminated := by
      rw [hslot]
      exact strncpy_zero_terminated (by decide) name
    rw [BasePolicy.block_domain_of_terminated hterm, hslot]
    refine (str_strncpy_zero (by decide) name).trans ?_
    rw [cut_eq_self hbytes, List.take_of_length_le (Nat.le_sub_one_of_lt hlen)]

theorem blocking_listed {name : Str} (hbytes : ∀ b ∈ name, b ≠ 0) (hne : name ≠ [])
    (hlen : name.length < DOMAIN_MAX_LEN) : NameBlocked (blocking name) name :=
  ⟨listed_of_first_slot rfl hbytes hne hlen, not_listed_of_empty rfl _ _⟩

theorem explicitlyBlocked_query (id : ℕ) :
    ExplicitlyBlocked (blocking [97]) (parsing_pakage udp4_net (dns_query id [[97]])) := by
  obtain ⟨hport, hterm, hstr⟩ := parse_letter_query id
  have hblocked : NameBlocked (blocking [97]) [97] := blocking_listed (by simp) (by simp) (by decide)
  refine ⟨?_, by rw [hport]; decide, by rwa [hstr]⟩
  rw [ne_eq, ← InfoOfPakage.domain_str_eq_nil, hstr]
  exact List.cons_ne_nil _ _

/-- A blocked query is sent out when its classification fails: the verdict is
`true` without a look at the block list. -/
theorem blocked_domain_forwarded :
    let sys := filter_system udp4_net Inet.mute
    let env : PacketEnv := ⟨⟨0, true, true, 0, true⟩, fun _ _ => none, true, true⟩
    ExplicitlyBlocked (blocking [97]) (sys.parse (dns_query 0 [[97]])) ∧
    .forward (dns_query 0 [[97]]) .port_in .port_out ∈
      (process_bursts sys (rteCaches 1) (blocking [97]) [[(dns_query 0 [[97]], env)]]
        ⟨Wire.start, Caches.empty⟩).wire.trace := by
  intro sys env
  have hblocked : ExplicitlyBlocked (blocking [97]) (sys.parse (dns_query 0 [[97]])) := explicitlyBlocked_query 0
  refine ⟨hblocked, ?_⟩
  rw [← Wire.mem_handed, process_bursts_eq, List.flatten_singleton, List.foldl_cons, List.foldl_nil,
    process_packet_of_domain hblocked.1, process_domain, process_with, if_neg (by rw [hblocked.2.1]; decide)]
  change _ ∈ (package_sending_decision _ _ true _ _ _ _).view Event.handed
  rw [quiet_handed.view_decision]
  simp [Event.handed]

/-- The same query is not sent out when it is classified. -/
theorem blocked_domain_never_forwarded_query :
    let sys := filter_system udp4_net Inet.mute
    let answer := some (⟨[], 0⟩, ⟨fun _ _ => 0, 0⟩)
    let env : PacketEnv := ⟨⟨0, true, true, 0, true⟩, fun _ _ => answer, true, true⟩
    .forward (dns_query 0 [[97]]) .port_in .port_out ∉
      (process_bursts sys (rteCaches 1) (blocking [97]) [[(dns_query 0 [[97]], env)]]
        ⟨Wire.start, Caches.empty⟩).wire.trace := by
  intro sys answer env hforward
  refine blocked_domain_never_forwarded sys 1 (blocking [97]) [[(dns_query 0 [[97]], env)]] ?_ Wire.start rfl _ _
    hforward (explicitlyBlocked_query 0)
  intro p hp _ _
  rw [List.flatten_singleton, List.mem_singleton] at hp
  subst hp
  exact ⟨fun _ => rfl, fun _ => (parse_letter_query 0).2.1⟩

end grpc_server.dpdk_filter
