import GrpcServer.DpdkFilter.ProcPackets.Blocked
import GrpcServer.DpdkFilter.ProcPackets.BlockedAddress

open c_memory ttl_cache grpc_server.worker

namespace grpc_server.dpdk_filter

section Packet

variable (sys : System) (policy : BasePolicy)

/-- What `worker_classify` leaves in `req_clas`, if it succeeds. -/
def classification (p : RteMbuf × PacketEnv) : Option RequestedClassification :=
  let info_pac := sys.parse p.1
  if info_pac.domain 0 = 0 then p.2.req_clas .ip (ip_str sys.inet info_pac)
  else p.2.req_clas .domain info_pac.domain_str

/-- The filter a packet is put through. -/
def main_filtring (req_clas : RequestedClassification) (info_pac : InfoOfPakage) : Bool :=
  if info_pac.domain 0 = 0 then main_filtring_by_ip req_clas policy info_pac
  else main_filtring_by_domain req_clas policy info_pac

theorem miss_solution_eq (p : RteMbuf × PacketEnv) :
    miss_solution sys policy p.2 (sys.parse p.1) =
      solution (main_filtring policy · (sys.parse p.1)) (classification sys p) := by
  by_cases hdomain : (sys.parse p.1).domain 0 = 0
  · simp only [miss_solution, classification, main_filtring, if_pos hdomain, ip_solution]
  · simp only [miss_solution, classification, main_filtring, if_neg hdomain, domain_solution]

/-- A packet whose successful classification gave the verdict, under the key its
verdict is stored under. -/
def Answers (key : CacheKey) (verdict : Bool) (p : RteMbuf × PacketEnv) : Prop :=
  stored_key (sys.parse p.1) = key ∧
    ∃ req_clas, classification sys p = some req_clas ∧ main_filtring policy req_clas (sys.parse p.1) = verdict

end Packet

/-- The caches after some packets, from empty ones. -/
def caches_after (sys : System) (hz : UInt64) (policy : BasePolicy) (wire : Wire) (past : List (RteMbuf × PacketEnv)) :
    Caches :=
  (pakage_processing sys (rteCaches hz) policy false past ⟨wire, Caches.empty⟩).caches

theorem caches_after_concat (sys : System) (hz : UInt64) (policy : BasePolicy) (wire : Wire)
    (past : List (RteMbuf × PacketEnv)) (p : RteMbuf × PacketEnv) :
    caches_after sys hz policy wire (past ++ [p]) = (process_packet sys (rteCaches hz) policy
      (pakage_processing sys (rteCaches hz) policy false past ⟨wire, Caches.empty⟩) p).caches := by
  simp only [caches_after, pakage_processing, Bool.false_eq_true, if_false, List.foldl_append, List.foldl_cons,
    List.foldl_nil]

/-- A packet leaves the caches as its lookup left them exactly when it does not
miss, has no room, or would store an entry that is there. -/
theorem caches_eq_looked_up_iff {sys : System} {hz : UInt64} {w : World Caches} {p : RteMbuf × PacketEnv}
    (policy : BasePolicy) (hport : check_is_exception (sys.parse p.1).number_port = false) :
    (process_packet sys (rteCaches hz) policy w p).caches = looked_up sys hz w.caches p ↔
      (cache_answer sys hz w.caches p = .enoent → has_room p.2 = false ∨
        (looked_up sys hz w.caches p).entry (stored_key (sys.parse p.1)) = some (stored_node sys policy p)) := by
  obtain hmiss | ⟨node, hhit⟩ := cache_answer_cases sys hz w.caches p
  · rw [caches_of_miss policy hport hmiss, forall_prop_of_true hmiss]
    cases has_room p.2 with
    | false => simp
    | true => simp only [if_true, Bool.true_eq_false, false_or, Caches.insert_eq_self_iff]
  · rw [caches_of_hit policy hport hhit, hhit]
    exact iff_of_true rfl nofun

section Run

variable {sys : System} {hz : UInt64} {policy : BasePolicy} {wire : Wire} {pkts : List (RteMbuf × PacketEnv)}

/-- Every cached verdict comes from a successful classification, as long as the
packets without one store nothing. -/
theorem caches_after_answered
    (h : ∀ past p rest, pkts = past ++ p :: rest → classification sys p = none →
      check_is_exception (sys.parse p.1).number_port = false →
      caches_after sys hz policy wire (past ++ [p]) = looked_up sys hz (caches_after sys hz policy wire past) p) :
    EveryEntry (fun key node => ∃ p ∈ pkts, Answers sys policy key node.solution_is_send p)
      (caches_after sys hz policy wire pkts) := by
  induction pkts using List.reverseRecOn with
  | nil => exact everyEntry_empty _
  | append_singleton past p ih =>
    have hfront := ih fun front q rest heq => h front q (rest ++ [p]) (by rw [heq, List.append_assoc, List.cons_append])
    have hpast : EveryEntry (fun key node => ∃ q ∈ past ++ [p], Answers sys policy key node.solution_is_send q)
        (caches_after sys hz policy wire past) := by
      refine hfront.mono fun key node hanswer => ?_
      obtain ⟨q, hq, hanswers⟩ := hanswer
      exact ⟨q, List.mem_append_left _ hq, hanswers⟩
    cases hclass : classification sys p with
    | none =>
      cases hport : check_is_exception (sys.parse p.1).number_port with
      | true =>
        rw [caches_after_concat, caches_of_exception policy hport]
        exact hpast
      | false =>
        rw [h past p [] rfl hclass hport]
        exact hpast.lookup_cache hz p.2.cache _
    | some req_clas =>
      rw [caches_after_concat]
      apply EveryEntry.process_packet
      · exact hpast
      · intro _ _ _
        refine ⟨p, List.mem_append_right _ (List.mem_singleton_self p), rfl, req_clas, hclass, ?_⟩
        change _ = miss_solution sys policy p.2 (sys.parse p.1)
        rw [miss_solution_eq, hclass]
        rfl

end Run

/-- In a run from empty caches, every verdict that a lookup serves is the filter's
verdict on an earlier successful classification for the same key, and a packet
whose classification failed leaves the caches as its lookup left them, if and only
if every packet that misses its cache and fails to be classified lacks the memory
or the place to store its verdict, or finds the very entry it would store. -/
theorem failed_classification_local_iff (sys : System) (hz : UInt64) (policy : BasePolicy) (wire : Wire)
    (pkts : List (RteMbuf × PacketEnv)) :
    (∀ past p rest, pkts = past ++ p :: rest →
      (∀ node, cache_answer sys hz (caches_after sys hz policy wire past) p = .hit node →
        ∃ q ∈ past, Answers sys policy (lookup_key (sys.parse p.1)) node.solution_is_send q) ∧
      (classification sys p = none → check_is_exception (sys.parse p.1).number_port = false →
        caches_after sys hz policy wire (past ++ [p]) = looked_up sys hz (caches_after sys hz policy wire past) p)) ↔
    ∀ past p rest, pkts = past ++ p :: rest → classification sys p = none →
      check_is_exception (sys.parse p.1).number_port = false →
      cache_answer sys hz (caches_after sys hz policy wire past) p = .enoent →
      has_room p.2 = false ∨ (looked_up sys hz (caches_after sys hz policy wire past) p).entry
        (stored_key (sys.parse p.1)) = some (stored_node sys policy p) := by
  constructor
  · intro h past p rest heq hfailed hport
    have hkept := (h past p rest heq).2 hfailed hport
    rw [caches_after_concat] at hkept
    exact (caches_eq_looked_up_iff policy hport).mp hkept
  · intro h
    have hkept : ∀ past p rest, pkts = past ++ p :: rest → classification sys p = none →
        check_is_exception (sys.parse p.1).number_port = false →
        caches_after sys hz policy wire (past ++ [p]) = looked_up sys hz (caches_after sys hz policy wire past) p := by
      intro past p rest heq hfailed hport
      rw [caches_after_concat]
      exact (caches_eq_looked_up_iff policy hport).mpr (h past p rest heq hfailed hport)
    intro past p rest heq
    refine ⟨?_, hkept past p rest heq⟩
    intro node hhit
    exact (caches_after_answered fun front q back hfront =>
      hkept front q (back ++ p :: rest) (by rw [heq, hfront, List.append_assoc, List.cons_append])).served hhit

/-- A policy that blocks the name `a` and keeps verdicts for a week. -/
def blocking_week : BasePolicy := { blocking [97] with ttl_domain := DNS_CACHE_DEFAULT_TTL }

theorem main_filtring_blocking_week (req_clas : RequestedClassification) :
    main_filtring blocking_week req_clas (parsing_pakage udp4_net (dns_query 0 [[97]])) = false := by
  rw [main_filtring, if_neg (letter_query_name_ne 0), main_filtring_by_domain_eq_false_iff, (parse_letter_query 0).2.2]
  exact .inl ((check_domain_iff ..).mpr (listed_of_first_slot rfl (by simp) (by simp) (by decide)))

/-- The query for `a` is not classified; its verdict is stored and answers the
next query, though the filter rejects the name whatever the classifier says. -/
theorem failed_classification_served :
    let sys := filter_system udp4_net Inet.mute
    let p := (dns_query 0 [[97]], failed_env)
    classification sys p = none ∧
    (∃ node, (caches_after sys 1 blocking_week Wire.start [p]).entry (stored_key (sys.parse (dns_query 0 [[97]]))) =
      some node ∧ node.solution_is_send = true) ∧
    (∃ node, cache_answer sys 1 (caches_after sys 1 blocking_week Wire.start [p])
      (dns_query 0 [[97]], classified_env ⟨[], 0⟩) = .hit node ∧ node.solution_is_send = true) ∧
    ∀ req_clas, main_filtring blocking_week req_clas (sys.parse (dns_query 0 [[97]])) = false := by
  intro sys p
  have hname : (sys.parse (dns_query 0 [[97]])).domain 0 ≠ 0 := letter_query_name_ne 0
  have hfailed : classification sys p = none := by
    rw [classification, if_neg hname]
    rfl
  have hsend : (stored_node sys blocking_week p).solution_is_send = true := by
    change miss_solution sys blocking_week failed_env (sys.parse (dns_query 0 [[97]])) = true
    rw [miss_solution_eq sys blocking_week p, hfailed]
    rfl
  have hkey : lookup_key (sys.parse (dns_query 0 [[97]])) = .domain (Slot.ofStr [97]) := by
    rw [lookup_key, if_neg hname]
    exact congrArg CacheKey.domain (parsing_pakage_domain_of_name (is_dns_query_dns_query 0 _) (by simp [ValidLabel])
      (dns_query_name 0 _) (by simp) (by decide))
  have hstored : stored_key (sys.parse (dns_query 0 [[97]])) = lookup_key (sys.parse (dns_query 0 [[97]])) := by
    rw [stored_key, hkey]
    exact congrArg CacheKey.domain (dns_key_copy_ofStr (by simp) (by decide))
  have hentry : (caches_after sys 1 blocking_week Wire.start [p]).entry (stored_key (sys.parse (dns_query 0 [[97]]))) =
      some (stored_node sys blocking_week p) := by
    have hmiss : cache_answer sys 1 Caches.empty p = .enoent := congrArg Prod.fst (lookup_cache_empty 1 _ _)
    have hport : check_is_exception (sys.parse p.1).number_port = false := letter_query_port 0
    have hroom : has_room p.2 = true := by decide
    have hstep := caches_of_miss (w := ⟨Wire.start, Caches.empty⟩) blocking_week hport hmiss
    rw [if_pos hroom] at hstep
    change (process_packet sys (rteCaches 1) blocking_week ⟨Wire.start, Caches.empty⟩ p).caches.entry _ = _
    rw [hstep, Caches.entry_insert, if_pos rfl]
  have hfresh : (stored_node sys blocking_week p).expired 1 0 = false := by
    have hnode : stored_node sys blocking_week p = (NodeCache.fresh true).stamped 0 DNS_CACHE_DEFAULT_TTL := by
      rw [stored_node, hkey]
      exact congrArg (fun verdict => (NodeCache.fresh verdict).stamped 0 DNS_CACHE_DEFAULT_TTL) hsend
    rw [hnode]
    decide
  refine ⟨hfailed, ⟨_, hentry, hsend⟩, ⟨_, ?_, hsend⟩, ?_⟩
  · rw [hstored] at hentry
    exact lookup_cache_of_entry hentry hfresh
  · intro req_clas
    rw [filter_system_parse]
    exact main_filtring_blocking_week req_clas

end grpc_server.dpdk_filter
