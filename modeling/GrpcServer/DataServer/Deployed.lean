import GrpcServer.DataServer
import GrpcServer.DpdkFilter.ProcPackets.Transparency
import GrpcServer.DpdkFilter.ProcPackets.Verdicts
import GrpcServer.Worker.MainLoop

open c_memory ttl_cache grpc_server.service grpc_server.dpdk_filter

namespace grpc_server.grpcserver

open worker (ClassifyResponse)

/-- The text of the first argument of `worker_classify`. -/
def type_str : ClassifyType → Str
  | .ip => [105, 112]
  | .domain => [100, 111, 109, 97, 105, 110]

/-- What `DataServer.Classify` can answer, whatever the providers reply to it. -/
def Classified (svc : Service) (type : ClassifyType) (target : Str) (resp : ClassifyResponse) : Prop :=
  ∃ env result, Check svc env target (type_str type) result ∧ classify svc (some result) = resp

/-- gRPC delivers a request and its response as they were sent: what a call returns
is an answer to its target. A call may also fail. -/
def AnsweredBy (svc : Service) (env : PacketEnv) : Prop :=
  ∀ type target resp stack, env.worker_classify type target = some (resp, stack) → Classified svc type target resp

/-- The calls that fail are those whose target cannot be sent, such as one that is
no UTF-8 text. -/
def Reaches (sendable : Str → Bool) (env : PacketEnv) : Prop :=
  ∀ type target, (env.worker_classify type target).isSome = sendable target

/-- What the packet is classified by. -/
def target (inet : Inet) (info_pac : InfoOfPakage) : Str :=
  if info_pac.domain 0 = 0 then ip_str inet info_pac else info_pac.domain_str

/-- The block list that applies to the packet has its destination. -/
def blocked (policy : BasePolicy) (info_pac : InfoOfPakage) : Bool :=
  if info_pac.domain 0 = 0 then check_ip_is_block info_pac policy
  else check_domain_is_block info_pac.domain_str policy

section Answer

variable {svc : Service}

/-- Every target is answered as unknown. -/
theorem classified_iff {type : ClassifyType} {target : Str} {resp : ClassifyResponse} :
    Classified svc type target resp ↔ resp = unknown_response := by
  constructor
  · intro hclassified
    obtain ⟨env, result, hcheck, hresp⟩ := hclassified
    rw [← hresp, classify_check hcheck]
  · intro hunknown
    have hsilent : Env := { http_do := fun _ _ _ => none, json_decode := fun _ => none, sprint := fun _ => [] }
    refine ⟨hsilent, [], check_nil svc hsilent _ _, ?_⟩
    rw [hunknown]
    rfl

theorem classification_eq (sys : System) (p : RteMbuf × PacketEnv) :
    ∃ type, classification sys p = p.2.req_clas type (target sys.inet (sys.parse p.1)) := by
  unfold classification target
  by_cases hdomain : (sys.parse p.1).domain 0 = 0
  · exact ⟨.ip, by simp only [if_pos hdomain]⟩
  · exact ⟨.domain, by simp only [if_neg hdomain]⟩

/-- On an unknown target the block lists decide alone. -/
theorem main_filtring_unknown (policy : BasePolicy) (stack : RequestedClassification) (info_pac : InfoOfPakage) :
    main_filtring policy (worker.classify unknown_response stack) info_pac = !blocked policy info_pac := by
  unfold main_filtring blocked
  by_cases hdomain : info_pac.domain 0 = 0
  · rw [if_pos hdomain, if_pos hdomain, main_filtring_by_ip, check_unknown_response]
    cases check_ip_is_block info_pac policy <;> simp
  · rw [if_neg hdomain, if_neg hdomain, main_filtring_by_domain, check_unknown_response]
    cases check_domain_is_block info_pac.domain_str policy <;> simp

/-- The verdict on a packet that misses its cache: the block lists', if the
target can be sent, and otherwise to send the packet. -/
theorem miss_solution_of_answered {sys : System} {policy : BasePolicy} {p : RteMbuf × PacketEnv}
    (hanswered : AnsweredBy svc p.2) :
    (miss_solution sys policy p.2 (sys.parse p.1) = false → blocked policy (sys.parse p.1) = true) ∧
    ∀ sendable, Reaches sendable p.2 → miss_solution sys policy p.2 (sys.parse p.1) =
      !(sendable (target sys.inet (sys.parse p.1)) && blocked policy (sys.parse p.1)) := by
  obtain ⟨type, htype⟩ := classification_eq sys p
  rw [miss_solution_eq, htype, PacketEnv.req_clas]
  cases hcall : p.2.worker_classify type (target sys.inet (sys.parse p.1)) with
  | none =>
    refine ⟨fun hdropped => Bool.noConfusion hdropped, ?_⟩
    intro sendable hreaches
    have hsent := hreaches type (target sys.inet (sys.parse p.1))
    rw [hcall] at hsent
    rw [← hsent]
    rfl
  | some answer =>
    obtain ⟨resp, stack⟩ := answer
    obtain rfl := classified_iff.mp (hanswered type _ resp stack hcall)
    have hverdict := main_filtring_unknown policy stack (sys.parse p.1)
    constructor
    · intro hdropped
      have hfalse : main_filtring policy (worker.classify unknown_response stack) (sys.parse p.1) = false := hdropped
      rw [hverdict, Bool.not_eq_false'] at hfalse
      exact hfalse
    · intro sendable hreaches
      have hsent := hreaches type (target sys.inet (sys.parse p.1))
      rw [hcall] at hsent
      rw [← hsent]
      exact hverdict

end Answer

/-- Packets that share a key share their target, and the block lists treat them
alike. -/
theorem same_of_key {first second : InfoOfPakage} (hterm : first.domain.Terminated)
    (hkey : stored_key first = lookup_key second) (inet : Inet) (policy : BasePolicy) :
    target inet first = target inet second ∧ blocked policy first = blocked policy second := by
  unfold stored_key lookup_key at hkey
  unfold target blocked
  by_cases hfirst : first.domain 0 = 0
  · by_cases hsecond : second.domain 0 = 0
    · rw [if_pos hfirst, if_pos hsecond] at hkey
      simp only [if_pos hfirst, if_pos hsecond]
      obtain ⟨hone, hother, heq⟩ | ⟨hone, hother, heq⟩ := ip_key_inj (CacheKey.ip.inj hkey)
      · simp only [ip_str, check_ip_is_block, check_ip, if_pos hone, if_pos hother, heq, and_self]
      · simp only [ip_str, check_ip_is_block, check_ip, if_neg hone, if_neg hother, heq, and_self]
    · rw [if_pos hfirst, if_neg hsecond] at hkey
      cases hkey
  · by_cases hsecond : second.domain 0 = 0
    · rw [if_neg hfirst, if_pos hsecond] at hkey
      cases hkey
    · rw [if_neg hfirst, if_neg hsecond] at hkey
      simp only [if_neg hfirst, if_neg hsecond]
      have hcopy : dns_key_copy first.domain = second.domain := CacheKey.domain.inj hkey
      have hother : second.domain.Terminated := hcopy ▸ dns_key_copy_terminated _
      have hstr : first.domain_str = second.domain_str := by
        rw [InfoOfPakage.domain_str_of_terminated hterm, InfoOfPakage.domain_str_of_terminated hother, ← hcopy,
          dns_key_copy_str_of_terminated hterm]
      rw [hstr]
      exact ⟨rfl, rfl⟩

section Copy

/-- Behind the lifetimes the copy of an iteration has the bytes of the original. -/
theorem image_copy_policy (policy : BasePolicy) {k : ℕ} (hk : 10760 ≤ k) :
    (worker.copy_policy policy).image k = policy.image k := by
  have hoff : k = 6400 + (4352 + (4 + (4 + (k - 10760)))) := by omega
  rw [hoff]
  simp only [BasePolicy.image, member_add]
  rfl

/-- The lifetimes bear on no block list. -/
theorem blocked_copy_policy (policy : BasePolicy) (info_pac : InfoOfPakage) :
    blocked (worker.copy_policy policy) info_pac = blocked policy info_pac := by
  have hentry : ∀ i, (worker.copy_policy policy).block_domain i = policy.block_domain i := by
    intro i
    exact cstr_congr fun k hk => image_copy_policy policy (by omega)
  simp only [blocked, check_domain_is_block, check_domain, hentry]
  rfl

end Copy

section Letter

end Letter

end grpc_server.grpcserver
