import GrpcServer.CMemory.Scan
import GrpcServer.DpdkFilter.Types

open c_memory

namespace grpc_server.dpdk_filter

/-- The loop shared by the two domain lists: stop at the first empty entry,
compare with `strcmp`. -/
def check_domain (entries : Fin MAX_DOMAINS → Slot DOMAIN_MAX_LEN) (entry : ℕ → Str) (domain : Str) : Bool :=
  scan (fun i => entries i 0 == 0) (fun i => entry i.val == domain) (List.finRange MAX_DOMAINS)

def check_domain_is_block (domain : Str) (policy : BasePolicy) : Bool :=
  check_domain policy.block_domains policy.block_domain domain

def check_domain_is_allow (domain : Str) (policy : BasePolicy) : Bool :=
  check_domain policy.allow_domains policy.allow_domain domain

def check_trust_level (get_trust_level min_trust_level : Int32) : Bool :=
  if get_trust_level < min_trust_level then false else true

/-- The loops shared by the two address lists. Everything that is not `IP_4`
takes the IPv6 branch; IPv6 entries count as empty when their first byte is
zero. -/
def check_ip (ip4 : Fin MAX_IP4 → Ip4) (ip6 : Fin MAX_IP6 → Ip6) (info_pac : InfoOfPakage) : Bool :=
  if info_pac.ip_version = IP_4 then
    scan (fun i => ip4 i == fun _ => 0) (fun i => info_pac.ip4_dist == ip4 i) (List.finRange MAX_IP4)
  else
    scan (fun i => ip6 i 0 == 0) (fun i => info_pac.ip6_dist == ip6 i) (List.finRange MAX_IP6)

def check_ip_is_block (info_pac : InfoOfPakage) (policy : BasePolicy) : Bool :=
  check_ip policy.block_ip4 policy.block_ip6 info_pac

def check_ip_is_allow (info_pac : InfoOfPakage) (policy : BasePolicy) : Bool :=
  check_ip policy.allow_ip4 policy.allow_ip6 info_pac

def check_categories (req_clas : RequestedClassification) (policy : BasePolicy) : Bool :=
  !(List.range MAX_CATEGORIES).any fun i => (List.range MAX_CATEGORIES).any fun j =>
    req_clas.category i == policy.locked_category j

/-- Both loops run to `MAX_CATEGORIES`, so `i` passes the 64 entries of
`categories_with_lvl` and the scan goes on in the members behind them. -/
def check_categories_with_lvl (req_clas : RequestedClassification) (policy : BasePolicy) : Bool :=
  !(List.range MAX_CATEGORIES).any fun i => (List.range MAX_CATEGORIES).any fun j =>
    req_clas.category j == policy.trust_category i && req_clas.get_trust_level < policy.trust_lvl i

/-- The category name the controller sends for an unclassified target. -/
def unknown : Str := [117, 110, 107, 110, 111, 119, 110]

def check_categories_and_trust_level (req_clas : RequestedClassification) (policy : BasePolicy) : Bool :=
  if req_clas.get_trust_level = 0 ∧ req_clas.category 0 = unknown then true
  else if check_categories req_clas policy = false then false
  else if check_trust_level req_clas.get_trust_level policy.min_trust_level = false then false
  else if check_categories_with_lvl req_clas policy = false then false
  else true

def main_filtring_by_domain (req_clas : RequestedClassification) (policy : BasePolicy)
    (info_pac : InfoOfPakage) : Bool :=
  if check_domain_is_block info_pac.domain_str policy = true then false
  else if check_domain_is_allow info_pac.domain_str policy = true then true
  else check_categories_and_trust_level req_clas policy

def main_filtring_by_ip (req_clas : RequestedClassification) (policy : BasePolicy)
    (info_pac : InfoOfPakage) : Bool :=
  if check_ip_is_block info_pac policy = true then false
  else if check_ip_is_allow info_pac policy = true then true
  else check_categories_and_trust_level req_clas policy

/-- The name equals an entry in front of the first empty one. -/
def Listed (entries : Fin MAX_DOMAINS → Slot DOMAIN_MAX_LEN) (entry : ℕ → Str) (domain : Str) : Prop :=
  ∃ i : Fin MAX_DOMAINS, (∀ j ≤ i, entries j 0 ≠ 0) ∧ entry i.val = domain

theorem check_domain_iff (entries : Fin MAX_DOMAINS → Slot DOMAIN_MAX_LEN) (entry : ℕ → Str) (domain : Str) :
    check_domain entries entry domain = true ↔ Listed entries entry domain := by
  simp only [check_domain, scan_finRange_iff, Listed, beq_eq_false_iff_ne, beq_iff_eq]

theorem not_listed_of_empty {entries : Fin MAX_DOMAINS → Slot DOMAIN_MAX_LEN} (h : entries 0 0 = 0)
    (entry : ℕ → Str) (domain : Str) : ¬ Listed entries entry domain := by
  rintro ⟨i, hfree, _⟩
  exact hfree 0 (Fin.zero_le i) h

/-- A locked category is found at some index of the classification. -/
theorem check_categories_eq_false_iff (req_clas : RequestedClassification) (policy : BasePolicy) :
    check_categories req_clas policy = false ↔
      ∃ i < MAX_CATEGORIES, ∃ j < MAX_CATEGORIES, req_clas.category i = policy.locked_category j := by
  simp only [check_categories, Bool.not_eq_false', List.any_eq_true, List.mem_range, beq_iff_eq]

/-- A category is found whose entry demands a higher trust level. -/
theorem check_categories_with_lvl_eq_false_iff (req_clas : RequestedClassification) (policy : BasePolicy) :
    check_categories_with_lvl req_clas policy = false ↔
      ∃ i < MAX_CATEGORIES, ∃ j < MAX_CATEGORIES, req_clas.category j = policy.trust_category i ∧
        req_clas.get_trust_level < policy.trust_lvl i := by
  simp only [check_categories_with_lvl, Bool.not_eq_false', List.any_eq_true, List.mem_range, Bool.and_eq_true,
    beq_iff_eq, decide_eq_true_eq]

theorem main_filtring_by_domain_eq_false_iff (req_clas : RequestedClassification) (policy : BasePolicy)
    (info_pac : InfoOfPakage) :
    main_filtring_by_domain req_clas policy info_pac = false ↔
      check_domain_is_block info_pac.domain_str policy = true ∨
      check_domain_is_allow info_pac.domain_str policy = false ∧
        check_categories_and_trust_level req_clas policy = false := by
  unfold main_filtring_by_domain
  cases check_domain_is_block info_pac.domain_str policy <;>
    cases check_domain_is_allow info_pac.domain_str policy <;> simp

theorem main_filtring_by_ip_eq_false_iff (req_clas : RequestedClassification) (policy : BasePolicy)
    (info_pac : InfoOfPakage) :
    main_filtring_by_ip req_clas policy info_pac = false ↔
      check_ip_is_block info_pac policy = true ∨
      check_ip_is_allow info_pac policy = false ∧ check_categories_and_trust_level req_clas policy = false := by
  unfold main_filtring_by_ip
  cases check_ip_is_block info_pac policy <;> cases check_ip_is_allow info_pac policy <;> simp

/-- Without domain lists the category and trust checks decide. -/
theorem main_filtring_by_domain_of_empty {policy : BasePolicy} (hblock : policy.block_domains 0 0 = 0)
    (hallow : policy.allow_domains 0 0 = 0) (req_clas : RequestedClassification) (info_pac : InfoOfPakage) :
    main_filtring_by_domain req_clas policy info_pac = check_categories_and_trust_level req_clas policy := by
  have hunblocked : ¬ check_domain_is_block info_pac.domain_str policy = true := by
    rw [check_domain_is_block, check_domain_iff]
    exact not_listed_of_empty hblock _ _
  have hunallowed : ¬ check_domain_is_allow info_pac.domain_str policy = true := by
    rw [check_domain_is_allow, check_domain_iff]
    exact not_listed_of_empty hallow _ _
  rw [main_filtring_by_domain, if_neg hunblocked, if_neg hunallowed]

theorem BasePolicy.locked_category_of_terminated {p : BasePolicy} {i : Fin MAX_CATEGORIES}
    (h : (p.locked_categories i).Terminated) : p.locked_category i.val = (p.locked_categories i).str := by
  have hi : i.val < 100 := i.isLt
  exact cstr_terminated_slot (p.image_locked i) (by simp only [CATEGORY_MAX_LEN]; omega) h

theorem BasePolicy.image_block_domain (p : BasePolicy) (i : Fin MAX_DOMAINS) (k : Fin DOMAIN_MAX_LEN) :
    p.image (10760 + DOMAIN_MAX_LEN * i.val + k.val) = p.block_domains i k := by
  have hi : i.val < 64 := i.isLt
  have hk : k.val < 260 := k.isLt
  have hoff : 10760 + DOMAIN_MAX_LEN * i.val + k.val =
      6400 + (4352 + (4 + (4 + (DOMAIN_MAX_LEN * i.val + k.val)))) := by omega
  simp only [hoff, BasePolicy.image, member_add]
  rw [member_of_lt _ _ (by simp only [DOMAIN_MAX_LEN]; omega), rows_apply]

theorem BasePolicy.block_domain_of_terminated {p : BasePolicy} {i : Fin MAX_DOMAINS}
    (h : (p.block_domains i).Terminated) : p.block_domain i.val = (p.block_domains i).str := by
  have hi : i.val < 64 := i.isLt
  exact cstr_terminated_slot (p.image_block_domain i) (by simp only [DOMAIN_MAX_LEN]; omega) h

theorem BasePolicy.image_allow_domain (p : BasePolicy) (i : Fin MAX_DOMAINS) (k : Fin DOMAIN_MAX_LEN) :
    p.image (27400 + DOMAIN_MAX_LEN * i.val + k.val) = p.allow_domains i k := by
  have hi : i.val < 64 := i.isLt
  have hk : k.val < 260 := k.isLt
  have hoff : 27400 + DOMAIN_MAX_LEN * i.val + k.val =
      6400 + (4352 + (4 + (4 + (16640 + (DOMAIN_MAX_LEN * i.val + k.val))))) := by omega
  simp only [hoff, BasePolicy.image, member_add]
  rw [member_of_lt _ _ (by simp only [DOMAIN_MAX_LEN]; omega), rows_apply]

theorem BasePolicy.allow_domain_of_terminated {p : BasePolicy} {i : Fin MAX_DOMAINS}
    (h : (p.allow_domains i).Terminated) : p.allow_domain i.val = (p.allow_domains i).str := by
  have hi : i.val < 64 := i.isLt
  exact cstr_terminated_slot (p.image_allow_domain i) (by simp only [DOMAIN_MAX_LEN]; omega) h

end grpc_server.dpdk_filter
