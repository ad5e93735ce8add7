import GrpcServer.Worker.Classify.Leftover
import GrpcServer.Worker.Policy.Categories
import GrpcServer.Worker.Policy.DomainLists

open c_memory grpc_server.dpdk_filter grpc_server.communication

namespace grpc_server.worker

/-- Every string of the policy ends in its own slot. -/
structure WellFormed (p : BasePolicy) : Prop where
  locked_categories : ∀ i, (p.locked_categories i).Terminated
  categories_with_lvl : ∀ i, (p.categories_with_lvl i).locked_by_trust_category.Terminated
  block_domains : ∀ i, (p.block_domains i).Terminated
  allow_domains : ∀ i, (p.allow_domains i).Terminated

/-- The second policy is the first with one more entry in a free slot of a block
list, or with a larger `min_trust_level`. -/
inductive Strengthens (p : BasePolicy) : BasePolicy → Prop where
  | block_domain (i : Fin MAX_DOMAINS) (domain : Slot DOMAIN_MAX_LEN) (hfree : p.block_domains i 0 = 0)
      (hdomain : domain 0 ≠ 0) (hterminated : domain.Terminated) :
      Strengthens p { p with block_domains := Function.update p.block_domains i domain }
  | locked_category (i : Fin MAX_CATEGORIES) (category : Slot CATEGORY_MAX_LEN)
      (hfree : p.locked_categories i 0 = 0) (hcategory : category 0 ≠ 0) (hterminated : category.Terminated) :
      Strengthens p { p with locked_categories := Function.update p.locked_categories i category }
  | block_ip4 (i : Fin MAX_IP4) (address : Ip4) (hfree : p.block_ip4 i = fun _ => 0) :
      Strengthens p { p with block_ip4 := Function.update p.block_ip4 i address }
  | block_ip6 (i : Fin MAX_IP6) (address : Ip6) (hfree : p.block_ip6 i 0 = 0) :
      Strengthens p { p with block_ip6 := Function.update p.block_ip6 i address }
  | min_trust_level (level : Int32) (hlevel : p.min_trust_level < level) :
      Strengthens p { p with min_trust_level := level }

/-- An empty category of the classification equals a free slot. -/
def PaddingRejects (p : BasePolicy) (req_clas : RequestedClassification) : Prop :=
  (∃ i < MAX_CATEGORIES, req_clas.category i = []) ∧ ∃ j < MAX_CATEGORIES, p.locked_category j = []

/-- What `check_categories_with_lvl` reads behind its table demands more trust for a
category of the classification. -/
def OverreadRejects (p : BasePolicy) (req_clas : RequestedClassification) : Prop :=
  ∃ i < MAX_CATEGORIES, MAX_CATEGORIES_BY_TRUST_LVL ≤ i ∧ ∃ j < MAX_CATEGORIES,
    req_clas.category j = p.trust_category i ∧ req_clas.get_trust_level < p.trust_lvl i

/-- The first policy rejects the classification in one of these two ways, and the
second no longer does. -/
def Loses (p q : BasePolicy) (req_clas : RequestedClassification) : Prop :=
  PaddingRejects p req_clas ∧ ¬ PaddingRejects q req_clas ∨ OverreadRejects p req_clas ∧ ¬ OverreadRejects q req_clas

/-- Every packet with the classification that the first policy drops is dropped
under the second. -/
def DropsMore (p q : BasePolicy) (req_clas : RequestedClassification) : Prop :=
  ∀ info_pac,
    (main_filtring_by_domain req_clas p info_pac = false → main_filtring_by_domain req_clas q info_pac = false) ∧
    (main_filtring_by_ip req_clas p info_pac = false → main_filtring_by_ip req_clas q info_pac = false)

theorem wellFormed_of_store {S : Type} {inet : Inet} {trust : List (Sigma fun _ : Str => Int32)} {pol : WorkerPolicy S}
    {policy : BasePolicy} (h : store_policy inet trust pol = some policy) : WellFormed policy := by
  obtain ⟨-, rfl⟩ := fits_of_store h
  refine ⟨fun i => ?_, fun i => ?_, packed_terminated pol.block_domains, packed_terminated pol.allow_domains⟩
  · change ((pol.block_categories.map copy_str).getD i.val fun _ => 0).Terminated
    rw [getD_map_copy_str]
    exact copy_category_terminated _
  · change ((trust.map trust_entry).getD i.val ⟨fun _ => 0, 0⟩).locked_by_trust_category.Terminated
    rw [List.getD_eq_getElem?_getD, List.getElem?_map]
    cases trust[i.val]? with
    | none => exact ⟨0, rfl⟩
    | some entry => exact copy_category_terminated entry.1

theorem terminated_update {n w : ℕ} {slots : Fin n → Slot w} {i : Fin n} {slot : Slot w}
    (hslots : ∀ j, (slots j).Terminated) (hslot : slot.Terminated) (j : Fin n) :
    (Function.update slots i slot j).Terminated := by
  rw [Function.update_apply]
  split
  · exact hslot
  · exact hslots j

theorem Strengthens.wellFormed {p q : BasePolicy} (hp : WellFormed p) (h : Strengthens p q) : WellFormed q := by
  cases h with
  | block_domain i domain hfree hdomain hterminated =>
    exact { hp with block_domains := terminated_update hp.block_domains hterminated }
  | locked_category i category hfree hcategory hterminated =>
    exact { hp with locked_categories := terminated_update hp.locked_categories hterminated }
  | block_ip4 => exact ⟨hp.1, hp.2, hp.3, hp.4⟩
  | block_ip6 => exact ⟨hp.1, hp.2, hp.3, hp.4⟩
  | min_trust_level => exact ⟨hp.1, hp.2, hp.3, hp.4⟩

section Lists

variable {p q : BasePolicy}

theorem WellFormed.check_block (hp : WellFormed p) (domain : Str) :
    check_domain_is_block domain p =
      scan (fun i => p.block_domains i 0 == 0) (fun i => (p.block_domains i).str == domain) (List.finRange _) := by
  simp only [check_domain_is_block, check_domain, BasePolicy.block_domain_of_terminated (hp.block_domains _)]

theorem WellFormed.check_allow (hp : WellFormed p) (domain : Str) :
    check_domain_is_allow domain p =
      scan (fun i => p.allow_domains i 0 == 0) (fun i => (p.allow_domains i).str == domain) (List.finRange _) := by
  simp only [check_domain_is_allow, check_domain, BasePolicy.allow_domain_of_terminated (hp.allow_domains _)]

variable {info_pac : InfoOfPakage}

theorem check_ip_is_block_update4 {i : Fin MAX_IP4} (hfree : p.block_ip4 i = fun _ => 0) (address : Ip4)
    (h : check_ip_is_block info_pac p = true) :
    check_ip_is_block info_pac { p with block_ip4 := Function.update p.block_ip4 i address } = true := by
  simp only [check_ip_is_block, check_ip] at h ⊢
  split at h
  · rename_i hversion
    rw [if_pos hversion]
    exact scan_update (fun slot : Ip4 => slot == fun _ => 0) (info_pac.ip4_dist == ·) (beq_iff_eq.mpr hfree) address h
  · rename_i hversion
    rwa [if_neg hversion]

theorem check_ip_is_block_update6 {i : Fin MAX_IP6} (hfree : p.block_ip6 i 0 = 0) (address : Ip6)
    (h : check_ip_is_block info_pac p = true) :
    check_ip_is_block info_pac { p with block_ip6 := Function.update p.block_ip6 i address } = true := by
  simp only [check_ip_is_block, check_ip] at h ⊢
  split at h
  · rename_i hversion
    rwa [if_pos hversion]
  · rename_i hversion
    rw [if_neg hversion]
    exact scan_update (fun slot : Ip6 => slot 0 == 0) (info_pac.ip6_dist == ·) (beq_iff_eq.mpr hfree) address h

variable (hp : WellFormed p) (hq : WellFormed q)

include hp hq

theorem WellFormed.check_block_congr (hslots : q.block_domains = p.block_domains) (domain : Str) :
    check_domain_is_block domain q = check_domain_is_block domain p := by
  rw [hq.check_block, hp.check_block, hslots]

theorem WellFormed.check_allow_congr (hslots : q.allow_domains = p.allow_domains) (domain : Str) :
    check_domain_is_allow domain q = check_domain_is_allow domain p := by
  rw [hq.check_allow, hp.check_allow, hslots]

theorem WellFormed.locked_category_congr {j : ℕ} (hj : j < MAX_CATEGORIES)
    (hslot : q.locked_categories ⟨j, hj⟩ = p.locked_categories ⟨j, hj⟩) :
    q.locked_category j = p.locked_category j := by
  have hname := BasePolicy.locked_category_of_terminated (hq.locked_categories ⟨j, hj⟩)
  rw [hslot, ← BasePolicy.locked_category_of_terminated (hp.locked_categories ⟨j, hj⟩)] at hname
  exact hname

theorem WellFormed.trust_congr (htable : q.categories_with_lvl = p.categories_with_lvl) {i : ℕ}
    (hi : i < MAX_CATEGORIES_BY_TRUST_LVL) :
    q.trust_category i = p.trust_category i ∧ q.trust_lvl i = p.trust_lvl i := by
  have hname := trust_category_eq (hq.categories_with_lvl ⟨i, hi⟩)
  rw [htable, ← trust_category_eq (hp.categories_with_lvl ⟨i, hi⟩)] at hname
  refine ⟨hname, ?_⟩
  rw [BasePolicy.trust_lvl, BasePolicy.trust_lvl, dif_pos hi, dif_pos hi, htable]

end Lists

/-- What every kind of strengthening keeps: blocked stays blocked, allowed targets
are the same, and no rule inside the arrays is lost. -/
structure Keeps (p q : BasePolicy) : Prop where
  block_domain : ∀ domain, check_domain_is_block domain p = true → check_domain_is_block domain q = true
  allow_domain : ∀ domain, check_domain_is_allow domain q = check_domain_is_allow domain p
  block_ip : ∀ info_pac, check_ip_is_block info_pac p = true → check_ip_is_block info_pac q = true
  allow_ip : ∀ info_pac, check_ip_is_allow info_pac q = check_ip_is_allow info_pac p
  min_trust_level : p.min_trust_level ≤ q.min_trust_level
  locked_category : ∀ j < MAX_CATEGORIES, p.locked_category j ≠ [] → q.locked_category j = p.locked_category j
  trust : ∀ i < MAX_CATEGORIES_BY_TRUST_LVL, q.trust_category i = p.trust_category i ∧ q.trust_lvl i = p.trust_lvl i

theorem Strengthens.keeps {p q : BasePolicy} (hp : WellFormed p) (h : Strengthens p q) : Keeps p q := by
  have hq := h.wellFormed hp
  have hblock : q.block_domains = p.block_domains → ∀ domain,
      check_domain_is_block domain p = true → check_domain_is_block domain q = true := by
    intro hslots domain hblocked
    rwa [hp.check_block_congr hq hslots]
  cases h with
  | block_domain i domain hfree hdomain hterminated =>
    refine ⟨fun name hname => ?_, hp.check_allow_congr hq rfl, fun _ => id, fun _ => rfl, Int32.le_refl _,
      fun j hj _ => hp.locked_category_congr hq hj rfl, fun i => hp.trust_congr hq rfl⟩
    rw [hp.check_block] at hname
    rw [hq.check_block]
    exact scan_update (fun slot : Slot DOMAIN_MAX_LEN => slot 0 == 0) (·.str == name) (beq_iff_eq.mpr hfree) domain
      hname
  | locked_category i category hfree hcategory hterminated =>
    refine ⟨hblock rfl, hp.check_allow_congr hq rfl, fun _ => id, fun _ => rfl, Int32.le_refl _, fun j hj hne => ?_,
      fun i => hp.trust_congr hq rfl⟩
    refine hp.locked_category_congr hq hj (Function.update_of_ne ?_ _ _)
    rintro rfl
    exact hne (BasePolicy.locked_category_eq_nil hfree)
  | block_ip4 i address hfree =>
    exact ⟨hblock rfl, hp.check_allow_congr hq rfl, fun _ => check_ip_is_block_update4 hfree address, fun _ => rfl,
      Int32.le_refl _, fun j hj _ => hp.locked_category_congr hq hj rfl, fun i => hp.trust_congr hq rfl⟩
  | block_ip6 i address hfree =>
    exact ⟨hblock rfl, hp.check_allow_congr hq rfl, fun _ => check_ip_is_block_update6 hfree address, fun _ => rfl,
      Int32.le_refl _, fun j hj _ => hp.locked_category_congr hq hj rfl, fun i => hp.trust_congr hq rfl⟩
  | min_trust_level level hlevel =>
    exact ⟨hblock rfl, hp.check_allow_congr hq rfl, fun _ => id, fun _ => rfl, Int32.le_of_lt hlevel,
      fun j hj _ => hp.locked_category_congr hq hj rfl, fun i => hp.trust_congr hq rfl⟩

section Verdicts

variable {p q : BasePolicy} {req_clas : RequestedClassification}

theorem PaddingRejects.forbidden (h : PaddingRejects p req_clas) :
    ∃ i < MAX_CATEGORIES, Forbidden p req_clas.get_trust_level (req_clas.category i) := by
  obtain ⟨⟨i, hi, hempty⟩, j, hj, hfree⟩ := h
  exact ⟨i, hi, .inl ⟨j, hj, hempty.trans hfree.symm⟩⟩

theorem OverreadRejects.forbidden (h : OverreadRejects p req_clas) :
    ∃ i < MAX_CATEGORIES, Forbidden p req_clas.get_trust_level (req_clas.category i) := by
  obtain ⟨i, hi, -, j, hj, hcategory, hlevel⟩ := h
  exact ⟨j, hj, .inr ⟨i, hi, hcategory, hlevel⟩⟩

/-- A rejection that is not lost stays. -/
theorem Keeps.check_eq_false (hkeeps : Keeps p q)
    (hlost : Loses p q req_clas → check_categories_and_trust_level req_clas q = false)
    (h : check_categories_and_trust_level req_clas p = false) :
    check_categories_and_trust_level req_clas q = false := by
  obtain ⟨hknown, hreason⟩ := (check_categories_and_trust_level_eq_false_iff _ _).mp h
  obtain htrust | ⟨i, hi, ⟨j, hj, hlocked⟩ | ⟨j, hj, hcategory, hlevel⟩⟩ := hreason
  · exact check_of_forbidden hknown (.inl (Int32.lt_of_lt_of_le htrust hkeeps.min_trust_level))
  · by_cases hempty : p.locked_category j = []
    · by_cases hpadding : PaddingRejects q req_clas
      · exact check_of_forbidden hknown (.inr hpadding.forbidden)
      · exact hlost (.inl ⟨⟨⟨i, hi, hlocked.trans hempty⟩, j, hj, hempty⟩, hpadding⟩)
    · have hsame := hkeeps.locked_category j hj hempty
      exact check_of_forbidden hknown (.inr ⟨i, hi, .inl ⟨j, hj, hlocked.trans hsame.symm⟩⟩)
  · by_cases hinside : j < MAX_CATEGORIES_BY_TRUST_LVL
    · obtain ⟨hname, hlvl⟩ := hkeeps.trust j hinside
      rw [← hname] at hcategory
      rw [← hlvl] at hlevel
      exact check_of_forbidden hknown (.inr ⟨i, hi, .inr ⟨j, hj, hcategory, hlevel⟩⟩)
    · by_cases hoverread : OverreadRejects q req_clas
      · exact check_of_forbidden hknown (.inr hoverread.forbidden)
      · exact hlost (.inr ⟨⟨j, hj, Nat.le_of_not_lt hinside, i, hi, hcategory, hlevel⟩, hoverread⟩)

theorem Keeps.dropsMore (hkeeps : Keeps p q)
    (hcheck : check_categories_and_trust_level req_clas p = false →
      check_categories_and_trust_level req_clas q = false) : DropsMore p q req_clas := by
  intro info_pac
  rw [main_filtring_by_domain_eq_false_iff, main_filtring_by_domain_eq_false_iff, main_filtring_by_ip_eq_false_iff,
    main_filtring_by_ip_eq_false_iff, hkeeps.allow_domain, hkeeps.allow_ip]
  exact ⟨Or.imp (hkeeps.block_domain _) (And.imp_right hcheck), Or.imp (hkeeps.block_ip _) (And.imp_right hcheck)⟩

/-- Some name is neither blocked by the one policy nor allowed by the other. -/
theorem exists_unlisted_name (p q : BasePolicy) :
    ∃ name, Storable name ∧ check_domain_is_block name q = false ∧ check_domain_is_allow name p = false := by
  let names := (List.range MAX_DOMAINS).map q.block_domain ++ (List.range MAX_DOMAINS).map p.allow_domain
  have hlen : (names.map fun name => name.getD 0 0).length < 255 := by
    simp only [names, List.length_map, List.length_append, List.length_range]
    decide
  obtain ⟨b, hb, hfree⟩ := exists_byte_not_mem hlen
  have hunlisted : [b] ∉ names := fun hmem => hfree (List.mem_map_of_mem hmem)
  rw [List.mem_append, not_or, List.mem_map, List.mem_map] at hunlisted
  refine ⟨[b], ⟨(by decide : 1 < DOMAIN_MAX_LEN), by simpa using hb⟩, ?_, ?_⟩
  · rw [← Bool.not_eq_true, check_domain_is_block, check_domain_iff]
    rintro ⟨i, -, heq⟩
    exact hunlisted.1 ⟨i.val, List.mem_range.mpr i.isLt, heq⟩
  · rw [← Bool.not_eq_true, check_domain_is_allow, check_domain_iff]
    rintro ⟨i, -, heq⟩
    exact hunlisted.2 ⟨i.val, List.mem_range.mpr i.isLt, heq⟩

/-- The packets with a classification see a lost rejection. -/
theorem DropsMore.check_eq_false (h : DropsMore p q req_clas)
    (hcheck : check_categories_and_trust_level req_clas p = false) :
    check_categories_and_trust_level req_clas q = false := by
  obtain ⟨name, hname, hblock, hallow⟩ := exists_unlisted_name p q
  have hdropped := (h (to_domain name)).1
  rw [main_filtring_by_domain_eq_false_iff, main_filtring_by_domain_eq_false_iff, domain_str_to_domain hname] at hdropped
  obtain hblocked | ⟨-, hrejected⟩ := hdropped (.inr ⟨hallow, hcheck⟩)
  · rw [hblock] at hblocked
    cases hblocked
  · exact hrejected

end Verdicts

section Lost

variable {p q : BasePolicy} {req_clas : RequestedClassification}

/-- Only filling the last free slot of `locked_categories` loses the match with the
padding. -/
theorem padding_lost (hp : WellFormed p) (hq : WellFormed q) (hbefore : PaddingRejects p req_clas)
    (hafter : ¬ PaddingRejects q req_clas) :
    q.locked_categories ≠ p.locked_categories ∧ ∀ j, q.locked_categories j 0 ≠ 0 := by
  constructor
  · intro hslots
    obtain ⟨hempty, j, hj, hfree⟩ := hbefore
    exact hafter ⟨hempty, j, hj, (hp.locked_category_congr hq hj (by rw [hslots])).trans hfree⟩
  · intro j hfree
    exact hafter ⟨hbefore.1, j.val, j.isLt, BasePolicy.locked_category_eq_nil hfree⟩

/-- The bytes from the end of the table to the end of `block_domains`. -/
theorem image_behind_table (p : BasePolicy) {k : ℕ} (hk : k < 16648) :
    p.image (10752 + k) =
      member 4 (bytesOf (leBytes p.ttl_ip)) (member 4 (bytesOf (leBytes p.ttl_domain)) (rows p.block_domains)) k := by
  have hoff : 10752 + k = 6400 + (4352 + k) := by omega
  rw [hoff, BasePolicy.image, member_add, member_add]
  by_cases hip : k < 4
  · rw [member_of_lt _ _ hip, member_of_lt _ _ hip]
  · obtain ⟨rest, rfl⟩ := Nat.exists_eq_add_of_le (Nat.le_of_not_lt hip)
    rw [member_add, member_add]
    by_cases hdomain : rest < 4
    · rw [member_of_lt _ _ hdomain, member_of_lt _ _ hdomain]
    · obtain ⟨index, rfl⟩ := Nat.exists_eq_add_of_le (Nat.le_of_not_lt hdomain)
      rw [member_add, member_add, member_of_lt _ _ (by omega)]

/-- They are all that is read behind the table. -/
theorem overread_congr (hp : WellFormed p) (httl_ip : q.ttl_ip = p.ttl_ip) (httl_domain : q.ttl_domain = p.ttl_domain)
    (hblock : q.block_domains = p.block_domains) {i : ℕ} (hbehind : MAX_CATEGORIES_BY_TRUST_LVL ≤ i)
    (hi : i < MAX_CATEGORIES) : q.trust_category i = p.trust_category i ∧ q.trust_lvl i = p.trust_lvl i := by
  have hlow : 64 ≤ i := hbehind
  have hhigh : i < 100 := hi
  have himage : ∀ k, 10752 ≤ k → k < 27400 → q.image k = p.image k := by
    intro k hfrom hto
    obtain ⟨k, rfl⟩ := Nat.exists_eq_add_of_le hfrom
    rw [image_behind_table q (by omega), image_behind_table p (by omega), httl_ip, httl_domain, hblock]
  constructor
  · obtain ⟨k, hk⟩ := hp.block_domains 63
    have hlast : p.image (10760 + 260 * 63 + k.val) = 0 := (p.image_block_domain 63 k).trans hk
    have hbound : k.val < 260 := k.isLt
    exact cstr_congr_of_zero hlast (by omega) (fun k hfrom hto => himage k (by omega) (by omega)) _
  · rw [BasePolicy.trust_lvl, BasePolicy.trust_lvl, dif_neg (by omega), dif_neg (by omega)]
    refine congrArg ofLeBytes (funext fun k => ?_)
    have hbound : k.val < 4 := k.isLt
    exact himage _ (by simp only [CATEGORY_MAX_LEN]; omega) (by simp only [CATEGORY_MAX_LEN]; omega)

theorem Strengthens.ttl_eq (h : Strengthens p q) : q.ttl_ip = p.ttl_ip ∧ q.ttl_domain = p.ttl_domain := by
  cases h <;> exact ⟨rfl, rfl⟩

/-- Only a new domain loses what is read behind the table. -/
theorem overread_lost (hp : WellFormed p) (h : Strengthens p q) (hbefore : OverreadRejects p req_clas)
    (hafter : ¬ OverreadRejects q req_clas) : q.block_domains ≠ p.block_domains := by
  intro hblock
  obtain ⟨i, hi, hbehind, j, hj, hcategory, hlevel⟩ := hbefore
  obtain ⟨hname, hlvl⟩ := overread_congr hp h.ttl_eq.1 h.ttl_eq.2 hblock hbehind hi
  rw [← hname] at hcategory
  rw [← hlvl] at hlevel
  exact hafter ⟨i, hi, hbehind, j, hj, hcategory, hlevel⟩

/-- A strengthening that adds no domain and leaves a slot of `locked_categories` free
never lets more through. -/
theorem strengthening_drops_more (hp : WellFormed p) (h : Strengthens p q) (hblock : q.block_domains = p.block_domains)
    (hlocked : q.locked_categories = p.locked_categories ∨ ∃ j, q.locked_categories j 0 = 0)
    (req_clas : RequestedClassification) : DropsMore p q req_clas := by
  have hkeeps := h.keeps hp
  refine hkeeps.dropsMore (hkeeps.check_eq_false fun hlost => ?_)
  obtain ⟨hbefore, hafter⟩ | ⟨hbefore, hafter⟩ := hlost
  · obtain ⟨hchanged, hfull⟩ := padding_lost hp (h.wellFormed hp) hbefore hafter
    obtain hsame | ⟨j, hfree⟩ := hlocked
    · exact absurd hsame hchanged
    · exact absurd hfree (hfull j)
  · exact absurd hblock (overread_lost hp h hbefore hafter)

end Lost

/-- For every policy whose strings are terminated, every strengthening of it and every
classification, each packet that was dropped is still dropped, if and only if the
classification is the unknown one, or is rejected by the new policy in case a match
with the padding or behind the table is lost. -/
theorem strengthening_drops_more_iff {p q : BasePolicy} (hp : WellFormed p) (h : Strengthens p q)
    (req_clas : RequestedClassification) :
    DropsMore p q req_clas ↔
      (req_clas.get_trust_level = 0 ∧ req_clas.category 0 = unknown) ∨
      (Loses p q req_clas → check_categories_and_trust_level req_clas q = false) := by
  have hkeeps := h.keeps hp
  constructor
  · intro hdrops
    refine or_iff_not_imp_left.mpr fun hknown hlost => hdrops.check_eq_false ?_
    obtain ⟨hpadding, -⟩ | ⟨hoverread, -⟩ := hlost
    · exact check_of_forbidden hknown (.inr hpadding.forbidden)
    · exact check_of_forbidden hknown (.inr hoverread.forbidden)
  · rintro (hunknown | hlost)
    · refine hkeeps.dropsMore fun hcheck => ?_
      exact absurd hunknown ((check_categories_and_trust_level_eq_false_iff _ _).mp hcheck).1
    · exact hkeeps.dropsMore (hkeeps.check_eq_false hlost)

theorem wellFormed_zero : WellFormed BasePolicy.zero :=
  ⟨fun _ => ⟨0, rfl⟩, fun _ => ⟨0, rfl⟩, fun _ => ⟨0, rfl⟩, fun _ => ⟨0, rfl⟩⟩

/-- 99 locked categories. -/
def locked_99 : BasePolicy :=
  { BasePolicy.zero with locked_categories := fun i => if i.val < 99 then Slot.ofStr [97] else fun _ => 0 }

/-- One more. -/
def locked_100 : BasePolicy :=
  { locked_99 with locked_categories := Function.update locked_99.locked_categories ⟨99, by decide⟩ (Slot.ofStr [98]) }

/-- A trusted target without a category. -/
def uncategorized : RequestedClassification := { blank with get_trust_level := 5 }

theorem wellFormed_locked_99 : WellFormed locked_99 := by
  refine { wellFormed_zero with locked_categories := fun i => ?_ }
  simp only [locked_99]
  split
  · exact (Slot.ofStr_short (by simp) (by decide)).1
  · exact ⟨0, rfl⟩

theorem strengthens_locked_100 : Strengthens locked_99 locked_100 :=
  .locked_category ⟨99, by decide⟩ (Slot.ofStr [98]) rfl (by decide) (Slot.ofStr_short (by simp) (by decide)).1

theorem locked_100_ne_zero (j : Fin MAX_CATEGORIES) : locked_100.locked_categories j 0 ≠ 0 := by
  by_cases hlast : j = ⟨99, by decide⟩
  · subst hlast
    decide
  · have hj : j.val < 100 := j.isLt
    have hne : j.val ≠ 99 := fun h => hlast (Fin.ext h)
    have hslot : locked_100.locked_categories j = Slot.ofStr [97] :=
      (Function.update_of_ne hlast _ _).trans (if_pos (by omega))
    rw [hslot]
    decide

theorem locked_100_trust_lvl {i : ℕ} (hi : i < MAX_CATEGORIES) : locked_100.trust_lvl i = 0 := by
  by_cases hinside : i < MAX_CATEGORIES_BY_TRUST_LVL
  · rw [BasePolicy.trust_lvl, dif_pos hinside]
    rfl
  · have hsame := overread_congr (q := locked_100) wellFormed_zero rfl rfl rfl (Nat.le_of_not_lt hinside) hi
    exact hsame.2.trans (BasePolicy.zero_trust_lvl i)

theorem locked_99_drops : main_filtring_by_domain uncategorized locked_99 (to_domain [97]) = false := by
  rw [main_filtring_by_domain_of_empty rfl rfl]
  refine check_of_forbidden (fun h => absurd h.1 (by decide)) (.inr ?_)
  have hpadding : PaddingRejects locked_99 uncategorized :=
    ⟨⟨0, by decide, RequestedClassification.category_eq_nil (i := 0) rfl⟩, 99, by decide,
      BasePolicy.locked_category_eq_nil (i := 99) rfl⟩
  exact hpadding.forbidden

/-- With 99 locked categories a target without a category is dropped, because its
empty slots equal the free one; with 100 it passes. -/
theorem last_free_category_lets_through :
    WellFormed locked_99 ∧ Strengthens locked_99 locked_100 ∧
    main_filtring_by_domain uncategorized locked_99 (to_domain [97]) = false ∧
    main_filtring_by_domain uncategorized locked_100 (to_domain [97]) = true := by
  refine ⟨wellFormed_locked_99, strengthens_locked_100, locked_99_drops, ?_⟩
  rw [main_filtring_by_domain_of_empty rfl rfl]
  refine (check_categories_and_trust_level_iff _ _).mpr (.inr ⟨by decide, ?_⟩)
  rintro i hi (⟨j, hj, heq⟩ | ⟨j, hj, -, hlevel⟩)
  · rw [RequestedClassification.category_eq_nil (i := ⟨i, hi⟩) rfl] at heq
    exact BasePolicy.locked_category_ne_nil (locked_100_ne_zero ⟨j, hj⟩) heq.symm
  · rw [locked_100_trust_lvl hj] at hlevel
    exact absurd hlevel (by decide)

/-- Demanding a trust level on top of the 99 locked categories drops no fewer
packets. -/
theorem strengthening_drops_more_level :
    main_filtring_by_domain uncategorized locked_99 (to_domain [97]) = false ∧
      DropsMore locked_99 { locked_99 with min_trust_level := 1 } uncategorized := by
  have hp := wellFormed_locked_99
  have hlevel : Strengthens locked_99 { locked_99 with min_trust_level := 1 } := .min_trust_level 1 (by decide)
  refine ⟨locked_99_drops, (strengthening_drops_more_iff hp hlevel uncategorized).mpr (.inr fun hlost => ?_)⟩
  obtain ⟨hbefore, hafter⟩ | ⟨hbefore, hafter⟩ := hlost
  · exact ((padding_lost hp (hlevel.wellFormed hp) hbefore hafter).1 rfl).elim
  · exact (overread_lost hp hlevel hbefore hafter rfl).elim

end grpc_server.worker
