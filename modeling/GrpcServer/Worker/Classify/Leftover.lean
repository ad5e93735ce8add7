import GrpcServer.DpdkFilter.FiltrPackets
import GrpcServer.DpdkFilter.ParsPackets.Query
import GrpcServer.Worker.Classify.Readable

open c_memory grpc_server.dpdk_filter

namespace grpc_server.worker

/-- The policy rejects a target with this category at this trust level. -/
def Forbidden (policy : BasePolicy) (trust_level : Int32) (category : Str) : Prop :=
  (∃ j < MAX_CATEGORIES, category = policy.locked_category j) ∨
    ∃ j < MAX_CATEGORIES, category = policy.trust_category j ∧ trust_level < policy.trust_lvl j

/-- A target passes if it is unknown, or trusted enough with no forbidden category. -/
theorem check_categories_and_trust_level_iff (req_clas : RequestedClassification) (policy : BasePolicy) :
    check_categories_and_trust_level req_clas policy = true ↔
      (req_clas.get_trust_level = 0 ∧ req_clas.category 0 = unknown) ∨
      (¬ req_clas.get_trust_level < policy.min_trust_level ∧
        ∀ i < MAX_CATEGORIES, ¬ Forbidden policy req_clas.get_trust_level (req_clas.category i)) := by
  have htrust : check_trust_level req_clas.get_trust_level policy.min_trust_level = false ↔
      req_clas.get_trust_level < policy.min_trust_level := by
    simp [check_trust_level]
  have hforbidden : (∃ i < MAX_CATEGORIES, Forbidden policy req_clas.get_trust_level (req_clas.category i)) ↔
      check_categories req_clas policy = false ∨ check_categories_with_lvl req_clas policy = false := by
    rw [check_categories_eq_false_iff, check_categories_with_lvl_eq_false_iff]
    constructor
    · rintro ⟨i, hi, hlocked | ⟨j, hj, hlvl⟩⟩
      · exact .inl ⟨i, hi, hlocked⟩
      · exact .inr ⟨j, hj, i, hi, hlvl⟩
    · rintro (⟨i, hi, hlocked⟩ | ⟨j, hj, i, hi, hlvl⟩)
      · exact ⟨i, hi, .inl hlocked⟩
      · exact ⟨i, hi, .inr ⟨j, hj, hlvl⟩⟩
  have hnone : (∀ i < MAX_CATEGORIES, ¬ Forbidden policy req_clas.get_trust_level (req_clas.category i)) ↔
      ¬ (check_categories req_clas policy = false ∨ check_categories_with_lvl req_clas policy = false) := by
    simp only [← hforbidden, not_exists, not_and]
  rw [hnone, ← htrust, check_categories_and_trust_level]
  split
  · rename_i hunknown
    exact ⟨fun _ => .inl hunknown, fun _ => rfl⟩
  · rename_i hknown
    split_ifs with hcategories htrusted hlevels <;> simp_all

theorem check_categories_and_trust_level_eq_false_iff (req_clas : RequestedClassification) (policy : BasePolicy) :
    check_categories_and_trust_level req_clas policy = false ↔
      ¬ (req_clas.get_trust_level = 0 ∧ req_clas.category 0 = unknown) ∧
      (req_clas.get_trust_level < policy.min_trust_level ∨
        ∃ i < MAX_CATEGORIES, Forbidden policy req_clas.get_trust_level (req_clas.category i)) := by
  rw [← Bool.not_eq_true, check_categories_and_trust_level_iff, not_or]
  refine and_congr_right fun _ => ?_
  rw [not_and_or, not_not, not_forall]
  simp only [exists_prop, not_forall, not_not]

theorem check_of_forbidden {policy : BasePolicy} {req_clas : RequestedClassification}
    (hknown : ¬ (req_clas.get_trust_level = 0 ∧ req_clas.category 0 = unknown))
    (h : req_clas.get_trust_level < policy.min_trust_level ∨
      ∃ i < MAX_CATEGORIES, Forbidden policy req_clas.get_trust_level (req_clas.category i)) :
    check_categories_and_trust_level req_clas policy = false :=
  (check_categories_and_trust_level_eq_false_iff _ _).mpr ⟨hknown, h⟩

/-- A category of the response that its slot stores with a terminator. -/
def Kept (resp : ClassifyResponse) (category : Str) : Prop :=
  ∃ i < MAX_CATEGORIES, resp.categories[i]?.map cut = some category ∧ category.length < 63

/-- The response says that the target is unknown. -/
def SaysUnknown (resp : ClassifyResponse) : Prop :=
  resp.trust_level = 0 ∧ resp.categories.head?.map cut = some unknown

/-- The response alone rejects the target, unless it is taken for unknown. -/
def Rejected (policy : BasePolicy) (resp : ClassifyResponse) : Prop :=
  resp.trust_level < policy.min_trust_level ∨
    ∃ category, Kept resp category ∧ Forbidden policy resp.trust_level category

/-- Some old contents of the buffer make the filter reject the target. -/
def Rejectable (policy : BasePolicy) (resp : ClassifyResponse) : Prop :=
  resp.trust_level < policy.min_trust_level ∨
    ∃ n ≤ MAX_CATEGORIES, 0 < n ∧ ∃ category, mayRead resp n category ∧ Forbidden policy resp.trust_level category

/-- The response fixes the verdict of the category and trust checks. -/
def Independent (policy : BasePolicy) (resp : ClassifyResponse) : Prop :=
  SaysUnknown resp ∨ (Rejected policy resp ∧ ¬ (resp.trust_level = 0 ∧ resp.categories = [])) ∨
    ¬ Rejectable policy resp

/-- The filter takes a target for unknown if the response says so, or if an
empty response leaves an old `unknown` in the first slot. -/
theorem category_zero_eq_unknown {resp : ClassifyResponse} {out_req : RequestedClassification}
    (h : (classify resp out_req).category 0 = unknown) :
    resp.categories = [] ∨ resp.categories.head?.map cut = some unknown := by
  cases hcategories : resp.categories with
  | nil => exact .inl rfl
  | cons category rest =>
    have hfirst : resp.categories[(0 : Fin MAX_CATEGORIES).val]? = some category := by
      rw [hcategories]
      rfl
    refine .inr ?_
    by_cases hshort : (cut category).length < 63
    · have hread := category_short hfirst hshort out_req
      exact congrArg some (hread.symm.trans h)
    · have hlong := Nat.le_of_not_lt hshort
      have hread := category_long hfirst hlong out_req
      have hlen : 63 ≤ ((classify resp out_req).category 0).length := by
        change 63 ≤ ((classify resp out_req).category (0 : Fin MAX_CATEGORIES).val).length
        rw [hread]
        split <;> simp <;> omega
      rw [h] at hlen
      exact absurd hlen (by decide)

/-- A response that says neither that nor nothing is never taken for unknown. -/
theorem not_taken_for_unknown {resp : ClassifyResponse} (hknown : ¬ SaysUnknown resp)
    (hempty : ¬ (resp.trust_level = 0 ∧ resp.categories = [])) (out_req : RequestedClassification) :
    ¬ (resp.trust_level = 0 ∧ (classify resp out_req).category 0 = unknown) := by
  rintro ⟨htrust, hread⟩
  obtain hnil | hnamed := category_zero_eq_unknown hread
  · exact hempty ⟨htrust, hnil⟩
  · exact hknown ⟨htrust, hnamed⟩

theorem category_zero_of_saysUnknown {resp : ClassifyResponse} (h : SaysUnknown resp)
    (out_req : RequestedClassification) : (classify resp out_req).category 0 = unknown := by
  obtain ⟨category, hhead, hcut⟩ := Option.map_eq_some_iff.mp h.2
  have hfirst : resp.categories[(0 : Fin MAX_CATEGORIES).val]? = some category := by
    rw [← hhead, List.head?_eq_getElem?]
    rfl
  exact (category_short hfirst (by rw [hcut]; decide) out_req).trans hcut

theorem exists_category_of_kept {resp : ClassifyResponse} {category : Str} (h : Kept resp category)
    (out_req : RequestedClassification) :
    ∃ i < MAX_CATEGORIES, (classify resp out_req).category i = category := by
  obtain ⟨i, hi, hwritten, hshort⟩ := h
  obtain ⟨written, hget, rfl⟩ := Option.map_eq_some_iff.mp hwritten
  exact ⟨i, hi, category_short (i := ⟨i, hi⟩) hget hshort out_req⟩

theorem check_of_saysUnknown {policy : BasePolicy} {resp : ClassifyResponse} (h : SaysUnknown resp)
    (out_req : RequestedClassification) :
    check_categories_and_trust_level (classify resp out_req) policy = true :=
  (check_categories_and_trust_level_iff _ _).mpr (.inl ⟨h.1, category_zero_of_saysUnknown h out_req⟩)

theorem check_of_not_rejectable {policy : BasePolicy} {resp : ClassifyResponse} (h : ¬ Rejectable policy resp)
    (out_req : RequestedClassification) :
    check_categories_and_trust_level (classify resp out_req) policy = true := by
  refine (check_categories_and_trust_level_iff _ _).mpr (.inr ⟨fun htrust => h (.inl htrust), ?_⟩)
  intro i hi hforbidden
  have hread := mayRead_category resp out_req (Nat.sub_le MAX_CATEGORIES i)
  rw [Nat.sub_sub_self hi.le] at hread
  exact h (.inr ⟨MAX_CATEGORIES - i, Nat.sub_le _ _, by omega, _, hread, hforbidden⟩)

theorem check_of_rejected {policy : BasePolicy} {resp : ClassifyResponse} {out_req : RequestedClassification}
    (h : Rejected policy resp) (hknown : ¬ (resp.trust_level = 0 ∧ (classify resp out_req).category 0 = unknown)) :
    check_categories_and_trust_level (classify resp out_req) policy = false := by
  refine check_of_forbidden hknown (h.imp_right ?_)
  rintro ⟨category, hkept, hforbidden⟩
  obtain ⟨i, hi, hread⟩ := exists_category_of_kept hkept out_req
  exact ⟨i, hi, hread ▸ hforbidden⟩

theorem category_zero_of_blank_slot {resp : ClassifyResponse} (hempty : resp.categories = [])
    {out_req : RequestedClassification} (hblank : out_req.get_categories 0 = fun _ => 0) :
    (classify resp out_req).category 0 ≠ unknown := by
  have hslot : (classify resp out_req).get_categories 0 0 = 0 := by
    simp only [classify, hempty, List.getElem?_nil, hblank]
  have hread : (classify resp out_req).category (0 : Fin MAX_CATEGORIES).val = [] :=
    RequestedClassification.category_eq_nil hslot
  intro hunknown
  exact List.cons_ne_nil _ _ (hunknown.symm.trans hread)

/-- A rejectable target that the response does not call unknown is rejected for
some old contents. -/
theorem exists_check_eq_false {policy : BasePolicy} {resp : ClassifyResponse} (h : Rejectable policy resp)
    (hknown : ¬ SaysUnknown resp) :
    ∃ out_req, check_categories_and_trust_level (classify resp out_req) policy = false := by
  by_cases hempty : resp.trust_level = 0 ∧ resp.categories = []
  · -- every slot is free, so the first one can be kept from reading `unknown`
    obtain htrust | ⟨n, hn, hpos, category, hread, hforbidden⟩ := h
    · exact ⟨blank, check_of_forbidden (fun h => category_zero_of_blank_slot hempty.2 rfl h.2) (.inl htrust)⟩
    · have hlater : ∀ n ≤ MAX_CATEGORIES, 0 < n → n ≠ MAX_CATEGORIES → mayRead resp n category →
          ∃ out_req, check_categories_and_trust_level (classify resp out_req) policy = false := by
        intro n hn hpos hne hread
        obtain ⟨out_req, hzero, hcategory⟩ := exists_of_mayRead resp hn hread
        refine ⟨out_req, check_of_forbidden (fun h => category_zero_of_blank_slot hempty.2 (hzero 0 ?_) h.2)
          (.inr ⟨MAX_CATEGORIES - n, by omega, hcategory ▸ hforbidden⟩)⟩
        exact Nat.sub_pos_of_lt (lt_of_le_of_ne hn hne)
      by_cases hfirst : n = MAX_CATEGORIES
      · by_cases hunknown : category = unknown
        · exact hlater 99 (by decide) (by decide) (by decide)
            (mayRead_of_empty hempty.2 98 (by rw [hunknown]; decide) (by simp [hunknown, unknown]))
        · obtain ⟨out_req, _, hcategory⟩ := exists_of_mayRead resp hn hread
          rw [hfirst, Nat.sub_self] at hcategory
          exact ⟨out_req, check_of_forbidden (fun h => hunknown (hcategory.symm.trans h.2))
            (.inr ⟨0, by decide, hcategory ▸ hforbidden⟩)⟩
      · exact hlater n hn hpos hfirst hread
  · have hnever := not_taken_for_unknown hknown hempty
    obtain htrust | ⟨n, hn, hpos, category, hread, hforbidden⟩ := h
    · exact ⟨blank, check_of_forbidden (hnever _) (.inl htrust)⟩
    · obtain ⟨out_req, _, hcategory⟩ := exists_of_mayRead resp hn hread
      exact ⟨out_req, check_of_forbidden (hnever _)
        (.inr ⟨MAX_CATEGORIES - n, by omega, hcategory ▸ hforbidden⟩)⟩

/-- An old `unknown` in the first slot lets a target without categories pass. -/
theorem exists_check_of_empty {policy : BasePolicy} {resp : ClassifyResponse}
    (h : resp.trust_level = 0 ∧ resp.categories = []) :
    ∃ out_req, check_categories_and_trust_level (classify resp out_req) policy = true := by
  have hread : mayRead resp MAX_CATEGORIES unknown := mayRead_of_empty h.2 99 (by decide) (by simp [unknown])
  obtain ⟨out_req, _, hcategory⟩ := exists_of_mayRead resp le_rfl hread
  exact ⟨out_req, (check_categories_and_trust_level_iff _ _).mpr (.inl ⟨h.1, hcategory⟩)⟩

/-- Two bytes that tell a string from every string the policy compares with: one
as its first byte, one as its byte 63. -/
theorem exists_foreign_bytes (policy : BasePolicy) (trust_level : Int32) :
    ∃ first last : UInt8, first ≠ 0 ∧ last ≠ 0 ∧ ∀ category, Forbidden policy trust_level category →
      category.getD 0 0 ≠ first ∧ category.getD 63 0 ≠ last := by
  let strings := (List.range MAX_CATEGORIES).map policy.locked_category ++
    (List.range MAX_CATEGORIES).map policy.trust_category
  have hlen : ∀ k : ℕ, (strings.map fun s => s.getD k 0).length < 255 := by
    intro k
    simp only [strings, List.length_map, List.length_append, List.length_range]
    decide
  have hmem : ∀ category, Forbidden policy trust_level category → category ∈ strings := by
    rintro category (⟨j, hj, rfl⟩ | ⟨j, hj, rfl, _⟩)
    · exact List.mem_append_left _ (List.mem_map_of_mem (List.mem_range.mpr hj))
    · exact List.mem_append_right _ (List.mem_map_of_mem (List.mem_range.mpr hj))
  obtain ⟨first, hfirst, hfirstfree⟩ := exists_byte_not_mem (hlen 0)
  obtain ⟨last, hlast, hlastfree⟩ := exists_byte_not_mem (hlen 63)
  refine ⟨first, last, hfirst, hlast, fun category hforbidden => ⟨fun heq => ?_, fun heq => ?_⟩⟩
  · exact hfirstfree (heq ▸ List.mem_map_of_mem (hmem category hforbidden))
  · exact hlastfree (heq ▸ List.mem_map_of_mem (hmem category hforbidden))

/-- Old contents that match no string of the policy let every target pass that
the response does not reject. -/
theorem exists_check_of_not_rejected {policy : BasePolicy} {resp : ClassifyResponse} (h : ¬ Rejected policy resp) :
    ∃ out_req, check_categories_and_trust_level (classify resp out_req) policy = true := by
  obtain ⟨first, last, hfirst, hlast, hforeign⟩ := exists_foreign_bytes policy resp.trust_level
  let slot : Slot CATEGORY_MAX_LEN := fun k => if k = 63 then last else first
  have hterm : ¬ slot.Terminated := by
    rintro ⟨k, hk⟩
    simp only [slot] at hk
    split at hk
    · exact hlast hk
    · exact hfirst hk
  refine ⟨⟨fun _ => slot, 0⟩, (check_categories_and_trust_level_iff _ _).mpr (.inr ⟨fun htrust => h (.inl htrust), ?_⟩)⟩
  intro i hi hforbidden
  cases hcategory : resp.categories[i]? with
  | some category =>
    by_cases hshort : (cut category).length < 63
    · have hread := category_short (i := ⟨i, hi⟩) hcategory hshort ⟨fun _ => slot, 0⟩
      refine h (.inr ⟨cut category, ⟨i, hi, congrArg (Option.map cut) hcategory, hshort⟩, ?_⟩)
      exact hread ▸ hforbidden
    · have hlong := Nat.le_of_not_lt hshort
      have hread := category_long (i := ⟨i, hi⟩) hcategory hlong ⟨fun _ => slot, 0⟩
      rw [if_neg (show slot 63 ≠ 0 from hlast)] at hread
      refine (hforeign _ hforbidden).2 ((congrArg (List.getD · 63 0) hread).trans ?_)
      have htake : ((cut category).take 63).length = 63 := by rw [List.length_take, Nat.min_eq_left hlong]
      rw [List.getD_eq_getElem?_getD, List.getElem?_append_right htake.le, htake]
      rfl
  | none =>
    have hread := category_free (i := ⟨i, hi⟩) hcategory ⟨fun _ => slot, 0⟩
    rw [if_neg hterm] at hread
    refine (hforeign _ hforbidden).1 ((congrArg (List.getD · 0 0) hread).trans ?_)
    rw [List.getD_eq_getElem?_getD, List.getElem?_append_left (by rw [List.length_ofFn]; decide), List.getElem?_ofFn]
    rfl

/-- The category and trust checks give one verdict for all old contents exactly
when the response fixes it. -/
theorem check_independent_iff (policy : BasePolicy) (resp : ClassifyResponse) :
    (∀ first second, check_categories_and_trust_level (classify resp first) policy =
      check_categories_and_trust_level (classify resp second) policy) ↔ Independent policy resp := by
  constructor
  · intro hsame
    by_cases hnamed : SaysUnknown resp
    · exact .inl hnamed
    · by_cases hrejectable : Rejectable policy resp
      · obtain ⟨out_req, hfalse⟩ := exists_check_eq_false hrejectable hnamed
        have hnever : ¬ ∃ other, check_categories_and_trust_level (classify resp other) policy = true := by
          rintro ⟨other, htrue⟩
          rw [hsame other out_req, hfalse] at htrue
          cases htrue
        refine .inr (.inl ⟨?_, fun hempty => hnever (exists_check_of_empty hempty)⟩)
        by_contra hrejected
        exact hnever (exists_check_of_not_rejected hrejected)
      · exact .inr (.inr hrejectable)
  · rintro (hnamed | ⟨hrejected, hempty⟩ | hrejectable) first second
    · rw [check_of_saysUnknown hnamed, check_of_saysUnknown hnamed]
    · by_cases hnamed : SaysUnknown resp
      · rw [check_of_saysUnknown hnamed, check_of_saysUnknown hnamed]
      · have hknown := not_taken_for_unknown hnamed hempty
        rw [check_of_rejected hrejected (hknown first), check_of_rejected hrejected (hknown second)]
    · rw [check_of_not_rejectable hrejectable, check_of_not_rejectable hrejectable]

/-- The verdict on a packet is the same for any two initial contents of `req_clas` if
and only if the lists decide it, or the response fixes the outcome of the category and
trust checks. -/
theorem verdict_independent_iff (policy : BasePolicy) (resp : ClassifyResponse) (info_pac : InfoOfPakage) :
    ((∀ first second, main_filtring_by_domain (classify resp first) policy info_pac =
        main_filtring_by_domain (classify resp second) policy info_pac) ↔
      check_domain_is_block info_pac.domain_str policy = true ∨
      check_domain_is_allow info_pac.domain_str policy = true ∨ Independent policy resp) ∧
    ((∀ first second, main_filtring_by_ip (classify resp first) policy info_pac =
        main_filtring_by_ip (classify resp second) policy info_pac) ↔
      check_ip_is_block info_pac policy = true ∨ check_ip_is_allow info_pac policy = true ∨
      Independent policy resp) := by
  rw [← check_independent_iff]
  constructor
  · cases hblock : check_domain_is_block info_pac.domain_str policy <;>
      cases hallow : check_domain_is_allow info_pac.domain_str policy <;>
      simp [main_filtring_by_domain, hblock, hallow]
  · cases hblock : check_ip_is_block info_pac policy <;> cases hallow : check_ip_is_allow info_pac policy <;>
      simp [main_filtring_by_ip, hblock, hallow]

/-- Under the empty policy, a response with one category is dropped over a zeroed
buffer and sent over one that an earlier packet filled. -/
theorem verdict_depends_on_leftovers :
    let info_pac := parsing_pakage udp4_net (dns_query 0 [[97]])
    main_filtring_by_domain (classify ⟨[[120]], 5⟩ ⟨fun _ _ => 0, 0⟩) BasePolicy.zero info_pac = false ∧
    main_filtring_by_domain (classify ⟨[[120]], 5⟩ ⟨fun _ _ => 98, 0⟩) BasePolicy.zero info_pac = true := by
  intro info_pac
  have hlocked : ∀ j < MAX_CATEGORIES, BasePolicy.zero.locked_category j = [] :=
    fun j hj => BasePolicy.locked_category_eq_nil (i := ⟨j, hj⟩) rfl
  rw [main_filtring_by_domain_of_empty rfl rfl, main_filtring_by_domain_of_empty rfl rfl]
  constructor
  · refine check_of_forbidden (fun h => absurd h.1 (by decide)) (.inr ⟨1, by decide, .inl ⟨0, by decide, ?_⟩⟩)
    rw [hlocked 0 (by decide)]
    exact RequestedClassification.category_eq_nil (i := 1) rfl
  · refine (check_categories_and_trust_level_iff _ _).mpr (.inr ⟨by decide, ?_⟩)
    rintro i hi (⟨j, hj, heq⟩ | ⟨j, hj, _, hlevel⟩)
    · rw [hlocked j hj] at heq
      refine RequestedClassification.category_ne_nil (i := ⟨i, hi⟩) ?_ heq
      cases i with
      | zero => exact ne_of_beq_false rfl
      | succ i => exact ne_of_beq_false rfl
    · rw [BasePolicy.zero_trust_lvl] at hlevel
      exact absurd hlevel (by decide)

end grpc_server.worker
