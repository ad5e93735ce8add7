import GrpcServer.Worker.Classify.Leftover

open c_memory grpc_server.dpdk_filter

namespace grpc_server.worker

/-- A name that its slot stores whole and that does not mean an unclassified
target. Names are taken as `c_str()` hands them over. -/
def PlainName (name : Str) : Prop := (cut name).length < 63 ∧ cut name ≠ unknown

section Perm

variable {names others : List Str} {trust_level : Int32}

theorem category_of_name {i : ℕ} (hi : i < MAX_CATEGORIES) {name : Str} (hname : names[i]? = some name)
    (hshort : (cut name).length < 63) (out_req : RequestedClassification) :
    (classify ⟨names, trust_level⟩ out_req).category i = cut name :=
  category_short (i := ⟨i, hi⟩) hname hshort out_req

/-- What a slot reads as after one order of the names, some slot reads as after
the other. -/
theorem exists_category_of_perm (hperm : names.Perm others) (hcount : names.length ≤ MAX_CATEGORIES)
    (hnames : ∀ name ∈ names, PlainName name) (out_req : RequestedClassification) {i : ℕ} (hi : i < MAX_CATEGORIES) :
    ∃ j < MAX_CATEGORIES, (classify ⟨others, trust_level⟩ out_req).category j =
      (classify ⟨names, trust_level⟩ out_req).category i := by
  cases hname : names[i]? with
  | some name =>
    have hmem : name ∈ names := List.mem_of_getElem? hname
    obtain ⟨j, hother⟩ := List.mem_iff_getElem?.mp (hperm.mem_iff.mp hmem)
    have hj : j < others.length := (List.getElem?_eq_some_iff.mp hother).1
    rw [← hperm.length_eq] at hj
    refine ⟨j, hj.trans_le hcount, ?_⟩
    rw [category_of_name hi hname (hnames name hmem).1, category_of_name (hj.trans_le hcount) hother (hnames name hmem).1]
  | none =>
    have hlen : names.length ≤ i := List.getElem?_eq_none_iff.mp hname
    refine ⟨i, hi, ?_⟩
    apply category_congr
    · rfl
    · exact hi.le
    intro j hj
    have hfree : names[j.val]? = none := List.getElem?_eq_none (hlen.trans hj)
    have hfree' : others[j.val]? = none := List.getElem?_eq_none (hperm.length_eq ▸ hlen.trans hj)
    simp only [classify, hfree, hfree']

theorem check_of_perm (hperm : names.Perm others) (hcount : names.length ≤ MAX_CATEGORIES)
    (hnames : ∀ name ∈ names, PlainName name) {out_req : RequestedClassification} {policy : BasePolicy}
    (h : check_categories_and_trust_level (classify ⟨names, trust_level⟩ out_req) policy = true) :
    check_categories_and_trust_level (classify ⟨others, trust_level⟩ out_req) policy = true := by
  rw [check_categories_and_trust_level_iff] at h ⊢
  obtain ⟨htrust, hunknown⟩ | ⟨htrusted, hfree⟩ := h
  · -- only an empty response can be taken for unknown, and it has one order
    have hnil : names = [] := by
      refine (category_zero_eq_unknown hunknown).resolve_right fun hhead => ?_
      obtain ⟨name, hname, hcut⟩ := Option.map_eq_some_iff.mp hhead
      exact (hnames name (List.mem_of_head? hname)).2 hcut
    subst hnil
    rw [← hperm.nil_eq]
    exact .inl ⟨htrust, hunknown⟩
  · refine .inr ⟨htrusted, fun i hi hforbidden => ?_⟩
    have hnames' : ∀ name ∈ others, PlainName name := fun name hmem => hnames name (hperm.mem_iff.mpr hmem)
    obtain ⟨j, hj, hread⟩ := exists_category_of_perm hperm.symm (hperm.length_eq ▸ hcount)
      hnames' out_req hi
    exact hfree j hj (hread ▸ hforbidden)

end Perm

/-- For every policy, packet, trust level and old contents of the buffer, a response
of at most 100 names that fit their slots and are not `unknown` gets the same verdict
from either filter in every order. -/
theorem verdict_of_perm (policy : BasePolicy) (info_pac : InfoOfPakage) (trust_level : Int32)
    (out_req : RequestedClassification) {names others : List Str} (hperm : names.Perm others)
    (hcount : names.length ≤ MAX_CATEGORIES) (hnames : ∀ name ∈ names, PlainName name) :
    main_filtring_by_domain (classify ⟨names, trust_level⟩ out_req) policy info_pac =
      main_filtring_by_domain (classify ⟨others, trust_level⟩ out_req) policy info_pac ∧
    main_filtring_by_ip (classify ⟨names, trust_level⟩ out_req) policy info_pac =
      main_filtring_by_ip (classify ⟨others, trust_level⟩ out_req) policy info_pac := by
  have hnames' : ∀ name ∈ others, PlainName name := fun name hmem => hnames name (hperm.mem_iff.mpr hmem)
  have hcheck : check_categories_and_trust_level (classify ⟨names, trust_level⟩ out_req) policy =
      check_categories_and_trust_level (classify ⟨others, trust_level⟩ out_req) policy := by
    rw [Bool.eq_iff_iff]
    exact ⟨check_of_perm hperm hcount hnames, check_of_perm hperm.symm (hperm.length_eq ▸ hcount) hnames'⟩
  constructor
  · rw [main_filtring_by_domain, main_filtring_by_domain, hcheck]
  · rw [main_filtring_by_ip, main_filtring_by_ip, hcheck]

/-- The names `a` and `b` over a buffer full of old bytes. -/
theorem verdict_of_swapped_letters :
    let out_req : RequestedClassification := ⟨fun _ _ => 255, 0⟩
    List.Perm [[97], [98]] ([[98], [97]] : List Str) ∧
    main_filtring_by_domain (classify ⟨[[97], [98]], 5⟩ out_req) BasePolicy.zero InfoOfPakage.zero =
      main_filtring_by_domain (classify ⟨[[98], [97]], 5⟩ out_req) BasePolicy.zero InfoOfPakage.zero := by
  intro out_req
  have hperm : List.Perm [[97], [98]] ([[98], [97]] : List Str) := List.Perm.swap [98] [97] []
  have hnames : ∀ name ∈ ([[97], [98]] : List Str), PlainName name := by
    simp [PlainName, cut, unknown]
  exact ⟨hperm, (verdict_of_perm BasePolicy.zero InfoOfPakage.zero 5 out_req hperm (by decide) hnames).1⟩

end grpc_server.worker
