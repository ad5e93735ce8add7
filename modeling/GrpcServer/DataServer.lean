import GrpcServer.Service.Check
import GrpcServer.Worker.Classify.Leftover
import Mathlib.Order.Bounds.Basic

open c_memory grpc_server.service grpc_server.dpdk_filter

namespace grpc_server.grpcserver

open worker (ClassifyResponse)

/-- One round of the loop over the found IDs: the names and `minTrustLevel`. -/
def add_category (svc : Service) (acc : List Str × ℤ) (id : ℤ) : List Str × ℤ :=
  let (name, trust_level) := get_category svc id
  (if name ≠ [] then acc.1 ++ [name] else acc.1, if trust_level < acc.2 then trust_level else acc.2)

def unknown_response : ClassifyResponse := { categories := [unknown], trust_level := 0 }

/-- `DataServer.Classify` on what `Check` returned, `none` for its error. -/
def classify (svc : Service) : Option (List ℤ) → ClassifyResponse
  | none => unknown_response
  | some category_ids =>
    if category_ids.length > 0 then
      let (categories, min_trust_level) := category_ids.foldl (add_category svc) ([], 0)
      { categories, trust_level := Int32.ofInt min_trust_level }
    else unknown_response

/-- With distinct IDs a category is found under its own. -/
theorem get_category_of_mem {svc : Service} (hdistinct : (svc.categories.map (·.id)).Nodup) {category : Category}
    (hmem : category ∈ svc.categories) : get_category svc category.id = (category.name, category.trust_level) := by
  cases hfind : svc.categories.find? (·.id == category.id) with
  | none => simpa using List.find?_eq_none.mp hfind category hmem
  | some first =>
    have hid : first.id = category.id := by simpa using List.find?_some hfind
    obtain rfl := List.inj_on_of_nodup_map hdistinct (List.mem_of_find?_eq_some hfind) hmem hid
    rw [get_category, hfind]

/-- The loop collects the names that are not empty, and the least of the levels
and its starting value. -/
theorem foldl_add_category {svc : Service} (hdistinct : (svc.categories.map (·.id)).Nodup) {found : List Category}
    (hfound : ∀ category ∈ found, category ∈ svc.categories) (names : List Str) (level : ℤ) :
    (found.map (·.id)).foldl (add_category svc) (names, level) =
      (names ++ (found.map (·.name)).filter (· ≠ []), (found.map (·.trust_level)).foldl min level) := by
  induction found generalizing names level with
  | nil => simp
  | cons category found ih =>
    rw [List.forall_mem_cons] at hfound
    have hround : add_category svc (names, level) category.id =
        (names ++ [category.name].filter (· ≠ []), min level category.trust_level) := by
      rw [add_category, get_category_of_mem hdistinct hfound.1]
      simp only [Prod.mk.injEq]
      constructor
      · by_cases hname : category.name = [] <;> simp [hname]
      · omega
    rw [List.map_cons, List.foldl_cons, hround, ih hfound.2, List.map_cons, List.map_cons, List.foldl_cons,
      List.append_assoc, ← List.filter_append, List.singleton_append]

theorem foldl_min_eq {levels : List ℤ} {least : ℤ} (h : IsLeast {level | level ∈ levels} least) (start : ℤ) :
    levels.foldl min start = min start least := by
  have hmin : levels.min? = some least := List.min?_eq_some_iff.mpr ⟨h.1, fun level hlevel => h.2 hlevel⟩
  rw [List.foldl_min, hmin, Option.getD_some]

/-- The answer for a list of found categories. Its level is the least one only
below the starting value of the loop. -/
theorem classify_found {svc : Service} (hdistinct : (svc.categories.map (·.id)).Nodup) {found : List Category}
    (hfound : ∀ category ∈ found, category ∈ svc.categories) {least : ℤ}
    (hleast : IsLeast {level | level ∈ found.map (·.trust_level)} least) :
    classify svc (some (found.map (·.id))) =
      { categories := (found.map (·.name)).filter (· ≠ []), trust_level := Int32.ofInt (min 0 least) } := by
  have hne : (found.map (·.id)).length > 0 := by
    have hpos := List.length_pos_of_mem hleast.1
    simpa using hpos
  rw [classify, if_pos hne, foldl_add_category hdistinct hfound, foldl_min_eq hleast, List.nil_append]

theorem toInt_ofInt_min_iff (least : ℤ) :
    (Int32.ofInt (min 0 least)).toInt = least ↔ -2 ^ 31 ≤ least ∧ least ≤ 0 := by
  constructor
  · intro h
    have hlow := Int32.le_toInt (Int32.ofInt (min 0 least))
    rw [h] at hlow
    refine ⟨hlow, ?_⟩
    by_contra hpos
    have hmin : min 0 least = 0 := min_eq_left (by omega)
    rw [hmin] at h
    exact hpos (h ▸ le_refl _)
  · rintro ⟨hlow, hhigh⟩
    rw [min_eq_right hhigh]
    exact Int32.toInt_ofInt_of_le hlow (by omega)

/-- The answer names the found categories and carries the least of their levels
exactly when that level is not positive and fits the field. -/
theorem classify_least_level_iff {svc : Service} (hdistinct : (svc.categories.map (·.id)).Nodup)
    {found : List Category} (hfound : ∀ category ∈ found, category ∈ svc.categories) {least : ℤ}
    (hleast : IsLeast {level | level ∈ found.map (·.trust_level)} least) :
    ((classify svc (some (found.map (·.id)))).categories = (found.map (·.name)).filter (· ≠ []) ∧
      (classify svc (some (found.map (·.id)))).trust_level.toInt = least) ↔
    -2 ^ 31 ≤ least ∧ least ≤ 0 := by
  rw [classify_found hdistinct hfound hleast, toInt_ofInt_min_iff]
  exact and_iff_right rfl

/-- A service that knows one category, named `v`. -/
def one_category (trust_level : ℤ) : Service :=
  { providers := ∅, categories := [{ id := 4, name := [118], trust_level, mappings := [] }] }

theorem isLeast_one_category (trust_level : ℤ) :
    IsLeast {level | level ∈ (one_category trust_level).categories.map (·.trust_level)} trust_level :=
  ⟨List.mem_singleton_self _, fun _ hlevel => (List.mem_singleton.mp hlevel).ge⟩

/-- A category of level 5 is answered with level 0. -/
theorem positive_level_flattened :
    IsLeast {level | level ∈ (one_category 5).categories.map (·.trust_level)} 5 ∧
    classify (one_category 5) (some [4]) = { categories := [[118]], trust_level := 0 } :=
  ⟨isLeast_one_category 5, rfl⟩

theorem negative_level_answered :
    (classify (one_category (-3)) (some [4])).categories = [[118]] ∧
      (classify (one_category (-3)) (some [4])).trust_level.toInt = -3 :=
  (@classify_least_level_iff (one_category (-3)) (List.nodup_singleton _) (one_category (-3)).categories
    (fun _ h => h) (-3) (isLeast_one_category (-3))).mpr (by decide)

section Unknown

variable {svc : Service} {env : Env} {check_value endpoint_name : Str} {result : List ℤ}

/-- Every target is answered as unknown. -/
theorem classify_check (h : Check svc env check_value endpoint_name result) :
    classify svc (some result) = unknown_response := by
  rw [h.eq_nil]
  rfl

theorem check_unknown_response (out_req : RequestedClassification) (policy : BasePolicy) :
    check_categories_and_trust_level (worker.classify unknown_response out_req) policy = true :=
  worker.check_of_saysUnknown ⟨rfl, rfl⟩ out_req

/-- On the worker the domain lists alone decide about an answered domain, whatever
the categories and trust levels of its policy. -/
theorem domain_verdict_of_check (h : Check svc env check_value endpoint_name result)
    (out_req : RequestedClassification) (policy : BasePolicy) (info_pac : InfoOfPakage) :
    main_filtring_by_domain (worker.classify (classify svc (some result)) out_req) policy info_pac =
      !check_domain_is_block info_pac.domain_str policy := by
  rw [classify_check h, main_filtring_by_domain, check_unknown_response]
  cases check_domain_is_block info_pac.domain_str policy <;> simp

/-- The same of an address. -/
theorem ip_verdict_of_check (h : Check svc env check_value endpoint_name result)
    (out_req : RequestedClassification) (policy : BasePolicy) (info_pac : InfoOfPakage) :
    main_filtring_by_ip (worker.classify (classify svc (some result)) out_req) policy info_pac =
      !check_ip_is_block info_pac policy := by
  rw [classify_check h, main_filtring_by_ip, check_unknown_response]
  cases check_ip_is_block info_pac policy <;> simp

end Unknown

end grpc_server.grpcserver
