import GrpcServer.Service

open c_memory ttl_cache

namespace grpc_server.service

/-- A loop whose rounds make something true and never undo it. -/
theorem foldl_or_iff {α β : Type} {step : β → α → β} (P : β → Prop) {Q : α → Prop}
    (hstep : ∀ acc x, P (step acc x) ↔ P acc ∨ Q x) (xs : List α) (acc : β) :
    P (xs.foldl step acc) ↔ P acc ∨ ∃ x ∈ xs, Q x := by
  induction xs generalizing acc with
  | nil => simp
  | cons x xs ih => rw [List.foldl_cons, ih, hstep, List.exists_mem_cons_iff, or_assoc]

/-- The group of a provider holds an entry. -/
def Grouped (groups : Finmap fun _ : Str => List CategoryInfo) (provider : Str) (info : CategoryInfo) : Prop :=
  ∃ infos, groups.lookup provider = some infos ∧ info ∈ infos

theorem grouped_append_info_iff (groups : Finmap fun _ : Str => List CategoryInfo) (provider name : Str)
    (info other : CategoryInfo) :
    Grouped (append_info groups provider info) name other ↔
      Grouped groups name other ∨ name = provider ∧ other = info := by
  by_cases hname : name = provider
  · subst hname
    simp only [Grouped, append_info, Finmap.lookup_insert, Option.some.injEq, exists_eq_left', List.mem_append,
      List.mem_singleton, true_and]
    cases groups.lookup name <;> simp
  · simp [Grouped, append_info, Finmap.lookup_insert_of_ne _ hname, hname]

theorem grouped_mappings_iff (groups : Finmap fun _ : Str => List CategoryInfo) (id : ℤ)
    (mappings : List (Str × List Str)) (name : Str) (info : CategoryInfo) :
    Grouped (mappings.foldl (fun groups mapping => append_info groups mapping.1 ⟨id, mapping.2⟩) groups) name info ↔
      Grouped groups name info ∨ ∃ mapping ∈ mappings, name = mapping.1 ∧ info = ⟨id, mapping.2⟩ :=
  foldl_or_iff (Grouped · name info)
    (fun groups mapping => grouped_append_info_iff groups mapping.1 name ⟨id, mapping.2⟩ info) mappings groups

/-- Regrouping by provider loses and invents nothing. -/
theorem grouped_provider_categories_iff (categories : List Category) (name : Str) (info : CategoryInfo) :
    Grouped (provider_categories categories) name info ↔
      ∃ category ∈ categories, ∃ mapping ∈ category.mappings, name = mapping.1 ∧ info = ⟨category.id, mapping.2⟩ := by
  rw [provider_categories, foldl_or_iff (Grouped · name info)
    fun groups category => grouped_mappings_iff groups category.id category.mappings name info]
  simp [Grouped]

theorem mem_find_categories_iff (actual : List Str) (found : Finset ℤ) (infos : List CategoryInfo) (id : ℤ) :
    id ∈ find_categories actual found infos ↔
      id ∈ found ∨ ∃ info ∈ infos, info.id = id ∧ has_intersection info.mappings actual = true := by
  refine foldl_or_iff (id ∈ ·) (fun found info => ?_) infos found
  by_cases hinter : has_intersection info.mappings actual = true
  · rw [if_pos hinter, Finset.mem_insert, or_comm, and_iff_left hinter, eq_comm]
  · simp [hinter]

theorem mem_found_ids_iff (strings : Str → Option (List Str))
    (visits : List (Sigma fun _ : Str => List CategoryInfo)) (id : ℤ) :
    id ∈ found_ids strings visits ↔ ∃ visit ∈ visits, ∃ actual, strings visit.1 = some actual ∧
      ∃ info ∈ visit.2, info.id = id ∧ has_intersection info.mappings actual = true := by
  have hvisit : ∀ found visit, id ∈ visit_provider strings found visit ↔ id ∈ found ∨ ∃ actual,
      strings visit.1 = some actual ∧
        ∃ info ∈ visit.2, info.id = id ∧ has_intersection info.mappings actual = true := by
    intro found visit
    rw [visit_provider]
    cases strings visit.1 with
    | none => simp
    | some actual => simp [mem_find_categories_iff]
  rw [found_ids, foldl_or_iff (id ∈ ·) hvisit]
  simp

/-- For every order of the visits: the IDs of the categories of which a provider
gave a mapping string. -/
theorem mem_found_ids_of_enumerates {categories : List Category}
    {visits : List (Sigma fun _ : Str => List CategoryInfo)} (h : Enumerates visits (provider_categories categories))
    (strings : Str → Option (List Str)) (id : ℤ) :
    id ∈ found_ids strings visits ↔ ∃ category ∈ categories, category.id = id ∧
      ∃ mapping ∈ category.mappings, ∃ actual, strings mapping.1 = some actual ∧
        has_intersection mapping.2 actual = true := by
  rw [mem_found_ids_iff]
  constructor
  · rintro ⟨⟨name, infos⟩, hvisit, actual, hstrings, info, hinfo, rfl, hinter⟩
    obtain ⟨category, hcategory, mapping, hmapping, rfl, rfl⟩ :=
      (grouped_provider_categories_iff categories name info).mp ⟨infos, h.mem_iff.mp hvisit, hinfo⟩
    exact ⟨category, hcategory, rfl, mapping, hmapping, actual, hstrings, hinter⟩
  · rintro ⟨category, hcategory, rfl, mapping, hmapping, actual, hstrings, hinter⟩
    obtain ⟨infos, hinfos, hinfo⟩ := (grouped_provider_categories_iff categories mapping.1 ⟨category.id, mapping.2⟩).mpr
      ⟨category, hcategory, mapping, hmapping, rfl, rfl⟩
    exact ⟨⟨mapping.1, infos⟩, h.mem_iff.mpr hinfos, actual, hstrings, _, hinfo, rfl, hinter⟩

theorem has_intersection_iff (a b : List Str) : has_intersection a b = true ↔ ∃ v ∈ a, v ∈ b := by
  simp [has_intersection]

/-- What a configured provider is said to give: the strings at the endpoint's
category path in the JSON object of a reply with status 200. -/
def Replied (svc : Service) (env : Env) (check_value endpoint_name provider_name : Str) (actual : List Str) : Prop :=
  ∃ provider endpoint bytes members, svc.providers.lookup provider_name = some provider ∧
    provider.endpoints.lookup endpoint_name = some endpoint ∧
    env.http_do provider_name check_value endpoint_name = some (200, bytes) ∧
    env.json_decode bytes = some (.object members) ∧
    extract_categories env.sprint members endpoint.categories = .ok actual

/-- Some provider's reply has a mapping string of a category with the ID. -/
def Established (svc : Service) (env : Env) (check_value endpoint_name : Str) (id : ℤ) : Prop :=
  ∃ category ∈ svc.categories, category.id = id ∧ ∃ mapping ∈ category.mappings,
    ∃ actual, Replied svc env check_value endpoint_name mapping.1 actual ∧ ∃ v ∈ mapping.2, v ∈ actual

/-- A `null` body leaves no data in which a path could be found. -/
theorem extract_categories_nil (sprint : Json → Str) (path : Str) :
    (extract_categories sprint [] path).toOption = none := by
  rw [extract_categories]
  split
  · rfl
  · cases path.splitOn 46 <;> rfl

theorem decode_eq_some_iff {env : Env} {body : Body} {data : List (Str × Json)} :
    decode env body = some data ↔ body.closed = false ∧
      (env.json_decode body.bytes = some (.object data) ∨ env.json_decode body.bytes = some .null ∧ data = []) := by
  rw [decode, Body.read]
  cases body.closed with
  | true => simp
  | false =>
    simp only [Bool.false_eq_true, if_false, Option.bind_some, true_and]
    split
    · rename_i members hvalue
      simp [hvalue]
    · rename_i hvalue
      simp [hvalue, eq_comm]
    · rename_i hobject hnull
      simp only [reduceCtorEq, false_iff, not_or, not_and]
      exact ⟨hobject data, fun hvalue => absurd hvalue hnull⟩

/-- The strings of a provider, step by step. -/
theorem provider_strings_eq_some_iff {env : Env} {read_reply : Body → Option (List (Str × Json))} {svc : Service}
    {check_value endpoint_name provider_name : Str} {actual : List Str} :
    provider_strings env read_reply svc check_value endpoint_name provider_name = some actual ↔
      ∃ provider endpoint bytes data, svc.providers.lookup provider_name = some provider ∧
        provider.endpoints.lookup endpoint_name = some endpoint ∧
        env.http_do provider_name check_value endpoint_name = some (200, bytes) ∧
        read_reply ⟨bytes, false⟩ = some data ∧ extract_categories env.sprint data endpoint.categories = .ok actual := by
  rw [provider_strings]
  cases hprovider : svc.providers.lookup provider_name with
  | none => simp
  | some provider =>
    simp only [request, Option.some.injEq, exists_and_left, exists_eq_left']
    cases hendpoint : provider.endpoints.lookup endpoint_name with
    | none => simp
    | some endpoint =>
      simp only [Option.some.injEq, exists_eq_left', Option.map_some, Option.getD_some]
      cases hreply : env.http_do provider_name check_value endpoint_name with
      | none => simp
      | some reply =>
        obtain ⟨status_code, bytes⟩ := reply
        simp only [Option.map_some, Option.some.injEq, Prod.mk.injEq, and_assoc]
        by_cases hstatus : status_code = 200
        · subst hstatus
          simp only [ne_eq, not_true_eq_false, if_false, true_and, exists_eq_left']
          cases hread : read_reply ⟨bytes, false⟩ with
          | none => simp
          | some data =>
            simp only [Option.some.injEq, exists_eq_left']
            cases extract_categories env.sprint data endpoint.categories <;> simp [Except.toOption]
        · simp [hstatus]

theorem provider_strings_closed (env : Env) (svc : Service) (check_value endpoint_name provider_name : Str) :
    provider_strings env (read_closed env) svc check_value endpoint_name provider_name = none := by
  rw [Option.eq_none_iff_forall_not_mem]
  intro actual hactual
  obtain ⟨_, _, _, _, _, _, _, hread, _⟩ := provider_strings_eq_some_iff.mp hactual
  exact absurd (decode_eq_some_iff.mp hread).1 (by simp [Body.close])

/-- A body that is still open when it is decoded gives what the provider replied. -/
theorem provider_strings_open_iff (env : Env) (svc : Service) (check_value endpoint_name provider_name : Str)
    (actual : List Str) :
    provider_strings env (decode env) svc check_value endpoint_name provider_name = some actual ↔
      Replied svc env check_value endpoint_name provider_name actual := by
  rw [provider_strings_eq_some_iff]
  constructor
  · rintro ⟨provider, endpoint, bytes, data, hprovider, hendpoint, hreply, hread, hextract⟩
    obtain ⟨-, hobject | ⟨-, rfl⟩⟩ := decode_eq_some_iff.mp hread
    · exact ⟨provider, endpoint, bytes, data, hprovider, hendpoint, hreply, hobject, hextract⟩
    · have hnone := extract_categories_nil env.sprint endpoint.categories
      rw [hextract] at hnone
      cases hnone
  · rintro ⟨provider, endpoint, bytes, members, hprovider, hendpoint, hreply, hobject, hextract⟩
    exact ⟨provider, endpoint, bytes, members, hprovider, hendpoint, hreply,
      decode_eq_some_iff.mpr ⟨rfl, .inl hobject⟩, hextract⟩

section Exact

variable {svc : Service} {env : Env} {check_value endpoint_name : Str}

/-- With the body still open the loops would find the established categories, in
whatever order they visit the providers. -/
theorem mem_found_ids_open_iff {visits : List (Sigma fun _ : Str => List CategoryInfo)}
    (h : Enumerates visits (provider_categories svc.categories)) (id : ℤ) :
    id ∈ found_ids (provider_strings env (decode env) svc check_value endpoint_name) visits ↔
      Established svc env check_value endpoint_name id := by
  simp only [mem_found_ids_of_enumerates h, provider_strings_open_iff, has_intersection_iff, Established]

theorem found_ids_closed {visits : List (Sigma fun _ : Str => List CategoryInfo)}
    (h : Enumerates visits (provider_categories svc.categories)) :
    found_ids (provider_strings env (read_closed env) svc check_value endpoint_name) visits = ∅ := by
  rw [Finset.eq_empty_iff_forall_notMem]
  intro id hid
  obtain ⟨_, _, _, mapping, _, actual, hstrings, _⟩ := (mem_found_ids_of_enumerates h _ id).mp hid
  rw [provider_strings_closed] at hstrings
  cases hstrings

/-- Since it is closed, `Check` finds nothing. -/
theorem Check.eq_nil {result : List ℤ} (h : Check svc env check_value endpoint_name result) : result = [] := by
  obtain ⟨visits, hvisits, -, hresult⟩ := h
  rw [found_ids_closed hvisits, List.toFinset_eq_empty_iff] at hresult
  exact hresult

theorem check_nil (svc : Service) (env : Env) (check_value endpoint_name : Str) :
    Check svc env check_value endpoint_name [] := by
  have hvisits : Enumerates (provider_categories svc.categories).entries.toList (provider_categories svc.categories) :=
    Multiset.coe_toList _
  exact ⟨_, hvisits, List.nodup_nil, (found_ids_closed hvisits).symm⟩

/-- The replies when requests to one provider fail. -/
def Env.failing (env : Env) (provider_name : Str) : Env :=
  { env with
    http_do := fun name check_value endpoint_name =>
      if name = provider_name then none else env.http_do name check_value endpoint_name }

/-- `Check` returns the established categories, and loses with a failing provider
only those that no other establishes, exactly when there is nothing to find. -/
theorem classification_exact_iff {result : List ℤ} (h : Check svc env check_value endpoint_name result) :
    (result.Nodup ∧ (∀ id, id ∈ result ↔ Established svc env check_value endpoint_name id) ∧
      ∀ provider_name failed, Check svc (env.failing provider_name) check_value endpoint_name failed →
        ∀ id ∈ result, id ∉ failed → ¬ Established svc (env.failing provider_name) check_value endpoint_name id) ↔
    ∀ id, ¬ Established svc env check_value endpoint_name id := by
  rw [h.eq_nil]
  constructor
  · rintro ⟨-, hexact, -⟩ id hid
    exact List.not_mem_nil ((hexact id).mpr hid)
  · intro hnone
    refine ⟨List.nodup_nil, fun id => iff_of_false List.not_mem_nil (hnone id), ?_⟩
    intro provider_name failed hfailed id hid
    exact absurd hid List.not_mem_nil

end Exact

/-- One category, which the provider `k` calls `b`. -/
def betting_service : Service :=
  { providers := Finmap.singleton [107] { endpoints := Finmap.singleton [100] { categories := [99] } }
    categories := [{ id := 2, name := [103], trust_level := 1, mappings := [([107], [[98]])] }] }

/-- The provider answers with `status_code` and `{"c":["b"]}`. -/
def betting_env (status_code : ℕ) : Env :=
  let body : Str := [123, 34, 99, 34, 58, 91, 34, 98, 34, 93, 125]
  { http_do := fun name _ endpoint_name => if name = [107] ∧ endpoint_name = [100] then some (status_code, body) else none
    json_decode := fun bytes => if bytes = body then some (.object [([99], .array [.string [98]])]) else none
    sprint := fun value => match value with
      | .string s => s
      | _ => [] }

theorem betting_not_found :
    Established betting_service (betting_env 200) [97] [100] 2 ∧
    ∀ result, Check betting_service (betting_env 200) [97] [100] result → 2 ∉ result := by
  constructor
  · refine ⟨_, List.mem_singleton_self _, rfl, _, List.mem_singleton_self _, [[98]], ?_, [98], by simp, by simp⟩
    exact ⟨_, _, _, [([99], .array [.string [98]])], Finmap.lookup_singleton_eq, Finmap.lookup_singleton_eq, rfl, rfl, rfl⟩
  · intro result hresult
    rw [hresult.eq_nil]
    exact List.not_mem_nil

theorem nothing_established :
    Check betting_service (betting_env 404) [97] [100] [] ∧
    ∀ id, id ∈ ([] : List ℤ) ↔ Established betting_service (betting_env 404) [97] [100] id := by
  refine ⟨check_nil betting_service (betting_env 404) [97] [100], ?_⟩
  refine ((classification_exact_iff (check_nil betting_service (betting_env 404) [97] [100])).mpr ?_).2.1
  rintro id ⟨_, _, _, mapping, _, _, ⟨_, _, _, _, _, _, hreply, _⟩, _⟩
  simp [betting_env] at hreply

end grpc_server.service
