import GrpcServer.Service.HttpClient

open c_memory net_url

namespace grpc_server.service.client

/-- The earlier copy of `HTTPClient.Request`: the parameters are added to those of
the URL, and all are encoded. -/
def earlier_request (lib : Libraries) (provider_name : Str) (provider : Provider) (check_value endpoint_name : Str) :
    Except Failure HttpRequest :=
  request_with (fun own params => encode (parse_query own ++ params)) lib provider_name provider check_value
    endpoint_name

/-- The same provider with the query of one endpoint visited in another order. -/
def Provider.with_query (provider : Provider) (endpoint_name : Str) (endpoint : Endpoint) (query : StringMap) :
    Provider :=
  { provider with endpoints := provider.endpoints.insert endpoint_name { endpoint with query } }

/-- One value for each configured key, the template with the check value in every
place of the placeholder, and no value for any other key. -/
def Delivers (endpoint : Endpoint) (check_value endpoint_name raw_query : Str) : Prop :=
  (∀ p ∈ endpoint.query.entries,
    values (parse_query raw_query) p.1 = [replace_all p.2 (placeholder endpoint_name) check_value]) ∧
  ∀ key ∉ endpoint.query.entries.map Prod.fst, values (parse_query raw_query) key = []

section Build

variable {write_query other_query : Str → List (Str × Str) → Str} {lib : Libraries} {provider_name : Str}
  {provider : Provider} {endpoint : Endpoint} {check_value endpoint_name : Str} {req : HttpRequest}

theorem map_fst_substitute (entries : List (Str × Str)) :
    (substitute endpoint_name check_value entries).map Prod.fst = entries.map Prod.fst := by
  simp [substitute, Function.comp_def]

theorem keys_nodup_substitute (map : StringMap) :
    ((substitute endpoint_name check_value map.entries).map Prod.fst).Nodup := by
  rw [map_fst_substitute]
  exact map.keys_nodup

theorem url_add_headers (headers : List (Str × Str)) (req : HttpRequest) :
    (add_headers lib headers req).url = req.url := by
  induction headers generalizing req with
  | nil => rfl
  | cons header rest ih => exact ih _

theorem url_of_new_request {method url : Str} {body : Option Str} (h : new_request lib method url body = some req) :
    parse_url lib url = some req.url := by
  simp only [new_request, Option.ite_none_right_eq_some, Option.map_eq_some_iff] at h
  obtain ⟨_, parsed, hparsed, rfl⟩ := h
  exact hparsed

/-- A request that was created has the URL as `url.Parse` gives it. -/
theorem url_of_create (h : create lib provider endpoint check_value endpoint_name = .ok (some req)) :
    parse_url lib (request_url provider endpoint check_value endpoint_name) = some req.url := by
  simp only [create] at h
  split at h
  · cases hreq : new_request lib endpoint.method (request_url provider endpoint check_value endpoint_name)
      (some (lib.json_marshal (substitute endpoint_name check_value endpoint.body.entries))) with
    | none =>
      rw [hreq] at h
      cases h
    | some created =>
      rw [hreq] at h
      cases h
      change _ = some created.url
      exact url_of_new_request hreq
  · exact url_of_new_request (Except.ok.inj h)

theorem request_with_eq_ok (hlookup : provider.endpoints.lookup endpoint_name = some endpoint) :
    request_with write_query lib provider_name provider check_value endpoint_name = .ok req ↔
      ∃ created, create lib provider endpoint check_value endpoint_name = .ok (some created) ∧
        req = fill write_query lib provider endpoint check_value endpoint_name created := by
  simp only [request_with, hlookup]
  rcases create lib provider endpoint check_value endpoint_name with failure | _ | created
  · simp
  · simp
  · simp [eq_comm]

theorem raw_query_fill (hquery : endpoint.query.entries ≠ []) (created : HttpRequest) :
    (fill write_query lib provider endpoint check_value endpoint_name created).url.raw_query =
      write_query created.url.raw_query (substitute endpoint_name check_value endpoint.query.entries) := by
  simp only [fill, if_pos (List.length_pos_iff.mpr hquery), url_add_headers]

end Build

section Delivery

variable {endpoint : Endpoint} {check_value endpoint_name raw_query : Str}

theorem delivers_iff : Delivers endpoint check_value endpoint_name raw_query ↔
    ∀ key, values (parse_query raw_query) key =
      values (substitute endpoint_name check_value endpoint.query.entries) key := by
  have hone : ∀ p ∈ endpoint.query.entries, values (substitute endpoint_name check_value endpoint.query.entries) p.1 =
      [replace_all p.2 (placeholder endpoint_name) check_value] := by
    intro p hp
    exact values_of_mem (keys_nodup_substitute endpoint.query) (List.mem_map_of_mem (f := fun p : Str × Str =>
      (p.1, replace_all p.2 (placeholder endpoint_name) check_value)) hp)
  have hother : ∀ key ∉ endpoint.query.entries.map Prod.fst,
      values (substitute endpoint_name check_value endpoint.query.entries) key = [] := by
    intro key hkey
    rw [← map_fst_substitute] at hkey
    exact values_of_notMem hkey
  constructor
  · rintro ⟨hconfigured, hrest⟩ key
    by_cases hkey : key ∈ endpoint.query.entries.map Prod.fst
    · obtain ⟨p, hp, rfl⟩ := List.mem_map.mp hkey
      rw [hconfigured p hp, hone p hp]
    · rw [hrest key hkey, hother key hkey]
  · intro h
    exact ⟨fun p hp => (h p.1).trans (hone p hp), fun key hkey => (h key).trans (hother key hkey)⟩

end Delivery

/-- The request of the earlier client carries the parameters of the URL and the
configured ones, in whatever order it visits them. -/
theorem earlier_request_values {lib : Libraries} {provider_name : Str} {provider : Provider} {endpoint : Endpoint}
    {check_value endpoint_name : Str} {created : HttpRequest}
    (hcreated : create lib provider endpoint check_value endpoint_name = .ok (some created))
    (hquery : endpoint.query.entries ≠ []) {order : StringMap} (horder : order.entries.Perm endpoint.query.entries) :
    ∃ earlier, earlier_request lib provider_name (provider.with_query endpoint_name endpoint order) check_value
        endpoint_name = .ok earlier ∧
      ∀ key, values (parse_query earlier.url.raw_query) key =
        values (parse_query created.url.raw_query ++ substitute endpoint_name check_value endpoint.query.entries)
          key := by
  have hlookup : (provider.with_query endpoint_name endpoint order).endpoints.lookup endpoint_name =
      some { endpoint with query := order } := Finmap.lookup_insert _
  have horder_ne : order.entries ≠ [] := fun hnil => hquery (List.nil_perm.mp (hnil ▸ horder))
  refine ⟨_, (request_with_eq_ok hlookup).mpr ⟨created, hcreated, rfl⟩, ?_⟩
  intro key
  rw [raw_query_fill horder_ne, values_parse_encode, values_append, values_append]
  exact congrArg _ (values_perm (horder.map _) (keys_nodup_substitute endpoint.query) key)

/-- The query of a request delivers the check value if and only if no configured key
holds one of `%`, `&`, `+`, `;` and `=`, and no substituted value one of the first
four. The earlier client delivers it always, next to the parameters the URL has of its
own; the two agree if and only if the condition holds and there are none. -/
theorem query_delivered_iff (lib : Libraries) (provider_name : Str) (provider : Provider)
    (check_value endpoint_name : Str) (endpoint : Endpoint) (req : HttpRequest)
    (hlookup : provider.endpoints.lookup endpoint_name = some endpoint) (hquery : endpoint.query.entries ≠ [])
    (hreq : request lib provider_name provider check_value endpoint_name = .ok req) :
    (Delivers endpoint check_value endpoint_name req.url.raw_query ↔
      ∀ p ∈ substitute endpoint_name check_value endpoint.query.entries, Plain p) ∧
    ∃ url, parse_url lib (request_url provider endpoint check_value endpoint_name) = some url ∧
      ∀ order : StringMap, order.entries.Perm endpoint.query.entries →
        ∃ earlier, earlier_request lib provider_name (provider.with_query endpoint_name endpoint order) check_value
            endpoint_name = .ok earlier ∧
          (∀ key, values (parse_query earlier.url.raw_query) key =
            values (parse_query url.raw_query ++ substitute endpoint_name check_value endpoint.query.entries) key) ∧
          ((∀ key, values (parse_query req.url.raw_query) key = values (parse_query earlier.url.raw_query) key) ↔
            parse_query url.raw_query = [] ∧
              ∀ p ∈ substitute endpoint_name check_value endpoint.query.entries, Plain p) := by
  obtain ⟨created, hcreated, rfl⟩ := (request_with_eq_ok hlookup).mp hreq
  rw [raw_query_fill hquery]
  refine ⟨?_, created.url, url_of_create hcreated, ?_⟩
  · rw [delivers_iff]
    simpa using values_parse_join_iff [] (substitute endpoint_name check_value endpoint.query.entries)
  · intro order horder
    obtain ⟨earlier, hearlier, hvalues⟩ := earlier_request_values hcreated hquery horder
    refine ⟨earlier, hearlier, hvalues, ?_⟩
    simp only [hvalues]
    exact values_parse_join_iff _ _

def asking_endpoint : Endpoint :=
  { categories := [99]
    method := []
    path := [47]
    query := ⟨[([113], [123, 105, 112, 125])], by simp⟩
    body := StringMap.empty }

/-- A provider at `http://h` whose `ip` endpoint sends the value as `q`. -/
def asking_provider : Provider :=
  { base_url := [104, 116, 116, 112, 58, 47, 47, 104]
    headers := StringMap.empty
    endpoints := Finmap.singleton [105, 112] asking_endpoint }

/-- The value `a&b` reaches the provider as `a`, next to a parameter `b`; the
earlier client sends it whole. -/
theorem ampersand_splits_value :
    ∃ req earlier, request lenient [112] asking_provider [97, 38, 98] [105, 112] = .ok req ∧
      earlier_request lenient [112] asking_provider [97, 38, 98] [105, 112] = .ok earlier ∧
      parse_query req.url.raw_query = [([113], [97]), ([98], [])] ∧
      parse_query earlier.url.raw_query = [([113], [97, 38, 98])] ∧
      ¬ Delivers asking_endpoint [97, 38, 98] [105, 112] req.url.raw_query := by
  refine ⟨_, _, rfl, rfl, by decide, by decide, ?_⟩
  rintro ⟨hvalue, -⟩
  have hsplit := hvalue ([113], [123, 105, 112, 125]) List.mem_cons_self
  revert hsplit
  decide

theorem plain_value_delivered :
    ∃ req, request lenient [112] asking_provider [97] [105, 112] = .ok req ∧
      Delivers asking_endpoint [97] [105, 112] req.url.raw_query := by
  refine ⟨_, rfl, ?_⟩
  refine (query_delivered_iff lenient [112] asking_provider [97] [105, 112] asking_endpoint _
    Finmap.lookup_singleton_eq (by simp [asking_endpoint]) rfl).1.mpr ?_
  intro p hp
  rw [List.mem_singleton.mp hp]
  decide

end grpc_server.service.client
