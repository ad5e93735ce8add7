import GrpcServer.NetUrl
import GrpcServer.Service

open c_memory net_url

namespace grpc_server.service.client

/-- A Go `map[string]string` in the order in which a `range` visits its keys. -/
structure StringMap where
  entries : List (Str × Str)
  keys_nodup : (entries.map Prod.fst).Nodup

def StringMap.empty : StringMap := ⟨[], List.nodup_nil⟩

/-- `models.Endpoint`. -/
structure Endpoint extends service.Endpoint where
  method : Str
  path : Str
  query : StringMap
  body : StringMap

/-- `models.Provider`. -/
structure Provider where
  base_url : Str
  headers : StringMap
  endpoints : Finmap fun _ : Str => Endpoint

/-- `url.URL`. What stands in front of the query is not taken apart. -/
structure Url where
  base : Str
  raw_query : Str
  fragment : Str

structure HttpRequest where
  method : Str
  url : Url
  header : List (Str × Str)
  body : Option Str

/-- The library functions behind the client. `url_well_formed` are the checks of
`url.Parse` on a URL without control bytes. -/
structure Libraries where
  url_well_formed : Str → Bool
  canonical_header_key : Str → Str
  json_marshal : List (Str × Str) → Str

/-- `strings.ReplaceAll` for a non-empty `old`. The counter runs over the bytes of
an occurrence that has been replaced. -/
def replace_from (old new : Str) : ℕ → Str → Str
  | _, [] => []
  | skip + 1, _ :: rest => replace_from old new skip rest
  | 0, b :: rest =>
    if old.isPrefixOf (b :: rest) then new ++ replace_from old new (old.length - 1) rest
    else b :: replace_from old new 0 rest

def replace_all (s old new : Str) : Str := replace_from old new 0 s

/-- `fmt.Sprintf("{%s}", endpointName)`. -/
def placeholder (endpoint_name : Str) : Str := 123 :: endpoint_name ++ [125]

def substitute (endpoint_name check_value : Str) (entries : List (Str × Str)) : List (Str × Str) :=
  entries.map fun (key, value) => (key, replace_all value (placeholder endpoint_name) check_value)

def is_ctl (b : UInt8) : Bool := b < 32 || b == 127

/-- `url.Parse`. -/
def parse_url (lib : Libraries) (raw : Str) : Option Url :=
  let (rest, fragment) := cut 35 raw
  if rest.any is_ctl then none
  else if lib.url_well_formed raw then
    let (base, raw_query) := cut 63 rest
    some { base, raw_query, fragment }
  else none

/-- The bytes of a token: letters, digits and fifteen marks. -/
def is_token (b : UInt8) : Bool :=
  (48 ≤ b && b ≤ 57) || (65 ≤ b && b ≤ 90) || (97 ≤ b && b ≤ 122) ||
    [33, 35, 36, 37, 38, 39, 42, 43, 45, 46, 94, 95, 96, 124, 126].contains b

def valid_method (method : Str) : Bool := method.all is_token

/-- `http.NewRequest`; the request is nil when it fails. -/
def new_request (lib : Libraries) (method url : Str) (body : Option Str) : Option HttpRequest :=
  let method := if method.isEmpty then [71, 69, 84] else method
  if valid_method method then (parse_url lib url).map fun url => { method, url, header := [], body }
  else none

def HttpRequest.set_header (lib : Libraries) (req : HttpRequest) (key value : Str) : HttpRequest :=
  let key := lib.canonical_header_key key
  { req with header := req.header.filter (·.1 != key) ++ [(key, value)] }

def HttpRequest.add_header (lib : Libraries) (req : HttpRequest) (key value : Str) : HttpRequest :=
  { req with header := req.header ++ [(lib.canonical_header_key key, value)] }

inductive RequestError where
  | unsupported_endpoint (provider_name endpoint_name : Str)
  | not_created

/-- A call ends without a request by returning an error or by a panic. -/
inductive Failure where
  | returned (err : RequestError)
  | nil_dereference

def content_type : Str := "Content-Type".toUTF8.toList

def application_json : Str := "application/json".toUTF8.toList

/-- `req.Header.Set("Content-Type", "application/json")`. -/
def set_content_type (lib : Libraries) : Option HttpRequest → Except Failure (Option HttpRequest)
  | some req => .ok (some (req.set_header lib content_type application_json))
  | none => .error .nil_dereference

def request_url (provider : Provider) (endpoint : Endpoint) (check_value endpoint_name : Str) : Str :=
  replace_all (provider.base_url ++ endpoint.path) (placeholder endpoint_name) check_value

/-- `req` when the two branches join. -/
def create (lib : Libraries) (provider : Provider) (endpoint : Endpoint) (check_value endpoint_name : Str) :
    Except Failure (Option HttpRequest) :=
  let url := request_url provider endpoint check_value endpoint_name
  if 0 < endpoint.body.entries.length then
    let json_body := lib.json_marshal (substitute endpoint_name check_value endpoint.body.entries)
    set_content_type lib (new_request lib endpoint.method url (some json_body))
  else .ok (new_request lib endpoint.method url none)

def add_headers (lib : Libraries) (headers : List (Str × Str)) (req : HttpRequest) : HttpRequest :=
  headers.foldl (fun req (key, value) => req.add_header lib key value) req

/-- What is done to a request that has been created. -/
def fill (write_query : Str → List (Str × Str) → Str) (lib : Libraries) (provider : Provider) (endpoint : Endpoint)
    (check_value endpoint_name : Str) (req : HttpRequest) : HttpRequest :=
  let req := add_headers lib (substitute endpoint_name check_value provider.headers.entries) req
  if 0 < endpoint.query.entries.length then
    let raw_query := write_query req.url.raw_query (substitute endpoint_name check_value endpoint.query.entries)
    { req with url := { req.url with raw_query } }
  else req

/-- The body of both copies of `HTTPClient.Request` up to `client.Do`. They differ
in how they write the parameters to the query of the URL. -/
def request_with (write_query : Str → List (Str × Str) → Str) (lib : Libraries) (provider_name : Str)
    (provider : Provider) (check_value endpoint_name : Str) : Except Failure HttpRequest :=
  match provider.endpoints.lookup endpoint_name with
  | none => .error (.returned (.unsupported_endpoint provider_name endpoint_name))
  | some endpoint =>
    match create lib provider endpoint check_value endpoint_name with
    | .error failure => .error failure
    | .ok none => .error (.returned .not_created)
    | .ok (some req) => .ok (fill write_query lib provider endpoint check_value endpoint_name req)

/-- The request that `HTTPClient.Request` hands to `client.Do`. -/
def request (lib : Libraries) (provider_name : Str) (provider : Provider) (check_value endpoint_name : Str) :
    Except Failure HttpRequest :=
  request_with (fun _ params => join params) lib provider_name provider check_value endpoint_name

section Panic

variable {lib : Libraries} {provider : Provider} {endpoint : Endpoint} {check_value endpoint_name : Str}

theorem new_request_eq_none {method url : Str} {body : Option Str} :
    new_request lib method url body = none ↔ valid_method method = false ∨ parse_url lib url = none := by
  have hget : valid_method [71, 69, 84] = true := by decide
  have hempty : valid_method [] = true := rfl
  cases method with
  | nil => simp [new_request, hget, hempty]
  | cons b rest => cases hmethod : valid_method (b :: rest) <;> simp [new_request, hmethod]

/-- The header is set before the error is looked at. -/
theorem create_panics_iff :
    create lib provider endpoint check_value endpoint_name = .error .nil_dereference ↔
      endpoint.body.entries ≠ [] ∧ (valid_method endpoint.method = false ∨
        parse_url lib (request_url provider endpoint check_value endpoint_name) = none) := by
  unfold create
  split
  · rename_i hbody
    cases hreq : new_request lib endpoint.method (request_url provider endpoint check_value endpoint_name)
      (some (lib.json_marshal (substitute endpoint_name check_value endpoint.body.entries))) with
    | none =>
      simp only [hreq]
      exact iff_of_true rfl ⟨List.length_pos_iff.mp hbody, new_request_eq_none.mp hreq⟩
    | some req =>
      simp only [hreq]
      refine iff_of_false (fun h => by cases h) ?_
      rintro ⟨_, hinvalid⟩
      rw [new_request_eq_none.mpr hinvalid] at hreq
      cases hreq
  · rename_i hbody
    rw [Nat.pos_iff_ne_zero, not_not, List.length_eq_zero_iff] at hbody
    simp [hbody]

theorem request_with_panics_iff {write_query : Str → List (Str × Str) → Str} {provider_name : Str} :
    request_with write_query lib provider_name provider check_value endpoint_name = .error .nil_dereference ↔
      ∃ endpoint, provider.endpoints.lookup endpoint_name = some endpoint ∧
        create lib provider endpoint check_value endpoint_name = .error .nil_dereference := by
  unfold request_with
  cases provider.endpoints.lookup endpoint_name with
  | none => simp
  | some endpoint =>
    simp only [Option.some.injEq, exists_eq_left']
    rcases create lib provider endpoint check_value endpoint_name with failure | _ | req
    · simp only [Except.error.injEq]
    · simp
    · simp

end Panic

/-- A call returns an error or hands over a request, if and only if the endpoint is
missing, has no body to send, or has a method and a URL that `http.NewRequest`
accepts. -/
theorem request_never_panics_iff (lib : Libraries) (provider_name : Str) (provider : Provider)
    (check_value endpoint_name : Str) :
    ((∃ req, request lib provider_name provider check_value endpoint_name = .ok req) ∨
      ∃ err, request lib provider_name provider check_value endpoint_name = .error (.returned err)) ↔
    ∀ endpoint, provider.endpoints.lookup endpoint_name = some endpoint → endpoint.body.entries = [] ∨
      valid_method endpoint.method = true ∧
        parse_url lib (request_url provider endpoint check_value endpoint_name) ≠ none := by
  have hpanic : request lib provider_name provider check_value endpoint_name = .error .nil_dereference ↔ _ :=
    request_with_panics_iff
  simp only [create_panics_iff] at hpanic
  have houtcome : ((∃ req, request lib provider_name provider check_value endpoint_name = .ok req) ∨
      ∃ err, request lib provider_name provider check_value endpoint_name = .error (.returned err)) ↔
      request lib provider_name provider check_value endpoint_name ≠ .error .nil_dereference := by
    rcases request lib provider_name provider check_value endpoint_name with (err | _) | req <;> simp
  simp only [houtcome, Ne, hpanic, not_exists, not_and]
  refine forall_congr' fun endpoint => imp_congr_right fun _ => ?_
  cases endpoint.body.entries <;> simp

/-- A provider at `http://h` that is asked by POST, with the value in the path and
in the body. -/
def posting_provider : Provider :=
  { base_url := [104, 116, 116, 112, 58, 47, 47, 104]
    headers := StringMap.empty
    endpoints := Finmap.singleton [105, 112]
      { categories := [99]
        method := [80, 79, 83, 84]
        path := [47, 123, 105, 112, 125]
        query := StringMap.empty
        body := ⟨[([105, 112], [123, 105, 112, 125])], by simp⟩ } }

/-- A URL library that rejects nothing but control bytes. -/
def lenient : Libraries := { url_well_formed := fun _ => true, canonical_header_key := id, json_marshal := fun _ => [] }

/-- A control byte in the value asked about takes the controller down. -/
theorem control_byte_panics : request lenient [112] posting_provider [1] [105, 112] = .error .nil_dereference := by
  refine request_with_panics_iff.mpr ⟨_, Finmap.lookup_singleton_eq, create_panics_iff.mpr ⟨by simp, .inr ?_⟩⟩
  rfl

section Refinement

variable {lib : Libraries} {env : Env} {http_do : HttpRequest → Option (ℕ × Str)} {provider_name : Str}
  {provider : Provider} {summary : service.Provider} {check_value endpoint_name : Str}

/-- `service.request` is this client with the network behind it, as long as the
environment answers as the network answers the request that is handed over. -/
theorem service_request_eq
    (hendpoints : ∀ name, summary.endpoints.lookup name = (provider.endpoints.lookup name).map Endpoint.toEndpoint)
    (henv : env.http_do provider_name check_value endpoint_name =
      (request lib provider_name provider check_value endpoint_name).toOption.bind http_do) :
    service.request env provider_name summary check_value endpoint_name =
      ((request lib provider_name provider check_value endpoint_name).toOption.bind http_do).map
        fun (status_code, bytes) => { status_code, body := { bytes, closed := false } } := by
  rw [service.request, hendpoints, ← henv]
  cases hlookup : provider.endpoints.lookup endpoint_name with
  | none =>
    have hnone : request lib provider_name provider check_value endpoint_name =
        .error (.returned (.unsupported_endpoint provider_name endpoint_name)) := by
      simp [request, request_with, hlookup]
    rw [henv, hnone]
    rfl
  | some endpoint => rfl

end Refinement

end grpc_server.service.client
