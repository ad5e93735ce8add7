import GrpcServer.CMemory.CString
import GrpcServer.TtlCache.Store

open c_memory ttl_cache

namespace grpc_server.service

/-- A decoded JSON value. An object lists its members in the order a `range` over
the Go map visits them. -/
inductive Json where
  | null
  | bool (b : Bool)
  | number (literal : Str)
  | string (s : Str)
  | array (items : List Json)
  | object (members : List (Str × Json))

/-- `models.Category`. `mappings` lists the map in the order a `range` visits it. -/
structure Category where
  id : ℤ
  name : Str
  trust_level : ℤ
  mappings : List (Str × List Str)

/-- `models.Endpoint`; its other fields only shape the request. -/
structure Endpoint where
  categories : Str

structure Provider where
  endpoints : Finmap fun _ : Str => Endpoint

structure Service where
  providers : Finmap fun _ : Str => Provider
  categories : List Category

/-- An `io.ReadCloser`. -/
structure Body where
  bytes : Str
  closed : Bool

structure Response where
  status_code : ℕ
  body : Body

/-- The libraries and the network. `http_do` gives the status and the body of a
provider's reply to a request about a value, or an error; `json_decode` reads the
first value of a stream; `sprint` is `fmt.Sprint`. -/
structure Env where
  http_do : Str → Str → Str → Option (ℕ × Str)
  json_decode : Str → Option Json
  sprint : Json → Str

inductive ExtractError where
  | empty_path
  | part_not_found (part : Str)
  | not_an_object (part : Str) (got : Json)
  | path_not_found (path : Str)
  | unexpected_type (got : Json)

def convert_to_string_slice (sprint : Json → Str) : Json → Except ExtractError (List Str)
  | .array items => .ok (items.map sprint)
  | .object members => .ok (members.map fun member => sprint member.2)
  | .string s => .ok [s]
  | val => .error (.unexpected_type val)

/-- The loop of `ExtractCategories` over the parts of the path. -/
def extract_parts (sprint : Json → Str) (path : Str) : List (Str × Json) → List Str → Except ExtractError (List Str)
  | _, [] => .error (.path_not_found path)
  | current, part :: rest =>
    match current.lookup part with
    | none => .error (.part_not_found part)
    | some val =>
      if rest.isEmpty then convert_to_string_slice sprint val
      else
        match val with
        | .object next => extract_parts sprint path next rest
        | _ => .error (.not_an_object part val)

def extract_categories (sprint : Json → Str) (data : List (Str × Json)) (path : Str) :
    Except ExtractError (List Str) :=
  if path = [] then .error .empty_path else extract_parts sprint path data (path.splitOn 46)

structure CategoryInfo where
  id : ℤ
  mappings : List Str

/-- `providerCategories[provider] = append(providerCategories[provider], info)`. -/
def append_info (provider_categories : Finmap fun _ : Str => List CategoryInfo) (provider : Str)
    (info : CategoryInfo) : Finmap fun _ : Str => List CategoryInfo :=
  provider_categories.insert provider ((provider_categories.lookup provider).getD [] ++ [info])

/-- The categories regrouped by provider. -/
def provider_categories (categories : List Category) : Finmap fun _ : Str => List CategoryInfo :=
  categories.foldl (fun groups category =>
    category.mappings.foldl (fun groups mapping => append_info groups mapping.1 ⟨category.id, mapping.2⟩) groups) ∅

def has_intersection (a b : List Str) : Bool := a.any fun v => b.contains v

def Body.close (body : Body) : Body := { body with closed := true }

/-- Reading a closed body is an error. -/
def Body.read (body : Body) : Option Str := if body.closed then none else some body.bytes

/-- `Decode(&data)` into a `map[string]interface{}`, which `null` leaves empty. -/
def decode (env : Env) (body : Body) : Option (List (Str × Json)) :=
  match body.read.bind env.json_decode with
  | some (.object members) => some members
  | some .null => some []
  | _ => none

def request (env : Env) (provider_name : Str) (provider : Provider) (check_value endpoint_name : Str) :
    Option Response :=
  match provider.endpoints.lookup endpoint_name with
  | none => none
  | some _ =>
    (env.http_do provider_name check_value endpoint_name).map fun (status_code, bytes) =>
      { status_code, body := { bytes, closed := false } }

/-- What the body of the loop over the providers comes to: the strings of the
provider, or `none` where it goes on to the next. `read_reply` is what it does
with the response's body up to the decoded data. -/
def provider_strings (env : Env) (read_reply : Body → Option (List (Str × Json))) (svc : Service)
    (check_value endpoint_name provider_name : Str) : Option (List Str) :=
  match svc.providers.lookup provider_name with
  | none => none
  | some provider =>
    match request env provider_name provider check_value endpoint_name with
    | none => none
    | some resp =>
      if resp.status_code ≠ 200 then none
      else
        match read_reply resp.body with
        | none => none
        | some data =>
          let category_path := ((provider.endpoints.lookup endpoint_name).map Endpoint.categories).getD []
          (extract_categories env.sprint data category_path).toOption

/-- `foundIDs` after the categories of one provider. -/
def find_categories (actual : List Str) (found_ids : Finset ℤ) (infos : List CategoryInfo) : Finset ℤ :=
  infos.foldl (fun found_ids info =>
    if has_intersection info.mappings actual then insert info.id found_ids else found_ids) found_ids

/-- `foundIDs` after one round of the loop over the providers. -/
def visit_provider (strings : Str → Option (List Str)) (found_ids : Finset ℤ)
    (visit : Sigma fun _ : Str => List CategoryInfo) : Finset ℤ :=
  match strings visit.1 with
  | none => found_ids
  | some actual => find_categories actual found_ids visit.2

/-- `foundIDs` after all providers, in the order they are visited. -/
def found_ids (strings : Str → Option (List Str)) (visits : List (Sigma fun _ : Str => List CategoryInfo)) :
    Finset ℤ :=
  visits.foldl (visit_provider strings) ∅

/-- The body is closed before it is decoded. -/
def read_closed (env : Env) (body : Body) : Option (List (Str × Json)) := decode env body.close

/-- `result` is what `Check` returns for some order in which Go iterates its maps. -/
def Check (svc : Service) (env : Env) (check_value endpoint_name : Str) (result : List ℤ) : Prop :=
  ∃ visits, Enumerates visits (provider_categories svc.categories) ∧ result.Nodup ∧
    result.toFinset = found_ids (provider_strings env (read_closed env) svc check_value endpoint_name) visits

/-- `GetCategory`: the name and the trust level of the first category with the ID. -/
def get_category (svc : Service) (id : ℤ) : Str × ℤ :=
  match svc.categories.find? (·.id == id) with
  | some category => (category.name, category.trust_level)
  | none => ([], 0)

end grpc_server.service
