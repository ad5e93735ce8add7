import GrpcServer.AdminServer

open c_memory
open grpc_server.grpcserver (text)

namespace grpc_server.manager

/-- A value of a TOML document. -/
inductive TomlValue
  | string (s : Str)
  | integer (n : ℤ)
  | float
  | boolean (b : Bool)
  | datetime
  | array (items : List TomlValue)
  | table (entries : List (Str × TomlValue))

/-- The entries of a table. A parser gives a key once. -/
abbrev TomlTable := List (Str × TomlValue)

def to_string : TomlValue → Option Str
  | .string s => some s
  | _ => none

def InInt32 (n : ℤ) : Prop := -2 ^ 31 ≤ n ∧ n < 2 ^ 31

instance (n : ℤ) : Decidable (InInt32 n) := inferInstanceAs (Decidable (_ ∧ _))

def to_int32 : TomlValue → Option Int32
  | .integer n => if InInt32 n then some (Int32.ofInt n) else none
  | _ => none

def to_strings : TomlValue → Option (List Str)
  | .array items => items.mapM to_string
  | _ => none

/-- A Go map out of a table, value by value. -/
def to_map {α : Type} (convert : TomlValue → Option α) : TomlValue → Option (Finmap fun _ : Str => α)
  | .table entries => do
      let converted ← entries.mapM fun entry => (convert entry.2).map (entry.1, ·)
      return converted.foldl (fun filled entry => filled.insert entry.1 entry.2) ∅
  | _ => none

/-- A field of a struct: what stands under its tag, or its zero value. -/
def field {α : Type} (entries : TomlTable) (tag : String) (convert : TomlValue → Option α) (zero : α) : Option α :=
  match entries.lookup (text tag) with
  | none => some zero
  | some value => convert value

section Unmarshal

-- `extra` is what the library leaves in the map of the keys without a field.
variable {V : Type} (extra : TomlTable → Finmap fun _ : Str => V)

def to_rules : TomlValue → Option (TOMLRules V)
  | .table entries => do
      let block_categories ← field entries "block_categories" to_strings []
      let block_by_trust ← field entries "block_by_trust" (to_map to_int32) ∅
      let block_domains ← field entries "block_domains" to_strings []
      let allow_domains ← field entries "allow_domains" to_strings []
      let block_ips ← field entries "block_ips" to_strings []
      let allow_ips ← field entries "allow_ips" to_strings []
      let min_trust_level ← field entries "min_trust_level" (fun value => (to_int32 value).map some) none
      let ttl_ip ← field entries "ttl_ip" (fun value => (to_int32 value).map some) none
      let ttl_domain ← field entries "ttl_domain" (fun value => (to_int32 value).map some) none
      return { block_categories, block_by_trust, block_domains, allow_domains, block_ips, allow_ips,
               min_trust_level, ttl_ip, ttl_domain, extra := extra entries }
  | _ => none

/-- The struct around the global rules. -/
def to_global : TomlValue → Option (TOMLRules V)
  | .table entries => field entries "rules" (to_rules extra) TOMLRules.empty
  | _ => none

def to_config (document : TomlTable) : Option (TOMLConfig V) := do
  let global ← field document "global" (to_global extra) TOMLRules.empty
  let filters ← field document "filters" (to_map (to_rules extra)) ∅
  return { global, filters }

/-- `toml.Unmarshal` into a `TOMLConfig`: it fails on a text that is no document
and on a value that does not fit the field it is for, a key without a field is no
failure. -/
def unmarshal (parse : Str → Except Str TomlTable) (config_data : Str) : Option (TOMLConfig V) :=
  match parse config_data with
  | .error _ => none
  | .ok document => to_config extra document

end Unmarshal

/-- The value under `tag`, if there is one, is as `P` says. -/
def FieldIs (entries : TomlTable) (tag : String) (P : TomlValue → Prop) : Prop :=
  ∀ value, entries.lookup (text tag) = some value → P value

def IsString (value : TomlValue) : Prop := ∃ s, value = .string s

def IsInt32 (value : TomlValue) : Prop := ∃ n, value = .integer n ∧ InInt32 n

def IsStrings (value : TomlValue) : Prop := ∃ items, value = .array items ∧ ∀ item ∈ items, IsString item

/-- A table with values as `P` says. -/
def IsMap (P : TomlValue → Prop) (value : TomlValue) : Prop :=
  ∃ entries, value = .table entries ∧ ∀ entry ∈ entries, P entry.2

theorem isSome_mapM {α β : Type} (f : α → Option β) (xs : List α) :
    (xs.mapM f).isSome ↔ ∀ x ∈ xs, (f x).isSome := by
  induction xs with
  | nil => simp
  | cons x xs ih =>
    rw [List.mapM_cons, List.forall_mem_cons, ← ih]
    cases f x <;> cases xs.mapM f <;> simp

/-- Steps that fail for reasons of their own fail one by one. -/
theorem isSome_bind_iff {α β : Type} {x : Option α} {f : α → Option β} {p : Prop} (h : ∀ a, (f a).isSome ↔ p) :
    (x >>= f).isSome ↔ x.isSome ∧ p := by
  cases x with
  | none => simp
  | some a => simpa using h a

theorem isSome_to_string (value : TomlValue) : (to_string value).isSome ↔ IsString value := by
  cases value <;> simp [to_string, IsString]

theorem isSome_to_int32 (value : TomlValue) : (to_int32 value).isSome ↔ IsInt32 value := by
  cases value with
  | integer n => simp [to_int32, IsInt32]
  | _ => simp [to_int32, IsInt32]

theorem isSome_to_strings (value : TomlValue) : (to_strings value).isSome ↔ IsStrings value := by
  cases value with
  | array items => simp [to_strings, IsStrings, isSome_mapM, isSome_to_string]
  | _ => simp [to_strings, IsStrings]

theorem isSome_to_map {α : Type} {convert : TomlValue → Option α} {P : TomlValue → Prop}
    (h : ∀ value, (convert value).isSome ↔ P value) (value : TomlValue) :
    (to_map convert value).isSome ↔ IsMap P value := by
  cases value with
  | table entries =>
    have hmap : (to_map convert (.table entries)).isSome ↔ _ ∧ True := isSome_bind_iff fun _ => by simp
    rw [hmap, isSome_mapM]
    simp [IsMap, h]
  | _ => simp [to_map, IsMap]

theorem isSome_field {α : Type} {convert : TomlValue → Option α} {P : TomlValue → Prop}
    (h : ∀ value, (convert value).isSome ↔ P value) (entries : TomlTable) (tag : String) (zero : α) :
    (field entries tag convert zero).isSome ↔ FieldIs entries tag P := by
  unfold field FieldIs
  cases entries.lookup (text tag) with
  | none => simp
  | some value => simp [h]

/-- What the fields of a `TOMLRules` ask of a table. -/
structure FitsRules (entries : TomlTable) : Prop where
  block_categories : FieldIs entries "block_categories" IsStrings
  block_by_trust : FieldIs entries "block_by_trust" (IsMap IsInt32)
  block_domains : FieldIs entries "block_domains" IsStrings
  allow_domains : FieldIs entries "allow_domains" IsStrings
  block_ips : FieldIs entries "block_ips" IsStrings
  allow_ips : FieldIs entries "allow_ips" IsStrings
  min_trust_level : FieldIs entries "min_trust_level" IsInt32
  ttl_ip : FieldIs entries "ttl_ip" IsInt32
  ttl_domain : FieldIs entries "ttl_domain" IsInt32

/-- What a `TOMLRules` can be read from. -/
def IsRules (value : TomlValue) : Prop := ∃ entries, value = .table entries ∧ FitsRules entries

def IsGlobal (value : TomlValue) : Prop := ∃ entries, value = .table entries ∧ FieldIs entries "rules" IsRules

section Accepted

variable {V : Type} (extra : TomlTable → Finmap fun _ : Str => V)

theorem isSome_to_rules (value : TomlValue) : (to_rules extra value).isSome ↔ IsRules value := by
  cases value with
  | table entries =>
    have hint : ∀ value, ((to_int32 value).map some).isSome ↔ IsInt32 value := fun value => by
      rw [Option.isSome_map, isSome_to_int32]
    have hfields : (to_rules extra (.table entries)).isSome ↔ _ :=
      isSome_bind_iff fun _ => isSome_bind_iff fun _ => isSome_bind_iff fun _ => isSome_bind_iff fun _ =>
        isSome_bind_iff fun _ => isSome_bind_iff fun _ => isSome_bind_iff fun _ => isSome_bind_iff fun _ =>
        isSome_bind_iff fun _ => Iff.of_eq (eq_true rfl)
    rw [hfields]
    simp only [isSome_field isSome_to_strings, isSome_field (isSome_to_map isSome_to_int32), isSome_field hint]
    constructor
    · rintro ⟨hcategories, htrust, hblock, hallow, hblock_ips, hallow_ips, hmin, httl_ip, httl_domain, _⟩
      exact ⟨entries, rfl, hcategories, htrust, hblock, hallow, hblock_ips, hallow_ips, hmin, httl_ip, httl_domain⟩
    · rintro ⟨_, htable, h⟩
      cases htable
      exact ⟨h.block_categories, h.block_by_trust, h.block_domains, h.allow_domains, h.block_ips, h.allow_ips,
        h.min_trust_level, h.ttl_ip, h.ttl_domain, trivial⟩
  | _ => simp [to_rules, IsRules]

theorem isSome_to_global (value : TomlValue) : (to_global extra value).isSome ↔ IsGlobal value := by
  cases value with
  | table entries => simp [to_global, IsGlobal, isSome_field (isSome_to_rules extra)]
  | _ => simp [to_global, IsGlobal]

theorem isSome_to_config (document : TomlTable) :
    (to_config extra document).isSome ↔
      FieldIs document "global" IsGlobal ∧ FieldIs document "filters" (IsMap IsRules) := by
  have hfields : (to_config extra document).isSome ↔ _ :=
    isSome_bind_iff fun _ => isSome_bind_iff fun _ => Iff.of_eq (eq_true rfl)
  rw [hfields, isSome_field (isSome_to_global extra), isSome_field (isSome_to_map (isSome_to_rules extra)), and_true]

theorem isSome_unmarshal (parse : Str → Except Str TomlTable) (config_data : Str) :
    (unmarshal extra parse config_data).isSome ↔
      ∃ document, parse config_data = .ok document ∧ FieldIs document "global" IsGlobal ∧
        FieldIs document "filters" (IsMap IsRules) := by
  rw [unmarshal]
  cases parse config_data with
  | error _ => simp
  | ok document => simp [isSome_to_config]

end Accepted

theorem update_config_fst {V : Type} (unmarshal : Str → Option (TOMLConfig V)) (config_data : Str)
    (pm : PolicyManager V) : (update_config unmarshal config_data pm).1 = (unmarshal config_data).isSome := by
  unfold update_config
  cases unmarshal config_data <;> rfl

end grpc_server.manager
