import GrpcServer.Manager.Unmarshal

open c_memory grpc_server.manager
open grpc_server.grpcserver (text AdminServer main_server serve serve_concat serve_consistent)

namespace grpc_server.admin

/-- What an operation on a value of the wrong kind raises. Nothing in
`validate_config` catches it. -/
inductive Raised
  | type_error
  | key_error
  deriving DecidableEq

abbrev Errors := Except Raised (List Str)

/-- Python's `key in value`: the keys of a dict, the items of a list, the
substrings of a str. -/
def contains (key : String) : TomlValue → Except Raised Bool
  | .table entries => .ok (entries.lookup (text key)).isSome
  | .array items => .ok (items.any fun item => match item with
      | .string s => s == text key
      | _ => false)
  | .string s => .ok (decide (text key <:+: s))
  | _ => .error .type_error

/-- Python's `value[key]`. A list and a str take no str as an index. -/
def getitem (key : String) : TomlValue → Except Raised TomlValue
  | .table entries => match entries.lookup (text key) with
      | some value => .ok value
      | none => .error .key_error
  | _ => .error .type_error

/-- The statements of `validate_config` append to one list of errors, and an
exception ends them all. -/
def and_then (first second : Errors) : Errors := do
  let errors ← first
  let more ← second
  return errors ++ more

/-- `if key in rules` and a test of `rules[key]`, whose complaint follows the
key's name. -/
def check_field (rules : TomlValue) (label : Str) (key : String) (complaint : TomlValue → Option String) : Errors := do
  if ← contains key rules then
    match complaint (← getitem key rules) with
    | none => return []
    | some message => return [label ++ text key ++ text message]
  else return []

def not_a_list : TomlValue → Option String
  | .array _ => none
  | _ => some " must be a list"

def not_a_table : TomlValue → Option String
  | .table _ => none
  | _ => some " must be a table"

/-- `isinstance(value, int)` holds of a bool, and neither `True` nor `False` is
below 0. -/
def not_a_level : TomlValue → Option String
  | .integer n => if n < 0 then some " must be >= 0" else none
  | .boolean _ => none
  | _ => some " must be an integer"

/-- The checks of the global rules and of a filter, which differ in the label of
their messages. -/
def check_rules (label : Str) (rules : TomlValue) : Errors :=
  and_then (check_field rules label "block_categories" not_a_list) <|
  and_then (check_field rules label "block_domains" not_a_list) <|
  and_then (check_field rules label "allow_domains" not_a_list) <|
  and_then (check_field rules label "min_trust_level" not_a_level)
    (check_field rules label "block_by_trust" not_a_table)

def check_global (config : TomlTable) : Errors :=
  match config.lookup (text "global") with
  | none => .ok [text "Missing required section: 'global'"]
  | some global => do
      if ← contains "rules" global then check_rules (text "global.rules.") (← getitem "rules" global)
      else return [text "Missing 'global.rules' section"]

def check_filter (name : Str) : TomlValue → Errors
  | .table filter_config => check_rules (text "Filter '" ++ name ++ text "'.") (.table filter_config)
  | _ => .ok [text "Filter '" ++ name ++ text "' must be a table"]

/-- The loop over the filters, `filter_names` being those seen so far. -/
def check_each_filter (filter_names : List Str) : TomlTable → Errors
  | [] => .ok []
  | (name, filter_config) :: rest =>
      and_then (.ok (if name ∈ filter_names then [text "Duplicate filter name: '" ++ name ++ text "'"] else [])) <|
      and_then (check_filter name filter_config) (check_each_filter (name :: filter_names) rest)

def check_filters (config : TomlTable) : Errors :=
  match config.lookup (text "filters") with
  | none => .ok []
  | some (.table filters) => check_each_filter [] filters
  | some _ => .ok [text "'filters' must be a table"]

/-- The messages `validate_config` returns. `loads` decodes the bytes and parses
them, or gives the text of its exception. -/
def validate_config (loads : Str → Except Str TomlTable) (content : Str) : Errors :=
  match loads content with
  | .error e => .ok [text "Invalid TOML: " ++ e]
  | .ok config =>
      if config.isEmpty then .ok [text "Config file is empty"]
      else and_then (check_global config) (check_filters config)

/-- Nothing was complained about, and nothing raised. -/
def Passed (errors : Errors) : Prop := errors = .ok []

theorem passed_and_then (first second : Errors) : Passed (and_then first second) ↔ Passed first ∧ Passed second := by
  unfold Passed and_then
  cases first <;> cases second <;> simp [bind, Except.bind, pure, Except.pure]

theorem passed_check_field (entries : TomlTable) (label : Str) (key : String) (complaint : TomlValue → Option String) :
    Passed (check_field (.table entries) label key complaint) ↔
      FieldIs entries key fun value => complaint value = none := by
  unfold FieldIs check_field Passed
  cases hfield : entries.lookup (text key) with
  | none => simp [contains, hfield, bind, Except.bind, pure, Except.pure]
  | some value =>
    cases hcomplaint : complaint value <;>
      simp [contains, getitem, hfield, hcomplaint, bind, Except.bind, pure, Except.pure]

theorem not_a_list_eq_none (value : TomlValue) : not_a_list value = none ↔ ∃ items, value = .array items := by
  cases value <;> simp [not_a_list]

theorem not_a_table_eq_none (value : TomlValue) : not_a_table value = none ↔ ∃ entries, value = .table entries := by
  cases value <;> simp [not_a_table]

theorem not_a_level_eq_none (value : TomlValue) :
    not_a_level value = none ↔ (∃ n, value = .integer n ∧ 0 ≤ n) ∨ ∃ b, value = .boolean b := by
  cases value <;> simp [not_a_level]

theorem passed_check_rules (label : Str) (entries : TomlTable) :
    Passed (check_rules label (.table entries)) ↔
      FieldIs entries "block_categories" (fun value => ∃ items, value = .array items) ∧
      FieldIs entries "block_domains" (fun value => ∃ items, value = .array items) ∧
      FieldIs entries "allow_domains" (fun value => ∃ items, value = .array items) ∧
      FieldIs entries "min_trust_level" (fun value => (∃ n, value = .integer n ∧ 0 ≤ n) ∨ ∃ b, value = .boolean b) ∧
      FieldIs entries "block_by_trust" fun value => ∃ values, value = .table values := by
  simp only [check_rules, passed_and_then, passed_check_field, not_a_list_eq_none, not_a_level_eq_none,
    not_a_table_eq_none]

/-- A document passes with a table for `global` only, but its rules may be
anything that `in` takes. -/
theorem exists_rules_of_passed {config : TomlTable} (h : Passed (check_global config)) :
    ∃ global rules, config.lookup (text "global") = some (.table global) ∧
      global.lookup (text "rules") = some rules ∧ Passed (check_rules (text "global.rules.") rules) := by
  unfold check_global at h
  cases hglobal : config.lookup (text "global") with
  | none => simp [hglobal, Passed] at h
  | some value =>
    rw [hglobal] at h
    cases hcontains : contains "rules" value with
    | error raised => simp [Passed, hcontains, bind, Except.bind] at h
    | ok present =>
      cases present with
      | false => simp [Passed, hcontains, bind, Except.bind, pure, Except.pure] at h
      | true =>
        cases value with
        | table global =>
          obtain ⟨rules, hrules⟩ := Option.isSome_iff_exists.mp (Except.ok.inj hcontains)
          refine ⟨global, rules, rfl, hrules, ?_⟩
          simpa [hcontains, getitem, hrules, bind, Except.bind] using h
        | _ => simp [Passed, hcontains, getitem, bind, Except.bind] at h

theorem passed_check_filter {name : Str} {filter_config : TomlValue} (h : Passed (check_filter name filter_config)) :
    ∃ label entries, filter_config = .table entries ∧ Passed (check_rules label (.table entries)) := by
  cases filter_config with
  | table entries => exact ⟨_, entries, rfl, h⟩
  | _ => simp [check_filter, Passed] at h

theorem passed_check_each_filter {filter_names : List Str} {filters : TomlTable}
    (h : Passed (check_each_filter filter_names filters)) :
    IsMap (fun value => ∃ label entries, value = .table entries ∧ Passed (check_rules label (.table entries)))
      (.table filters) := by
  refine ⟨filters, rfl, ?_⟩
  induction filters generalizing filter_names with
  | nil => exact List.forall_mem_nil _
  | cons filter rest ih =>
    rw [check_each_filter, passed_and_then, passed_and_then] at h
    exact List.forall_mem_cons.mpr ⟨passed_check_filter h.2.1, ih h.2.2⟩

theorem passed_check_filters {config : TomlTable} (h : Passed (check_filters config)) :
    FieldIs config "filters"
      (IsMap fun value => ∃ label entries, value = .table entries ∧ Passed (check_rules label (.table entries))) := by
  intro value hvalue
  rw [check_filters, hvalue] at h
  cases value with
  | table filters => exact passed_check_each_filter h
  | _ => simp [Passed] at h

theorem passed_validate_config {loads : Str → Except Str TomlTable} {content : Str}
    (h : Passed (validate_config loads content)) :
    ∃ config, loads content = .ok config ∧ Passed (check_global config) ∧ Passed (check_filters config) := by
  unfold validate_config at h
  cases hloads : loads content with
  | error e => simp [hloads, Passed] at h
  | ok config =>
    rw [hloads] at h
    dsimp only at h
    split at h
    · simp [Passed] at h
    · exact ⟨config, rfl, (passed_and_then _ _).mp h⟩

/-- The items of a list are strings. -/
def StringItems (value : TomlValue) : Prop := ∀ items, value = .array items → ∀ item ∈ items, IsString item

/-- The values of a table fit an `int32`. -/
def Int32Values (value : TomlValue) : Prop := ∀ entries, value = .table entries → ∀ entry ∈ entries, IsInt32 entry.2

/-- No bool, and not too large for an `int32`. -/
def BelowInt32 (value : TomlValue) : Prop := ∃ n, value = .integer n ∧ n < 2 ^ 31

/-- What the controller asks of a table of rules and the validator does not look
at. -/
structure UncheckedRules (entries : TomlTable) : Prop where
  block_categories : FieldIs entries "block_categories" StringItems
  block_by_trust : FieldIs entries "block_by_trust" Int32Values
  block_domains : FieldIs entries "block_domains" StringItems
  allow_domains : FieldIs entries "allow_domains" StringItems
  block_ips : FieldIs entries "block_ips" IsStrings
  allow_ips : FieldIs entries "allow_ips" IsStrings
  min_trust_level : FieldIs entries "min_trust_level" BelowInt32
  ttl_ip : FieldIs entries "ttl_ip" IsInt32
  ttl_domain : FieldIs entries "ttl_domain" IsInt32

theorem fieldIs_congr {entries : TomlTable} {tag : String} {P Q R : TomlValue → Prop} (h : FieldIs entries tag P)
    (hcongr : ∀ value, P value → (Q value ↔ R value)) : FieldIs entries tag Q ↔ FieldIs entries tag R :=
  forall₂_congr fun value hvalue => hcongr value (h value hvalue)

theorem isStrings_array_iff (value : TomlValue) (h : ∃ items, value = .array items) :
    IsStrings value ↔ StringItems value := by
  obtain ⟨items, rfl⟩ := h
  simp [IsStrings, StringItems]

theorem isMap_table_iff (value : TomlValue) (h : ∃ entries, value = .table entries) :
    IsMap IsInt32 value ↔ Int32Values value := by
  obtain ⟨entries, rfl⟩ := h
  simp [IsMap, Int32Values]

theorem isInt32_level_iff (value : TomlValue)
    (h : (∃ n, value = .integer n ∧ 0 ≤ n) ∨ ∃ b, value = .boolean b) : IsInt32 value ↔ BelowInt32 value := by
  rcases h with ⟨n, rfl, hn⟩ | ⟨b, rfl⟩
  · simp only [IsInt32, BelowInt32, InInt32, TomlValue.integer.injEq, exists_eq_left']
    omega
  · simp [IsInt32, BelowInt32]

theorem fitsRules_iff {label : Str} {entries : TomlTable} (h : Passed (check_rules label (.table entries))) :
    FitsRules entries ↔ UncheckedRules entries := by
  obtain ⟨hcategories, hblock, hallow, hlevel, htrust⟩ := (passed_check_rules label entries).mp h
  have hcategories_iff := fieldIs_congr hcategories isStrings_array_iff
  have hblock_iff := fieldIs_congr hblock isStrings_array_iff
  have hallow_iff := fieldIs_congr hallow isStrings_array_iff
  have hlevel_iff := fieldIs_congr hlevel isInt32_level_iff
  have htrust_iff := fieldIs_congr htrust isMap_table_iff
  constructor
  · intro hfits
    exact ⟨hcategories_iff.mp hfits.block_categories, htrust_iff.mp hfits.block_by_trust,
      hblock_iff.mp hfits.block_domains, hallow_iff.mp hfits.allow_domains, hfits.block_ips, hfits.allow_ips,
      hlevel_iff.mp hfits.min_trust_level, hfits.ttl_ip, hfits.ttl_domain⟩
  · intro hrest
    exact ⟨hcategories_iff.mpr hrest.block_categories, htrust_iff.mpr hrest.block_by_trust,
      hblock_iff.mpr hrest.block_domains, hallow_iff.mpr hrest.allow_domains, hrest.block_ips, hrest.allow_ips,
      hlevel_iff.mpr hrest.min_trust_level, hrest.ttl_ip, hrest.ttl_domain⟩

/-- The global rules are a table, and fit where the checks leave them open. -/
def UncheckedGlobal (config : TomlTable) : Prop :=
  ∀ global rules, config.lookup (text "global") = some (.table global) →
    global.lookup (text "rules") = some rules → ∃ entries, rules = .table entries ∧ UncheckedRules entries

/-- The filters fit where the checks leave them open. -/
def UncheckedFilters (config : TomlTable) : Prop :=
  ∀ filters name entries, config.lookup (text "filters") = some (.table filters) →
    (name, TomlValue.table entries) ∈ filters → UncheckedRules entries

theorem fitsGlobal_iff {config : TomlTable} (h : Passed (check_global config)) :
    FieldIs config "global" IsGlobal ↔ UncheckedGlobal config := by
  obtain ⟨global, rules, hglobal, hrules, hpassed⟩ := exists_rules_of_passed h
  have hfits (entries : TomlTable) (htable : rules = .table entries) : FitsRules entries ↔ UncheckedRules entries :=
    @fitsRules_iff (text "global.rules.") entries (htable ▸ hpassed)
  constructor
  · intro hfield global' rules' hglobal' hrules'
    cases hglobal.symm.trans hglobal'
    cases hrules.symm.trans hrules'
    obtain ⟨_, htable, hrules_field⟩ := hfield _ hglobal
    cases htable
    obtain ⟨entries, hentries, hrest⟩ := hrules_field rules hrules
    exact ⟨entries, hentries, (hfits entries hentries).mp hrest⟩
  · intro hrest value hvalue
    cases hglobal.symm.trans hvalue
    refine ⟨global, rfl, fun rules' hrules' => ?_⟩
    cases hrules.symm.trans hrules'
    obtain ⟨entries, hentries, hunchecked⟩ := hrest global rules hglobal hrules
    exact ⟨entries, hentries, (hfits entries hentries).mpr hunchecked⟩

theorem fitsFilters_iff {config : TomlTable} (h : Passed (check_filters config)) :
    FieldIs config "filters" (IsMap IsRules) ↔ UncheckedFilters config := by
  have hpassed := passed_check_filters h
  constructor
  · intro hfield filters name entries hfilters hmem
    obtain ⟨_, htable, hrules⟩ := hfield _ hfilters
    cases htable
    obtain ⟨_, htable', hchecked⟩ := hpassed _ hfilters
    cases htable'
    obtain ⟨entries', hentries, hfits⟩ := hrules _ hmem
    cases hentries
    obtain ⟨label, _, hentries, hpass⟩ := hchecked _ hmem
    cases hentries
    exact (fitsRules_iff hpass).mp hfits
  · intro hrest value hvalue
    obtain ⟨filters, rfl, hchecked⟩ := hpassed value hvalue
    refine ⟨filters, rfl, fun filter hfilter => ?_⟩
    obtain ⟨label, entries, hentries, hpass⟩ := hchecked filter hfilter
    have hmem : (filter.1, TomlValue.table entries) ∈ filters := by rwa [← hentries]
    exact ⟨entries, hentries, (fitsRules_iff hpass).mpr (hrest filters filter.1 entries hvalue hmem)⟩

section Agreement

variable {V : Type} (extra : TomlTable → Finmap fun _ : Str => V)

theorem isSome_unmarshal_of_passed {loads : Str → Except Str TomlTable} {content : Str}
    (h : Passed (validate_config loads content)) :
    (unmarshal extra loads content).isSome ↔
      ∀ config, loads content = .ok config → UncheckedGlobal config ∧ UncheckedFilters config := by
  obtain ⟨config, hloads, hglobal, hfilters⟩ := passed_validate_config h
  rw [isSome_unmarshal, hloads]
  constructor
  · rintro ⟨_, hconfig, hfits_global, hfits_filters⟩ _ hconfig'
    cases hconfig
    cases hconfig'
    exact ⟨(fitsGlobal_iff hglobal).mp hfits_global, (fitsFilters_iff hfilters).mp hfits_filters⟩
  · intro hrest
    obtain ⟨hrest_global, hrest_filters⟩ := hrest config rfl
    exact ⟨config, rfl, (fitsGlobal_iff hglobal).mpr hrest_global, (fitsFilters_iff hfilters).mpr hrest_filters⟩

/-- The controller takes a configuration that the validator passed exactly when
what the validator does not look at fits too. Both parse the bytes to one
document. -/
theorem passed_config_accepted_iff (loads : Str → Except Str TomlTable) (content : Str) (pm : PolicyManager V)
    (hvalid : validate_config loads content = .ok []) :
    (update_config (unmarshal extra loads) content pm).1 = true ↔
      ∀ config, loads content = .ok config → UncheckedGlobal config ∧ UncheckedFilters config := by
  rw [update_config_fst]
  exact isSome_unmarshal_of_passed extra hvalid

end Agreement

/-- A parser that is asked about one text. -/
def loads_only (content : Str) (config : TomlTable) : Str → Except Str TomlTable := fun asked =>
  if asked = content then .ok config else .error []

/-- A document of global rules alone. -/
def global_rules (rules : TomlTable) : TomlTable :=
  [(text "global", .table [(text "rules", .table rules)])]

def one_address : Str := text "[global.rules]\nblock_ips = \"10.0.0.1\"\n"

def address_list : Str := text "[global.rules]\nblock_ips = [\"10.0.0.1\"]\nmin_trust_level = 3\n"

def loads_one_address : Str → Except Str TomlTable :=
  loads_only one_address (global_rules [(text "block_ips", .string (text "10.0.0.1"))])

def loads_address_list : Str → Except Str TomlTable :=
  loads_only address_list
    (global_rules [(text "block_ips", .array [.string (text "10.0.0.1")]), (text "min_trust_level", .integer 3)])

/-- An address where a list of them belongs is not noticed before the
controller. -/
theorem unchecked_field_rejected :
    validate_config loads_one_address one_address = .ok [] ∧
    (update_config (unmarshal (fun _ => ∅) loads_one_address) one_address
      (new_policy_manager : PolicyManager TomlValue)).1 = false := by
  constructor <;> decide +kernel

theorem address_list_accepted :
    validate_config loads_address_list address_list = .ok [] ∧
    (update_config (unmarshal (fun _ => ∅) loads_address_list) address_list
      (new_policy_manager : PolicyManager TomlValue)).1 = true ∧
    ∀ config, loads_address_list address_list = .ok config → UncheckedGlobal config ∧ UncheckedFilters config := by
  have hvalid : validate_config loads_address_list address_list = .ok [] := by decide +kernel
  have haccepted : (update_config (unmarshal (fun _ => ∅) loads_address_list) address_list
      (new_policy_manager : PolicyManager TomlValue)).1 = true := by decide +kernel
  exact ⟨hvalid, haccepted, (passed_config_accepted_iff _ _ _ _ hvalid).mp haccepted⟩

/-- How `AdminClient.load_config` ends. -/
inductive Outcome
  | raised (exception : Raised)
  | invalid (errors : List Str)
  | server_error (message : Str)
  | loaded

section Client

variable {V S : Type} (codec : Codec V S) (toml_error : Str → Str) (loads : Str → Except Str TomlTable)

/-- `AdminClient.load_config` and the server it talks to. -/
def load_config (content : Str) (s : AdminServer V) : Outcome × AdminServer V :=
  match validate_config loads content with
  | .error exception => (.raised exception, s)
  | .ok [] =>
      let (response, s) := grpcserver.load_config codec toml_error content s
      (if response.success then .loaded else .server_error response.error_message, s)
  | .ok errors => (.invalid errors, s)

/-- The server after an administrator has loaded one file after another. -/
def administer (contents : List Str) : AdminServer V :=
  contents.foldl (fun s content => (load_config codec toml_error loads content s).2) main_server

theorem load_config_of_passed {content : Str} (h : Passed (validate_config loads content)) (s : AdminServer V) :
    (load_config codec toml_error loads content s).2 = (grpcserver.load_config codec toml_error content s).2 := by
  rw [load_config, h]

theorem load_config_of_not_passed {content : Str} (h : ¬ Passed (validate_config loads content))
    (s : AdminServer V) : (load_config codec toml_error loads content s).2 = s := by
  rw [load_config]
  split
  · rfl
  · exact absurd ‹_› h
  · rfl

/-- The server sees the files that pass, in order. -/
theorem administer_eq_serve (contents : List Str) :
    administer codec toml_error loads contents =
      serve codec toml_error (contents.filter fun content => validate_config loads content = .ok []) := by
  induction contents using List.reverseRecOn with
  | nil => rfl
  | append_singleton contents last ih =>
    have hlast : administer codec toml_error loads (contents ++ [last]) =
        (load_config codec toml_error loads last (administer codec toml_error loads contents)).2 := by
      rw [administer, List.foldl_append]
      rfl
    rw [hlast, ih, List.filter_append]
    by_cases hpassed : Passed (validate_config loads last)
    · have hkept : [last].filter (fun content => validate_config loads content = .ok []) = [last] :=
        List.filter_cons_of_pos (decide_eq_true hpassed)
      rw [load_config_of_passed _ _ _ hpassed, hkept, serve_concat]
    · have hdropped : [last].filter (fun content => validate_config loads content = .ok []) = [] :=
        List.filter_cons_of_neg (by simpa [Passed] using hpassed)
      rw [load_config_of_not_passed _ _ _ hpassed, hdropped, List.append_nil]

/-- With the validator in front, the bytes the server stores are those it serves
as long as no file goes wrong where the validator does not look. -/
theorem administer_consistent {extra : TomlTable → Finmap fun _ : Str => V}
    (hcodec : codec.toml_unmarshal = unmarshal extra loads) {contents : List Str}
    (hfits : ∀ content ∈ contents, ∀ config, loads content = .ok config →
      UncheckedGlobal config ∧ UncheckedFilters config)
    (hpassed : ∃ content ∈ contents, Passed (validate_config loads content)) :
    (administer codec toml_error loads contents).Consistent codec := by
  have hsome : ∀ content ∈ contents, Passed (validate_config loads content) →
      (codec.toml_unmarshal content).isSome := by
    intro content hcontent hvalid
    rw [hcodec]
    exact (isSome_unmarshal_of_passed extra hvalid).mpr (hfits content hcontent)
  rw [administer_eq_serve]
  apply serve_consistent
  · intro before content after heq hnone
    have hmem : content ∈ contents.filter fun content => validate_config loads content = .ok [] := by
      rw [heq]
      exact List.mem_append_right _ List.mem_cons_self
    rw [List.mem_filter, decide_eq_true_eq] at hmem
    have hparsed := hsome content hmem.1 hmem.2
    rw [hnone] at hparsed
    cases hparsed
  · obtain ⟨content, hcontent, hvalid⟩ := hpassed
    refine ⟨content, ?_, hsome content hcontent hvalid⟩
    rw [List.mem_filter, decide_eq_true_eq]
    exact ⟨hcontent, hvalid⟩

end Client

/-- A controller that reads the one list of addresses. -/
def address_list_codec : Codec TomlValue Unit :=
  { toml_unmarshal := unmarshal (fun _ => ∅) loads_address_list
    new_struct := fun _ => none
    proto_marshal := fun _ => none
    proto_unmarshal := fun _ => none
    round_trip := by
      intro policy bytes h
      cases h }

/-- A file that is no TOML is refused, and the list of addresses behind it loaded. -/
theorem administer_consistent_address_list :
    (administer address_list_codec (fun _ => []) loads_address_list [[91], address_list]).Consistent
      address_list_codec := by
  have hvalid : validate_config loads_address_list address_list = .ok [] := by decide +kernel
  refine administer_consistent _ _ _ rfl ?_ ⟨address_list, by simp, hvalid⟩
  intro content hcontent config hloads
  rcases List.mem_cons.mp hcontent with rfl | hlast
  · rw [loads_address_list, loads_only, if_neg (by decide +kernel)] at hloads
    cases hloads
  · rw [List.mem_singleton.mp hlast] at hloads
    exact (isSome_unmarshal_of_passed (fun _ => (∅ : Finmap fun _ : Str => TomlValue)) hvalid).mp
      (by decide +kernel) config hloads

end grpc_server.admin
