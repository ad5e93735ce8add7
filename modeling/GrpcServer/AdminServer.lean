import GrpcServer.Protocol.Versions

open c_memory grpc_server.manager grpc_server.protocol

namespace grpc_server.grpcserver

/-- The bytes of a text of the source. -/
def text (s : String) : Str := s.toUTF8.toList

/-- `AdminServer`. The manager is the one the data server works with. -/
structure AdminServer (V : Type) where
  config_data : Str
  manager : Option (Manager V)

structure LoadConfigResponse where
  success : Bool
  error_message : Str

structure ToggleFilteringResponse where
  success : Bool
  message : Str

variable {V S : Type}

def new_admin_server : AdminServer V := { config_data := [], manager := none }

def set_manager (m : Manager V) (s : AdminServer V) : AdminServer V := { s with manager := some m }

/-- The servers `main` starts. -/
def main_server : AdminServer V := set_manager new_manager new_admin_server

/-- The first statement of `LoadConfig`. -/
def write_config_data (config_data : Str) (s : AdminServer V) : AdminServer V := { s with config_data }

section Load

variable (codec : Codec V S) (toml_error : Str → Str)

/-- The rest of `LoadConfig`, which reads the field again. -/
def update_from_config_data (s : AdminServer V) : LoadConfigResponse × AdminServer V :=
  match s.manager with
  | none => (⟨true, []⟩, s)
  | some m =>
    let (ok, m) := manager_update_config codec s.config_data m
    let s := { s with manager := some m }
    if ok then (⟨true, []⟩, s)
    else (⟨false, text "failed to update config " ++ toml_error s.config_data⟩, s)

def load_config (config_data : Str) (s : AdminServer V) : LoadConfigResponse × AdminServer V :=
  update_from_config_data codec toml_error (write_config_data config_data s)

end Load

def get_config_admin (s : AdminServer V) : Str := s.config_data

def toggle_filtering (worker_id : UInt64) (enabled : Bool) (s : AdminServer V) :
    ToggleFilteringResponse × AdminServer V :=
  match s.manager with
  | none => (⟨false, text "manager not initialized"⟩, s)
  | some m =>
    (⟨true, text "Filtering " ++ text (if enabled then "enabled" else "disabled") ++ text " for worker " ++
        (Nat.toDigits 10 worker_id.toNat).map fun c => c.toNat.toUInt8⟩,
      { s with manager := some (set_filtering_enabled worker_id enabled m) })

variable {codec : Codec V S} {toml_error : Str → Str}

theorem update_from_config_data_of_none {config_data : Str} {m : Manager V}
    (hparse : codec.toml_unmarshal config_data = none) :
    update_from_config_data codec toml_error ⟨config_data, some m⟩ =
      (⟨false, text "failed to update config " ++ toml_error config_data⟩, ⟨config_data, some m⟩) := by
  simp [update_from_config_data, manager_update_config, update_config_of_none _ hparse]

theorem update_from_config_data_of_some {config_data : Str} {m : Manager V} {cfg : TOMLConfig V}
    (hparse : codec.toml_unmarshal config_data = some cfg) :
    update_from_config_data codec toml_error ⟨config_data, some m⟩ =
      (⟨true, []⟩, ⟨config_data, some { m with
        policy_manager := { config := some cfg, version := m.policy_manager.version + 1 } }⟩) := by
  simp [update_from_config_data, manager_update_config, update_config_of_some _ hparse]

/-- The server after a sequence of `LoadConfig` requests. -/
def serve (codec : Codec V S) (toml_error : Str → Str) (loads : List Str) : AdminServer V :=
  loads.foldl (fun s config_data => (load_config codec toml_error config_data s).2) main_server

/-- The stored bytes parse to the configuration policies are built from. -/
def AdminServer.Consistent (codec : Codec V S) (s : AdminServer V) : Prop :=
  ∃ m, s.manager = some m ∧ codec.toml_unmarshal (get_config_admin s) = m.policy_manager.config

theorem serve_concat (loads : List Str) (config_data : Str) :
    serve codec toml_error (loads ++ [config_data]) =
      (load_config codec toml_error config_data (serve codec toml_error loads)).2 := by
  rw [serve, List.foldl_append]
  rfl

theorem serve_manager (codec : Codec V S) (toml_error : Str → Str) (loads : List Str) :
    ∃ m, (serve codec toml_error loads).manager = some m := by
  induction loads using List.reverseRecOn with
  | nil => exact ⟨new_manager, rfl⟩
  | append_singleton loads config_data ih =>
    obtain ⟨m, hm⟩ := ih
    rw [serve_concat, load_config, write_config_data, hm]
    cases hparse : codec.toml_unmarshal config_data with
    | none => exact ⟨m, by rw [update_from_config_data_of_none hparse]⟩
    | some cfg => exact ⟨_, by rw [update_from_config_data_of_some hparse]⟩

theorem load_config_failed {config_data : Str} (toml_error : Str → Str) (loads : List Str)
    (hparse : codec.toml_unmarshal config_data = none) :
    (load_config codec toml_error config_data (serve codec toml_error loads)).1.success = false ∧
    (load_config codec toml_error config_data (serve codec toml_error loads)).2 =
      write_config_data config_data (serve codec toml_error loads) := by
  obtain ⟨m, hm⟩ := serve_manager codec toml_error loads
  have hwritten : write_config_data config_data (serve codec toml_error loads) = ⟨config_data, some m⟩ := by
    rw [write_config_data, hm]
  rw [load_config, hwritten, update_from_config_data_of_none hparse]
  exact ⟨rfl, rfl⟩

theorem load_config_succeeded {config_data : Str} {cfg : TOMLConfig V} (loads : List Str)
    (hparse : codec.toml_unmarshal config_data = some cfg) :
    (load_config codec toml_error config_data (serve codec toml_error loads)).1.success = true ∧
    (load_config codec toml_error config_data (serve codec toml_error loads)).2.Consistent codec := by
  obtain ⟨m, hm⟩ := serve_manager codec toml_error loads
  rw [load_config, write_config_data, hm, update_from_config_data_of_some hparse]
  exact ⟨rfl, _, rfl, hparse⟩

/-- Once a load has succeeded, requests that leave the state alone when they fail
keep the two copies together. -/
theorem serve_consistent {loads : List Str}
    (hfailed : ∀ before config_data after, loads = before ++ config_data :: after →
      codec.toml_unmarshal config_data = none → config_data = get_config_admin (serve codec toml_error before))
    (hloaded : ∃ config_data ∈ loads, (codec.toml_unmarshal config_data).isSome) :
    (serve codec toml_error loads).Consistent codec := by
  induction loads using List.reverseRecOn with
  | nil =>
    obtain ⟨_, hmem, _⟩ := hloaded
    cases hmem
  | append_singleton loads last ih =>
    rw [serve_concat]
    cases hparse : codec.toml_unmarshal last with
    | some cfg => exact (load_config_succeeded loads hparse).2
    | none =>
      have hsame : last = get_config_admin (serve codec toml_error loads) := hfailed loads last [] rfl hparse
      rw [(load_config_failed _ loads hparse).2, hsame]
      apply ih
      · intro before config_data after heq
        exact hfailed before config_data (after ++ [last]) (by simp [heq])
      · obtain ⟨config_data, hmem, hsome⟩ := hloaded
        rcases List.mem_append.mp hmem with hmem | hmem
        · exact ⟨config_data, hmem, hsome⟩
        · rw [List.mem_singleton.mp hmem, hparse] at hsome
          cases hsome

/-- The admin view matches the served configuration, and a failed load leaves the
controller as it was, exactly when every request that does not parse carries the bytes
the server already holds. -/
theorem admin_view_matches_iff (codec : Codec V S) (toml_error : Str → Str) (loads : List Str) :
    ((∀ before config_data after, loads = before ++ config_data :: after →
        (load_config codec toml_error config_data (serve codec toml_error before)).1.success = false →
        (load_config codec toml_error config_data (serve codec toml_error before)).2 =
          serve codec toml_error before) ∧
      ∀ before after, loads = before ++ after →
        (∃ config_data ∈ before, (codec.toml_unmarshal config_data).isSome) →
        (serve codec toml_error before).Consistent codec) ↔
    ∀ before config_data after, loads = before ++ config_data :: after →
      codec.toml_unmarshal config_data = none →
      config_data = get_config_admin (serve codec toml_error before) := by
  constructor
  · rintro ⟨hunchanged, _⟩ before config_data after heq hparse
    obtain ⟨hfalse, hstate⟩ := load_config_failed toml_error before hparse
    have hkept := hunchanged before config_data after heq hfalse
    rw [hstate] at hkept
    exact congrArg AdminServer.config_data hkept
  · intro hfailed
    constructor
    · intro before config_data after heq hfalse
      cases hparse : codec.toml_unmarshal config_data with
      | some cfg =>
        rw [(load_config_succeeded before hparse).1] at hfalse
        cases hfalse
      | none =>
        rw [(load_config_failed _ before hparse).2, hfailed before config_data after heq hparse]
        rfl
    · intro before after heq hloaded
      apply serve_consistent _ hloaded
      intro first config_data rest hbefore
      exact hfailed first config_data (rest ++ after) (by simp [heq, hbefore])

/-- A rejected upload replaces the bytes `GetConfigAdmin` returns. -/
theorem admin_view_lost :
    let server := serve sample_codec (fun _ => []) [blocking_toml]
    (load_config sample_codec (fun _ => []) [91] server).1.success = false ∧
    get_config_admin (load_config sample_codec (fun _ => []) [91] server).2 ≠ get_config_admin server ∧
    ¬ (load_config sample_codec (fun _ => []) [91] server).2.Consistent sample_codec := by
  refine ⟨rfl, by decide, ?_⟩
  rintro ⟨m, hm, hparse⟩
  cases hm
  cases hparse

end grpc_server.grpcserver
