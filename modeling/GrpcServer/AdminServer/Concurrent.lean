import GrpcServer.AdminServer

open c_memory transition grpc_server.manager grpc_server.protocol

namespace grpc_server.grpcserver

/-- How far a `LoadConfig` call has got: before its write of `configData`, before
it reads the field again, and with the result of `UpdateConfig`. -/
inductive LoadStage where
  | entered
  | written
  | updated (resp : LoadConfigResponse)
  | replied (resp : LoadConfigResponse)

structure LoadCall where
  config_data : Str
  stage : LoadStage

/-- The server and the calls it serves. `installed` are the bytes `UpdateConfig`
has made versions of. -/
structure Loading (V : Type) where
  server : AdminServer V
  calls : ℕ → Option LoadCall
  installed : List Str

inductive LoadAction where
  | arrive (n : ℕ) (config_data : Str)
  | write (n : ℕ)
  | update (n : ℕ)
  | reply (n : ℕ)

variable {V S : Type}

def Loading.start : Loading V := { server := main_server, calls := fun _ => none, installed := [] }

def Loading.set_call (s : Loading V) (n : ℕ) (c : LoadCall) : Loading V :=
  { s with calls := Function.update s.calls n (some c) }

section Step

variable (codec : Codec V S) (toml_error : Str → Str)

def load_step (s : Loading V) : LoadAction → Option (Loading V)
  | .arrive n config_data =>
    match s.calls n with
    | none => some (s.set_call n ⟨config_data, .entered⟩)
    | some _ => none
  | .write n =>
    match s.calls n with
    | some ⟨config_data, .entered⟩ =>
      some { s.set_call n ⟨config_data, .written⟩ with server := write_config_data config_data s.server }
    | _ => none
  | .update n =>
    match s.calls n with
    | some ⟨config_data, .written⟩ =>
      let (resp, server) := update_from_config_data codec toml_error s.server
      some { s.set_call n ⟨config_data, .updated resp⟩ with
        server
        installed := if resp.success then s.installed ++ [s.server.config_data] else s.installed }
    | _ => none
  | .reply n =>
    match s.calls n with
    | some ⟨config_data, .updated resp⟩ => some (s.set_call n ⟨config_data, .replied resp⟩)
    | _ => none

/-- What each action does, with the conditions it needs. -/
inductive LoadMoves (s : Loading V) : LoadAction → Loading V → Prop where
  | arrive {n : ℕ} {config_data : Str} (hfree : s.calls n = none) :
    LoadMoves s (.arrive n config_data) (s.set_call n ⟨config_data, .entered⟩)
  | write {n : ℕ} {config_data : Str} (hcall : s.calls n = some ⟨config_data, .entered⟩) :
    LoadMoves s (.write n)
      { s.set_call n ⟨config_data, .written⟩ with server := write_config_data config_data s.server }
  | update {n : ℕ} {config_data : Str} {resp : LoadConfigResponse} {server : AdminServer V}
    (hcall : s.calls n = some ⟨config_data, .written⟩)
    (hupdate : update_from_config_data codec toml_error s.server = (resp, server)) :
    LoadMoves s (.update n) { s.set_call n ⟨config_data, .updated resp⟩ with
      server
      installed := if resp.success then s.installed ++ [s.server.config_data] else s.installed }
  | reply {n : ℕ} {config_data : Str} {resp : LoadConfigResponse}
    (hcall : s.calls n = some ⟨config_data, .updated resp⟩) :
    LoadMoves s (.reply n) (s.set_call n ⟨config_data, .replied resp⟩)

end Step

variable {codec : Codec V S} {toml_error : Str → Str} {s next : Loading V}

theorem loadMoves_of_step {a : LoadAction} (h : load_step codec toml_error s a = some next) :
    LoadMoves codec toml_error s a next := by
  cases a with
  | arrive n config_data =>
    simp only [load_step] at h
    split at h
    · rename_i hfree
      cases h
      exact .arrive hfree
    · cases h
  | write n =>
    simp only [load_step] at h
    split at h
    · rename_i config_data hcall
      cases h
      exact .write hcall
    · cases h
  | update n =>
    simp only [load_step] at h
    split at h
    · rename_i config_data hcall
      cases h
      exact .update hcall rfl
    · cases h
  | reply n =>
    simp only [load_step] at h
    split at h
    · rename_i config_data resp hcall
      cases h
      exact .reply hcall
    · cases h

/-- Two uploads that `UpdateConfig` cannot confuse with effect: the same bytes, or
bytes of which neither parses. -/
def Alike (codec : Codec V S) (first second : Str) : Prop :=
  first = second ∨ codec.toml_unmarshal first = none ∧ codec.toml_unmarshal second = none

/-- No call writes `configData` between another call's write and its reading of
the field, unless the two uploads are alike. -/
def Undisturbed (codec : Codec V S) (s : Loading V) : LoadAction → Prop
  | .write n => ∀ c, s.calls n = some c → ∀ m d, m ≠ n → s.calls m = some d → d.stage = .written →
      Alike codec d.config_data c.config_data
  | _ => True

/-- A result that is the call's own. -/
def Own (codec : Codec V S) (installed : List Str) (config_data : Str) (resp : LoadConfigResponse) : Prop :=
  (resp.success = true ↔ (codec.toml_unmarshal config_data).isSome) ∧ (resp.success = true → config_data ∈ installed)

/-- What holds of a call at its stage. -/
def LoadCall.Sound (codec : Codec V S) (s : Loading V) (c : LoadCall) : Prop :=
  match c.stage with
  | .entered => True
  | .written => Alike codec c.config_data s.server.config_data
  | .updated resp | .replied resp => Own codec s.installed c.config_data resp

structure Separate (codec : Codec V S) (s : Loading V) : Prop where
  manager : ∃ m, s.server.manager = some m
  calls : ∀ n c, s.calls n = some c → c.Sound codec s

theorem separate_start : Separate codec (Loading.start : Loading V) := ⟨⟨new_manager, rfl⟩, nofun⟩

/-- The result of `UpdateConfig` is about the bytes the field holds. -/
theorem update_success_iff {server after : AdminServer V} {resp : LoadConfigResponse}
    (hmanager : ∃ m, server.manager = some m)
    (h : update_from_config_data codec toml_error server = (resp, after)) :
    (resp.success = true ↔ (codec.toml_unmarshal server.config_data).isSome) ∧
    after.config_data = server.config_data ∧ ∃ m, after.manager = some m := by
  obtain ⟨config_data, manager⟩ := server
  obtain ⟨m, hm⟩ := hmanager
  simp only at hm
  subst hm
  cases hparse : codec.toml_unmarshal config_data with
  | none =>
    rw [update_from_config_data_of_none hparse] at h
    cases h
    simp
  | some cfg =>
    rw [update_from_config_data_of_some hparse] at h
    cases h
    simp

/-- Alike uploads get the same result, and a successful one is installed. -/
theorem Alike.own {config_data found : Str} {resp : LoadConfigResponse} (h : Alike codec config_data found)
    (hresp : resp.success = true ↔ (codec.toml_unmarshal found).isSome) {installed : List Str} :
    Own codec (if resp.success then installed ++ [found] else installed) config_data resp := by
  rcases h with rfl | ⟨hfirst, hsecond⟩
  · refine ⟨hresp, fun hsuccess => ?_⟩
    rw [if_pos hsuccess]
    simp
  · have hfalse : ¬ resp.success = true := by simp [hresp, hsecond]
    exact ⟨by simp [hfalse, hfirst], fun hsuccess => absurd hsuccess hfalse⟩

theorem Own.mono {installed later : List Str} {config_data : Str} {resp : LoadConfigResponse}
    (h : Own codec installed config_data resp) (hsub : installed ⊆ later) : Own codec later config_data resp :=
  ⟨h.1, fun hsuccess => hsub (h.2 hsuccess)⟩

/-- A call keeps its soundness when the field it may still read and what it may
have installed are kept. -/
theorem LoadCall.Sound.mono {c : LoadCall} (h : c.Sound codec s)
    (hdata : c.stage = .written → Alike codec c.config_data next.server.config_data)
    (hsub : s.installed ⊆ next.installed) : c.Sound codec next := by
  obtain ⟨config_data, stage⟩ := c
  cases stage with
  | entered => trivial
  | written => exact hdata rfl
  | updated resp => exact Own.mono h hsub
  | replied resp => exact Own.mono h hsub

theorem Separate.of_set_call (h : Separate codec s) {n : ℕ} {c : LoadCall}
    (hcalls : next.calls = Function.update s.calls n (some c)) (hmanager : ∃ m, next.server.manager = some m)
    (hsub : s.installed ⊆ next.installed) (hself : c.Sound codec next)
    (hdata : ∀ m d, m ≠ n → s.calls m = some d → d.stage = .written →
      Alike codec d.config_data next.server.config_data) : Separate codec next := by
  refine ⟨hmanager, ?_⟩
  intro m d hd
  rw [hcalls] at hd
  by_cases heq : m = n
  · subst heq
    rw [Function.update_self] at hd
    cases hd
    exact hself
  · rw [Function.update_of_ne heq] at hd
    exact (h.calls m d hd).mono (hdata m d heq hd) hsub

theorem LoadCall.Sound.alike {c : LoadCall} (h : c.Sound codec s) (hstage : c.stage = .written) :
    Alike codec c.config_data s.server.config_data := by
  simpa only [LoadCall.Sound, hstage] using h

theorem Separate.step {a : LoadAction} (h : Separate codec s) (hallowed : Undisturbed codec s a)
    (hmove : LoadMoves codec toml_error s a next) : Separate codec next := by
  have hkept : ∀ m d, s.calls m = some d → d.stage = .written → Alike codec d.config_data s.server.config_data :=
    fun m d hd hstage => (h.calls m d hd).alike hstage
  cases hmove with
  | arrive hfree =>
    exact h.of_set_call rfl h.manager (List.Subset.refl _) trivial fun m d _ => hkept m d
  | write hcall =>
    exact h.of_set_call rfl h.manager (List.Subset.refl _) (Or.inl rfl) (hallowed _ hcall)
  | update hcall hupdate =>
    obtain ⟨hsuccess, hdata, hmanager⟩ := update_success_iff h.manager hupdate
    refine h.of_set_call rfl hmanager ?_ ?_ ?_
    · dsimp only
      split
      · exact List.subset_append_left _ _
      · exact List.Subset.refl _
    · exact (hkept _ _ hcall rfl).own hsuccess
    · intro m d _ hd hstage
      simp only [hdata]
      exact hkept m d hd hstage
  | reply hcall =>
    exact h.of_set_call rfl h.manager (List.Subset.refl _) (h.calls _ _ hcall) fun m d _ => hkept m d

/-- In every interleaving in which no write of `configData` falls between another
call's write and its reading of the field, unless the uploads are alike, a call
replies success exactly when its own bytes parse, and its bytes are then installed. -/
theorem load_config_own_result (codec : Codec V S) (toml_error : Str → Str) (acts : List LoadAction) (final : Loading V)
    (hmeets : Meets (load_step codec toml_error) (Undisturbed codec) Loading.start acts)
    (hrun : run (load_step codec toml_error) Loading.start acts = some final) (n : ℕ) (c : LoadCall)
    (resp : LoadConfigResponse) (hcall : final.calls n = some c) (hreplied : c.stage = .replied resp) :
    (resp.success = true ↔ (codec.toml_unmarshal c.config_data).isSome) ∧
    (resp.success = true → c.config_data ∈ final.installed) := by
  have hfinal : Separate codec final := run_invariant (Separate codec)
    (fun s a next h hallowed hstep => h.step hallowed (loadMoves_of_step hstep)) separate_start hmeets hrun
  simpa only [LoadCall.Sound, hreplied, Own] using hfinal.calls n c hcall

/-- A valid upload and a broken one that writes the field before the first call
reads it again. -/
def stolen : List LoadAction :=
  [.arrive 0 blocking_toml, .write 0, .arrive 1 [91], .write 1, .update 0, .reply 0]

/-- The valid upload is rejected because of the other one's bytes. -/
theorem load_config_stolen_result :
    ∃ final c resp, run (load_step sample_codec fun _ => []) (Loading.start : Loading Unit) stolen = some final ∧
      final.calls 0 = some c ∧ c.stage = .replied resp ∧ resp.success = false ∧
      (sample_codec.toml_unmarshal c.config_data).isSome = true :=
  ⟨_, _, _, rfl, rfl, rfl, rfl, rfl⟩

/-- The same two uploads, the second arriving before the first has replied but
writing after it has read the field. -/
theorem load_config_own_result_overlapping :
    let acts : List LoadAction :=
      [.arrive 0 blocking_toml, .write 0, .arrive 1 [91], .update 0, .write 1, .reply 0, .update 1, .reply 1]
    ∃ final : Loading Unit, run (load_step sample_codec fun _ => []) Loading.start acts = some final ∧
      blocking_toml ∈ final.installed := by
  intro acts
  have hmeets : Meets (load_step sample_codec fun _ => []) (Undisturbed sample_codec) Loading.start acts := by
    refine ⟨trivial, ?_⟩
    rintro _ ⟨⟩
    refine ⟨?_, ?_⟩
    · rintro c hc m d hm hd -
      rw [Loading.set_call] at hd
      simp [Function.update_of_ne hm, Loading.start] at hd
    rintro _ ⟨⟩
    refine ⟨trivial, ?_⟩
    rintro _ ⟨⟩
    refine ⟨trivial, ?_⟩
    rintro _ ⟨⟩
    refine ⟨?_, ?_⟩
    · rintro c hc m d hm hd hstage
      by_cases hzero : m = 0
      · subst hzero
        cases hd
        cases hstage
      · simp [Loading.set_call, Loading.start, Function.update_of_ne hm, Function.update_of_ne hzero] at hd
    rintro _ ⟨⟩
    refine ⟨trivial, ?_⟩
    rintro _ ⟨⟩
    refine ⟨trivial, ?_⟩
    rintro _ ⟨⟩
    exact ⟨trivial, fun _ _ => trivial⟩
  exact ⟨_, rfl, (load_config_own_result sample_codec (fun _ => []) acts _ hmeets rfl 0 _ _ rfl rfl).2 rfl⟩

end grpc_server.grpcserver
