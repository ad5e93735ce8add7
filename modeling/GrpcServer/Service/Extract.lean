import GrpcServer.Service

open c_memory

namespace grpc_server.service

/-- Following the parts of a path from an object leads to a value: every part but
the last leads to another object. -/
inductive Reaches : List (Str × Json) → List Str → Json → Prop where
  | last {current : List (Str × Json)} {part : Str} {val : Json} (hval : current.lookup part = some val) :
      Reaches current [part] val
  | step {current next : List (Str × Json)} {part : Str} {rest : List Str} {val : Json}
      (hnext : current.lookup part = some (.object next)) (hrest : Reaches next rest val) :
      Reaches current (part :: rest) val

/-- The values that give strings. -/
inductive Json.Listing : Json → Prop where
  | array (items : List Json) : Listing (.array items)
  | object (members : List (Str × Json)) : Listing (.object members)
  | string (s : Str) : Listing (.string s)

/-- The strings of a value. Those of an object come in the order of a Go map. -/
inductive Prints (sprint : Json → Str) : Json → List Str → Prop where
  | array (items : List Json) : Prints sprint (.array items) (items.map sprint)
  | object {members : List (Str × Json)} {result : List Str}
      (hresult : result.Perm (members.map fun member => sprint member.2)) : Prints sprint (.object members) result
  | string (s : Str) : Prints sprint (.string s) [s]

section Convert

variable {sprint : Json → Str} {val : Json}

theorem prints_of_convert {result : List Str} (h : convert_to_string_slice sprint val = .ok result) :
    Prints sprint val result := by
  cases val with
  | array items =>
    cases h
    exact .array items
  | object members =>
    cases h
    exact .object (List.Perm.refl _)
  | string s =>
    cases h
    exact .string s
  | null => cases h
  | bool => cases h
  | number => cases h

theorem convert_ok_iff (sprint : Json → Str) (val : Json) :
    (∃ result, convert_to_string_slice sprint val = .ok result) ↔ val.Listing := by
  constructor
  · rintro ⟨result, hresult⟩
    cases prints_of_convert hresult with
    | array items => exact .array items
    | object => exact .object _
    | string s => exact .string s
  · intro hlisting
    cases hlisting with
    | array items => exact ⟨_, rfl⟩
    | object members => exact ⟨_, rfl⟩
    | string s => exact ⟨_, rfl⟩

theorem convert_ne_path_not_found (val : Json) (path : Str) :
    convert_to_string_slice sprint val ≠ .error (.path_not_found path) := by
  intro h
  cases val with
  | _ => cases h

end Convert

section Follow

variable {sprint : Json → Str} {current : List (Str × Json)} {part : Str} {parts : List Str} {val : Json}

theorem reaches_singleton_iff : Reaches current [part] val ↔ current.lookup part = some val := by
  constructor
  · intro h
    cases h with
    | last hval => exact hval
    | step _ hrest => cases hrest
  · exact .last

theorem reaches_cons_iff (h : parts ≠ []) :
    Reaches current (part :: parts) val ↔ ∃ next, current.lookup part = some (.object next) ∧ Reaches next parts val := by
  constructor
  · intro hreaches
    cases hreaches with
    | last => exact absurd rfl h
    | step hnext hrest => exact ⟨_, hnext, hrest⟩
  · rintro ⟨next, hnext, hrest⟩
    exact .step hnext hrest

/-- A round of the loop that is not the last. -/
theorem extract_parts_cons (path : Str) (h : parts ≠ []) :
    extract_parts sprint path current (part :: parts) =
      match current.lookup part with
      | none => .error (.part_not_found part)
      | some (.object next) => extract_parts sprint path next parts
      | some val => .error (.not_an_object part val) := by
  rw [extract_parts]
  cases current.lookup part with
  | none => rfl
  | some val =>
    simp only [List.isEmpty_eq_false_iff.mpr h, Bool.false_eq_true, if_false]
    cases val <;> rfl

/-- The last round. -/
theorem extract_parts_singleton (path : Str) :
    extract_parts sprint path current [part] =
      match current.lookup part with
      | none => .error (.part_not_found part)
      | some val => convert_to_string_slice sprint val := by
  rw [extract_parts]
  rfl

theorem extract_parts_ok_iff (path : Str) {result : List Str} :
    extract_parts sprint path current parts = .ok result ↔
      ∃ val, Reaches current parts val ∧ convert_to_string_slice sprint val = .ok result := by
  induction parts generalizing current with
  | nil =>
    rw [extract_parts]
    refine iff_of_false nofun ?_
    rintro ⟨val, hreaches, -⟩
    cases hreaches
  | cons part parts ih =>
    by_cases hlast : parts = []
    · subst hlast
      simp only [reaches_singleton_iff, extract_parts_singleton]
      cases current.lookup part <;> simp
    · simp only [reaches_cons_iff hlast, extract_parts_cons path hlast]
      cases hval : current.lookup part with
      | none => simp
      | some val =>
        cases val with
        | object next => simp [ih]
        | _ => simp

/-- The error behind the loop. -/
theorem extract_parts_ne_path_not_found (path : Str) (h : parts ≠ []) (other : Str) :
    extract_parts sprint path current parts ≠ .error (.path_not_found other) := by
  induction parts generalizing current with
  | nil => exact absurd rfl h
  | cons part parts ih =>
    by_cases hlast : parts = []
    · subst hlast
      rw [extract_parts_singleton]
      cases current.lookup part with
      | none => simp
      | some val => exact convert_ne_path_not_found val other
    · rw [extract_parts_cons path hlast]
      cases current.lookup part with
      | none => simp
      | some val =>
        cases val with
        | object next => exact ih hlast
        | _ => simp

end Follow

/-- It succeeds if and only if the path is not empty and its parts lead from the root
through objects to an array, an object or a string; the strings are then those of the
value they lead to. The error behind the loop is never returned. -/
theorem extract_categories_exact (sprint : Json → Str) (data : List (Str × Json)) (path : Str) :
    ((∃ result, extract_categories sprint data path = .ok result) ↔
      path ≠ [] ∧ ∃ val, Reaches data (path.splitOn 46) val ∧ val.Listing) ∧
    (∀ result, extract_categories sprint data path = .ok result →
      ∃ val, Reaches data (path.splitOn 46) val ∧ Prints sprint val result) ∧
    ∀ other, extract_categories sprint data path ≠ .error (.path_not_found other) := by
  by_cases hpath : path = []
  · have herror : extract_categories sprint data path = .error .empty_path := if_pos hpath
    rw [herror]
    exact ⟨iff_of_false nofun fun h => h.1 hpath, nofun, nofun⟩
  · have hparts : extract_categories sprint data path = extract_parts sprint path data (path.splitOn 46) :=
      if_neg hpath
    rw [hparts]
    refine ⟨?_, ?_, ?_⟩
    · simp only [extract_parts_ok_iff, ← convert_ok_iff sprint]
      constructor
      · rintro ⟨result, val, hreaches, hresult⟩
        exact ⟨hpath, val, hreaches, result, hresult⟩
      · rintro ⟨-, val, hreaches, result, hresult⟩
        exact ⟨result, val, hreaches, hresult⟩
    · intro result hresult
      obtain ⟨val, hreaches, hconvert⟩ := (extract_parts_ok_iff path).mp hresult
      exact ⟨val, hreaches, prints_of_convert hconvert⟩
    · exact extract_parts_ne_path_not_found path (List.splitOn_ne_nil 46 path)

end grpc_server.service
