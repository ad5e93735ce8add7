import GrpcServer.CMemory.CString
import GrpcServer.Leftmost

open c_memory leftmost

namespace grpc_server.service

/-- The text in front of the name of a variable. -/
def opening : Str := [36, 123, 101, 110, 118, 58]

/-- The text of a reference to an environment variable. -/
def reference (name : Str) : Str := opening ++ name ++ [125]

/-- A match of the regular expression at the front of a text, with the group of the
name. `[^}]+` extends to the next closing brace. -/
def find_reference (s : Str) : Option Str :=
  if opening.isPrefixOf s then
    let name := (s.drop opening.length).takeWhile (· != 125)
    if name ≠ [] ∧ opening.length + name.length < s.length then some name else none
  else none

theorem find_reference_eq_some {s name : Str} :
    find_reference s = some name ↔ name ≠ [] ∧ (∀ b ∈ name, b ≠ 125) ∧ ∃ rest, s = reference name ++ rest := by
  unfold find_reference
  constructor
  · intro h
    split at h
    · rename_i hstart
      obtain ⟨body, rfl⟩ := List.isPrefixOf_iff_prefix.mp hstart
      simp only [List.drop_left, List.length_append, Nat.add_lt_add_iff_left] at h
      split at h
      · rename_i hname
        cases h
        obtain ⟨hne, hlen⟩ := hname
        refine ⟨hne, fun b hb => by simpa using List.mem_takeWhile_imp hb, ?_⟩
        -- the name ends in front of the body's end, and there at a brace
        have hsplit := List.takeWhile_append_dropWhile (p := (· != 125)) (l := body)
        cases hdrop : body.dropWhile (· != 125) with
        | nil =>
          rw [hdrop, List.append_nil] at hsplit
          rw [hsplit] at hlen
          omega
        | cons b rest =>
          have hb := List.head_dropWhile_not (· != 125) (l := body) (by simp [hdrop])
          simp only [hdrop, List.head_cons, bne_eq_false_iff_eq] at hb
          rw [hdrop, hb] at hsplit
          refine ⟨rest, ?_⟩
          rw [reference, List.append_assoc, List.append_assoc, List.singleton_append, hsplit]
      · cases h
    · cases h
  · rintro ⟨hne, hbrace, rest, rfl⟩
    have hbody : reference name ++ rest = opening ++ (name ++ 125 :: rest) := by simp [reference]
    have hwhile : (name ++ 125 :: rest).takeWhile (· != 125) = name := by
      rw [List.takeWhile_append_of_pos (by simpa using hbrace), List.takeWhile_cons_of_neg (by simp), List.append_nil]
    rw [hbody, if_pos (List.isPrefixOf_iff_prefix.mpr (List.prefix_append _ _)), List.drop_left, hwhile]
    rw [if_pos ⟨hne, by simp⟩]

/-- The references as the tokens of a text. -/
def references : Tokens UInt8 Str where
  text := reference
  find := find_reference
  ne_nil s name _ := by simp [reference, opening]
  sound s name h := (find_reference_eq_some.mp h).2.2
  stable s name h rest := by
    obtain ⟨hne, hbrace, _⟩ := find_reference_eq_some.mp h
    exact find_reference_eq_some.mpr ⟨hne, hbrace, rest, rfl⟩

/-- `interpolateEnvVars`. An unset variable has an empty value. -/
def interpolate_env_vars (getenv : Str → Str) (data : Str) : Str := replace references getenv 0 data

/-- A file is in one way a sequence of bytes and references such that no other
reference starts at one of the bytes, and for every environment the result is that
sequence with the value for each reference, which is not looked at again. -/
theorem interpolate_env_vars_parts (data : Str) :
    ∃ parts, Proper references parts ∧ render references parts = data ∧
      (∀ other, Proper references other → render references other = data → other = parts) ∧
      ∀ getenv, interpolate_env_vars getenv data = fill getenv parts := by
  obtain ⟨parts, hproper, htext⟩ := exists_proper references data
  refine ⟨parts, hproper, htext, ?_, ?_⟩
  · intro other hother hsame
    exact proper_unique hother hproper (hsame.trans htext.symm)
  · intro getenv
    rw [interpolate_env_vars, ← htext, replace_render getenv hproper]

end grpc_server.service
