import Mathlib.Data.Finmap
import Mathlib.Tactic.Common

namespace ttl_cache

/-- A hash table as the finite map from keys to data that its interface
documents. -/
abbrev Table (K V : Type) := Finmap fun _ : K => V

inductive Lookup (V : Type) where
  | hit (value : V)
  | enoent
  | error

variable {K V : Type} [DecidableEq K]

/-- A lookup with lazy eviction: an expired entry answers like a missing one
and is deleted unless the deletion fails. -/
def lookup (expired : V → Bool) (evict : Bool) (key : K) (table : Table K V) : Lookup V × Table K V :=
  match table.lookup key with
  | none => (.enoent, table)
  | some value =>
    if expired value then (.enoent, if evict then table.erase key else table) else (.hit value, table)

/-- An insertion that replaces the data of a present key, or fails and changes
nothing. -/
def add (stored : Bool) (key : K) (value : V) (table : Table K V) : Table K V :=
  if stored then table.insert key value else table

theorem erase_insert_of_notMem {table : Table K V} {key : K} {value : V} (h : key ∉ table) :
    (table.insert key value).erase key = table := by
  apply Finmap.ext_lookup
  intro other
  by_cases heq : other = key
  · subst heq
    rw [Finmap.lookup_erase, Finmap.lookup_eq_none.mpr h]
  · rw [Finmap.lookup_erase_ne heq, Finmap.lookup_insert_of_ne _ heq]

/-- Every entry satisfies `P`. -/
def Holds (P : K → V → Prop) (table : Table K V) : Prop :=
  ∀ key value, table.lookup key = some value → P key value

theorem holds_empty (P : K → V → Prop) : Holds P (∅ : Table K V) := by
  intro key value h
  simp at h

theorem lookup_cases (expired : V → Bool) (evict : Bool) (key : K) (table : Table K V) :
    ((lookup expired evict key table).1 = .enoent ∧
      ((lookup expired evict key table).2 = table ∨ (lookup expired evict key table).2 = table.erase key)) ∨
    ∃ value, table.lookup key = some value ∧ expired value = false ∧
      lookup expired evict key table = (.hit value, table) := by
  unfold lookup
  cases hlookup : table.lookup key with
  | none => exact .inl ⟨rfl, .inl rfl⟩
  | some value =>
    cases hexpired : expired value with
    | false => exact .inr ⟨value, rfl, hexpired, by simp [hexpired]⟩
    | true =>
      cases evict with
      | false => exact .inl ⟨by simp [hexpired], .inl (by simp [hexpired])⟩
      | true => exact .inl ⟨by simp [hexpired], .inr (by simp [hexpired])⟩

theorem lookup_hit {expired : V → Bool} (evict : Bool) {key : K} {value : V} {table : Table K V}
    (hfound : table.lookup key = some value) (hfresh : expired value = false) :
    lookup expired evict key table = (.hit value, table) := by
  simp [lookup, hfound, hfresh]

theorem lookup_eq_hit {expired : V → Bool} {evict : Bool} {key : K} {value : V} {table : Table K V}
    (hhit : (lookup expired evict key table).1 = .hit value) :
    table.lookup key = some value ∧ expired value = false := by
  obtain ⟨henoent, _⟩ | ⟨found, hfound, hfresh, heq⟩ := lookup_cases expired evict key table
  · rw [henoent] at hhit
    cases hhit
  · rw [heq] at hhit
    cases hhit
    exact ⟨hfound, hfresh⟩

theorem lookup_enoent {expired : V → Bool} (evict : Bool) {key : K} {table : Table K V}
    (h : ∀ value, table.lookup key = some value → expired value = true) :
    (lookup expired evict key table).1 = .enoent := by
  obtain ⟨henoent, _⟩ | ⟨value, hvalue, hfresh, _⟩ := lookup_cases expired evict key table
  · exact henoent
  · rw [h value hvalue] at hfresh
    cases hfresh

/-- A stored entry that has not expired is found. -/
theorem lookup_add_self {expired : V → Bool} (evict : Bool) {key : K} {value : V} (table : Table K V)
    (hfresh : expired value = false) :
    lookup expired evict key (add true key value table) = (.hit value, add true key value table) :=
  lookup_hit evict (Finmap.lookup_insert table) hfresh

variable {P : K → V → Prop}

theorem Holds.mono {Q : K → V → Prop} {table : Table K V} (h : Holds P table)
    (himp : ∀ key value, P key value → Q key value) : Holds Q table :=
  fun key value hvalue => himp key value (h key value hvalue)

theorem Holds.erase {table : Table K V} (h : Holds P table) (key : K) : Holds P (table.erase key) := by
  intro other value hother
  by_cases heq : other = key
  · subst heq
    rw [Finmap.lookup_erase] at hother
    cases hother
  · rw [Finmap.lookup_erase_ne heq] at hother
    exact h other value hother

theorem Holds.lookup {table : Table K V} (h : Holds P table) (expired : V → Bool) (evict : Bool) (key : K) :
    Holds P (ttl_cache.lookup expired evict key table).2 := by
  obtain ⟨_, hkept | herased⟩ | ⟨value, _, _, heq⟩ := lookup_cases expired evict key table
  · rwa [hkept]
  · rw [herased]
    exact h.erase key
  · rwa [heq]

theorem Holds.answer {table : Table K V} (h : Holds P table) (expired : V → Bool) (evict : Bool) (key : K) :
    (ttl_cache.lookup expired evict key table).1 = .enoent ∨
      ∃ value, (ttl_cache.lookup expired evict key table).1 = .hit value ∧ P key value := by
  obtain ⟨henoent, _⟩ | ⟨value, hvalue, _, heq⟩ := lookup_cases expired evict key table
  · exact .inl henoent
  · exact .inr ⟨value, congrArg Prod.fst heq, h key value hvalue⟩

/-- Only an insertion that succeeds adds an entry. -/
theorem Holds.add_of {table : Table K V} (h : Holds P table) {stored : Bool} {key : K} {value : V}
    (hnew : stored = true → P key value) : Holds P (ttl_cache.add stored key value table) := by
  unfold ttl_cache.add
  cases stored with
  | false => exact h
  | true =>
    intro other found hother
    rw [if_pos rfl] at hother
    by_cases heq : other = key
    · subst heq
      rw [Finmap.lookup_insert] at hother
      cases hother
      exact hnew rfl
    · rw [Finmap.lookup_insert_of_ne _ heq] at hother
      exact h other found hother

theorem Holds.add {table : Table K V} (h : Holds P table) (stored : Bool) {key : K} {value : V}
    (hnew : P key value) : Holds P (ttl_cache.add stored key value table) :=
  h.add_of fun _ => hnew

end ttl_cache
