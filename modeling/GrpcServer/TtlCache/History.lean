import GrpcServer.TtlCache
import Mathlib.Data.List.Induction

namespace ttl_cache

/-- A call of the cache's interface. `stored` says whether an insertion succeeded,
`expired` which values are too old at the time of a lookup. -/
inductive Call (K V : Type) where
  | add (stored : Bool) (key : K) (value : V)
  | lookup (expired : V → Bool) (key : K)
  | clear

variable {K V : Type} [DecidableEq K]

def Call.apply (table : Table K V) : Call K V → Table K V
  | .add stored key value => ttl_cache.add stored key value table
  | .lookup expired key => (ttl_cache.lookup expired true key table).2
  | .clear => ∅

/-- The call ends the life of `value` under `key`: it replaces the value, finds it
expired, or clears the table. -/
def Call.Ends (key : K) (value : V) : Call K V → Prop
  | .add stored other _ => stored = true ∧ other = key
  | .lookup expired other => other = key ∧ expired value = true
  | .clear => True

/-- The last successful insertion for `key` that nothing has ended since. -/
def LastAdd (calls : List (Call K V)) (key : K) (value : V) : Prop :=
  ∃ before after, calls = before ++ .add true key value :: after ∧ ∀ call ∈ after, ¬ call.Ends key value

omit [DecidableEq K] in
theorem LastAdd.mem {calls : List (Call K V)} {key : K} {value : V} (h : LastAdd calls key value) :
    .add true key value ∈ calls := by
  obtain ⟨before, after, rfl, -⟩ := h
  exact List.mem_append_right _ List.mem_cons_self

omit [DecidableEq K] in
theorem lastAdd_concat_iff {calls : List (Call K V)} {call : Call K V} {key : K} {value : V} :
    LastAdd (calls ++ [call]) key value ↔
      call = .add true key value ∨ LastAdd calls key value ∧ ¬ call.Ends key value := by
  constructor
  · rintro ⟨before, after, heq, hafter⟩
    rcases List.eq_nil_or_concat' after with rfl | ⟨front, last, rfl⟩
    · exact .inl (List.singleton_inj.mp (List.append_inj' heq rfl).2)
    · rw [← List.cons_append, ← List.append_assoc] at heq
      obtain ⟨rfl, hlast⟩ := List.append_inj' heq rfl
      obtain rfl := List.singleton_inj.mp hlast
      refine .inr ⟨⟨before, front, rfl, fun c hc => hafter c (List.mem_append_left _ hc)⟩, ?_⟩
      exact hafter call (List.mem_append_right _ (List.mem_singleton_self call))
  · rintro (rfl | ⟨⟨before, after, rfl, hafter⟩, hcall⟩)
    · exact ⟨calls, [], rfl, fun c hc => absurd hc List.not_mem_nil⟩
    · refine ⟨before, after ++ [call], by rw [List.append_assoc, List.cons_append], ?_⟩
      intro c hc
      rcases List.mem_append.mp hc with hc | hc
      · exact hafter c hc
      · rwa [List.mem_singleton.mp hc]

/-- A lookup removes its own key only, and only when the entry has expired. -/
theorem lookup_lookup_snd {expired : V → Bool} {key other : K} {value : V} {table : Table K V} :
    (lookup expired true other table).2.lookup key = some value ↔
      table.lookup key = some value ∧ ¬ (other = key ∧ expired value = true) := by
  by_cases heq : other = key
  · subst heq
    cases hfound : table.lookup other with
    | none =>
      have hkept : (lookup expired true other table).2 = table := by simp [lookup, hfound]
      simp [hkept, hfound]
    | some found =>
      cases hexpired : expired found with
      | true =>
        have herased : (lookup expired true other table).2 = table.erase other := by simp [lookup, hfound, hexpired]
        rw [herased, Finmap.lookup_erase]
        constructor
        · intro hnone
          cases hnone
        · rintro ⟨hvalue, hlive⟩
          obtain rfl := Option.some.inj hvalue
          exact absurd ⟨rfl, hexpired⟩ hlive
      | false =>
        rw [lookup_hit true hfound hexpired, hfound]
        refine ⟨fun hvalue => ⟨hvalue, ?_⟩, And.left⟩
        obtain rfl := Option.some.inj hvalue
        simp [hexpired]
  · have hne : key ≠ other := fun h => heq h.symm
    obtain ⟨-, hkept | herased⟩ | ⟨found, -, -, hhit⟩ := lookup_cases expired true other table
    · simp [hkept, heq]
    · simp [herased, Finmap.lookup_erase_ne hne, heq]
    · simp [hhit, heq]

/-- What one call leaves under a key. -/
theorem lookup_apply_iff {call : Call K V} {key : K} {value : V} {table : Table K V} :
    (call.apply table).lookup key = some value ↔
      call = .add true key value ∨ table.lookup key = some value ∧ ¬ call.Ends key value := by
  cases call with
  | add stored other found =>
    cases stored with
    | false => simp [Call.apply, Call.Ends, add]
    | true =>
      by_cases heq : other = key
      · subst heq
        simp [Call.apply, Call.Ends, add]
      · have hne : key ≠ other := fun h => heq h.symm
        simp [Call.apply, Call.Ends, add, Finmap.lookup_insert_of_ne _ hne, heq]
  | lookup expired other =>
    rw [Call.apply, lookup_lookup_snd, Call.Ends]
    exact ⟨.inr, fun h => h.resolve_left nofun⟩
  | clear => simp [Call.apply, Call.Ends]

/-- After every sequence of calls it holds, under each key, the value of the last
successful insertion that neither a clear nor an expiring lookup has ended. -/
theorem lookup_foldl_apply_iff (calls : List (Call K V)) (key : K) (value : V) :
    (calls.foldl Call.apply ∅).lookup key = some value ↔ LastAdd calls key value := by
  induction calls using List.reverseRecOn with
  | nil =>
    refine iff_of_false (by simp) ?_
    rintro ⟨before, after, heq, -⟩
    exact absurd heq.symm (by simp)
  | append_singleton calls call ih =>
    rw [List.foldl_append, List.foldl_cons, List.foldl_nil, lookup_apply_iff, lastAdd_concat_iff, ih]

/-- What a lookup answers after a sequence of calls. -/
theorem lookup_hit_iff_lastAdd (calls : List (Call K V)) (expired : V → Bool) (evict : Bool) (key : K) (value : V) :
    (lookup expired evict key (calls.foldl Call.apply ∅)).1 = .hit value ↔
      LastAdd calls key value ∧ expired value = false := by
  rw [← lookup_foldl_apply_iff]
  constructor
  · exact lookup_eq_hit
  · rintro ⟨hfound, hfresh⟩
    rw [lookup_hit evict hfound hfresh]

/-- An answer depends only on the entry under its key. -/
theorem lookup_fst_congr {expired : V → Bool} {evict : Bool} {key : K} {table other : Table K V}
    (h : table.lookup key = other.lookup key) :
    (lookup expired evict key table).1 = (lookup expired evict key other).1 := by
  unfold lookup
  rw [h]
  cases other.lookup key with
  | none => rfl
  | some value =>
    simp only
    split <;> rfl

/-- A lookup leaves the answers for the other keys alone. -/
theorem lookup_lookup_of_ne {expired later : V → Bool} {evict evict' : Bool} {key other : K} (h : other ≠ key)
    (table : Table K V) :
    (lookup later evict' other (lookup expired evict key table).2).1 = (lookup later evict' other table).1 := by
  obtain ⟨_, hkept | herased⟩ | ⟨value, _, _, heq⟩ := lookup_cases expired evict key table
  · rw [hkept]
  · rw [herased]
    exact lookup_fst_congr (Finmap.lookup_erase_ne h)
  · rw [heq]

end ttl_cache
