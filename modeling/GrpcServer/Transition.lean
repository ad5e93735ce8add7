import Mathlib.Data.List.Induction
import Mathlib.Tactic.Common

namespace transition

variable {σ α : Type} (step : σ → α → Option σ)

/-- Executes a schedule. A disabled action ends the run without a state. -/
def run : σ → List α → Option σ
  | s, [] => some s
  | s, a :: rest => (step s a).bind fun next => run next rest

/-- Every step of a schedule is taken in a state that allows it. -/
def Meets (allowed : σ → α → Prop) : σ → List α → Prop
  | _, [] => True
  | s, a :: rest => allowed s a ∧ ∀ next, step s a = some next → Meets allowed next rest

variable {step}

theorem run_cons_eq_some {s final : σ} {a : α} {rest : List α} :
    run step s (a :: rest) = some final ↔
      ∃ next, step s a = some next ∧ run step next rest = some final := by
  simp only [run, Option.bind_eq_some_iff]

theorem run_append {s : σ} {first second : List α} :
    run step s (first ++ second) = (run step s first).bind fun middle => run step middle second := by
  induction first generalizing s with
  | nil => rfl
  | cons a rest ih =>
    cases hstep : step s a with
    | none => simp [run, hstep]
    | some next => simp [run, hstep, ih]

theorem run_append_eq_some {s final : σ} {first second : List α} :
    run step s (first ++ second) = some final ↔
      ∃ middle, run step s first = some middle ∧ run step middle second = some final := by
  rw [run_append, Option.bind_eq_some_iff]

theorem run_concat_eq_some {s final : σ} {acts : List α} {a : α} :
    run step s (acts ++ [a]) = some final ↔
      ∃ last, run step s acts = some last ∧ step last a = some final := by
  rw [run_append]
  cases hrun : run step s acts with
  | none => simp
  | some last =>
    cases hstep : step last a with
    | none => simp [run, hstep]
    | some next => simp [run, hstep]

/-- A step that is always enabled has one successor to look at. -/
theorem meets_total_cons {next : σ → α → σ} {allowed : σ → α → Prop} {s : σ} {a : α} {rest : List α} :
    Meets (fun s a => some (next s a)) allowed s (a :: rest) ↔
      allowed s a ∧ Meets (fun s a => some (next s a)) allowed (next s a) rest := by
  simp [Meets]

/-- A condition on the actions alone is one on the members of the schedule. -/
theorem meets_total_forall {next : σ → α → σ} {P : α → Prop} {s : σ} {acts : List α} :
    Meets (fun s a => some (next s a)) (fun _ a => P a) s acts ↔ ∀ a ∈ acts, P a := by
  induction acts generalizing s with
  | nil => exact iff_of_true trivial nofun
  | cons a rest ih => rw [meets_total_cons, ih, List.forall_mem_cons]

theorem run_total {next : σ → α → σ} (s : σ) (acts : List α) :
    run (fun s a => some (next s a)) s acts = some (acts.foldl next s) := by
  induction acts generalizing s with
  | nil => rfl
  | cons a rest ih => exact ih (next s a)

theorem Meets.cons {allowed : σ → α → Prop} {s next : σ} {a : α} {rest : List α} (ha : allowed s a)
    (hstep : step s a = some next) (hrest : Meets step allowed next rest) : Meets step allowed s (a :: rest) := by
  refine ⟨ha, ?_⟩
  intro other hother
  obtain rfl : next = other := Option.some.inj (hstep.symm.trans hother)
  exact hrest

theorem Meets.of_append {allowed : σ → α → Prop} {s : σ} {first second : List α}
    (h : Meets step allowed s (first ++ second)) : Meets step allowed s first := by
  induction first generalizing s with
  | nil => trivial
  | cons a rest ih => exact ⟨h.1, fun next hnext => ih (h.2 next hnext)⟩

theorem Meets.append {allowed : σ → α → Prop} {s middle : σ} {first second : List α}
    (hfirst : Meets step allowed s first) (hrun : run step s first = some middle)
    (hsecond : Meets step allowed middle second) : Meets step allowed s (first ++ second) := by
  induction first generalizing s with
  | nil =>
    cases hrun
    exact hsecond
  | cons a rest ih =>
    refine ⟨hfirst.1, ?_⟩
    intro next hnext
    rw [run, hnext, Option.bind_some] at hrun
    exact ih (hfirst.2 next hnext) hrun

theorem Meets.of_run {allowed : σ → α → Prop} {s middle : σ} {first second : List α}
    (h : Meets step allowed s (first ++ second)) (hrun : run step s first = some middle) :
    Meets step allowed middle second := by
  induction first generalizing s with
  | nil =>
    cases hrun
    exact h
  | cons a rest ih =>
    obtain ⟨next, hnext, hrest⟩ := run_cons_eq_some.mp hrun
    exact ih (h.2 next hnext) hrest

theorem Meets.and_forall {allowed : σ → α → Prop} {P : α → Prop} {s : σ} {acts : List α}
    (h : Meets step allowed s acts) (hacts : ∀ a ∈ acts, P a) :
    Meets step (fun s a => allowed s a ∧ P a) s acts := by
  induction acts generalizing s with
  | nil => trivial
  | cons a rest ih =>
    refine ⟨⟨h.1, hacts a List.mem_cons_self⟩, ?_⟩
    intro next hnext
    exact ih (h.2 next hnext) fun b hb => hacts b (List.mem_cons_of_mem a hb)

theorem meets_of_forall {P : α → Prop} {acts : List α} (h : ∀ a ∈ acts, P a) (s : σ) :
    Meets step (fun _ a => P a) s acts := by
  induction acts generalizing s with
  | nil => trivial
  | cons a rest ih => exact ⟨h a List.mem_cons_self, fun next _ => ih (fun b hb => h b (List.mem_cons_of_mem a hb)) next⟩

/-- An invariant of the initial state that every allowed step preserves holds
after every run of allowed steps. -/
theorem run_invariant {allowed : σ → α → Prop} (inv : σ → Prop)
    (hstep : ∀ s a next, inv s → allowed s a → step s a = some next → inv next)
    {s final : σ} {acts : List α} (hinit : inv s) (hmeets : Meets step allowed s acts)
    (hrun : run step s acts = some final) : inv final := by
  induction acts generalizing s with
  | nil =>
    cases hrun
    exact hinit
  | cons a rest ih =>
    obtain ⟨next, hnext, hrest⟩ := run_cons_eq_some.mp hrun
    exact ih (hstep s a next hinit hmeets.1 hnext) (hmeets.2 next hnext) hrest

/-- When a step from a good state leads to a good state exactly if it is tidy, the
states of a run are all good exactly if its steps are all tidy. -/
theorem forall_good_iff_meets {possible tidy : σ → α → Prop} (inv good : σ → Prop)
    (hdisabled : ∀ s a, step s a = none → tidy s a)
    (hstep : ∀ s a next, inv s → good s → possible s a → step s a = some next →
      inv next ∧ (good next ↔ tidy s a))
    {s : σ} {acts : List α} (hinv : inv s) (hgood : good s) (hpossible : Meets step possible s acts) :
    (∀ done rest t, acts = done ++ rest → run step s done = some t → good t) ↔ Meets step tidy s acts := by
  induction acts generalizing s with
  | nil =>
    refine iff_of_true ?_ trivial
    intro done rest t heq hrun
    obtain ⟨rfl, _⟩ := List.nil_eq_append_iff.mp heq
    cases hrun
    exact hgood
  | cons a acts ih =>
    constructor
    · intro h
      have hnext : ∀ next, step s a = some next → good next := fun next hnext =>
        h [a] acts next rfl (run_cons_eq_some.mpr ⟨next, hnext, rfl⟩)
      refine ⟨?_, ?_⟩
      · cases hs : step s a with
        | none => exact hdisabled s a hs
        | some next => exact (hstep s a next hinv hgood hpossible.1 hs).2.mp (hnext next hs)
      · intro next hs
        refine (ih (hstep s a next hinv hgood hpossible.1 hs).1 (hnext next hs) (hpossible.2 next hs)).mp ?_
        intro done rest t heq hrun
        exact h (a :: done) rest t (congrArg (a :: ·) heq) (run_cons_eq_some.mpr ⟨next, hs, hrun⟩)
    · rintro ⟨htidy, htail⟩ done rest t heq hrun
      cases done with
      | nil =>
        cases hrun
        exact hgood
      | cons b done =>
        obtain ⟨rfl, hacts⟩ := List.cons.inj heq
        obtain ⟨next, hs, hrest⟩ := run_cons_eq_some.mp hrun
        obtain ⟨hinvn, hgoodn⟩ := hstep s a next hinv hgood hpossible.1 hs
        exact (ih hinvn (hgoodn.mpr htidy) (hpossible.2 next hs)).mpr (htail next hs) done rest t hacts hrest

/-- An invariant that may mention the schedule executed so far. -/
theorem run_history (inv : List α → σ → Prop) {s : σ} (hinit : inv [] s)
    (hstep : ∀ past last a next, run step s past = some last → inv past last →
      step last a = some next → inv (past ++ [a]) next)
    {final : σ} {acts : List α} (hrun : run step s acts = some final) : inv acts final := by
  induction acts using List.reverseRecOn generalizing final with
  | nil =>
    cases hrun
    exact hinit
  | append_singleton past a ih =>
    obtain ⟨last, hlast, hnext⟩ := run_concat_eq_some.mp hrun
    exact hstep past last a final hlast (ih hlast) hnext

/-- The same for a step that is always enabled. -/
theorem foldl_history {next : σ → α → σ} (inv : List α → σ → Prop) {s : σ} (hinit : inv [] s)
    (hstep : ∀ past a, inv past (past.foldl next s) → inv (past ++ [a]) (next (past.foldl next s) a))
    (acts : List α) : inv acts (acts.foldl next s) := by
  apply run_history inv hinit ?_ (run_total s acts)
  intro past last a successor hlast hinv hsuccessor
  obtain rfl : past.foldl next s = last := Option.some.inj ((run_total s past).symm.trans hlast)
  cases hsuccessor
  exact hstep past a hinv

end transition
