import Mathlib.Data.Set.Insert
import Mathlib.Logic.Function.Basic
import Mathlib.Tactic.Common

namespace device_table

/-- Numbered devices, and the names that have been registered. -/
@[ext]
structure Table (P N D : Type) where
  dev : P → Option D
  names : Set N

section Changes

variable {P N D : Type} (name : D → N)

/-- No device has the name, and it is not registered. -/
structure Unused (n : N) (t : Table P N D) : Prop where
  registered : n ∉ t.names
  taken : ∀ p d, t.dev p = some d → name d ≠ n

/-- At most the device `p` changes. If it is still there, it has its name. -/
structure ChangesAt (p : P) (t next : Table P N D) : Prop where
  names : next.names = t.names
  other : ∀ q, q ≠ p → next.dev q = t.dev q
  at_p : next.dev p = none ∨ (next.dev p).map name = (t.dev p).map name

/-- At most the device `p` changes, and it stays where it is. -/
structure KeepsAt (p : P) (t next : Table P N D) : Prop where
  names : next.names = t.names
  other : ∀ q, q ≠ p → next.dev q = t.dev q
  at_p : (next.dev p).map name = (t.dev p).map name

/-- A name is registered, and a device of that name appears at `p`. -/
structure CreatesAt (p : P) (n : N) (t next : Table P N D) : Prop where
  unused : Unused name n t
  free : t.dev p = none
  names : next.names = insert n t.names
  other : ∀ q, q ≠ p → next.dev q = t.dev q
  at_p : ∃ d, next.dev p = some d ∧ name d = n

/-- At most the devices of the name go. -/
structure RemovesNamed (n : N) (t next : Table P N D) : Prop where
  other : ∀ p, (t.dev p).map name ≠ some n → next.dev p = t.dev p
  named : ∀ p, next.dev p = none ∨ (next.dev p).map name = (t.dev p).map name

variable {name}

theorem KeepsAt.refl {p : P} (t : Table P N D) : KeepsAt name p t t := ⟨rfl, fun _ _ => rfl, rfl⟩

theorem KeepsAt.trans {p : P} {t mid next : Table P N D} (h : KeepsAt name p t mid) (hnext : KeepsAt name p mid next) :
    KeepsAt name p t next :=
  ⟨hnext.names.trans h.names, fun q hq => (hnext.other q hq).trans (h.other q hq), hnext.at_p.trans h.at_p⟩

theorem KeepsAt.changesAt {p : P} {t next : Table P N D} (h : KeepsAt name p t next) : ChangesAt name p t next :=
  ⟨h.names, h.other, .inr h.at_p⟩

/-- Where there is no device, none appears. -/
theorem ChangesAt.none {p q : P} {t next : Table P N D} (h : ChangesAt name p t next) (hnone : t.dev q = none) :
    next.dev q = none := by
  by_cases hq : q = p
  · subst hq
    rcases h.at_p with hgone | hkept
    · exact hgone
    · rwa [hnone, Option.map_none, Option.map_eq_none_iff] at hkept
  · rw [h.other q hq, hnone]

theorem KeepsAt.ne_none {p : P} {t next : Table P N D} (h : KeepsAt name p t next) (hp : t.dev p ≠ none) :
    next.dev p ≠ none := by
  intro hnone
  have hmap := h.at_p
  rw [hnone, Option.map_none, eq_comm, Option.map_eq_none_iff] at hmap
  exact hp hmap

theorem CreatesAt.ne_none {p : P} {n : N} {t next : Table P N D} (h : CreatesAt name p n t next) :
    next.dev p ≠ none := by
  obtain ⟨d, hd, _⟩ := h.at_p
  rw [hd]
  exact Option.some_ne_none d

/-- A new device may be set up. -/
theorem CreatesAt.keepsAt {p : P} {n : N} {t mid next : Table P N D} (h : CreatesAt name p n t mid)
    (hnext : KeepsAt name p mid next) : CreatesAt name p n t next := by
  refine ⟨h.unused, h.free, hnext.names.trans h.names, fun q hq => (hnext.other q hq).trans (h.other q hq), ?_⟩
  obtain ⟨d, hd, hname⟩ := h.at_p
  have hmap := hnext.at_p
  rw [hd, Option.map_some, hname] at hmap
  exact Option.map_eq_some_iff.mp hmap

/-- No other device has its name. -/
theorem CreatesAt.eq_of_name {p q : P} {n : N} {t next : Table P N D} (h : CreatesAt name p n t next) {d : D}
    (hd : next.dev q = some d) (hname : name d = n) : q = p := by
  by_contra hne
  rw [h.other q hne] at hd
  exact h.unused.taken q d hd hname

/-- Other names that were not used are not used now. -/
theorem CreatesAt.unused_of_ne {p : P} {n m : N} {t next : Table P N D} (h : CreatesAt name p n t next)
    (hm : Unused name m t) (hne : m ≠ n) : Unused name m next := by
  constructor
  · rw [h.names, Set.mem_insert_iff, not_or]
    exact ⟨hne, hm.registered⟩
  · intro q d hd hname
    by_cases hq : q = p
    · obtain ⟨d', hd', hname'⟩ := h.at_p
      rw [hq, hd', Option.some.injEq] at hd
      exact hne (by rw [← hname, ← hd, hname'])
    · rw [h.other q hq] at hd
      exact hm.taken q d hd hname

theorem RemovesNamed.none {n : N} {q : P} {t next : Table P N D} (h : RemovesNamed name n t next)
    (hnone : t.dev q = none) : next.dev q = none := by
  rcases h.named q with hgone | hkept
  · exact hgone
  · rwa [hnone, Option.map_none, Option.map_eq_none_iff] at hkept

end Changes

/-- What an owner has registered: a name, with its device if that is still there. -/
structure Claim (P N : Type) where
  name : N
  number : Option P

section Ledger

variable {R P N D : Type} (name : D → N)

/-- The table is that of the start with what the owners have registered since then,
under names of their own. -/
structure Ledger (base t : Table P N D) (own : R → Option (Claim P N)) : Prop where
  unused : ∀ r c, own r = some c → Unused name c.name base
  holds : ∀ r c p, own r = some c → c.number = some p → base.dev p = none ∧ ∃ d, t.dev p = some d ∧ name d = c.name
  inj : ∀ r r' c c', own r = some c → own r' = some c' → c.name = c'.name → r = r'
  rest : ∀ p, (∀ r c, own r = some c → c.number ≠ some p) → t.dev p = base.dev p
  names : ∀ n, n ∈ t.names ↔ n ∈ base.names ∨ ∃ r c, own r = some c ∧ c.name = n

variable {name} {base t next : Table P N D} {own : R → Option (Claim P N)}

theorem ledger_nil (base : Table P N D) : Ledger name base base fun _ : R => none := by
  refine ⟨?_, ?_, ?_, fun _ _ => rfl, ?_⟩
  · intro r c hc
    cases hc
  · intro r c p hc
    cases hc
  · intro r r' c c' hc
    cases hc
  · intro n
    simp

/-- With nothing registered the table is that of the start. -/
theorem Ledger.eq_base (h : Ledger name base t own) (hnone : ∀ r, own r = none) : t = base := by
  apply Table.ext
  · funext p
    apply h.rest
    intro r c hc
    rw [hnone] at hc
    cases hc
  · ext n
    rw [h.names n]
    simp [hnone]

/-- No device of the start is touched. -/
theorem Ledger.kept (h : Ledger name base t own) {p : P} {d : D} (hd : base.dev p = some d) : t.dev p = some d := by
  rw [h.rest p, hd]
  intro r c hc hp
  rw [(h.holds r c p hc hp).1] at hd
  cases hd

/-- Different owners have different devices. -/
theorem Ledger.number_inj (h : Ledger name base t own) {r r' : R} {c c' : Claim P N} {p : P} (hr : own r = some c)
    (hr' : own r' = some c') (hp : c.number = some p) (hp' : c'.number = some p) : r = r' := by
  obtain ⟨_, d, hd, hname⟩ := h.holds r c p hr hp
  obtain ⟨_, d', hd', hname'⟩ := h.holds r' c' p hr' hp'
  rw [hd, Option.some.injEq] at hd'
  apply h.inj r r' c c' hr hr'
  rw [← hname, ← hname', hd']

/-- The device of a name an owner has registered is the owner's. -/
theorem Ledger.number_of_name (h : Ledger name base t own) {r : R} {c : Claim P N} (hr : own r = some c) {p : P} {d : D}
    (hd : t.dev p = some d) (hname : name d = c.name) : c.number = some p := by
  by_contra hne
  by_cases howned : ∃ r' c', own r' = some c' ∧ c'.number = some p
  · obtain ⟨r', c', hr', hp'⟩ := howned
    obtain ⟨_, d', hd', hname'⟩ := h.holds r' c' p hr' hp'
    rw [hd, Option.some.injEq] at hd'
    have hsame : r = r' := h.inj r r' c c' hr hr' (by rw [← hname, ← hname', hd'])
    rw [hsame, hr', Option.some.injEq] at hr
    exact hne (hr ▸ hp')
  · have hbase : base.dev p = some d := by
      rw [← h.rest p, hd]
      intro r' c' hr' hp'
      exact howned ⟨r', c', hr', hp'⟩
    exact (h.unused r c hr).taken p d hbase hname

/-- A name that an owner has registered goes: no other device changes than the owner's. -/
theorem Ledger.other_of_removesNamed (h : Ledger name base t own) {r : R} {c : Claim P N} (hr : own r = some c)
    (hremoved : RemovesNamed name c.name t next) {p : P} (hp : c.number ≠ some p) : next.dev p = t.dev p := by
  apply hremoved.other
  intro hnamed
  obtain ⟨d, hd, hname⟩ := Option.map_eq_some_iff.mp hnamed
  exact hp (h.number_of_name hr hd hname)

/-- What is unused now was unused at the start. -/
theorem Ledger.unused_base (h : Ledger name base t own) {n : N} (hn : Unused name n t) : Unused name n base := by
  constructor
  · intro hmem
    exact hn.registered ((h.names n).mpr (.inl hmem))
  · intro p d hd
    exact hn.taken p d (h.kept hd)

/-- A device changes that an owner has, or that does not exist. -/
theorem Ledger.keepsAt (h : Ledger name base t own) {p : P} (hchange : KeepsAt name p t next)
    (hp : t.dev p = none ∨ ∃ r c, own r = some c ∧ c.number = some p) : Ledger name base next own := by
  refine ⟨h.unused, ?_, h.inj, ?_, ?_⟩
  · intro r c q hr hq
    obtain ⟨hfree, d, hd, hname⟩ := h.holds r c q hr hq
    refine ⟨hfree, ?_⟩
    have hmap : (next.dev q).map name = some c.name := by
      by_cases hqp : q = p
      · rw [hqp, hchange.at_p, ← hqp, hd, Option.map_some, hname]
      · rw [hchange.other q hqp, hd, Option.map_some, hname]
    exact Option.map_eq_some_iff.mp hmap
  · intro q hq
    by_cases hqp : q = p
    · rcases hp with hnone | ⟨r, c, hr, hnumber⟩
      · rw [hqp, hchange.changesAt.none hnone, ← hnone, ← hqp, h.rest q hq]
      · exact absurd (hqp ▸ hnumber) (hq r c hr)
    · rw [hchange.other q hqp, h.rest q hq]
  · intro n
    rw [hchange.names, h.names]

section Update

variable [DecidableEq R] {r : R}

/-- What an update of one claim leaves of the others. -/
theorem update_eq_some {c : Option (Claim P N)} {r' : R} {c' : Claim P N} (h : Function.update own r c r' = some c') :
    (r' = r ∧ c = some c') ∨ (r' ≠ r ∧ own r' = some c') := by
  by_cases hsame : r' = r
  · subst hsame
    rw [Function.update_self] at h
    exact .inl ⟨rfl, h⟩
  · rw [Function.update_of_ne hsame] at h
    exact .inr ⟨hsame, h⟩

/-- The owner `r` has a new claim, or none, and all others have theirs. -/
theorem Ledger.update (h : Ledger name base t own) {c : Option (Claim P N)}
    (hclaim : ∀ claim, c = some claim → Unused name claim.name base ∧
      (∀ p, claim.number = some p → base.dev p = none ∧ ∃ d, next.dev p = some d ∧ name d = claim.name) ∧
      ∀ r' c', r' ≠ r → own r' = some c' → c'.name ≠ claim.name)
    (hother : ∀ r' c' p, r' ≠ r → own r' = some c' → c'.number = some p → next.dev p = t.dev p)
    (hrest : ∀ p, (∀ r' c', Function.update own r c r' = some c' → c'.number ≠ some p) → next.dev p = base.dev p)
    (hnames : ∀ n, n ∈ next.names ↔ n ∈ base.names ∨ ∃ r' c', Function.update own r c r' = some c' ∧ c'.name = n) :
    Ledger name base next (Function.update own r c) := by
  refine ⟨?_, ?_, ?_, hrest, hnames⟩
  · intro r' c' hc
    obtain ⟨_, hc⟩ | ⟨_, hc⟩ := update_eq_some hc
    · exact (hclaim c' hc).1
    · exact h.unused r' c' hc
  · intro r' c' p hc hp
    obtain ⟨_, hc⟩ | ⟨hne, hc⟩ := update_eq_some hc
    · exact (hclaim c' hc).2.1 p hp
    · rw [hother r' c' p hne hc hp]
      exact h.holds r' c' p hc hp
  · intro first second c₁ c₂ h₁ h₂ heq
    obtain ⟨hone, h₁⟩ | ⟨hne, h₁⟩ := update_eq_some h₁ <;> obtain ⟨hother, h₂⟩ | ⟨hne', h₂⟩ := update_eq_some h₂
    · rw [hone, hother]
    · exact absurd heq.symm ((hclaim c₁ h₁).2.2 second c₂ hne' h₂)
    · exact absurd heq ((hclaim c₂ h₂).2.2 first c₁ hne h₁)
    · exact h.inj first second c₁ c₂ h₁ h₂ heq

/-- An owner without a claim gets a new device. -/
theorem Ledger.createsAt (h : Ledger name base t own) (hr : own r = none) {p : P} {n : N}
    (hcreate : CreatesAt name p n t next) : Ledger name base next (Function.update own r (some ⟨n, some p⟩)) := by
  have hbase : base.dev p = none := by
    by_contra hne
    obtain ⟨d, hd⟩ := Option.ne_none_iff_exists'.mp hne
    have hkept := h.kept hd
    rw [hcreate.free] at hkept
    cases hkept
  have hkeep : ∀ r' c', own r' = some c' → Function.update own r (some ⟨n, some p⟩) r' = some c' := by
    intro r' c' hc
    rw [Function.update_of_ne, hc]
    rintro rfl
    rw [hr] at hc
    cases hc
  refine h.update ?_ ?_ ?_ ?_
  · intro claim hclaim
    cases hclaim
    refine ⟨h.unused_base hcreate.unused, ?_, ?_⟩
    · intro q hq
      cases hq
      exact ⟨hbase, hcreate.at_p⟩
    · intro r' c' _ hc heq
      exact hcreate.unused.registered ((h.names n).mpr (.inr ⟨r', c', hc, heq⟩))
  · intro r' c' q _ hc hq
    apply hcreate.other
    rintro rfl
    obtain ⟨_, d, hd, _⟩ := h.holds r' c' q hc hq
    rw [hcreate.free] at hd
    cases hd
  · intro q hq
    have hqp : q ≠ p := by
      rintro rfl
      exact hq r _ (Function.update_self ..) rfl
    rw [hcreate.other q hqp]
    exact h.rest q fun r' c' hc => hq r' c' (hkeep r' c' hc)
  · intro m
    rw [hcreate.names, Set.mem_insert_iff, h.names m]
    constructor
    · rintro (rfl | hbase | ⟨r', c', hc, hname⟩)
      · exact .inr ⟨r, _, Function.update_self .., rfl⟩
      · exact .inl hbase
      · exact .inr ⟨r', c', hkeep r' c' hc, hname⟩
    · rintro (hbase | ⟨r', c', hc, hname⟩)
      · exact .inr (.inl hbase)
      · obtain ⟨_, hc⟩ | ⟨_, hc⟩ := update_eq_some hc
        · cases hc
          exact .inl hname.symm
        · exact .inr (.inr ⟨r', c', hc, hname⟩)

/-- An owner's device is gone, if it had one. Its new claim has none. -/
theorem Ledger.drop (h : Ledger name base t own) {c : Claim P N} (hr : own r = some c)
    (hgone : ∀ p, c.number = some p → next.dev p = none) (hother : ∀ p, c.number ≠ some p → next.dev p = t.dev p)
    {claim : Option (Claim P N)} (hclaim : ∀ c', claim = some c' → c' = ⟨c.name, none⟩)
    (hnames : ∀ n, n ∈ next.names ↔
      n ∈ base.names ∨ ∃ r' c', Function.update own r claim r' = some c' ∧ c'.name = n) :
    Ledger name base next (Function.update own r claim) := by
  refine h.update ?_ ?_ ?_ hnames
  · intro c' hc'
    rw [hclaim c' hc']
    refine ⟨h.unused r c hr, ?_, ?_⟩
    · intro p hp
      cases hp
    · intro r' c'' hne hc'' heq
      exact hne (h.inj r' r c'' c hc'' hr heq)
  · intro r' c' p hne hc' hp
    apply hother
    intro hsame
    exact hne (h.number_inj hc' hr hp hsame)
  · intro p hp
    by_cases hmine : c.number = some p
    · rw [hgone p hmine, (h.holds r c p hr hmine).1]
    · rw [hother p hmine]
      apply h.rest
      intro r' c' hc' hp'
      by_cases hsame : r' = r
      · rw [hsame, hr, Option.some.injEq] at hc'
        exact hmine (hc' ▸ hp')
      · exact hp r' c' (by rw [Function.update_of_ne hsame, hc']) hp'

/-- The device goes and its name stays registered. -/
theorem Ledger.loses (h : Ledger name base t own) {n : N} {p : P} (hr : own r = some ⟨n, some p⟩)
    (hchange : ChangesAt name p t next) (hgone : next.dev p = none) :
    Ledger name base next (Function.update own r (some ⟨n, none⟩)) := by
  refine h.drop hr ?_ ?_ ?_ ?_
  · intro q hq
    cases hq
    exact hgone
  · intro q hq
    apply hchange.other
    rintro rfl
    exact hq rfl
  · intro c' hc'
    exact (Option.some.inj hc').symm
  · intro m
    rw [hchange.names, h.names m]
    apply or_congr_right
    constructor
    · rintro ⟨r', c', hc', hm⟩
      by_cases hsame : r' = r
      · rw [hsame, hr, Option.some.injEq] at hc'
        exact ⟨r, _, Function.update_self .., by rw [← hm, ← hc']⟩
      · exact ⟨r', c', by rw [Function.update_of_ne hsame, hc'], hm⟩
    · rintro ⟨r', c', hc', hm⟩
      obtain ⟨_, hc'⟩ | ⟨_, hc'⟩ := update_eq_some hc'
      · cases hc'
        exact ⟨r, _, hr, hm⟩
      · exact ⟨r', c', hc', hm⟩

/-- The name goes, and its device if it was there. -/
theorem Ledger.removes (h : Ledger name base t own) {c : Claim P N} (hr : own r = some c)
    (hremoved : RemovesNamed name c.name t next) (hgone : ∀ p, (t.dev p).map name = some c.name → next.dev p = none)
    (hnames : next.names = t.names \ {c.name}) : Ledger name base next (Function.update own r none) := by
  refine h.drop hr ?_ (fun p => h.other_of_removesNamed hr hremoved) ?_ ?_
  · intro p hp
    obtain ⟨_, d, hd, hname⟩ := h.holds r c p hr hp
    apply hgone
    rw [hd, Option.map_some, hname]
  · intro c' hc'
    cases hc'
  · intro m
    rw [hnames, Set.mem_sdiff, Set.mem_singleton_iff, h.names m]
    constructor
    · rintro ⟨hbase | ⟨r', c', hc', hm⟩, hne⟩
      · exact .inl hbase
      · refine .inr ⟨r', c', ?_, hm⟩
        rw [Function.update_of_ne, hc']
        rintro rfl
        rw [hr, Option.some.injEq] at hc'
        exact hne (by rw [← hm, ← hc'])
    · rintro (hbase | ⟨r', c', hc', hm⟩)
      · refine ⟨.inl hbase, ?_⟩
        rintro rfl
        exact (h.unused r c hr).registered hbase
      · obtain ⟨_, hc'⟩ | ⟨hne, hc'⟩ := update_eq_some hc'
        · cases hc'
        · refine ⟨.inr ⟨r', c', hc', hm⟩, ?_⟩
          rintro rfl
          exact hne (h.inj r' r c' c hc' hr hm)

/-- Removing a name fails: its device may be gone all the same. -/
theorem Ledger.remove_fails (h : Ledger name base t own) {c : Claim P N} (hr : own r = some c)
    (hremoved : RemovesNamed name c.name t next) (hnames : next.names = t.names) :
    Ledger name base next own ∨ Ledger name base next (Function.update own r (some ⟨c.name, none⟩)) ∧
      ∀ p, c.number = some p → next.dev p = none := by
  have hother : ∀ p, c.number ≠ some p → next.dev p = t.dev p := fun p => h.other_of_removesNamed hr hremoved
  obtain ⟨n, _ | p⟩ := c
  · have hsame : next = t := Table.ext (funext fun q => hother q nofun) hnames
    rw [hsame]
    exact .inl h
  · have hrest : ∀ q, q ≠ p → next.dev q = t.dev q := by
      intro q hq
      apply hother
      rintro heq
      cases heq
      exact hq rfl
    rcases hremoved.named p with hgone | hkept
    · refine .inr ⟨h.loses hr ⟨hnames, hrest, .inl hgone⟩ hgone, ?_⟩
      intro q hq
      cases hq
      exact hgone
    · exact .inl (h.keepsAt ⟨hnames, hrest, hkept⟩ (.inr ⟨r, _, hr, rfl⟩))

/-- A device that has been created is removed again. -/
theorem Ledger.undo {mid : Table P N D} (h : Ledger name base t own) (hr : own r = none) {p : P} {n : N}
    (hcreate : CreatesAt name p n t mid) (hremoved : RemovesNamed name n mid next)
    (hgone : ∀ p, (mid.dev p).map name = some n → next.dev p = none) (hnames : next.names = mid.names \ {n}) :
    Ledger name base next own ∧ next.dev p = none := by
  have hledger := (h.createsAt hr hcreate).removes (Function.update_self ..) hremoved hgone hnames
  rw [Function.update_idem, ← hr, Function.update_eq_self] at hledger
  refine ⟨hledger, ?_⟩
  obtain ⟨d, hd, hname⟩ := hcreate.at_p
  apply hgone
  rw [hd, Option.map_some, hname]

/-- Removing it fails. -/
theorem Ledger.undo_fails {mid : Table P N D} (h : Ledger name base t own) (hr : own r = none) {p : P} {n : N}
    (hcreate : CreatesAt name p n t mid) (hremoved : RemovesNamed name n mid next) (hnames : next.names = mid.names) :
    ∃ c : Claim P N, c.name = n ∧ Ledger name base next (Function.update own r (some c)) ∧
      (next.dev p = none ∨ c.number = some p) := by
  have hcreated := h.createsAt hr hcreate
  rcases hcreated.remove_fails (Function.update_self ..) hremoved hnames with hledger | ⟨hledger, hgone⟩
  · exact ⟨_, rfl, hledger, .inr rfl⟩
  · rw [Function.update_idem] at hledger
    exact ⟨_, rfl, hledger, .inl (hgone p rfl)⟩

end Update

end Ledger

end device_table
