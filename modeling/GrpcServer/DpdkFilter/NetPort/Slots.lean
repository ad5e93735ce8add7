import GrpcServer.DpdkFilter.NetPort.Laws

open c_memory device_table

namespace grpc_server.dpdk_filter

/-- A DPDK that has four numbers for devices: the name of each device and whether it
is started, and the registered names. -/
structure Slots where
  slot : UInt16 → Option (Str × Bool)
  vdevs : List Str

namespace Slots

def numbers : List UInt16 := [0, 1, 2, 3]

def dev (s : Slots) (p : UInt16) : Option (Str × Bool) := if p ∈ numbers then s.slot p else none

def table (s : Slots) : Table UInt16 Str (Str × Bool) := ⟨s.dev, { n | n ∈ s.vdevs }⟩

def modify (s : Slots) (p : UInt16) (f : Str × Bool → Option (Str × Bool)) : Slots :=
  { s with slot := Function.update s.slot p ((s.dev p).bind f) }

/-- `-ENODEV` for a number without a device. -/
def check (s : Slots) (p : UInt16) : ℤ := if (s.dev p).isSome then 0 else -19

def used (n : Str) (s : Slots) : Bool := s.vdevs.contains n || numbers.any fun p => (s.dev p).map Prod.fst == some n

/-- A device takes the lowest free number, under a name that is not used. -/
def vdev_init (n : Str) (s : Slots) : ℤ × Slots :=
  if s.used n then (-17, s)
  else match numbers.find? fun p => (s.dev p).isNone with
    | none => (-28, s)
    | some p => (0, ⟨Function.update s.slot p (some (n, false)), n :: s.vdevs⟩)

def vdev_uninit (n : Str) (s : Slots) : ℤ × Slots :=
  if s.vdevs.contains n then
    (0, ⟨fun p => if (s.slot p).map Prod.fst = some n then none else s.slot p, s.vdevs.filter (· ≠ n)⟩)
  else (-2, s)

/-- A device that exists is started or stopped. -/
def set_started (started : Bool) (p : UInt16) (s : Slots) : ℤ × Slots :=
  (s.check p, s.modify p fun d => some (d.1, started))

end Slots

/-- Calls fail for numbers without a device. For those that `refuses` names, there is
no transmit queue. -/
def slots_dpdk (refuses : UInt16 → Bool) : EthDev Slots where
  rte_vdev_init n _ s := s.vdev_init n
  rte_vdev_uninit n s := s.vdev_uninit n
  rte_eth_dev_count_avail s := UInt16.ofNat (Slots.numbers.countP fun p => (s.dev p).isSome)
  rte_eth_dev_info_get p s := s.check p
  rte_eth_dev_get_name_by_port p s := (s.dev p).map Prod.fst
  rte_eth_dev_is_valid_port p s := (s.dev p).isSome
  rte_eth_dev_configure p s := (s.check p, s)
  rte_eth_rx_queue_setup p s := (s.check p, s)
  rte_eth_tx_queue_setup p s := (if refuses p then -1 else s.check p, s)
  rte_eth_macaddr_get p s := (s.check p, fun _ => 0)
  rte_eth_dev_start p s := s.set_started true p
  rte_eth_promiscuous_enable p s := (s.check p, s)
  rte_eth_dev_stop p s := s.set_started false p
  rte_eth_dev_close p s := (s.check p, s.modify p fun _ => none)

section Laws

theorem Slots.mem_numbers {s : Slots} {p : UInt16} {d : Str × Bool} (h : s.dev p = some d) : p ∈ Slots.numbers := by
  by_contra hp
  rw [Slots.dev, if_neg hp] at h
  cases h

theorem Slots.mem_numbers_iff {p : UInt16} : p ∈ Slots.numbers ↔ p < 4 := by
  simp only [Slots.numbers, List.mem_cons, List.not_mem_nil, or_false, UInt16.lt_iff_toNat_lt, ← UInt16.toNat_inj,
    UInt16.reduceToNat]
  omega

theorem Slots.dev_modify (s : Slots) (p q : UInt16) (f : Str × Bool → Option (Str × Bool)) :
    (s.modify p f).dev q = if q = p then (s.dev p).bind f else s.dev q := by
  unfold Slots.modify Slots.dev
  by_cases hq : q = p
  · subst hq
    by_cases hmem : q ∈ Slots.numbers <;> simp [hmem]
  · simp [hq]

theorem Slots.check_eq_zero_iff {s : Slots} {p : UInt16} : s.check p = 0 ↔ s.dev p ≠ none := by
  unfold Slots.check
  cases s.dev p <;> simp

theorem Slots.not_used_iff {s : Slots} {n : Str} : s.used n = false ↔ Unused Prod.fst n s.table := by
  rw [Slots.used, Bool.or_eq_false_iff, List.contains_eq_mem, decide_eq_false_iff_not, List.any_eq_false]
  constructor
  · rintro ⟨hvdevs, htaken⟩
    refine ⟨hvdevs, ?_⟩
    rintro p d hd rfl
    have hd' : s.dev p = some d := hd
    exact htaken p (Slots.mem_numbers hd') (by rw [hd']; exact beq_self_eq_true _)
  · rintro ⟨hvdevs, htaken⟩
    refine ⟨hvdevs, ?_⟩
    intro p _ hname
    obtain ⟨d, hd, hname⟩ := Option.map_eq_some_iff.mp (eq_of_beq hname)
    exact htaken p d hd hname

/-- What creating a device does. -/
theorem Slots.vdev_init_cases (n : Str) (s : Slots) :
    ((s.vdev_init n).1 < 0 ∧ (s.vdev_init n).2 = s ∧ (Unused Prod.fst n s.table → ∀ p ∈ Slots.numbers, s.dev p ≠ none)) ∨
      (s.vdev_init n).1 = 0 ∧ ∃ p, CreatesAt Prod.fst p n s.table (s.vdev_init n).2.table ∧
        ∀ q, q < p → s.dev q ≠ none := by
  unfold Slots.vdev_init
  split
  · rename_i hused
    refine .inl ⟨(by decide : (-17 : ℤ) < 0), rfl, fun hunused => ?_⟩
    rw [Slots.not_used_iff.mpr hunused] at hused
    cases hused
  · rename_i hused
    have hunused := Slots.not_used_iff.mp (Bool.eq_false_of_not_eq_true hused)
    split
    · rename_i hfull
      refine .inl ⟨(by decide : (-28 : ℤ) < 0), rfl, ?_⟩
      intro _ p hp hnone
      have hsome := List.find?_eq_none.mp hfull p hp
      rw [hnone] at hsome
      exact hsome rfl
    · rename_i p hfree
      have hmem := List.mem_of_find?_eq_some hfree
      have hnone := List.find?_some hfree
      rw [Option.isNone_iff_eq_none] at hnone
      refine .inr ⟨rfl, p, ⟨hunused, hnone, ?_, ?_, ?_⟩, ?_⟩
      · ext m
        exact List.mem_cons
      · intro q hq
        change (if q ∈ Slots.numbers then Function.update s.slot p (some (n, false)) q else none) = s.dev q
        rw [Function.update_of_ne hq]
        rfl
      · refine ⟨(n, false), ?_, rfl⟩
        change (if p ∈ Slots.numbers then Function.update s.slot p (some (n, false)) p else none) = some (n, false)
        rw [if_pos hmem, Function.update_self]
      · intro q hq
        obtain ⟨-, before, after, hsplit, hbefore⟩ := List.find?_eq_some_iff_append.mp hfree
        have hmem : q ∈ before := by
          have hsorted : (before ++ p :: after).Pairwise (· < ·) := hsplit ▸ (by decide)
          have hnumber := Slots.mem_numbers_iff.mpr (UInt16.lt_trans hq (Slots.mem_numbers_iff.mp hmem))
          rw [hsplit, List.mem_append, List.mem_cons] at hnumber
          rcases hnumber with hnumber | rfl | hnumber
          · exact hnumber
          · exact absurd hq (UInt16.lt_irrefl q)
          · have hlt := List.rel_of_pairwise_cons (List.pairwise_append.mp hsorted).2.1 hnumber
            exact absurd (UInt16.lt_trans hq hlt) (UInt16.lt_irrefl q)
        simpa [Option.isSome_iff_ne_none] using hbefore q hmem

/-- What removing a name does. -/
theorem Slots.vdev_uninit_cases (n : Str) (s : Slots) :
    ((s.vdev_uninit n).1 ≠ 0 ∧ (s.vdev_uninit n).2 = s ∧ n ∉ s.table.names) ∨
      (s.vdev_uninit n).1 = 0 ∧ (s.vdev_uninit n).2.table.names = s.table.names \ {n} ∧
        ∀ p, (s.vdev_uninit n).2.table.dev p = if (s.dev p).map Prod.fst = some n then none else s.dev p := by
  unfold Slots.vdev_uninit
  split
  · refine .inr ⟨rfl, ?_, ?_⟩
    · ext m
      simp [Slots.table]
    · intro p
      simp only [Slots.table, Slots.dev]
      split <;> simp
  · rename_i hn
    refine .inl ⟨(by decide : (-2 : ℤ) ≠ 0), rfl, ?_⟩
    simpa [Slots.table] using hn

theorem lawful_slots_dpdk (refuses : UInt16 → Bool) :
    (slots_dpdk refuses).Lawful Slots.table Prod.fst Prod.snd := by
  have hmodify : ∀ s p q f, (Slots.modify s p f).table.dev q = if q = p then (s.dev p).bind f else s.dev q :=
    fun s p q f => s.dev_modify p q f
  have hstarted : ∀ started p s, KeepsAt Prod.fst p s.table (Slots.set_started started p s).2.table := by
    intro started p s
    refine ⟨rfl, fun q hq => (hmodify s p q _).trans (if_neg hq), ?_⟩
    rw [Slots.set_started, hmodify, if_pos rfl]
    change _ = (s.dev p).map Prod.fst
    cases s.dev p <;> rfl
  constructor
  case unnumbered =>
    intro s
    change (if (-1 : UInt16) ∈ Slots.numbers then s.slot (-1) else none) = none
    exact if_neg (by decide)
  case get_name => exact fun p s => rfl
  case vdev_init_fails =>
    intro n args s hfails
    obtain ⟨_, hsame, _⟩ | ⟨hzero, _⟩ := s.vdev_init_cases n
    · exact congrArg Slots.table hsame
    · exact absurd hfails (by rw [slots_dpdk, hzero]; decide)
  case vdev_init_succeeds =>
    intro n args s hok
    obtain ⟨hfails, _⟩ | ⟨_, p, hcreate, _⟩ := s.vdev_init_cases n
    · exact absurd hfails hok
    · exact ⟨p, hcreate⟩
  case configure => exact fun p s => KeepsAt.refl _
  case rx_queue_setup => exact fun p s => KeepsAt.refl _
  case tx_queue_setup => exact fun p s => KeepsAt.refl _
  case dev_start => exact fun p s => hstarted true p s
  case promiscuous_enable => exact fun p s => KeepsAt.refl _
  case dev_stop => exact fun p s => hstarted false p s
  case promiscuous_started =>
    intro p s d next hd hnext
    cases hd.symm.trans hnext
    rfl
  case vdev_uninit =>
    intro n s
    obtain ⟨_, hsame, _⟩ | ⟨_, _, hdev⟩ := s.vdev_uninit_cases n
    · have hsame : ((slots_dpdk refuses).rte_vdev_uninit n s).2 = s := hsame
      rw [hsame]
      exact ⟨fun _ _ => rfl, fun _ => .inr rfl⟩
    · constructor
      · intro p hp
        exact (hdev p).trans (if_neg hp)
      · intro p
        by_cases hp : (s.dev p).map Prod.fst = some n
        · exact .inl ((hdev p).trans (if_pos hp))
        · exact .inr (congrArg _ ((hdev p).trans (if_neg hp)))
  case vdev_uninit_fails =>
    intro n s hfails
    obtain ⟨_, hsame, _⟩ | ⟨hzero, _⟩ := s.vdev_uninit_cases n
    · exact congrArg (Table.names ∘ Slots.table) hsame
    · exact absurd hzero hfails
  case vdev_uninit_succeeds =>
    intro n s hzero
    obtain ⟨hfails, _⟩ | ⟨_, hnames, hdev⟩ := s.vdev_uninit_cases n
    · exact absurd hzero hfails
    · exact ⟨hnames, fun p hp => (hdev p).trans (if_pos hp)⟩
  case dev_start_succeeds =>
    intro p s d _ hd
    have hd : (s.modify p fun d => some (d.1, true)).table.dev p = some d := hd
    rw [hmodify, if_pos rfl] at hd
    obtain ⟨before, _, hbefore⟩ := Option.bind_eq_some_iff.mp hd
    cases hbefore
    rfl
  case dev_stop_invalid =>
    intro p s hnone hzero
    exact Slots.check_eq_zero_iff.mp hzero hnone
  case dev_close =>
    intro p s
    refine ⟨rfl, fun q hq => (hmodify s p q _).trans (if_neg hq), .inl ?_⟩
    exact (hmodify s p p _).trans ((if_pos rfl).trans (Option.bind_fun_none _))
  case dev_close_succeeds =>
    intro p s _
    exact (hmodify s p p _).trans ((if_pos rfl).trans (Option.bind_fun_none _))

theorem tidy_slots_dpdk (refuses : UInt16 → Bool) : (slots_dpdk refuses).Tidy Slots.table := by
  constructor
  · intro n s hn
    obtain ⟨_, _, hnew⟩ | ⟨hzero, _⟩ := s.vdev_uninit_cases n
    · exact absurd hn hnew
    · exact hzero
  · exact fun p s hp => Slots.check_eq_zero_iff.mpr hp
  · exact fun p s hp => Slots.check_eq_zero_iff.mpr hp

/-- With transmit queues for all, there is nothing that fails. -/
theorem willing_slots_dpdk : (slots_dpdk fun _ => false).Willing Slots.table Prod.fst 4 := by
  have hzero : ∀ s p, (Slots.table s).dev p ≠ none → ¬ s.check p < 0 := by
    intro s p hp
    rw [Slots.check_eq_zero_iff.mpr hp]
    decide
  constructor
  case vdev_init =>
    intro n args s p hunused hp hfree hfails
    obtain ⟨_, _, hfull⟩ | ⟨hok, _⟩ := s.vdev_init_cases n
    · exact hfull hunused p (Slots.mem_numbers_iff.mpr hp) hfree
    · exact absurd hfails (by rw [slots_dpdk, hok]; decide)
  case lowest =>
    intro n args s p hcreate
    obtain ⟨_, hsame, _⟩ | ⟨_, first, hfirst, hlowest⟩ := s.vdev_init_cases n
    · obtain ⟨d, hd, hname⟩ := hcreate.at_p
      have hd : (s.vdev_init n).2.table.dev p = some d := hd
      rw [hsame] at hd
      exact absurd hname (hcreate.unused.taken p d hd)
    · obtain ⟨d, hd, hname⟩ := hcreate.at_p
      rw [hfirst.eq_of_name hd hname]
      exact hlowest
  case counted =>
    intro s p htaken
    obtain ⟨d, hd⟩ := Option.ne_none_iff_exists'.mp (htaken p (UInt16.le_refl p))
    -- the numbers up to `p` are a part of those that are counted
    have hfront : (Slots.numbers.all fun p => (Slots.numbers.take (p.toNat + 1)).length == p.toNat + 1 &&
        (Slots.numbers.take (p.toNat + 1)).all (· ≤ p)) = true := by decide
    simp only [List.all_eq_true, Bool.and_eq_true, beq_iff_eq, decide_eq_true_eq] at hfront
    obtain ⟨hlength, hle⟩ := hfront p (Slots.mem_numbers hd)
    have hall : (Slots.numbers.take (p.toNat + 1)).countP (fun q => (s.dev q).isSome) = p.toNat + 1 := by
      refine (List.countP_eq_length.mpr ?_).trans hlength
      exact fun q hq => Option.isSome_iff_ne_none.mpr (htaken q (hle q hq))
    have hpart := (List.take_sublist (p.toNat + 1) Slots.numbers).countP_le (p := fun q => (s.dev q).isSome)
    have hfour : Slots.numbers.countP (fun q => (s.dev q).isSome) ≤ 4 := List.countP_le_length
    change p < UInt16.ofNat (Slots.numbers.countP fun q => (s.dev q).isSome)
    rw [UInt16.lt_iff_toNat_lt, UInt16.toNat_ofNat_of_lt' (Nat.lt_of_le_of_lt hfour (by decide))]
    omega
  case info_get => exact fun p s hp => Slots.check_eq_zero_iff.mpr hp
  case is_valid_port => exact fun p s hp => Option.isSome_iff_ne_none.mpr hp
  case promiscuous_enable => exact fun p s hp => Slots.check_eq_zero_iff.mpr hp
  all_goals exact fun p s hp => hzero s p hp

end Laws

end grpc_server.dpdk_filter
