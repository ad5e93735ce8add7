import GrpcServer.Rounding
import GrpcServer.Transition
import GrpcServer.Worker.MetricsCollector
import Mathlib.Algebra.Order.Field.Basic
import Mathlib.Data.Finmap

open c_memory istream

namespace grpc_server.worker

/-- The fields of a line of `/proc/stat` that count. -/
structure CpuTimes where
  user : ℤ
  nice : ℤ
  sys : ℤ
  idle : ℤ
  iowait : ℤ
  irq : ℤ
  softirq : ℤ
  steal : ℤ
deriving DecidableEq

def CpuTimes.busy (times : CpuTimes) : ℤ :=
  times.user + times.nice + times.sys + times.irq + times.softirq + times.steal

def CpuTimes.waiting (times : CpuTimes) : ℤ := times.idle + times.iowait

def CpuTimes.non_idle (times : CpuTimes) : UInt64 := UInt64.ofInt times.busy

def CpuTimes.total (times : CpuTimes) : UInt64 := times.non_idle + UInt64.ofInt times.idle + UInt64.ofInt times.iowait

/-- `CPUInfo` without the times the constructor has read. -/
structure CpuInfo where
  gauge : ℚ
  last_total : UInt64
  last_non_idle : UInt64

def CpuInfo.fresh : CpuInfo := { gauge := 0, last_total := 0, last_non_idle := 0 }

/-- What `getline` gives until it fails. -/
def lines (s : Str) : List Str :=
  let parts := s.splitOn 10
  if parts.getLast? = some [] then parts.dropLast else parts

/-- The range of `long`. -/
def fits_long (value : ℤ) : Bool := -2 ^ 63 ≤ value && value < 2 ^ 63

/-- The numbers of a line one after another, none if one of them cannot be read:
it then keeps a value it never had. -/
def read_longs : ℕ → Str → Option (List ℤ)
  | 0, _ => some []
  | n + 1, s => (number fits_long s).bind fun (value, rest) => (read_longs n rest).map (value :: ·)

/-- The name and the eight numbers of a line that are used. -/
def read_times (line : Str) : Option (Str × CpuTimes) :=
  (word line).bind fun (cpu_name, rest) =>
    match read_longs 8 rest with
    | some [user, nice, sys, idle, iowait, irq, softirq, steal] =>
      some (cpu_name, { user, nice, sys, idle, iowait, irq, softirq, steal })
    | _ => none

section Update

variable (r : Rounding)

def percent (total_diff non_idle_diff : UInt64) : ℚ :=
  if total_diff = 0 then 0 else r.fl (r.fl (r.fl non_idle_diff.toNat / r.fl total_diff.toNat) * 100)

/-- What a line does to the CPU it names. -/
def CpuInfo.update (cpu : CpuInfo) (times : CpuTimes) : CpuInfo :=
  { gauge :=
      if cpu.last_total > 0 then percent r (times.total - cpu.last_total) (times.non_idle - cpu.last_non_idle)
      else cpu.gauge
    last_total := times.total
    last_non_idle := times.non_idle }

abbrev CpuUsage := Finmap fun _ : Str => CpuInfo

/-- A CPU the constructor did not see is passed over. -/
def update_cpu (cpu_usage : CpuUsage) (sample : Str × CpuTimes) : CpuUsage :=
  match cpu_usage.lookup sample.1 with
  | none => cpu_usage
  | some cpu => cpu_usage.insert sample.1 (cpu.update r sample.2)

/-- The lines that `GetCPUUsage` looks at. -/
def read_stat (file : Str) : Option (List (Str × CpuTimes)) :=
  ((lines file).takeWhile fun line => decide (IsCpu line)).mapM read_times

/-- `GetCPUUsage`. Without the file nothing changes; a number that cannot be read
makes what it computes undefined. -/
def get_cpu_usage (cpu_usage : CpuUsage) : Option Str → Option CpuUsage
  | none => some cpu_usage
  | some file => (read_stat file).map fun samples => samples.foldl (update_cpu r) cpu_usage

end Update

/-- The counters of a running kernel: none is negative, and together they have
not left the range of `long`. -/
structure CpuTimes.Plausible (times : CpuTimes) : Prop where
  busy : 0 ≤ times.busy
  idle : 0 ≤ times.idle
  iowait : 0 ≤ times.iowait
  range : times.busy + times.waiting < 2 ^ 63

/-- No counter has gone back. -/
structure CpuTimes.Before (earlier later : CpuTimes) : Prop where
  busy : earlier.busy ≤ later.busy
  waiting : earlier.waiting ≤ later.waiting

section Percent

variable (r : Rounding)

theorem percent_bounds {total_diff non_idle_diff : UInt64} (h : non_idle_diff ≤ total_diff) :
    0 ≤ percent r total_diff non_idle_diff ∧ percent r total_diff non_idle_diff ≤ 100 := by
  unfold percent
  split
  · exact ⟨le_refl 0, by decide⟩
  · rename_i hne
    have hpos : 1 ≤ total_diff.toNat := by
      rw [Nat.one_le_iff_ne_zero]
      exact fun hzero => hne (UInt64.toNat_inj.mp hzero)
    have hone : r.fl 1 = 1 := by simpa using r.exact 1 (by decide)
    have htotal : 0 < r.fl total_diff.toNat :=
      lt_of_lt_of_le zero_lt_one (hone ▸ r.monotone (by exact_mod_cast hpos))
    have hnon_idle : 0 ≤ r.fl non_idle_diff.toNat := r.fl_nonneg (Nat.cast_nonneg _)
    have hle : r.fl non_idle_diff.toNat ≤ r.fl total_diff.toNat :=
      r.monotone (by exact_mod_cast UInt64.le_iff_toNat_le.mp h)
    have hratio : r.fl (r.fl non_idle_diff.toNat / r.fl total_diff.toNat) ≤ 1 := by
      have hdiv := (div_le_one htotal).mpr hle
      simpa using r.fl_le (n := 1) (by decide) (by simpa using hdiv)
    have hratio_nonneg : 0 ≤ r.fl (r.fl non_idle_diff.toNat / r.fl total_diff.toNat) :=
      r.fl_nonneg (div_nonneg hnon_idle htotal.le)
    constructor
    · exact r.fl_nonneg (mul_nonneg hratio_nonneg (by decide))
    · have hproduct : r.fl (r.fl non_idle_diff.toNat / r.fl total_diff.toNat) * 100 ≤ (100 : ℕ) := by
        simpa using mul_le_mul_of_nonneg_right hratio (by decide : (0 : ℚ) ≤ 100)
      simpa using r.fl_le (n := 100) (by decide) hproduct

end Percent

section Counters

variable {times earlier later : CpuTimes}

theorem toNat_ofInt {value : ℤ} (hlow : 0 ≤ value) (hhigh : value < 2 ^ 64) :
    (UInt64.ofInt value).toNat = value.toNat := by
  rw [UInt64.ofInt, Int.emod_eq_of_lt hlow hhigh]
  exact UInt64.toNat_ofNat_of_lt' (by simp only [UInt64.size]; omega)

theorem CpuTimes.Plausible.toNat_non_idle (h : times.Plausible) : times.non_idle.toNat = times.busy.toNat := by
  obtain ⟨hbusy, hidle, hiowait, hrange⟩ := h
  simp only [CpuTimes.waiting] at hrange
  exact toNat_ofInt hbusy (by omega)

theorem CpuTimes.Plausible.toNat_total (h : times.Plausible) :
    times.total.toNat = (times.busy + times.waiting).toNat := by
  have hnon_idle := h.toNat_non_idle
  obtain ⟨hbusy, hidle, hiowait, hrange⟩ := h
  simp only [CpuTimes.waiting] at hrange ⊢
  rw [CpuTimes.total, UInt64.toNat_add, UInt64.toNat_add, hnon_idle, toNat_ofInt hidle (by omega),
    toNat_ofInt hiowait (by omega)]
  omega

/-- Of the time that has passed, the CPU was busy for a part. -/
theorem CpuTimes.Before.diff_le (h : earlier.Before later) (hearlier : earlier.Plausible) (hlater : later.Plausible) :
    later.non_idle - earlier.non_idle ≤ later.total - earlier.total := by
  have htotals := And.intro hearlier.toNat_total hlater.toNat_total
  have hbusys := And.intro hearlier.toNat_non_idle hlater.toNat_non_idle
  obtain ⟨hbusy, hwaiting⟩ := h
  have hpast := hearlier.busy
  have hrest : 0 ≤ earlier.waiting := Int.add_nonneg hearlier.idle hearlier.iowait
  have hnon_idle : earlier.non_idle ≤ later.non_idle := UInt64.le_iff_toNat_le.mpr (by omega)
  have htotal : earlier.total ≤ later.total := UInt64.le_iff_toNat_le.mpr (by omega)
  rw [UInt64.le_iff_toNat_le, UInt64.toNat_sub_of_le _ _ hnon_idle, UInt64.toNat_sub_of_le _ _ htotal]
  omega

end Counters

section Run

variable {r : Rounding} {past : List (Str × CpuTimes)} {cpu_usage : CpuUsage}

/-- The counters of one CPU do not go back between two samples. -/
def InOrder (first second : Str × CpuTimes) : Prop := first.1 = second.1 → first.2.Before second.2

/-- Every gauge is a percentage, and what is kept of a CPU is its last sample. -/
def Sampled (past : List (Str × CpuTimes)) (cpu_usage : CpuUsage) : Prop :=
  ∀ name cpu, cpu_usage.lookup name = some cpu → (0 ≤ cpu.gauge ∧ cpu.gauge ≤ 100) ∧
    (cpu.last_total > 0 → ∃ times, (name, times) ∈ past ∧ cpu.last_total = times.total ∧
      cpu.last_non_idle = times.non_idle)

theorem Sampled.update_cpu (h : Sampled past cpu_usage) {sample : Str × CpuTimes}
    (hreadings : ∀ s ∈ past ++ [sample], s.2.Plausible) (horder : ∀ s ∈ past, InOrder s sample) :
    Sampled (past ++ [sample]) (worker.update_cpu r cpu_usage sample) := by
  obtain ⟨sampled_name, times⟩ := sample
  have hold : Sampled (past ++ [(sampled_name, times)]) cpu_usage := by
    intro name cpu hcpu
    obtain ⟨hgauge, hlast⟩ := h name cpu hcpu
    refine ⟨hgauge, fun hpos => ?_⟩
    obtain ⟨earlier, hmem, hkept⟩ := hlast hpos
    exact ⟨earlier, List.mem_append_left _ hmem, hkept⟩
  unfold worker.update_cpu
  cases hlookup : cpu_usage.lookup sampled_name with
  | none => exact hold
  | some known =>
    intro name cpu hcpu
    by_cases hname : name = sampled_name
    · subst hname
      rw [Finmap.lookup_insert] at hcpu
      cases hcpu
      refine ⟨?_, fun _ => ⟨times, List.mem_append_right _ (List.mem_singleton_self _), rfl, rfl⟩⟩
      obtain ⟨hgauge, hlast⟩ := h name known hlookup
      simp only [CpuInfo.update]
      split
      · rename_i hpos
        obtain ⟨earlier, hmem, htotal, hnon_idle⟩ := hlast hpos
        rw [htotal, hnon_idle]
        exact percent_bounds r ((horder _ hmem rfl).diff_le (hreadings _ (List.mem_append_left _ hmem))
          (hreadings _ (List.mem_append_right _ (List.mem_singleton_self _))))
      · exact hgauge
    · rw [Finmap.lookup_insert_of_ne _ hname] at hcpu
      exact hold name cpu hcpu

theorem Sampled.foldl (h : Sampled past cpu_usage) (samples : List (Str × CpuTimes))
    (hreadings : ∀ s ∈ past ++ samples, s.2.Plausible) (horder : (past ++ samples).Pairwise InOrder) :
    Sampled (past ++ samples) (samples.foldl (worker.update_cpu r) cpu_usage) := by
  induction samples generalizing past cpu_usage with
  | nil => simpa using h
  | cons sample samples ih =>
    have hsplit : past ++ sample :: samples = (past ++ [sample]) ++ samples := by simp
    rw [hsplit] at hreadings horder ⊢
    have hfront := (List.pairwise_append.mp (List.pairwise_append.mp horder).1).2.2
    refine ih (h.update_cpu ?_ ?_) hreadings horder
    · exact fun s hs => hreadings s (List.mem_append_left _ hs)
    · exact fun s hs => hfront s hs sample (List.mem_singleton_self _)

/-- The samples in the files that could be opened, in their order. -/
def samples (files : List (Option Str)) : List (Str × CpuTimes) :=
  files.flatMap fun file => (file.bind read_stat).getD []

theorem run_get_cpu_usage {files : List (Option Str)} (h : ∀ file, some file ∈ files → read_stat file ≠ none)
    (cpu_usage : CpuUsage) :
    transition.run (get_cpu_usage r) cpu_usage files = some ((samples files).foldl (worker.update_cpu r) cpu_usage) := by
  induction files generalizing cpu_usage with
  | nil => rfl
  | cons file files ih =>
    have hrest := ih fun other hother => h other (List.mem_cons_of_mem _ hother)
    rw [transition.run, samples, List.flatMap_cons, List.foldl_append]
    cases file with
    | none => exact hrest cpu_usage
    | some file =>
      obtain ⟨found, hfound⟩ := Option.ne_none_iff_exists'.mp (h file List.mem_cons_self)
      simp only [get_cpu_usage, hfound, Option.map_some, Option.bind_some, Option.getD_some]
      exact hrest _

/-- Over any sequence of readings of `/proc/stat`, whichever CPUs are listed in each,
if all numbers can be read and are plausible, and no counter of a CPU goes back, every
reading is defined and every gauge stays between 0 and 100. -/
theorem cpu_gauges_percent (r : Rounding) (cpu_usage : CpuUsage)
    (hfresh : ∀ name cpu, cpu_usage.lookup name = some cpu → cpu = CpuInfo.fresh) (files : List (Option Str))
    (hread : ∀ file, some file ∈ files → read_stat file ≠ none)
    (hreadings : ∀ sample ∈ samples files, sample.2.Plausible) (horder : (samples files).Pairwise InOrder) :
    ∃ final, transition.run (get_cpu_usage r) cpu_usage files = some final ∧
      ∀ name cpu, final.lookup name = some cpu → 0 ≤ cpu.gauge ∧ cpu.gauge ≤ 100 := by
  refine ⟨_, run_get_cpu_usage hread cpu_usage, ?_⟩
  have hstart : Sampled [] cpu_usage := by
    intro name cpu hcpu
    rw [hfresh name cpu hcpu]
    exact ⟨⟨le_refl 0, by decide⟩, fun hpos => absurd hpos (by decide)⟩
  have hfinal := hstart.foldl (r := r) (samples files) hreadings horder
  exact fun name cpu hcpu => (hfinal name cpu hcpu).1

/-- `cpu 1 0 0 1 0 0 0 0` with the first digit given, and a line behind it. -/
def one_cpu (digit : UInt8) : Str :=
  [99, 112, 117, 32, digit, 32, 48, 32, 48, 32, 49, 32, 48, 32, 48, 32, 48, 32, 48, 10, 105, 10]

/-- Two readings a second apart, with the file gone in between. -/
theorem cpu_gauges_percent_twice :
    ∃ final, transition.run (get_cpu_usage Rounding.identity) (Finmap.singleton [99, 112, 117] CpuInfo.fresh)
        [some (one_cpu 49), none, some (one_cpu 50)] = some final ∧
      ∀ name cpu, final.lookup name = some cpu → 0 ≤ cpu.gauge ∧ cpu.gauge ≤ 100 := by
  have hfirst : read_stat (one_cpu 49) = some [([99, 112, 117], ⟨1, 0, 0, 1, 0, 0, 0, 0⟩)] := by decide
  have hsecond : read_stat (one_cpu 50) = some [([99, 112, 117], ⟨2, 0, 0, 1, 0, 0, 0, 0⟩)] := by decide
  have hsamples : samples [some (one_cpu 49), none, some (one_cpu 50)] =
      [([99, 112, 117], ⟨1, 0, 0, 1, 0, 0, 0, 0⟩), ([99, 112, 117], ⟨2, 0, 0, 1, 0, 0, 0, 0⟩)] := by
    simp [samples, hfirst, hsecond]
  refine cpu_gauges_percent Rounding.identity _ ?_ _ ?_ ?_ ?_
  · intro name cpu hcpu
    by_cases hname : name = [99, 112, 117]
    · subst hname
      rw [Finmap.lookup_singleton_eq] at hcpu
      exact (Option.some.inj hcpu).symm
    · rw [Finmap.lookup_eq_none.mpr (by simpa using hname)] at hcpu
      cases hcpu
  · intro file hfile
    simp only [List.mem_cons, Option.some.injEq, reduceCtorEq, List.not_mem_nil, or_false, false_or] at hfile
    rcases hfile with rfl | rfl
    · simp [hfirst]
    · simp [hsecond]
  · rw [hsamples]
    simp only [List.forall_mem_cons, List.not_mem_nil, false_implies, implies_true, and_true]
    exact ⟨⟨by decide, by decide, by decide, by decide⟩, by decide, by decide, by decide, by decide⟩
  · rw [hsamples]
    simp only [List.pairwise_cons, List.mem_singleton, forall_eq, List.not_mem_nil, false_implies, implies_true,
      List.Pairwise.nil, and_true]
    exact fun _ => ⟨by decide, by decide⟩

end Run

end grpc_server.worker
