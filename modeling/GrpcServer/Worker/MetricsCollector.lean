import GrpcServer.CMemory.CString
import GrpcServer.IStream
import GrpcServer.WhileLoop
import Mathlib.Data.Finset.Insert

open c_memory istream while_loop

namespace grpc_server.worker

/-- The locals of the `MetricsCollector` constructor in its loop over `/proc/stat`,
and the names `cpu_usage` holds. -/
structure CpuReader where
  file : InStream
  cpu_name : Str
  cpu_usage : Finset Str

/-- The numbers of a line: four fields of `cpu.time`, and `ign` six times. -/
def cpu_fields : List (ℤ → Bool) :=
  [fits_uint64, fits_uint64, fits_uint64, fits_uint64, fits_int, fits_int, fits_int, fits_int, fits_int, fits_int]

/-- `cpu_name.find("cpu") == 0`. -/
def IsCpu (cpu_name : Str) : Prop := [99, 112, 117] <+: cpu_name

instance (cpu_name : Str) : Decidable (IsCpu cpu_name) := inferInstanceAs (Decidable (_ <+: _))

/-- The extractions of the numbers, one after another. -/
def extract_numbers (fields : List (ℤ → Bool)) (file : InStream) : InStream :=
  fields.foldl (fun file fits => (extract (number fits) file 0).1) file

/-- A round of the loop, `none` where it breaks. -/
def read_cpu (s : CpuReader) : Option CpuReader :=
  let (file, cpu_name) := extract word s.file s.cpu_name
  let file := extract_numbers cpu_fields file
  if ¬ IsCpu cpu_name then none else some { file, cpu_name, cpu_usage := insert cpu_name s.cpu_usage }

/-- The reader in front of the loop. A file that cannot be opened is in the fail
state. -/
def CpuReader.start (file : InStream) : CpuReader := { file, cpu_name := [], cpu_usage := ∅ }

/-- Lines that begin with `cpu` and whose numbers can all be read, and behind them
another word. -/
inductive CpuList : Str → Prop where
  | other {s cpu_name rest : Str} (hword : word s = some (cpu_name, rest)) (hname : ¬ IsCpu cpu_name) : CpuList s
  | cpu {s cpu_name rest next : Str} (hword : word s = some (cpu_name, rest)) (hname : IsCpu cpu_name)
      (hnumbers : extract_numbers cpu_fields (some rest) = some next) (hnext : CpuList next) : CpuList s

theorem extract_numbers_none (fields : List (ℤ → Bool)) : extract_numbers fields none = none := by
  induction fields with
  | nil => rfl
  | cons fits fields ih => exact ih

section Round

variable {s : Str} {file : InStream} {cpu_name : Str} {cpu_usage : Finset Str}

/-- A round that reads a name. -/
theorem read_cpu_of_word {name rest : Str} (h : word s = some (name, rest)) (cpu_name : Str) (cpu_usage : Finset Str) :
    read_cpu ⟨some s, cpu_name, cpu_usage⟩ =
      if ¬ IsCpu name then none else some ⟨extract_numbers cpu_fields (some rest), name, insert name cpu_usage⟩ := by
  simp only [read_cpu, extract_some h]

/-- A round that reads none keeps the name of the round before. -/
theorem read_cpu_of_failed (h : file.bind word = none) (cpu_name : Str) (cpu_usage : Finset Str) :
    read_cpu ⟨file, cpu_name, cpu_usage⟩ =
      if ¬ IsCpu cpu_name then none else some ⟨none, cpu_name, insert cpu_name cpu_usage⟩ := by
  simp only [read_cpu, extract_of_none h, extract_numbers_none]

/-- In the fail state the loop goes on for ever under the name it has. -/
theorem not_ends_of_failed (h : file.bind word = none) (hname : IsCpu cpu_name) :
    ¬ Ends read_cpu ⟨file, cpu_name, cpu_usage⟩ := by
  refine not_ends_of_invariant (fun r => r.file.bind word = none ∧ IsCpu r.cpu_name) ?_ ⟨h, hname⟩
  rintro ⟨file, cpu_name, cpu_usage⟩ ⟨hfile, hname⟩
  refine ⟨⟨none, cpu_name, insert cpu_name cpu_usage⟩, ?_, rfl, hname⟩
  rw [read_cpu_of_failed hfile, if_neg (not_not_intro hname)]

/-- A round with a name can be taken off the front. -/
theorem ends_of_word_iff {name rest : Str} (h : word s = some (name, rest)) :
    Ends read_cpu ⟨some s, cpu_name, cpu_usage⟩ ↔ ¬ IsCpu name ∨
      Ends read_cpu ⟨extract_numbers cpu_fields (some rest), name, insert name cpu_usage⟩ := by
  have hround := read_cpu_of_word h cpu_name cpu_usage
  by_cases hname : IsCpu name
  · rw [if_neg (not_not_intro hname)] at hround
    rw [ends_iff_next hround, or_iff_right (not_not_intro hname)]
  · rw [if_pos hname] at hround
    exact iff_of_true (ends_of_stop hround) (.inl hname)

end Round

theorem CpuList.ends {s : Str} (h : CpuList s) (cpu_name : Str) (cpu_usage : Finset Str) :
    Ends read_cpu ⟨some s, cpu_name, cpu_usage⟩ := by
  induction h generalizing cpu_name cpu_usage with
  | other hword hname => exact (ends_of_word_iff hword).mpr (.inl hname)
  | cpu hword hname hnumbers hnext ih =>
    refine (ends_of_word_iff hword).mpr (.inr ?_)
    rw [hnumbers]
    exact ih _ _

/-- Once a name has been read, the loop ends only behind a readable list. -/
theorem cpuList_of_ends {r : CpuReader} (hname : IsCpu r.cpu_name) (h : Ends read_cpu r) :
    ∃ s, r.file = some s ∧ CpuList s := by
  obtain ⟨visited, final, hruns⟩ := h
  induction hruns with
  | @stop r hstop =>
    obtain ⟨file, cpu_name, cpu_usage⟩ := r
    cases hread : file.bind word with
    | none =>
      rw [read_cpu_of_failed hread, if_neg (not_not_intro hname)] at hstop
      cases hstop
    | some found =>
      obtain ⟨s, rfl, hword⟩ := Option.bind_eq_some_iff.mp hread
      refine ⟨s, rfl, .other hword fun hcpu => ?_⟩
      rw [read_cpu_of_word hword, if_neg (not_not_intro hcpu)] at hstop
      cases hstop
  | @next r t _ _ hround hrest ih =>
    obtain ⟨file, cpu_name, cpu_usage⟩ := r
    cases hread : file.bind word with
    | none => exact absurd ⟨_, _, .next hround hrest⟩ (not_ends_of_failed hread hname)
    | some found =>
      obtain ⟨s, rfl, hword⟩ := Option.bind_eq_some_iff.mp hread
      rw [read_cpu_of_word hword] at hround
      split at hround
      · cases hround
      · rename_i hcpu
        cases hround
        obtain ⟨next, hnext, hlist⟩ := ih (not_not.mp hcpu)
        exact ⟨s, rfl, .cpu hword (not_not.mp hcpu) hnext hlist⟩

/-- For every content of `/proc/stat` the loop ends if and only if the file cannot be
read or holds no word, or it begins with lines of CPUs whose numbers all fit, behind
which another word stands. -/
theorem cpu_list_read_iff (file : InStream) :
    Ends read_cpu (CpuReader.start file) ↔ file.bind word = none ∨ ∃ s, file = some s ∧ CpuList s := by
  constructor
  · intro h
    cases hread : file.bind word with
    | none => exact .inl rfl
    | some found =>
      obtain ⟨name, rest⟩ := found
      obtain ⟨s, rfl, hword⟩ := Option.bind_eq_some_iff.mp hread
      refine .inr ⟨s, rfl, ?_⟩
      by_cases hcpu : IsCpu name
      · have hrest := ((ends_of_word_iff hword).mp h).resolve_left (not_not_intro hcpu)
        obtain ⟨next, hnext, hlist⟩ := cpuList_of_ends hcpu hrest
        exact .cpu hword hcpu hnext hlist
      · exact .other hword hcpu
  · rintro (hread | ⟨s, rfl, hlist⟩)
    · refine ends_of_stop ?_
      rw [CpuReader.start, read_cpu_of_failed hread]
      exact if_pos (by decide)
    · exact hlist.ends _ _

/-- `cpu 0 0 0 0 2147483648 0 0 0 0 0` and `intr 5`: the time the machine has waited
for its disks has passed the range of `int`. -/
def long_wait : Str :=
  [99, 112, 117, 32, 48, 32, 48, 32, 48, 32, 48, 32, 50, 49, 52, 55, 52, 56, 51, 54, 52, 56, 32,
    48, 32, 48, 32, 48, 32, 48, 32, 48, 10, 105, 110, 116, 114, 32, 53]

/-- `cpu 0 0 0 0 0 0 0 0 0 0` and nothing else. -/
def only_cpu : Str :=
  [99, 112, 117, 32, 48, 32, 48, 32, 48, 32, 48, 32, 48, 32, 48, 32, 48, 32, 48, 32, 48, 32, 48, 10]

/-- A counter beyond the range of `int`, or the end of the file behind the CPUs, and
the constructor never returns. -/
theorem cpu_list_never_read :
    ¬ Ends read_cpu (CpuReader.start (some long_wait)) ∧ ¬ Ends read_cpu (CpuReader.start (some only_cpu)) := by
  have hwait : word long_wait = some ([99, 112, 117], long_wait.drop 3) := by decide
  have honly : word only_cpu = some ([99, 112, 117], only_cpu.drop 3) := by decide
  have hcpu : IsCpu [99, 112, 117] := List.prefix_rfl
  have hfailed : extract_numbers cpu_fields (some (long_wait.drop 3)) = none := by decide
  have hread : extract_numbers cpu_fields (some (only_cpu.drop 3)) = some [10] := by decide
  constructor
  · intro hends
    have hrest := ((ends_of_word_iff hwait).mp hends).resolve_left (not_not_intro hcpu)
    rw [hfailed] at hrest
    exact not_ends_of_failed rfl hcpu hrest
  · intro hends
    have hrest := ((ends_of_word_iff honly).mp hends).resolve_left (not_not_intro hcpu)
    rw [hread] at hrest
    exact not_ends_of_failed (by decide) hcpu hrest

end grpc_server.worker
