import GrpcServer.DpdkFilter.ParsPackets.Domain
import GrpcServer.WhileLoop

open c_memory while_loop

namespace grpc_server.dpdk_filter

/-- The bytes behind the length byte at `pos`. -/
def label_at (data : ℕ → UInt8) (pos : ℕ) : Str := (List.range (data pos).toNat).map fun k => data (pos + 1 + k)

theorem length_label_at (data : ℕ → UInt8) (pos : ℕ) : (label_at data pos).length = (data pos).toNat := by
  rw [label_at, List.length_map, List.length_range]

/-- A round of the validation loop on `pos` and `domain_len`. -/
def validation_round (data : ℕ → UInt8) : ℕ × ℕ → Option (ℕ × ℕ)
  | (pos, domain_len) =>
    if data pos ≠ 0 ∧ domain_len < 255 then some (pos + (data pos).toNat + 1, domain_len + (data pos).toNat + 1)
    else none

/-- What a round of the copy loop appends to the bytes in front of `dst`. -/
def append_label (written label : Str) : Str := (if written = [] then written else written ++ [46]) ++ label

/-- A round of the copy loop on `pos` and the bytes in front of `dst`. -/
def copy_round (data : ℕ → UInt8) : ℕ × Str → Option (ℕ × Str)
  | (pos, written) =>
    if data pos ≠ 0 then some (pos + 1 + (data pos).toNat, append_label written (label_at data pos)) else none

section Rounds

variable {data : ℕ → UInt8}

theorem label_at_ne_nil {pos : ℕ} (h : data pos ≠ 0) : label_at data pos ≠ [] := by
  rw [← List.length_pos_iff, length_label_at]
  exact Nat.pos_of_ne_zero fun hzero => h (UInt8.toNat_inj.mp hzero)

theorem validation_round_eq_some {s t : ℕ × ℕ} (h : validation_round data s = some t) :
    data s.1 ≠ 0 ∧ s.2 < 255 ∧ t = (s.1 + (data s.1).toNat + 1, s.2 + (data s.1).toNat + 1) := by
  obtain ⟨pos, domain_len⟩ := s
  rw [validation_round] at h
  split at h
  · rename_i hnow
    exact ⟨hnow.1, hnow.2, (Option.some.inj h).symm⟩
  · cases h

/-- Every round counts at least two bytes. -/
theorem validation_round_counts {s t : ℕ × ℕ} (h : validation_round data s = some t) : s.2 + 2 ≤ t.2 := by
  obtain ⟨hnow, -, rfl⟩ := validation_round_eq_some h
  have hpositive : (data s.1).toNat ≠ 0 := fun hzero => hnow (UInt8.toNat_inj.mp hzero)
  change s.2 + 2 ≤ s.2 + (data s.1).toNat + 1
  omega

theorem copy_round_of_ne_zero {pos : ℕ} (h : data pos ≠ 0) (written : Str) :
    copy_round data (pos, written) =
      some (pos + 1 + (data pos).toNat, append_label written (label_at data pos)) := if_pos h

theorem copy_round_of_zero {pos : ℕ} (h : data pos = 0) (written : Str) : copy_round data (pos, written) = none :=
  if_neg (not_not_intro h)

/-- The validation loop comes to an end on every sequence of bytes. -/
theorem validation_ends (data : ℕ → UInt8) (s : ℕ × ℕ) : Ends (validation_round data) s := by
  refine ends_of_measure (fun s => 255 - s.2) ?_ s
  intro s t hround
  have hcount := validation_round_counts hround
  have hcut := (validation_round_eq_some hround).2.1
  change 255 - t.2 < 255 - s.2
  omega

theorem validation_visits_le {s final : ℕ × ℕ} {visited : List (ℕ × ℕ)}
    (h : Runs (validation_round data) s visited final) : 2 * visited.length ≤ 256 - s.2 := by
  induction h with
  | stop => exact Nat.zero_le _
  | next hround _ ih =>
    have hcount := validation_round_counts hround
    have hcut := (validation_round_eq_some hround).2.1
    rw [List.length_cons]
    omega

/-- The recursion that stands for the loop in `parse_dns`. -/
theorem dns_name_end_of_runs {s final : ℕ × ℕ} {visited : List (ℕ × ℕ)}
    (h : Runs (validation_round data) s visited final) {rounds : ℕ} (hrounds : visited.length ≤ rounds) :
    dns_name_end data rounds s.1 s.2 = final := by
  induction h generalizing rounds with
  | @stop s hstop =>
    obtain ⟨pos, domain_len⟩ := s
    cases rounds with
    | zero => rfl
    | succ rounds =>
      rw [validation_round] at hstop
      split at hstop
      · cases hstop
      · rename_i hnow
        exact if_neg hnow
  | next hround _ ih =>
    obtain ⟨hnow, hcut, rfl⟩ := validation_round_eq_some hround
    cases rounds with
    | zero => exact absurd hrounds (Nat.not_succ_le_zero _)
    | succ rounds =>
      rw [dns_name_end, if_pos ⟨hnow, hcut⟩]
      exact ih (Nat.le_of_succ_le_succ hrounds)

theorem dns_name_copy_of_runs {s final : ℕ × Str} {visited : List (ℕ × Str)}
    (h : Runs (copy_round data) s visited final) {rounds : ℕ} (hrounds : visited.length ≤ rounds) :
    final.2 = s.2 ++ dns_name_copy data rounds s.1 (s.2 = []) := by
  induction h generalizing rounds with
  | @stop s hstop =>
    obtain ⟨pos, written⟩ := s
    have hzero : data pos = 0 := by
      by_contra hnow
      rw [copy_round_of_ne_zero hnow] at hstop
      cases hstop
    cases rounds with
    | zero => simp [dns_name_copy]
    | succ rounds => simp [dns_name_copy, hzero]
  | @next s t final visited hround hrest ih =>
    obtain ⟨pos, written⟩ := s
    have hnow : data pos ≠ 0 := by
      intro hzero
      rw [copy_round_of_zero hzero] at hround
      cases hround
    rw [copy_round_of_ne_zero hnow] at hround
    cases hround
    cases rounds with
    | zero => exact absurd hrounds (Nat.not_succ_le_zero _)
    | succ rounds =>
      have hne : append_label written (label_at data pos) ≠ [] :=
        List.append_ne_nil_of_right_ne_nil _ (label_at_ne_nil hnow)
      rw [ih (Nat.le_of_succ_le_succ hrounds), dns_name_copy, if_pos hnow, decide_eq_false hne, ← label_at]
      by_cases hfirst : written = []
      · simp [hfirst, append_label]
      · simp [hfirst, append_label]

/-- The copy loop takes a round wherever the validation loop did, and ends where
that ended, if it ended on a zero byte. -/
theorem copy_runs_of_validation {s final : ℕ × ℕ} {visited : List (ℕ × ℕ)}
    (h : Runs (validation_round data) s visited final) (hzero : data final.1 = 0) (written : Str) :
    ∃ copied, copied.length = visited.length ∧
      Runs (copy_round data) (s.1, written) copied
        (final.1, (visited.map fun at_label => label_at data at_label.1).foldl append_label written) := by
  induction h generalizing written with
  | stop => exact ⟨[], rfl, .stop (copy_round_of_zero hzero written)⟩
  | @next s _ _ _ hround _ ih =>
    obtain ⟨hnow, -, rfl⟩ := validation_round_eq_some hround
    obtain ⟨copied, hlength, hruns⟩ := ih hzero (append_label written (label_at data s.1))
    have hpos : s.1 + (data s.1).toNat + 1 = s.1 + 1 + (data s.1).toNat := by omega
    rw [hpos] at hruns
    exact ⟨_ :: copied, congrArg Nat.succ hlength, .next (copy_round_of_ne_zero hnow written) hruns⟩

/-- `domain_len` counts a length byte for each label. -/
theorem validation_length {s final : ℕ × ℕ} {visited : List (ℕ × ℕ)}
    (h : Runs (validation_round data) s visited final) :
    final.2 = s.2 + ((visited.map fun at_label => label_at data at_label.1).map (·.length + 1)).sum ∧
      ∀ label ∈ visited.map fun at_label => label_at data at_label.1, label ≠ [] := by
  induction h with
  | stop => simp
  | @next s _ _ _ hround _ ih =>
    obtain ⟨hnow, -, rfl⟩ := validation_round_eq_some hround
    obtain ⟨hlength, hlabels⟩ := ih
    rw [List.map_cons, List.map_cons, List.sum_cons, List.forall_mem_cons, length_label_at]
    refine ⟨?_, label_at_ne_nil hnow, hlabels⟩
    rw [hlength]
    omega

end Rounds

theorem foldl_append_label {written : Str} (h : written ≠ []) (labels : List Str) :
    labels.foldl append_label written = written ++ dotted false labels := by
  induction labels generalizing written with
  | nil => simp [dotted]
  | cons label labels ih =>
    rw [List.foldl_cons, ih (by simp [append_label, h]), append_label, if_neg h, dotted]
    simp

/-- The labels with a dot between any two. -/
theorem foldl_append_label_nil {labels : List Str} (h : ∀ label ∈ labels, label ≠ []) :
    labels.foldl append_label [] = dotted true labels := by
  cases labels with
  | nil => rfl
  | cons label labels =>
    have hfirst : append_label [] label = label := rfl
    rw [List.foldl_cons, hfirst, foldl_append_label (h label List.mem_cons_self), dotted]
    simp

/-- Whatever bytes stand behind the DNS header, the validation loop ends. If it ends
on a zero byte having counted something, the copy loop ends on the same byte; it has
then written one byte less than was counted, the labels the first loop went over with
a dot between any two, and `parsing_pakage` writes these and the terminator. Otherwise
the domain stays empty. -/
theorem name_loops_agree (net : RteNet) (packet : RteMbuf) :
    ∃ visited stop domain_len,
      Runs (validation_round packet.data) (dns_name_start net packet, 0) visited (stop, domain_len) ∧
      (packet.data stop = 0 → 0 < domain_len → ∃ copied written,
        Runs (copy_round packet.data) (dns_name_start net packet, []) copied (stop, written) ∧
        written.length = domain_len - 1 ∧
        written = [46].intercalate (visited.map fun at_label => label_at packet.data at_label.1) ∧
        (is_dns_query net packet → domain_writes net packet = written ++ [0])) ∧
      (¬ (packet.data stop = 0 ∧ 0 < domain_len) → (parsing_pakage net packet).domain = fun _ => 0) := by
  obtain ⟨visited, ⟨stop, domain_len⟩, hruns⟩ := validation_ends packet.data (dns_name_start net packet, 0)
  have hrounds : visited.length ≤ 128 := by
    have hvisits := validation_visits_le hruns
    omega
  have hstop : dns_name_stop net packet = (stop, domain_len) := dns_name_end_of_runs hruns hrounds
  refine ⟨visited, stop, domain_len, hruns, ?_, ?_⟩
  · intro hzero hpositive
    obtain ⟨copied, hcopied, hcopy⟩ := copy_runs_of_validation hruns hzero []
    obtain ⟨hlength, hlabels⟩ := validation_length hruns
    rw [foldl_append_label_nil hlabels] at hcopy
    refine ⟨copied, _, hcopy, ?_, dotted_eq_intercalate _, ?_⟩
    · have hsum := length_dotted true (visited.map fun at_label => label_at packet.data at_label.1)
      have hsome : visited ≠ [] := by
        rintro rfl
        simp at hlength
        omega
      simp only [Bool.true_and, List.isEmpty_map, List.isEmpty_eq_false_iff.mpr hsome, Bool.not_false, if_true] at hsum
      change domain_len = _ at hlength
      omega
    · intro hquery
      have haccepted : dns_name_accepted net packet := by
        rw [dns_name_accepted, hstop]
        exact ⟨hzero, hpositive⟩
      have hwritten := dns_name_copy_of_runs hcopy (hcopied.trans_le hrounds)
      rw [decide_eq_true rfl, List.nil_append] at hwritten
      rw [domain_writes_of_accepted hquery haccepted, ← hwritten]
  · intro hrejected
    have hnot : ¬ dns_name_accepted net packet := by
      rw [dns_name_accepted, hstop]
      exact hrejected
    funext k
    rw [parsing_pakage_domain, domain_writes_of_not fun h => hnot h.2]
    rfl

end grpc_server.dpdk_filter
