import GrpcServer.DpdkFilter.ParsPackets

open c_memory

namespace grpc_server.dpdk_filter

/-- The wire encoding of a name: each label behind its length byte, then a zero. -/
def wire_name : List Str → Str
  | [] => [0]
  | label :: labels => UInt8.ofNat label.length :: label ++ wire_name labels

theorem length_wire_name (labels : List Str) :
    (wire_name labels).length = (labels.map (·.length + 1)).sum + 1 := by
  induction labels with
  | nil => rfl
  | cons label labels ih =>
    rw [wire_name, List.cons_append, List.length_cons, List.length_append, ih, List.map_cons, List.sum_cons]
    omega

/-- The labels with a dot in front of every one but the first. -/
def dotted : Bool → List Str → Str
  | _, [] => []
  | first, label :: labels => (if first then [] else [46]) ++ label ++ dotted false labels

theorem dotted_eq_intercalate (labels : List Str) : dotted true labels = [46].intercalate labels := by
  induction labels with
  | nil => rfl
  | cons label labels ih =>
    cases labels with
    | nil => simp [dotted]
    | cons next labels =>
      rw [List.intercalate_cons_cons, ← ih]
      simp [dotted]

theorem dotted_ne_zero {first : Bool} {labels : List Str} (h : ∀ label ∈ labels, ∀ b ∈ label, b ≠ 0) :
    ∀ b ∈ dotted first labels, b ≠ 0 := by
  induction labels generalizing first with
  | nil => simp [dotted]
  | cons label labels ih =>
    rw [List.forall_mem_cons] at h
    simp only [dotted, List.forall_mem_append]
    refine ⟨⟨?_, h.1⟩, ih h.2⟩
    cases first <;> simp

theorem length_dotted (first : Bool) (labels : List Str) :
    (dotted first labels).length + (if first && !labels.isEmpty then 1 else 0) =
      (labels.map (·.length + 1)).sum := by
  induction labels generalizing first with
  | nil => simp [dotted]
  | cons label labels ih =>
    have hrest := ih false
    cases first <;> simp [dotted] at hrest ⊢ <;> omega

theorem dotted_concat (first : Bool) (labels : List Str) (label : Str) (b : UInt8) :
    dotted first (labels ++ [label ++ [b]]) = dotted first (labels ++ [label]) ++ [b] := by
  induction labels generalizing first with
  | nil => simp [dotted]
  | cons head labels ih => simp only [List.cons_append, dotted, ih, List.append_assoc]

/-- Labels whose length fits its byte. -/
def ValidLabel (label : Str) : Prop := 0 < label.length ∧ label.length < 256

theorem ValidLabel.length_byte {label : Str} (h : ValidLabel label) :
    (UInt8.ofNat label.length).toNat = label.length ∧ UInt8.ofNat label.length ≠ 0 := by
  have hnat : (UInt8.ofNat label.length).toNat = label.length := UInt8.toNat_ofNat_of_lt h.2
  refine ⟨hnat, fun hzero => ?_⟩
  have hlen := h.1
  rw [hzero] at hnat
  simp only [UInt8.toNat_zero] at hnat
  omega

/-- Each label takes two bytes at least, its length byte included. -/
theorem two_mul_length_le {labels : List Str} (h : ∀ label ∈ labels, ValidLabel label) :
    2 * labels.length ≤ (labels.map (·.length + 1)).sum := by
  induction labels with
  | nil => simp
  | cons label labels ih =>
    rw [List.forall_mem_cons] at h
    have hhead := h.1.1
    have hrest := ih h.2
    rw [List.map_cons, List.sum_cons, List.length_cons]
    omega

/-- The name stands at `pos` of the packet. -/
def NameAt (data : ℕ → UInt8) (pos : ℕ) (labels : List Str) : Prop :=
  ∀ k, k < (wire_name labels).length → data (pos + k) = (wire_name labels).getD k 0

theorem NameAt.end_byte {data : ℕ → UInt8} {pos : ℕ} (h : NameAt data pos []) : data pos = 0 :=
  h 0 (by simp [wire_name])

theorem NameAt.head {data : ℕ → UInt8} {pos : ℕ} {label : Str} {labels : List Str}
    (h : NameAt data pos (label :: labels)) : data pos = UInt8.ofNat label.length :=
  h 0 (by simp [wire_name])

theorem NameAt.label {data : ℕ → UInt8} {pos : ℕ} {label : Str} {labels : List Str}
    (h : NameAt data pos (label :: labels)) :
    (List.range label.length).map (fun k => data (pos + 1 + k)) = label := by
  apply List.ext_getElem
  · simp
  · intro k hk hlabel
    have hbyte := h (1 + k) (by simp [wire_name]; omega)
    rw [← Nat.add_assoc] at hbyte
    simp only [List.getElem_map, List.getElem_range, hbyte, wire_name, List.cons_append, Nat.add_comm 1 k,
      List.getD_eq_getElem?_getD, List.getElem?_cons_succ]
    rw [List.getElem?_append_left hlabel, List.getElem?_eq_getElem hlabel, Option.getD_some]

theorem NameAt.tail {data : ℕ → UInt8} {pos : ℕ} {label : Str} {labels : List Str}
    (h : NameAt data pos (label :: labels)) : NameAt data (pos + 1 + label.length) labels := by
  intro k hk
  have hbyte := h (label.length + k + 1) (by simp [wire_name]; omega)
  have hpos : pos + 1 + label.length + k = pos + (label.length + k + 1) := by omega
  simp only [hpos, hbyte, wire_name, List.cons_append, List.getElem?_cons_succ, List.getD_eq_getElem?_getD]
  rw [List.getElem?_append_right (by omega), Nat.add_sub_cancel_left]

theorem NameAt.nil {data : ℕ → UInt8} {pos : ℕ} (h : data pos = 0) : NameAt data pos [] := by
  intro k hk
  obtain rfl : k = 0 := by simpa [wire_name] using hk
  exact h

/-- The label that the byte at `pos` announces, in front of a name. -/
theorem NameAt.cons {data : ℕ → UInt8} {pos : ℕ} {labels : List Str}
    (h : NameAt data (pos + 1 + (data pos).toNat) labels) :
    NameAt data pos ((List.range (data pos).toNat).map (fun k => data (pos + 1 + k)) :: labels) := by
  intro k hk
  simp only [wire_name, List.cons_append, List.length_map, List.length_range, UInt8.ofNat_toNat] at hk ⊢
  cases k with
  | zero => rfl
  | succ k =>
    have hpos : pos + (k + 1) = pos + 1 + k := by omega
    rw [List.getD_cons_succ, List.getD_eq_getElem?_getD, List.getElem?_append, List.length_map, List.length_range, hpos]
    split
    · rename_i hlabel
      simp [hlabel]
    · rename_i hlabel
      have hbyte := h (k - (data pos).toNat) (by simp at hk; omega)
      rw [← List.getD_eq_getElem?_getD, ← hbyte]
      congr 1
      omega

/-- Enough rounds bring the validation loop to its own end: a zero byte, or the
cut-off. -/
theorem dns_name_end_settled (data : ℕ → UInt8) (rounds pos domain_len : ℕ) (h : 255 ≤ domain_len + 2 * rounds) :
    data (dns_name_end data rounds pos domain_len).1 = 0 ∨ 255 ≤ (dns_name_end data rounds pos domain_len).2 := by
  induction rounds generalizing pos domain_len with
  | zero => exact .inr (by simpa [dns_name_end] using h)
  | succ rounds ih =>
    rw [dns_name_end]
    split
    · rename_i hnow
      have hpositive : (data pos).toNat ≠ 0 := fun hzero => hnow.1 (UInt8.toNat_inj.mp hzero)
      exact ih _ _ (by omega)
    · rename_i hstop
      by_cases hzero : data pos = 0
      · exact .inl hzero
      · exact .inr (Nat.le_of_not_lt fun hlt => hstop ⟨hzero, hlt⟩)

/-- The validation loop ends on the zero byte of a name as long as it does not
reach the cut-off before the last label. -/
theorem dns_name_end_eq {data : ℕ → UInt8} {labels : List Str} (hvalid : ∀ label ∈ labels, ValidLabel label)
    (rounds pos domain_len : ℕ) (hname : NameAt data pos labels) (hrounds : labels.length ≤ rounds)
    (hcut : labels ≠ [] → domain_len + (labels.dropLast.map (·.length + 1)).sum < 255) :
    ∃ stop, dns_name_end data rounds pos domain_len = (stop, domain_len + (labels.map (·.length + 1)).sum) ∧
      data stop = 0 := by
  induction labels generalizing rounds pos domain_len with
  | nil =>
    refine ⟨pos, ?_, hname.end_byte⟩
    cases rounds <;> simp [dns_name_end, hname.end_byte]
  | cons label labels ih =>
    obtain ⟨rounds, rfl⟩ := Nat.exists_eq_succ_of_ne_zero (Nat.ne_zero_of_lt hrounds)
    obtain ⟨hlen, hne⟩ := (hvalid label List.mem_cons_self).length_byte
    have hcut := hcut (List.cons_ne_nil _ _)
    have hnow : data pos ≠ 0 ∧ domain_len < 255 := ⟨by rwa [hname.head], by omega⟩
    have hpos : pos + label.length + 1 = pos + 1 + label.length := by omega
    obtain ⟨stop, hstop, hzero⟩ := ih (fun l hl => hvalid l (List.mem_cons_of_mem _ hl)) rounds _
      (domain_len + label.length + 1) hname.tail (Nat.le_of_succ_le_succ hrounds) (by
        intro hrest
        rw [List.dropLast_cons_of_ne_nil hrest, List.map_cons, List.sum_cons] at hcut
        omega)
    refine ⟨stop, ?_, hzero⟩
    rw [dns_name_end, if_pos hnow, hname.head, hlen, hpos, hstop, List.map_cons, List.sum_cons]
    simp only [Prod.mk.injEq, true_and]
    omega

theorem dns_name_copy_eq {data : ℕ → UInt8} {labels : List Str} (hvalid : ∀ label ∈ labels, ValidLabel label)
    (rounds pos : ℕ) (first : Bool) (hname : NameAt data pos labels) (hrounds : labels.length ≤ rounds) :
    dns_name_copy data rounds pos first = dotted first labels := by
  induction labels generalizing rounds pos first with
  | nil => cases rounds <;> simp [dns_name_copy, dotted, hname.end_byte]
  | cons label labels ih =>
    obtain ⟨rounds, rfl⟩ := Nat.exists_eq_succ_of_ne_zero (Nat.ne_zero_of_lt hrounds)
    obtain ⟨hlen, hne⟩ := (hvalid label List.mem_cons_self).length_byte
    have hrest := ih (fun l hl => hvalid l (List.mem_cons_of_mem _ hl)) rounds _ false hname.tail
      (Nat.le_of_succ_le_succ hrounds)
    have hnow : data pos ≠ 0 := by rwa [hname.head]
    rw [dns_name_copy, if_pos hnow, hname.head, hlen, hname.label, hrest, dotted]

/-- Labels stand one behind the other from `pos` on, each as many bytes as the byte
in front of it says. -/
def LabelsAt (data : ℕ → UInt8) : ℕ → List Str → Prop
  | _, [] => True
  | pos, label :: labels =>
    label = (List.range (data pos).toNat).map (fun k => data (pos + 1 + k)) ∧
      LabelsAt data (pos + 1 + (data pos).toNat) labels

theorem LabelsAt.length_head {data : ℕ → UInt8} {pos : ℕ} {label : Str} {labels : List Str}
    (h : LabelsAt data pos (label :: labels)) : label.length = (data pos).toNat := by
  rw [h.1, List.length_map, List.length_range]

/-- Labels with a zero byte behind them are a name. -/
theorem LabelsAt.nameAt {data : ℕ → UInt8} {pos : ℕ} {labels : List Str} (h : LabelsAt data pos labels)
    (hzero : data (pos + (labels.map (·.length + 1)).sum) = 0) : NameAt data pos labels := by
  induction labels generalizing pos with
  | nil => exact .nil hzero
  | cons label labels ih =>
    have hlen := h.length_head
    have hpos : pos + ((label :: labels).map (·.length + 1)).sum =
        pos + 1 + (data pos).toNat + (labels.map (·.length + 1)).sum := by
      rw [List.map_cons, List.sum_cons]
      omega
    rw [hpos] at hzero
    obtain ⟨rfl, hrest⟩ := h
    exact .cons (ih hrest hzero)

/-- The validation loop walks over labels, of which all but the last stay below the
cut-off. -/
theorem exists_labels (data : ℕ → UInt8) (rounds pos domain_len : ℕ) :
    ∃ labels : List Str, (∀ label ∈ labels, ValidLabel label) ∧ LabelsAt data pos labels ∧ labels.length ≤ rounds ∧
      (labels ≠ [] → domain_len + (labels.dropLast.map (·.length + 1)).sum < 255) ∧
      dns_name_end data rounds pos domain_len =
        (pos + (labels.map (·.length + 1)).sum, domain_len + (labels.map (·.length + 1)).sum) := by
  induction rounds generalizing pos domain_len with
  | zero => exact ⟨[], by simp, trivial, le_rfl, fun h => absurd rfl h, rfl⟩
  | succ rounds ih =>
    rw [dns_name_end]
    by_cases hnow : data pos ≠ 0 ∧ domain_len < 255
    · rw [if_pos hnow]
      obtain ⟨labels, hvalid, hlabels, hrounds, hcut, hend⟩ :=
        ih (pos + (data pos).toNat + 1) (domain_len + (data pos).toNat + 1)
      have hlabel : ((List.range (data pos).toNat).map fun k => data (pos + 1 + k)).length = (data pos).toNat := by
        rw [List.length_map, List.length_range]
      have hpositive : 0 < (data pos).toNat := Nat.pos_of_ne_zero fun h => hnow.1 (UInt8.toNat_inj.mp h)
      refine ⟨(List.range (data pos).toNat).map (fun k => data (pos + 1 + k)) :: labels, ?_, ?_,
        Nat.succ_le_succ hrounds, fun _ => ?_, ?_⟩
      · rw [List.forall_mem_cons]
        exact ⟨⟨by rwa [hlabel], by rw [hlabel]; exact (data pos).toNat_lt⟩, hvalid⟩
      · exact ⟨rfl, Nat.add_right_comm pos (data pos).toNat 1 ▸ hlabels⟩
      · cases labels with
        | nil => simpa using hnow.2
        | cons label labels =>
          have hcut := hcut (List.cons_ne_nil _ _)
          rw [List.dropLast_cons_of_ne_nil (List.cons_ne_nil _ _), List.map_cons, List.sum_cons, hlabel]
          omega
      · rw [hend, List.map_cons, List.sum_cons, hlabel]
        simp only [Prod.mk.injEq]
        omega
    · rw [if_neg hnow]
      exact ⟨[], by simp, trivial, Nat.zero_le _, fun h => absurd rfl h, rfl⟩

/-- What the validation loop accepts is a name: length bytes and labels up to a
zero byte. -/
theorem exists_name_of_end_zero {data : ℕ → UInt8} (rounds pos domain_len : ℕ)
    (hzero : data (dns_name_end data rounds pos domain_len).1 = 0) :
    ∃ labels : List Str, (∀ label ∈ labels, ValidLabel label) ∧ NameAt data pos labels ∧ labels.length ≤ rounds ∧
      (labels ≠ [] → domain_len + (labels.dropLast.map (·.length + 1)).sum < 255) ∧
      dns_name_end data rounds pos domain_len =
        (pos + (labels.map (·.length + 1)).sum, domain_len + (labels.map (·.length + 1)).sum) := by
  obtain ⟨labels, hvalid, hlabels, hrounds, hcut, hend⟩ := exists_labels data rounds pos domain_len
  rw [hend] at hzero
  exact ⟨labels, hvalid, hlabels.nameAt hzero, hrounds, hcut, hend⟩

/-- The validation loop goes no further than labels behind which a zero byte stands
or which reach the cut-off. -/
theorem dns_name_end_le {data : ℕ → UInt8} {labels : List Str} (rounds pos domain_len : ℕ)
    (hlabels : LabelsAt data pos labels)
    (hend : data (pos + (labels.map (·.length + 1)).sum) = 0 ∨ 255 ≤ domain_len + (labels.map (·.length + 1)).sum) :
    (dns_name_end data rounds pos domain_len).1 ≤ pos + (labels.map (·.length + 1)).sum := by
  induction labels generalizing rounds pos domain_len with
  | nil =>
    have hstop : ¬ (data pos ≠ 0 ∧ domain_len < 255) := fun hnow =>
      hend.elim hnow.1 fun hcount => absurd hnow.2 (Nat.not_lt.mpr hcount)
    cases rounds with
    | zero => exact le_rfl
    | succ rounds => rw [dns_name_end, if_neg hstop]; exact le_rfl
  | cons label labels ih =>
    have hlen := hlabels.length_head
    rw [List.map_cons, List.sum_cons, hlen] at hend ⊢
    cases rounds with
    | zero => exact Nat.le_add_right _ _
    | succ rounds =>
      rw [dns_name_end]
      split
      · have hnext : pos + (data pos).toNat + 1 = pos + 1 + (data pos).toNat := Nat.add_right_comm _ _ _
        rw [hnext]
        have hrest := ih rounds (pos + 1 + (data pos).toNat) (domain_len + (data pos).toNat + 1) hlabels.2 ?_
        · omega
        · refine hend.imp (fun hzero => ?_) fun hcount => by omega
          rw [← hzero]
          congr 1
          omega
      · exact Nat.le_add_right _ _

end grpc_server.dpdk_filter
