import Mathlib.Data.List.Dedup
import Mathlib.Data.List.Perm.Basic
import Mathlib.Data.List.Sort
import Mathlib.Data.List.TakeWhile
import Mathlib.Tactic.Common

namespace net_url

/-- The bytes a query component keeps as they are. -/
def unreserved (b : UInt8) : Bool :=
  (48 ≤ b && b ≤ 57) || (65 ≤ b && b ≤ 90) || (97 ≤ b && b ≤ 122) || b == 45 || b == 95 || b == 46 || b == 126

def upper_hex (n : UInt8) : UInt8 := if n < 10 then 48 + n else 55 + n

def escape_byte (b : UInt8) : List UInt8 :=
  if b = 32 then [43] else if unreserved b then [b] else [37, upper_hex (b >>> 4), upper_hex (b &&& 15)]

def query_escape (s : List UInt8) : List UInt8 := s.flatMap escape_byte

def is_hex (b : UInt8) : Bool := (48 ≤ b && b ≤ 57) || (97 ≤ b && b ≤ 102) || (65 ≤ b && b ≤ 70)

def unhex (b : UInt8) : UInt8 := if b ≤ 57 then b - 48 else if 97 ≤ b then b - 87 else b - 55

/-- `QueryUnescape`, which fails on a `%` that two hexadecimal digits do not follow. -/
def query_unescape : List UInt8 → Option (List UInt8)
  | [] => some []
  | b :: rest =>
    if b = 37 then
      match rest with
      | hi :: lo :: rest =>
        if is_hex hi && is_hex lo then (query_unescape rest).map ((unhex hi <<< 4 ||| unhex lo) :: ·) else none
      | _ => none
    else (query_unescape rest).map ((if b = 43 then 32 else b) :: ·)

/-- What stands in front of the first separator, and behind it. -/
def cut (sep : UInt8) (s : List UInt8) : List UInt8 × List UInt8 :=
  (s.takeWhile (· != sep), (s.dropWhile (· != sep)).drop 1)

/-- The parameter in one piece of a query. Empty pieces, those with a semicolon
and those with a broken escape are passed over. -/
def parse_piece (piece : List UInt8) : Option (List UInt8 × List UInt8) :=
  if piece.contains 59 then none
  else if piece.isEmpty then none
  else
    let (key, value) := cut 61 piece
    (query_unescape key).bind fun key => (query_unescape value).map fun value => (key, value)

/-- `url.Values` as the list of its parameters in the order they were added. -/
abbrev Values := List (List UInt8 × List UInt8)

/-- `ParseQuery`: the parameters in the order in which they stand. -/
def parse_query (raw : List UInt8) : Values := (raw.splitOn 38).filterMap parse_piece

/-- `v[key]` of the parameters `v`. -/
def values (v : Values) (key : List UInt8) : List (List UInt8) :=
  (v.filter (·.1 == key)).map Prod.snd

def parameter (p : List UInt8 × List UInt8) : List UInt8 := p.1 ++ 61 :: p.2

/-- The parameters as they are, with the separators between them. -/
def join (v : Values) : List UInt8 := [38].intercalate (v.map parameter)

/-- The parameters key by key, the keys in the order of their bytes. -/
def by_key (v : Values) : Values :=
  ((v.map Prod.fst).dedup.insertionSort (· ≤ ·)).flatMap fun key => (values v key).map (key, ·)

/-- `Values.Encode`. -/
def encode (v : Values) : List UInt8 :=
  join ((by_key v).map fun p => (query_escape p.1, query_escape p.2))

section Escape

theorem query_unescape_percent (hi lo : UInt8) (rest : List UInt8) :
    query_unescape (37 :: hi :: lo :: rest) =
      if is_hex hi && is_hex lo then (query_unescape rest).map ((unhex hi <<< 4 ||| unhex lo) :: ·) else none := rfl

theorem query_unescape_of_ne {b : UInt8} (h : b ≠ 37) (rest : List UInt8) :
    query_unescape (b :: rest) = (query_unescape rest).map ((if b = 43 then 32 else b) :: ·) := by
  rw [query_unescape.eq_def]
  exact if_neg h

/-- What is reserved in a query is no hexadecimal digit. -/
theorem ne_of_is_hex {b : UInt8} (h : is_hex b = true) : b ≠ 37 ∧ b ≠ 38 ∧ b ≠ 59 ∧ b ≠ 61 := by
  refine ⟨?_, ?_, ?_, ?_⟩ <;> rintro rfl <;> exact absurd h (by decide)

theorem ne_of_unreserved {b : UInt8} (h : unreserved b = true) : b ≠ 37 ∧ b ≠ 38 ∧ b ≠ 43 ∧ b ≠ 59 ∧ b ≠ 61 := by
  refine ⟨?_, ?_, ?_, ?_, ?_⟩ <;> rintro rfl <;> exact absurd h (by decide)

theorem hex_digit {n : UInt8} (h : n < 16) : is_hex (upper_hex n) = true ∧ unhex (upper_hex n) = n := by
  have hdigits : ∀ k : Fin 16, is_hex (upper_hex (UInt8.ofNat k)) = true ∧
      unhex (upper_hex (UInt8.ofNat k)) = UInt8.ofNat k := by decide
  simpa using hdigits ⟨n.toNat, UInt8.lt_iff_toNat_lt.mp h⟩

theorem nibbles (b : UInt8) : b >>> 4 < 16 ∧ b &&& 15 < 16 ∧ b >>> 4 <<< 4 ||| b &&& 15 = b := by
  have hbytes : ∀ k : Fin 256, UInt8.ofNat k >>> 4 < 16 ∧ UInt8.ofNat k &&& 15 < 16 ∧
      UInt8.ofNat k >>> 4 <<< 4 ||| UInt8.ofNat k &&& 15 = UInt8.ofNat k := by decide +kernel
  simpa using hbytes ⟨b.toNat, b.toNat_lt⟩

theorem unescape_escape_byte (b : UInt8) (rest : List UInt8) :
    query_unescape (escape_byte b ++ rest) = (query_unescape rest).map (b :: ·) := by
  unfold escape_byte
  split
  · rename_i hspace
    rw [hspace]
    exact query_unescape_of_ne (by decide) rest
  · split
    · rename_i hunreserved
      obtain ⟨hpercent, _, hplus, _⟩ := ne_of_unreserved hunreserved
      rw [List.singleton_append, query_unescape_of_ne hpercent, if_neg hplus]
    · obtain ⟨hhi, hlo, heq⟩ := nibbles b
      obtain ⟨hhi_hex, hhi_eq⟩ := hex_digit hhi
      obtain ⟨hlo_hex, hlo_eq⟩ := hex_digit hlo
      simp only [List.cons_append, List.nil_append, query_unescape_percent, hhi_hex, hlo_hex, Bool.and_self, if_true,
        hhi_eq, hlo_eq, heq]

@[simp] theorem unescape_escape (s : List UInt8) : query_unescape (query_escape s) = some s := by
  induction s with
  | nil => rfl
  | cons b rest ih =>
    rw [query_escape, List.flatMap_cons, unescape_escape_byte]
    exact congrArg (Option.map (b :: ·)) ih

theorem escape_separators {s : List UInt8} {b : UInt8} (hb : b ∈ query_escape s) : b ≠ 38 ∧ b ≠ 59 ∧ b ≠ 61 := by
  obtain ⟨c, _, hc⟩ := List.mem_flatMap.mp hb
  unfold escape_byte at hc
  split at hc
  · rw [List.mem_singleton.mp hc]
    decide
  · split at hc
    · rename_i hunreserved
      rw [List.mem_singleton.mp hc]
      obtain ⟨_, hsep, _, hrest⟩ := ne_of_unreserved hunreserved
      exact ⟨hsep, hrest⟩
    · obtain ⟨hhi, hlo, _⟩ := nibbles c
      simp only [List.mem_cons, List.not_mem_nil, or_false] at hc
      obtain rfl | rfl | rfl := hc
      · decide
      · exact (ne_of_is_hex (hex_digit hhi).1).2
      · exact (ne_of_is_hex (hex_digit hlo).1).2

/-- Each escape stands for one byte and takes three. -/
theorem length_of_unescape {s t : List UInt8} (h : query_unescape s = some t) :
    t.length + 2 * s.count 37 = s.length := by
  fun_induction query_unescape s generalizing t with
  | case1 =>
    cases h
    rfl
  | case2 hi lo rest hdigits ih =>
    obtain ⟨t, ht, rfl⟩ := Option.map_eq_some_iff.mp h
    rw [Bool.and_eq_true] at hdigits
    simp [← ih ht, (ne_of_is_hex hdigits.1).1, (ne_of_is_hex hdigits.2).1]
    omega
  | case3 => cases h
  | case4 => cases h
  | case5 b rest hb ih =>
    obtain ⟨t, ht, rfl⟩ := Option.map_eq_some_iff.mp h
    simp [← ih ht, List.count_cons_of_ne hb]
    omega

/-- `+` stands for a space. -/
def plus_to_space (s : List UInt8) : List UInt8 := s.map fun b => if b = 43 then 32 else b

theorem unescape_of_no_percent {s : List UInt8} (h : 37 ∉ s) : query_unescape s = some (plus_to_space s) := by
  induction s with
  | nil => rfl
  | cons b rest ih =>
    rw [List.mem_cons, not_or] at h
    rw [query_unescape_of_ne (Ne.symm h.1), ih h.2]
    rfl

theorem plus_to_space_of_notMem {s : List UInt8} (h : 43 ∉ s) : plus_to_space s = s := by
  refine (List.map_congr_left ?_).trans (List.map_id s)
  intro b hb
  refine if_neg ?_
  rintro rfl
  exact h hb

/-- No byte but the space is new. -/
theorem mem_of_mem_plus_to_space {s : List UInt8} {b : UInt8} (hb : b ∈ plus_to_space s) (hspace : b ≠ 32) :
    b ∈ s ∧ b ≠ 43 := by
  obtain ⟨c, hc, heq⟩ := List.mem_map.mp hb
  split at heq
  · exact absurd heq.symm hspace
  · rename_i hplus
    exact heq ▸ ⟨hc, hplus⟩

end Escape

section Cut

theorem cut_append {sep : UInt8} {key : List UInt8} (h : sep ∉ key) (value : List UInt8) :
    cut sep (key ++ sep :: value) = (key, value) := by
  have hkey : ∀ b ∈ key, (b != sep) = true := fun b hb => bne_iff_ne.mpr fun heq => h (heq ▸ hb)
  simp [cut, List.takeWhile_append_of_pos hkey, List.dropWhile_append_of_pos hkey]

theorem cut_of_notMem {sep : UInt8} {s : List UInt8} (h : sep ∉ s) : cut sep s = (s, []) := by
  have hs : ∀ b ∈ s, (b != sep) = true := fun b hb => bne_iff_ne.mpr fun heq => h (heq ▸ hb)
  simp [cut, List.takeWhile_eq_self_iff.mpr hs, List.dropWhile_eq_nil_iff.mpr hs]

/-- A string that holds the separator is put together from its two halves. -/
theorem append_of_cut {sep : UInt8} {s : List UInt8} (h : sep ∈ s) :
    sep ∉ (cut sep s).1 ∧ s = (cut sep s).1 ++ sep :: (cut sep s).2 := by
  obtain ⟨key, value, rfl, hkey⟩ := List.eq_append_cons_of_mem h
  rw [cut_append hkey]
  exact ⟨hkey, rfl⟩

theorem length_cut {sep : UInt8} {s : List UInt8} (h : sep ∈ s) :
    (cut sep s).1.length + (cut sep s).2.length + 1 = s.length := by
  have hlength := congrArg List.length (append_of_cut h).2
  rw [List.length_append, List.length_cons] at hlength
  omega

end Cut

section Parse

theorem parse_query_append (first second : List UInt8) :
    parse_query (first ++ 38 :: second) = parse_query first ++ parse_query second := by
  have hsplit : (first ++ 38 :: second).splitOnP (· == 38) = first.splitOnP (· == 38) ++ second.splitOnP (· == 38) :=
    List.splitOnP_append_cons first second rfl
  rw [parse_query, List.splitOn, hsplit, List.filterMap_append]
  rfl

theorem parse_query_of_piece {piece : List UInt8} (h : 38 ∉ piece) :
    parse_query piece = (parse_piece piece).toList := by
  rw [parse_query, List.splitOn_eq_singleton h]
  cases hpiece : parse_piece piece <;> simp [hpiece]

theorem parse_piece_eq_some {piece key value : List UInt8} :
    parse_piece piece = some (key, value) ↔ 59 ∉ piece ∧ piece ≠ [] ∧
      query_unescape (cut 61 piece).1 = some key ∧ query_unescape (cut 61 piece).2 = some value := by
  unfold parse_piece
  split
  · rename_i hsemicolon
    simp_all
  · split
    · simp_all
    · simp_all [Option.bind_eq_some_iff]

/-- The bytes in the keys and values of the parameters. -/
def weight : Values → ℕ
  | [] => 0
  | p :: v => p.1.length + p.2.length + weight v

@[simp] theorem weight_append (a b : Values) : weight (a ++ b) = weight a + weight b := by
  induction a with
  | nil => exact (Nat.zero_add _).symm
  | cons p rest ih =>
    simp only [List.cons_append, weight, ih]
    omega

theorem weight_perm {a b : Values} (h : a.Perm b) : weight a = weight b := by
  induction h with
  | nil => rfl
  | cons p _ ih => rw [weight, weight, ih]
  | swap p q v =>
    simp only [weight]
    omega
  | trans _ _ ih₁ ih₂ => exact ih₁.trans ih₂

theorem weight_piece_le (piece : List UInt8) :
    weight (parse_piece piece).toList + (if 61 ∈ piece then 1 else 0) ≤ piece.length := by
  cases hpiece : parse_piece piece with
  | none =>
    split
    · rename_i hequals
      exact List.length_pos_of_mem hequals
    · simp [weight]
  | some p =>
    obtain ⟨key, value⟩ := p
    obtain ⟨_, _, hkey, hvalue⟩ := parse_piece_eq_some.mp hpiece
    have hkey := length_of_unescape hkey
    have hvalue := length_of_unescape hvalue
    simp only [weight, Option.toList_some, Nat.add_zero]
    split
    · rename_i hequals
      have hlength := length_cut hequals
      omega
    · rename_i hequals
      simp only [cut_of_notMem hequals, List.length_nil] at hkey hvalue
      omega

/-- A parsed query holds fewer bytes than its text by one for each `&`, and by one
more if it has a `=`. -/
theorem weight_query_le (s : List UInt8) :
    weight (parse_query s) + s.count 38 + (if 61 ∈ s then 1 else 0) ≤ s.length := by
  by_cases hsep : 38 ∈ s
  · obtain ⟨first, second, rfl, hfirst⟩ := List.eq_append_cons_of_mem hsep
    have hpiece := weight_piece_le first
    have hrest := weight_query_le second
    rw [parse_query_append, parse_query_of_piece hfirst, weight_append, List.count_append, List.count_cons_self,
      List.count_eq_zero.mpr hfirst, List.length_append, List.length_cons]
    have hequals : (if 61 ∈ first ++ 38 :: second then 1 else 0) ≤
        (if 61 ∈ first then 1 else 0) + if 61 ∈ second then 1 else 0 := by
      by_cases h1 : 61 ∈ first <;> by_cases h2 : 61 ∈ second <;> simp [h1, h2]
    omega
  · rw [parse_query_of_piece hsep, List.count_eq_zero.mpr hsep]
    exact weight_piece_le s
termination_by s.length

/-- The bytes that mean something else in a query: `%`, `&` and `;`. -/
def Clean (s : List UInt8) : Prop := 37 ∉ s ∧ 38 ∉ s ∧ 59 ∉ s

/-- A parameter whose bytes are all found again is read as one parameter, with
nothing changed but the pluses. -/
theorem parameter_of_weight {p : List UInt8 × List UInt8}
    (h : p.1.length + p.2.length ≤ weight (parse_query (parameter p))) :
    Clean (parameter p) ∧ parse_query (parameter p) =
      [(plus_to_space (cut 61 (parameter p)).1, plus_to_space (cut 61 (parameter p)).2)] := by
  have hequals : 61 ∈ parameter p := by simp [parameter]
  have hlength : (parameter p).length = p.1.length + p.2.length + 1 := by
    simp [parameter]
    omega
  have hle := weight_query_le (parameter p)
  rw [if_pos hequals] at hle
  have hsep : 38 ∉ parameter p := List.count_eq_zero.mp (by omega)
  rw [parse_query_of_piece hsep] at h ⊢
  cases hpiece : parse_piece (parameter p) with
  | none =>
    -- only the bare `=` has nothing to lose, and it is a parameter
    obtain ⟨key, value⟩ := p
    simp only [hpiece, Option.toList_none, weight, Nat.le_zero, Nat.add_eq_zero_iff, List.length_eq_zero_iff] at h
    rw [h.1, h.2] at hpiece
    cases hpiece
  | some q =>
    obtain ⟨key, value⟩ := q
    obtain ⟨hsemicolon, _, hkey, hvalue⟩ := parse_piece_eq_some.mp hpiece
    have hcut := length_cut hequals
    have hkey_length := length_of_unescape hkey
    have hvalue_length := length_of_unescape hvalue
    simp only [hpiece, Option.toList_some, weight] at h
    have hkey_percent : 37 ∉ (cut 61 (parameter p)).1 := List.count_eq_zero.mp (by omega)
    have hvalue_percent : 37 ∉ (cut 61 (parameter p)).2 := List.count_eq_zero.mp (by omega)
    have hpercent : 37 ∉ parameter p := by
      rw [(append_of_cut hequals).2]
      simp [hkey_percent, hvalue_percent]
    rw [unescape_of_no_percent hkey_percent, Option.some_inj] at hkey
    rw [unescape_of_no_percent hvalue_percent, Option.some_inj] at hvalue
    exact ⟨⟨hpercent, hsep, hsemicolon⟩, by rw [Option.toList_some, hkey, hvalue]⟩

end Parse

section Join

theorem parse_query_join (v : Values) :
    parse_query (join v) = v.flatMap fun p => parse_query (parameter p) := by
  induction v with
  | nil => rfl
  | cons p rest ih =>
    cases rest with
    | nil => simp [join, List.intercalate_singleton]
    | cons q rest =>
      have hjoin : join (p :: q :: rest) = parameter p ++ 38 :: join (q :: rest) := by
        simp [join, List.intercalate_cons_cons]
      rw [hjoin, parse_query_append, ih]
      rfl

theorem parse_query_join_map {v : Values} {read : List UInt8 × List UInt8 → List UInt8 × List UInt8}
    (h : ∀ p ∈ v, parse_query (parameter p) = [read p]) : parse_query (join v) = v.map read := by
  rw [parse_query_join]
  induction v with
  | nil => rfl
  | cons p rest ih =>
    rw [List.flatMap_cons, h p List.mem_cons_self, ih fun q hq => h q (List.mem_cons_of_mem p hq)]
    rfl

/-- Nothing in the parameter has a meaning of its own in a query. -/
def Plain (p : List UInt8 × List UInt8) : Prop :=
  (37 ∉ p.1 ∧ 38 ∉ p.1 ∧ 43 ∉ p.1 ∧ 59 ∉ p.1 ∧ 61 ∉ p.1) ∧ 37 ∉ p.2 ∧ 38 ∉ p.2 ∧ 43 ∉ p.2 ∧ 59 ∉ p.2

instance (p : List UInt8 × List UInt8) : Decidable (Plain p) := inferInstanceAs (Decidable (_ ∧ _))

theorem parse_parameter_of_plain {p : List UInt8 × List UInt8} (h : Plain p) : parse_query (parameter p) = [p] := by
  obtain ⟨⟨hkey37, hkey38, hkey43, hkey59, hkey61⟩, hvalue37, hvalue38, hvalue43, hvalue59⟩ := h
  have hsep : 38 ∉ parameter p := by simp [parameter, hkey38, hvalue38]
  have hpiece : parse_piece (parameter p) = some p := by
    refine parse_piece_eq_some.mpr ⟨by simp [parameter, hkey59, hvalue59], by simp [parameter], ?_, ?_⟩
    · rw [parameter, cut_append hkey61, unescape_of_no_percent hkey37, plus_to_space_of_notMem hkey43]
    · rw [parameter, cut_append hkey61, unescape_of_no_percent hvalue37, plus_to_space_of_notMem hvalue43]
  rw [parse_query_of_piece hsep, hpiece, Option.toList_some]

theorem parse_join_of_plain {v : Values} (h : ∀ p ∈ v, Plain p) :
    parse_query (join v) = v :=
  (parse_query_join_map fun p hp => parse_parameter_of_plain (h p hp)).trans (List.map_id v)

theorem weight_parameter_le (p : List UInt8 × List UInt8) :
    weight (parse_query (parameter p)) ≤ p.1.length + p.2.length := by
  have hle := weight_query_le (parameter p)
  rw [if_pos (by simp [parameter])] at hle
  simp only [parameter, List.length_append, List.length_cons] at hle ⊢
  omega

theorem weight_join_le (v : Values) : weight (parse_query (join v)) ≤ weight v := by
  rw [parse_query_join]
  induction v with
  | nil => exact Nat.le_refl 0
  | cons p rest ih =>
    rw [List.flatMap_cons, weight_append, weight]
    exact Nat.add_le_add (weight_parameter_le p) ih

/-- When no byte gets lost, none gets lost in any of the parameters. -/
theorem weight_parameter_of_join {v : Values} (h : weight v ≤ weight (parse_query (join v)))
    {p : List UInt8 × List UInt8} (hp : p ∈ v) : p.1.length + p.2.length ≤ weight (parse_query (parameter p)) := by
  induction v with
  | nil => cases hp
  | cons q rest ih =>
    have hfirst := weight_parameter_le q
    have hrest := weight_join_le rest
    rw [parse_query_join, List.flatMap_cons, ← parse_query_join, weight_append, weight] at h
    cases hp with
    | head => omega
    | tail _ hp => exact ih (by omega) hp

/-- Joined parameters are read back, possibly behind some others, exactly if there
are no others and all are plain. -/
theorem parse_join_perm_iff {v own : Values} :
    (parse_query (join v)).Perm (own ++ v) ↔ own = [] ∧ ∀ p ∈ v, Plain p := by
  constructor
  · intro hperm
    have hweight := weight_perm hperm
    rw [weight_append] at hweight
    have hread := fun p (hp : p ∈ v) => parameter_of_weight (weight_parameter_of_join (by omega) hp)
    have hparsed := parse_query_join_map fun p hp => (hread p hp).2
    have hown : own = [] := by
      have hlength := hperm.length_eq
      rw [hparsed, List.length_map, List.length_append] at hlength
      exact List.length_eq_zero_iff.mp (by omega)
    refine ⟨hown, ?_⟩
    intro p hp
    -- the parameter is one of those that were read, so it has no plus, and no `=` in its key
    have hmem : p ∈ parse_query (join v) := by
      rw [hperm.mem_iff, hown]
      exact hp
    rw [hparsed] at hmem
    obtain ⟨q, hq, rfl⟩ := List.mem_map.mp hmem
    obtain ⟨hpercent, hsep, hsemicolon⟩ := (hread _ hp).1
    simp only [parameter, List.mem_append, List.mem_cons, not_or] at hpercent hsep hsemicolon
    have hequals : 61 ∈ parameter q := by simp [parameter]
    refine ⟨⟨hpercent.1, hsep.1, ?_, hsemicolon.1, ?_⟩, hpercent.2.2, hsep.2.2, ?_, hsemicolon.2.2⟩
    · exact fun hplus => (mem_of_mem_plus_to_space hplus (by decide)).2 rfl
    · exact fun hkey => (append_of_cut hequals).1 (mem_of_mem_plus_to_space hkey (by decide)).1
    · exact fun hplus => (mem_of_mem_plus_to_space hplus (by decide)).2 rfl
  · rintro ⟨rfl, hplain⟩
    rw [parse_join_of_plain hplain, List.nil_append]

end Join

section Values

theorem values_append (a b : Values) (key : List UInt8) :
    values (a ++ b) key = values a key ++ values b key := by
  simp [values]

theorem count_values (v : Values) (key value : List UInt8) :
    (values v key).count value = v.count (key, value) := by
  induction v with
  | nil => rfl
  | cons p rest ih =>
    obtain ⟨k, x⟩ := p
    by_cases hkey : k = key
    · subst hkey
      have hvalues : values ((k, x) :: rest) k = x :: values rest k := by simp [values]
      rw [hvalues, List.count_cons, List.count_cons, ih]
      simp
    · have hvalues : values ((k, x) :: rest) key = values rest key := by simp [values, hkey]
      rw [hvalues, List.count_cons_of_ne (by simp [hkey]), ih]

theorem perm_of_values {a b : Values} (h : ∀ key, values a key = values b key) : a.Perm b := by
  rw [List.perm_iff_count]
  rintro ⟨key, value⟩
  rw [← count_values, h, count_values]

theorem values_of_notMem {v : Values} {key : List UInt8} (h : key ∉ v.map Prod.fst) : values v key = [] := by
  rw [values, List.filter_eq_nil_iff.mpr, List.map_nil]
  intro p hp heq
  exact h (List.mem_map.mpr ⟨p, hp, eq_of_beq heq⟩)

theorem length_values (v : Values) (key : List UInt8) : (values v key).length = (v.map Prod.fst).count key := by
  rw [values, List.length_map, ← List.countP_eq_length_filter, List.count, List.countP_map]
  rfl

/-- A key that occurs once has one value. -/
theorem values_of_mem {v : Values} (hkeys : (v.map Prod.fst).Nodup) {p : List UInt8 × List UInt8} (hp : p ∈ v) :
    values v p.1 = [p.2] := by
  have hmem : p.2 ∈ values v p.1 := List.mem_map.mpr ⟨p, List.mem_filter.mpr ⟨hp, beq_self_eq_true p.1⟩, rfl⟩
  have hlength := length_values v p.1
  rw [List.count_eq_one_of_mem hkeys (List.mem_map_of_mem hp)] at hlength
  obtain ⟨value, hvalue⟩ := List.length_eq_one_iff.mp hlength
  rw [hvalue] at hmem ⊢
  rw [List.mem_singleton.mp hmem]

/-- With one value per key their order does not matter. -/
theorem values_perm {a b : Values} (hperm : a.Perm b) (hkeys : (b.map Prod.fst).Nodup)
    (key : List UInt8) : values a key = values b key := by
  by_cases hkey : key ∈ b.map Prod.fst
  · obtain ⟨p, hp, rfl⟩ := List.mem_map.mp hkey
    have hkeys_a : (a.map Prod.fst).Nodup := (hperm.map Prod.fst).nodup_iff.mpr hkeys
    rw [values_of_mem hkeys_a (hperm.mem_iff.mpr hp), values_of_mem hkeys hp]
  · have hkey_a : key ∉ a.map Prod.fst := fun h => hkey ((hperm.map Prod.fst).mem_iff.mp h)
    rw [values_of_notMem hkey_a, values_of_notMem hkey]

theorem values_map (k key : List UInt8) (l : List (List UInt8)) :
    values (l.map (k, ·)) key = if key = k then l else [] := by
  split
  · rename_i heq
    subst heq
    simp [values, List.filter_map, Function.comp_def]
  · rename_i hne
    simp [values, List.filter_map, Function.comp_def, Ne.symm hne]

theorem values_flatMap {keys : List (List UInt8)} (hkeys : keys.Nodup) (v : Values)
    (key : List UInt8) :
    values (keys.flatMap fun k => (values v k).map (k, ·)) key = if key ∈ keys then values v key else [] := by
  induction keys with
  | nil => rfl
  | cons k rest ih =>
    obtain ⟨hk, hrest⟩ := List.nodup_cons.mp hkeys
    rw [List.flatMap_cons, values_append, ih hrest, values_map]
    by_cases heq : key = k
    · subst heq
      simp [hk]
    · simp [heq]

theorem values_by_key (v : Values) (key : List UInt8) :
    values (by_key v) key = values v key := by
  have hsorted := List.perm_insertionSort (· ≤ ·) (v.map Prod.fst).dedup
  rw [by_key, values_flatMap (hsorted.nodup_iff.mpr (List.nodup_dedup _))]
  split
  · rfl
  · rename_i hkey
    rw [hsorted.mem_iff, List.mem_dedup] at hkey
    exact (values_of_notMem hkey).symm

/-- An escaped parameter is read back. -/
theorem parse_escaped (p : List UInt8 × List UInt8) :
    parse_query (parameter (query_escape p.1, query_escape p.2)) = [p] := by
  have hsep : ∀ t, 38 ∉ query_escape t := fun _ hmem => (escape_separators hmem).1 rfl
  have hsemicolon : ∀ t, 59 ∉ query_escape t := fun _ hmem => (escape_separators hmem).2.1 rfl
  have hequals : ∀ t, 61 ∉ query_escape t := fun _ hmem => (escape_separators hmem).2.2 rfl
  have hpiece : parse_piece (parameter (query_escape p.1, query_escape p.2)) = some p := by
    refine parse_piece_eq_some.mpr ⟨by simp [parameter, hsemicolon], by simp [parameter], ?_, ?_⟩
    · rw [parameter, cut_append (hequals p.1), unescape_escape]
    · rw [parameter, cut_append (hequals p.1), unescape_escape]
  rw [parse_query_of_piece (by simp [parameter, hsep]), hpiece, Option.toList_some]

theorem parse_encode (v : Values) : parse_query (encode v) = by_key v := by
  rw [encode, parse_query_join, List.flatMap_map]
  simp [parse_escaped]

/-- Joined parameters have their values under every key, next to those of some
others, exactly if there are no others and all are plain. -/
theorem values_parse_join_iff (own v : Values) :
    (∀ key, values (parse_query (join v)) key = values (own ++ v) key) ↔ own = [] ∧ ∀ p ∈ v, Plain p := by
  rw [← parse_join_perm_iff]
  refine ⟨perm_of_values, ?_⟩
  intro hperm key
  obtain ⟨rfl, hplain⟩ := parse_join_perm_iff.mp hperm
  rw [parse_join_of_plain hplain, List.nil_append]

/-- What is encoded is read back under every key. -/
theorem values_parse_encode (v : Values) (key : List UInt8) :
    values (parse_query (encode v)) key = values v key := by
  rw [parse_encode, values_by_key]

end Values

end net_url
