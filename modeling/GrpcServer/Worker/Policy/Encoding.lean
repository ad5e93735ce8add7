import GrpcServer.Worker.Policy.Bounds
import Mathlib.Data.List.GetD

open c_memory grpc_server.dpdk_filter grpc_server.communication

namespace grpc_server.worker

section Arrays

variable (p : BasePolicy) {array other : PolicyArray}

@[simp] theorem PolicyArray.get_put (entries : Fin array.capacity → array.Entry) :
    array.get (array.put p entries) = entries := by
  cases array <;> rfl

theorem PolicyArray.get_put_of_ne (h : other ≠ array) (entries : Fin array.capacity → array.Entry) :
    other.get (array.put p entries) = other.get p := by
  cases array <;> cases other <;> first | rfl | exact absurd rfl h

@[simp] theorem PolicyArray.put_put (first second : Fin array.capacity → array.Entry) :
    array.put (array.put p first) second = array.put p second := by
  cases array <;> rfl

@[simp] theorem PolicyArray.put_get : array.put p (array.get p) = p := by
  cases array <;> rfl

theorem PolicyArray.put_comm (h : other ≠ array) (entries : Fin array.capacity → array.Entry)
    (others : Fin other.capacity → other.Entry) :
    other.put (array.put p entries) others = array.put (other.put p others) entries := by
  cases array <;> cases other <;> first | rfl | exact absurd rfl h

end Arrays

theorem apply_writes_append (p : BasePolicy) (first second : List PolicyWrite) :
    apply_writes p (first ++ second) = (apply_writes p first).bind fun q => apply_writes q second := by
  induction first generalizing p with
  | nil => rfl
  | cons write rest ih =>
    cases happly : write.apply p with
    | none => simp [apply_writes, happly]
    | some q => simp [apply_writes, happly, ih]

theorem apply_writes_cons {array : PolicyArray} {i : ℕ} (hi : i < array.capacity) (entry : array.Entry)
    (rest : List PolicyWrite) (p : BasePolicy) :
    apply_writes p (⟨array, i, entry⟩ :: rest) = apply_writes (array.put p (set (array.get p) i entry)) rest := by
  have happly : PolicyWrite.apply ⟨array, i, entry⟩ p = some (array.put p (set (array.get p) i entry)) := if_pos hi
  rw [apply_writes, happly, Option.bind_some]

/-- A write outside its array leaves no policy. -/
theorem apply_writes_eq_none {writes : List PolicyWrite} (h : ∃ write ∈ writes, ¬ write.InBounds) (p : BasePolicy) :
    apply_writes p writes = none := by
  induction writes generalizing p with
  | nil => simp at h
  | cons write rest ih =>
    rw [apply_writes, PolicyWrite.apply]
    split
    · rename_i hbounds
      obtain ⟨bad, hmem, hbad⟩ := h
      obtain rfl | hrest := List.mem_cons.mp hmem
      · exact absurd hbounds hbad
      · exact ih ⟨bad, hrest, hbad⟩ _
    · rfl

theorem apply_copy_strs (array : PolicyArray) (copy : Str → array.Entry) {i : ℕ} {strs : List Str}
    (hfit : strs.length ≤ array.capacity - i) (p : BasePolicy) :
    apply_writes p (copy_strs array copy i strs) = some (array.put p (fill (array.get p) i (strs.map copy))) := by
  induction strs generalizing i p with
  | nil => rw [copy_strs, apply_writes, List.map_nil, fill, PolicyArray.put_get]
  | cons s rest ih =>
    rw [List.length_cons] at hfit
    rw [copy_strs, apply_writes_cons (by omega), ih (by omega), PolicyArray.put_put, PolicyArray.get_put,
      List.map_cons, fill]

def trust_entry (entry : Sigma fun _ : Str => Int32) : TrustCategoriesWithLvl := ⟨copy_str entry.1, entry.2⟩

theorem apply_copy_trust (idx : ℕ) (trust : List (Sigma fun _ : Str => Int32)) (p : BasePolicy) :
    apply_writes p (copy_trust idx trust) =
      some { p with categories_with_lvl := fill p.categories_with_lvl idx (trust.map trust_entry) } := by
  induction trust generalizing idx p with
  | nil => rfl
  | cons head rest ih =>
    obtain ⟨category, min_trust⟩ := head
    rw [copy_trust]
    split
    · rename_i hfull
      rw [fill_of_le hfull, apply_writes]
    · rename_i hroom
      have hidx : idx < PolicyArray.categories_with_lvl.capacity := Nat.lt_of_not_ge hroom
      exact (apply_writes_cons hidx _ _ p).trans ((ih _ _).trans rfl)

def parsed4 (inet : Inet) (ips : List Str) : List Ip4 := ips.filterMap fun ip_str => inet.pton4 (cut ip_str)

def parsed6 (inet : Inet) (ips : List Str) : List Ip6 :=
  ips.filterMap fun ip_str =>
    match inet.pton4 (cut ip_str) with
    | some _ => none
    | none => inet.pton6 (cut ip_str)

section Parsed

variable {inet : Inet} {ip_str : Str} (rest : List Str)

theorem parsed_of_ip4 {ip4 : Ip4} (h4 : inet.pton4 (cut ip_str) = some ip4) :
    parsed4 inet (ip_str :: rest) = ip4 :: parsed4 inet rest ∧ parsed6 inet (ip_str :: rest) = parsed6 inet rest := by
  simp only [parsed4, parsed6, List.filterMap_cons, h4, and_self]

theorem parsed_of_ip6 {ip6 : Ip6} (h4 : inet.pton4 (cut ip_str) = none) (h6 : inet.pton6 (cut ip_str) = some ip6) :
    parsed4 inet (ip_str :: rest) = parsed4 inet rest ∧ parsed6 inet (ip_str :: rest) = ip6 :: parsed6 inet rest := by
  simp only [parsed4, parsed6, List.filterMap_cons, h4, h6, and_self]

theorem parsed_of_none (h4 : inet.pton4 (cut ip_str) = none) (h6 : inet.pton6 (cut ip_str) = none) :
    parsed4 inet (ip_str :: rest) = parsed4 inet rest ∧ parsed6 inet (ip_str :: rest) = parsed6 inet rest := by
  simp only [parsed4, parsed6, List.filterMap_cons, h4, h6, and_self]

end Parsed

/-- The address loop fills its two arrays independently, whatever the order of
the strings. -/
theorem apply_copy_ips (inet : Inet) (array4 array6 : PolicyArray) (copy4 : Ip4 → array4.Entry)
    (copy6 : Ip6 → array6.Entry) (hcap4 : array4.capacity = MAX_IP4) (hcap6 : array6.capacity = MAX_IP6)
    (hne : array4 ≠ array6) (ip4_idx ip6_idx : ℕ) (ips : List Str) (p : BasePolicy) :
    apply_writes p (copy_ips inet (fun i ip4 => ⟨array4, i, copy4 ip4⟩) (fun i ip6 => ⟨array6, i, copy6 ip6⟩)
        ip4_idx ip6_idx ips) =
      some (array6.put (array4.put p (fill (array4.get p) ip4_idx ((parsed4 inet ips).map copy4)))
        (fill (array6.get p) ip6_idx ((parsed6 inet ips).map copy6))) := by
  induction ips generalizing ip4_idx ip6_idx p with
  | nil =>
    rw [copy_ips, apply_writes]
    change some p = some (array6.put (array4.put p (array4.get p)) (array6.get p))
    rw [PolicyArray.put_get, PolicyArray.put_get]
  | cons ip_str rest ih =>
    rw [copy_ips]
    cases h4 : inet.pton4 (cut ip_str) with
    | some ip4 =>
      obtain ⟨hparsed4, hparsed6⟩ := parsed_of_ip4 rest h4
      rw [hparsed4, hparsed6, List.map_cons]
      by_cases hroom : ip4_idx < MAX_IP4
      · simp only [if_pos hroom]
        rw [apply_writes_cons (hcap4 ▸ hroom), ih, PolicyArray.get_put, PolicyArray.put_put,
          PolicyArray.get_put_of_ne _ hne.symm, fill]
      · have hfull : array4.capacity ≤ ip4_idx := hcap4 ▸ Nat.le_of_not_lt hroom
        simp only [if_neg hroom]
        rw [ih, fill_of_le hfull, fill_of_le hfull]
    | none =>
      cases h6 : inet.pton6 (cut ip_str) with
      | some ip6 =>
        obtain ⟨hparsed4, hparsed6⟩ := parsed_of_ip6 rest h4 h6
        rw [hparsed4, hparsed6, List.map_cons]
        by_cases hroom : ip6_idx < MAX_IP6
        · simp only [if_pos hroom]
          rw [apply_writes_cons (hcap6 ▸ hroom), ih, PolicyArray.get_put, PolicyArray.get_put_of_ne _ hne,
            PolicyArray.put_comm _ hne, PolicyArray.put_put, fill]
        · have hfull : array6.capacity ≤ ip6_idx := hcap6 ▸ Nat.le_of_not_lt hroom
          simp only [if_neg hroom]
          rw [ih, fill_of_le hfull, fill_of_le hfull]
      | none =>
        obtain ⟨hparsed4, hparsed6⟩ := parsed_of_none rest h4 h6
        rw [hparsed4, hparsed6]
        exact ih ip4_idx ip6_idx p

/-- The fixed-size encoding of a policy: each list from the front of its array,
zeroes behind it, strings cut to their slots. -/
def encoding {S : Type} (inet : Inet) (trust : List (Sigma fun _ : Str => Int32)) (pol : WorkerPolicy S) : BasePolicy :=
  { locked_categories := fun i => (pol.block_categories.map copy_str).getD i.val fun _ => 0
    categories_with_lvl := fun i => (trust.map trust_entry).getD i.val ⟨fun _ => 0, 0⟩
    ttl_ip := pol.ttl_ip
    ttl_domain := pol.ttl_domain
    block_domains := fun i => (pol.block_domains.map copy_str).getD i.val fun _ => 0
    allow_domains := fun i => (pol.allow_domains.map copy_str).getD i.val fun _ => 0
    block_ip4 := fun i => (parsed4 inet pol.block_ips).getD i.val fun _ => 0
    allow_ip4 := fun i => (parsed4 inet pol.allow_ips).getD i.val fun _ => 0
    block_ip6 := fun i => (parsed6 inet pol.block_ips).getD i.val fun _ => 0
    allow_ip6 := fun i => (parsed6 inet pol.allow_ips).getD i.val fun _ => 0
    min_trust_level := pol.min_trust_level }

theorem encoding_eq_fill {S : Type} (inet : Inet) (trust : List (Sigma fun _ : Str => Int32)) (pol : WorkerPolicy S) :
    encoding inet trust pol =
      { locked_categories := fill (fun _ _ => 0) 0 (pol.block_categories.map copy_str)
        categories_with_lvl := fill (fun _ => ⟨fun _ => 0, 0⟩) 0 (trust.map trust_entry)
        ttl_ip := pol.ttl_ip
        ttl_domain := pol.ttl_domain
        block_domains := fill (fun _ _ => 0) 0 (pol.block_domains.map copy_str)
        allow_domains := fill (fun _ _ => 0) 0 (pol.allow_domains.map copy_str)
        block_ip4 := fill (fun _ _ => 0) 0 ((parsed4 inet pol.block_ips).map id)
        allow_ip4 := fill (fun _ _ => 0) 0 ((parsed4 inet pol.allow_ips).map id)
        block_ip6 := fill (fun _ _ => 0) 0 ((parsed6 inet pol.block_ips).map id)
        allow_ip6 := fill (fun _ _ => 0) 0 ((parsed6 inet pol.allow_ips).map id)
        min_trust_level := pol.min_trust_level } := by
  simp only [encoding, ← fill_blank, List.map_id]

theorem store_policy_of_not_fits {S : Type} {pol : WorkerPolicy S} (h : ¬ Fits pol) (inet : Inet)
    (trust : List (Sigma fun _ : Str => Int32)) : store_policy inet trust pol = none := by
  rw [← policy_writes_inBounds_iff inet trust] at h
  simp only [not_forall] at h
  obtain ⟨write, hmem, hbad⟩ := h
  rw [store_policy, apply_writes_eq_none ⟨write, hmem, hbad⟩, Option.map_none]

/-- The copy loops compute the encoding of every policy whose unbounded lists fit. -/
theorem store_policy_of_fits {S : Type} {pol : WorkerPolicy S} (h : Fits pol) (inet : Inet)
    (trust : List (Sigma fun _ : Str => Int32)) :
    store_policy inet trust pol = some (encoding inet trust pol) := by
  have hlocked := apply_copy_strs .locked_categories copy_str (i := 0) h.1
  have hblock := apply_copy_strs .block_domains copy_str (i := 0) h.2.1
  have hallow := apply_copy_strs .allow_domains copy_str (i := 0) h.2.2
  have hblock_ip := apply_copy_ips inet .block_ip4 .block_ip6 id id rfl rfl nofun 0 0 pol.block_ips
  have hallow_ip := apply_copy_ips inet .allow_ip4 .allow_ip6 id id rfl rfl nofun 0 0 pol.allow_ips
  have hwrites : apply_writes BasePolicy.zero (policy_writes inet trust pol) =
      some { encoding inet trust pol with min_trust_level := 0, ttl_ip := 0, ttl_domain := 0 } := by
    simp only [policy_writes, apply_writes_append, apply_copy_trust]
    rw [hlocked, Option.bind_some, Option.bind_some, hblock, Option.bind_some, hallow, Option.bind_some]
    refine (congrArg (Option.bind · _) (hblock_ip _)).trans ((hallow_ip _).trans (congrArg some ?_))
    rw [encoding_eq_fill]
    rfl
  rw [store_policy, hwrites]
  rfl

theorem fits_of_store {S : Type} {pol : WorkerPolicy S} {policy : BasePolicy} {inet : Inet}
    {trust : List (Sigma fun _ : Str => Int32)} (h : store_policy inet trust pol = some policy) :
    Fits pol ∧ policy = encoding inet trust pol := by
  by_cases hfits : Fits pol
  · rw [store_policy_of_fits hfits, Option.some.injEq] at h
    exact ⟨hfits, h.symm⟩
  · rw [store_policy_of_not_fits hfits] at h
    cases h

section Slots

variable {w : ℕ}

theorem copy_str_eq (s : Str) : (copy_str s : Slot w) = strncpy (fun _ => 0) s (w - 1) := by
  funext k
  rw [copy_str]
  split
  · rename_i hlast
    rw [strncpy, if_neg (by omega)]
  · rfl

theorem copy_str_nil : (copy_str [] : Slot w) = fun _ => 0 := by
  funext k
  rw [copy_str_eq, strncpy]
  split <;> rfl

theorem copy_str_terminated (hw : 0 < w) (s : Str) : (copy_str s : Slot w).Terminated := by
  rw [copy_str_eq]
  exact strncpy_zero_terminated (Nat.sub_lt hw Nat.one_pos) s

theorem str_copy_str (s : Str) : (copy_str s : Slot w).str = (cut s).take (w - 1) := by
  rw [copy_str_eq]
  exact str_strncpy_zero (Nat.sub_le w 1) s

/-- A list of strings in front of zeroed slots. -/
theorem getD_map_copy_str (strs : List Str) (i : ℕ) :
    (strs.map (copy_str : Str → Slot w)).getD i (fun _ => 0) = copy_str (strs.getD i []) := by
  rw [← copy_str_nil, List.getD_map]

end Slots

end grpc_server.worker
