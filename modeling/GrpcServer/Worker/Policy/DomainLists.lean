import GrpcServer.CMemory.Strncpy
import GrpcServer.DpdkFilter.FiltrPackets
import GrpcServer.Worker.Policy.Encoding

open c_memory grpc_server.dpdk_filter grpc_server.communication

namespace grpc_server.worker

/-- A name that a slot of `block_domains` or `allow_domains` holds whole: at most
259 bytes, none of them zero. -/
def Storable (name : Str) : Prop := name.length < DOMAIN_MAX_LEN ∧ ∀ b ∈ name, b ≠ 0

/-- The names in front of the first empty one, at which the scan of a list ends. -/
def visible (names : List Str) : List Str := names.takeWhile (!·.isEmpty)

theorem mem_of_visible {names : List Str} {name : Str} (h : name ∈ visible names) : name ∈ names :=
  (List.takeWhile_prefix _).subset h

theorem Storable.str_copy_str {name : Str} (h : Storable name) : (copy_str name : Slot DOMAIN_MAX_LEN).str = name := by
  rw [worker.str_copy_str, cut_eq_self h.2, List.take_of_length_le (Nat.le_sub_one_of_lt h.1)]

theorem Storable.copy_str_zero {name : Str} (h : Storable name) :
    ((copy_str name : Slot DOMAIN_MAX_LEN) 0 == 0) = name.isEmpty := by
  rw [Bool.eq_iff_iff, beq_iff_eq, ← Slot.str_eq_nil_iff, h.str_copy_str, List.isEmpty_iff]

/-- The slots of a list that is packed from the front of its array. -/
abbrev packed (names : List Str) (i : Fin MAX_DOMAINS) : Slot DOMAIN_MAX_LEN :=
  (names.map copy_str).getD i.val fun _ => 0

theorem packed_terminated (names : List Str) (i : Fin MAX_DOMAINS) : (packed names i).Terminated := by
  rw [packed, getD_map_copy_str]
  exact copy_str_terminated (by decide) _

/-- The scan stops at the slot of an empty name, and behind the list. -/
theorem any_visible {names : List Str} (h : ∀ name ∈ names, Storable name) (domain : Str) :
    ((names.map (copy_str : Str → Slot DOMAIN_MAX_LEN)).takeWhile (!· 0 == 0)).any (·.str == domain) = true ↔
      domain ∈ visible names := by
  induction names with
  | nil => simp [visible]
  | cons name rest ih =>
    obtain ⟨hname, hrest⟩ := List.forall_mem_cons.mp h
    simp only [visible, List.map_cons, List.takeWhile_cons, hname.copy_str_zero]
    cases name with
    | nil => simp
    | cons b bs =>
      simp only [List.isEmpty_cons, Bool.not_false, if_true, List.any_cons, hname.str_copy_str, Bool.or_eq_true,
        beq_iff_eq, List.mem_cons]
      exact or_congr eq_comm (ih hrest)

theorem check_domain_packed {names : List Str} (hlen : names.length ≤ MAX_DOMAINS)
    (hnames : ∀ name ∈ names, Storable name) {entry : ℕ → Str}
    (hentry : ∀ i : Fin MAX_DOMAINS, entry i.val = (packed names i).str) (domain : Str) :
    check_domain (packed names) entry domain = true ↔ domain ∈ visible names := by
  have hscan := scan_packed (packed names) (fun _ => 0) (· 0 == 0) (·.str == domain) (by simp) (names.map copy_str)
    (by simpa using hlen) fun _ => rfl
  simp only [check_domain, hentry]
  rw [hscan]
  exact any_visible hnames domain

section Stored

variable {S : Type} (inet : Inet) (trust : List (Sigma fun _ : Str => Int32)) {pol : WorkerPolicy S}

theorem check_block_encoding (hlen : pol.block_domains.length ≤ MAX_DOMAINS)
    (hnames : ∀ name ∈ pol.block_domains, Storable name) (domain : Str) :
    check_domain_is_block domain (encoding inet trust pol) = true ↔ domain ∈ visible pol.block_domains := by
  have hentry : ∀ i : Fin MAX_DOMAINS,
      (encoding inet trust pol).block_domain i.val = (packed pol.block_domains i).str := by
    intro i
    exact BasePolicy.block_domain_of_terminated (packed_terminated pol.block_domains i)
  exact check_domain_packed hlen hnames hentry domain

theorem check_allow_encoding (hlen : pol.allow_domains.length ≤ MAX_DOMAINS)
    (hnames : ∀ name ∈ pol.allow_domains, Storable name) (domain : Str) :
    check_domain_is_allow domain (encoding inet trust pol) = true ↔ domain ∈ visible pol.allow_domains := by
  have hentry : ∀ i : Fin MAX_DOMAINS,
      (encoding inet trust pol).allow_domain i.val = (packed pol.allow_domains i).str := by
    intro i
    exact BasePolicy.allow_domain_of_terminated (packed_terminated pol.allow_domains i)
  exact check_domain_packed hlen hnames hentry domain

end Stored

/-- Every name of a list stands in front of the list's first empty entry. -/
def Unhidden (names : List Str) : Prop := ∀ name ∈ names, name ≠ [] → name ∈ visible names

theorem visible_iff_mem_iff (names : List Str) :
    (∀ domain ≠ [], (domain ∈ visible names ↔ domain ∈ names)) ↔ Unhidden names := by
  constructor
  · intro h name hmem hne
    exact (h name hne).mpr hmem
  · intro h domain hne
    exact ⟨mem_of_visible, fun hmem => h domain hmem hne⟩

/-- For a message with at most 64 names in each list, each of at most 259 bytes
without a zero, storing it is defined and both checks answer by membership for every
non-empty name, if and only if the categories fit and no name stands only behind an
empty entry of its list. -/
theorem domain_lists_recognized_iff {S : Type} (inet : Inet) (trust : List (Sigma fun _ : Str => Int32))
    (pol : WorkerPolicy S) (hblock : pol.block_domains.length ≤ MAX_DOMAINS)
    (hallow : pol.allow_domains.length ≤ MAX_DOMAINS)
    (hnames : ∀ name ∈ pol.block_domains ++ pol.allow_domains, Storable name) :
    (∃ policy, store_policy inet trust pol = some policy ∧
        ∀ domain ≠ [],
          (check_domain_is_block domain policy = true ↔ domain ∈ pol.block_domains) ∧
          (check_domain_is_allow domain policy = true ↔ domain ∈ pol.allow_domains)) ↔
      pol.block_categories.length ≤ MAX_CATEGORIES ∧ Unhidden pol.block_domains ∧ Unhidden pol.allow_domains := by
  obtain ⟨hnames_block, hnames_allow⟩ := List.forall_mem_append.mp hnames
  have hlists : (∀ domain ≠ [],
      (check_domain_is_block domain (encoding inet trust pol) = true ↔ domain ∈ pol.block_domains) ∧
      (check_domain_is_allow domain (encoding inet trust pol) = true ↔ domain ∈ pol.allow_domains)) ↔
      Unhidden pol.block_domains ∧ Unhidden pol.allow_domains := by
    simp only [check_block_encoding inet trust hblock hnames_block, check_allow_encoding inet trust hallow hnames_allow,
      ← visible_iff_mem_iff]
    exact forall₂_and
  constructor
  · rintro ⟨policy, hstore, hchecks⟩
    obtain ⟨hfits, rfl⟩ := fits_of_store hstore
    exact ⟨hfits.1, hlists.mp hchecks⟩
  · rintro ⟨hcategories, hvisible⟩
    exact ⟨_, store_policy_of_fits ⟨hcategories, hblock, hallow⟩ inet trust, hlists.mpr hvisible⟩

/-- A message with nothing but domain lists. -/
def domain_lists (block_domains allow_domains : List Str) : WorkerPolicy Unit :=
  { WorkerPolicy.empty with block_domains := block_domains, allow_domains := allow_domains }

theorem store_domain_lists {block_domains allow_domains : List Str} (hblock : block_domains.length ≤ MAX_DOMAINS)
    (hallow : allow_domains.length ≤ MAX_DOMAINS) :
    store_policy Inet.mute [] (domain_lists block_domains allow_domains) =
      some (encoding Inet.mute [] (domain_lists block_domains allow_domains)) :=
  store_policy_of_fits ⟨Nat.zero_le _, hblock, hallow⟩ Inet.mute []

theorem storable_letter : Storable [97] := ⟨by decide, by simp⟩

theorem storable_nil : Storable [] := ⟨by decide, nofun⟩

/-- The blocked name `a` behind an empty entry is not seen. -/
theorem name_behind_empty_not_blocked :
    store_policy Inet.mute [] (domain_lists [[], [97]] []) = some (encoding Inet.mute [] (domain_lists [[], [97]] [])) ∧
    [97] ∈ (domain_lists [[], [97]] []).block_domains ∧
    check_domain_is_block [97] (encoding Inet.mute [] (domain_lists [[], [97]] [])) = false := by
  refine ⟨store_domain_lists (by decide) (by decide), by simp [domain_lists], ?_⟩
  have hnames : ∀ name ∈ (domain_lists [[], [97]] []).block_domains, Storable name := by
    simp [domain_lists, storable_nil, storable_letter]
  rw [← Bool.not_eq_true, check_block_encoding Inet.mute [] (by decide) hnames]
  simp [domain_lists, visible]

theorem domain_lists_recognized_letters :
    ∃ policy, store_policy Inet.mute [] (domain_lists [[97]] [[98], []]) = some policy ∧
      ∀ domain ≠ [],
        (check_domain_is_block domain policy = true ↔ domain ∈ [[97]]) ∧
        (check_domain_is_allow domain policy = true ↔ domain ∈ [[98], []]) := by
  have hletter : Storable [98] := ⟨by decide, by simp⟩
  refine (domain_lists_recognized_iff Inet.mute [] (domain_lists [[97]] [[98], []]) (by decide) (by decide) ?_).mpr
    ⟨by decide, ?_, ?_⟩
  · simp [domain_lists, storable_letter, storable_nil, hletter]
  · simp [domain_lists, Unhidden, visible]
  · simp [domain_lists, Unhidden, visible]

/-- An allowed name passes the domain filter whatever the classifier answers
exactly when it is not blocked as well: the block list is read first. -/
theorem allowed_domain_passes_iff {policy : BasePolicy} {info_pac : InfoOfPakage}
    (hallowed : check_domain_is_allow info_pac.domain_str policy = true) :
    (∀ req_clas, main_filtring_by_domain req_clas policy info_pac = true) ↔
      check_domain_is_block info_pac.domain_str policy = false := by
  rw [← Bool.not_eq_true]
  constructor
  · intro hpass hblocked
    have hverdict := hpass ⟨fun _ _ => 0, 0⟩
    rw [main_filtring_by_domain, if_pos hblocked] at hverdict
    cases hverdict
  · intro hblocked req_clas
    rw [main_filtring_by_domain, if_neg hblocked, if_pos hallowed]

/-- A packet that asks for a name. -/
def to_domain (name : Str) : InfoOfPakage := { InfoOfPakage.zero with domain := Slot.ofStr name }

theorem domain_str_to_domain {name : Str} (h : Storable name) : (to_domain name).domain_str = name := by
  obtain ⟨hterm, hstr⟩ := Slot.ofStr_short h.2 h.1
  rw [InfoOfPakage.domain_str_of_terminated hterm]
  exact hstr

/-- A name that both lists hold is rejected. -/
theorem allowed_and_blocked_domain_rejected :
    store_policy Inet.mute [] (domain_lists [[97]] [[97]]) =
      some (encoding Inet.mute [] (domain_lists [[97]] [[97]])) ∧
    check_domain_is_allow (to_domain [97]).domain_str (encoding Inet.mute [] (domain_lists [[97]] [[97]])) = true ∧
    ∀ req_clas, main_filtring_by_domain req_clas (encoding Inet.mute [] (domain_lists [[97]] [[97]]))
      (to_domain [97]) = false := by
  have hnames : ∀ name ∈ [[97]], Storable name := by simp [storable_letter]
  have hvisible : [97] ∈ visible [[97]] := by simp [visible]
  rw [domain_str_to_domain storable_letter]
  refine ⟨store_domain_lists (by decide) (by decide),
    (check_allow_encoding Inet.mute [] (by decide) hnames [97]).mpr hvisible, fun req_clas => ?_⟩
  rw [main_filtring_by_domain, if_pos]
  rw [domain_str_to_domain storable_letter]
  exact (check_block_encoding Inet.mute [] (by decide) hnames [97]).mpr hvisible

theorem allowed_domain_passes_letter :
    check_domain_is_allow (to_domain [97]).domain_str (encoding Inet.mute [] (domain_lists [] [[97]])) = true ∧
    ∀ req_clas, main_filtring_by_domain req_clas (encoding Inet.mute [] (domain_lists [] [[97]]))
      (to_domain [97]) = true := by
  have hallowed : check_domain_is_allow (to_domain [97]).domain_str
      (encoding Inet.mute [] (domain_lists [] [[97]])) = true := by
    rw [domain_str_to_domain storable_letter]
    exact (check_allow_encoding Inet.mute [] (by decide) (by simp [domain_lists, storable_letter]) [97]).mpr
      (by simp [domain_lists, visible])
  refine ⟨hallowed, (allowed_domain_passes_iff hallowed).mpr ?_⟩
  rw [← Bool.not_eq_true, check_block_encoding Inet.mute [] (by decide) (by simp [domain_lists])]
  simp [domain_lists, visible]

end grpc_server.worker
