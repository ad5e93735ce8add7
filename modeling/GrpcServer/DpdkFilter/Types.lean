import GrpcServer.CMemory.Layout
import Mathlib.Algebra.GroupWithZero.Nat
import Mathlib.Data.Fintype.Basic

open c_memory

namespace grpc_server.dpdk_filter

abbrev DNS_CACHE_DEFAULT_TTL : Int32 := 604800
abbrev IP_CACHE_DEFAULT_TTL : Int32 := 604800
abbrev MAX_CATEGORIES_BY_TRUST_LVL : ℕ := 64
abbrev MAX_DOMAINS : ℕ := 64
abbrev MAX_IP4 : ℕ := 1024
abbrev MAX_IP6 : ℕ := 1024
abbrev IP6_LEN : ℕ := 16
abbrev DOMAIN_MAX_LEN : ℕ := 260
abbrev MAX_CATEGORIES : ℕ := 100
abbrev CATEGORY_MAX_LEN : ℕ := 64
abbrev IP_4 : UInt8 := 1
abbrev IP_6 : UInt8 := 2

instance : NeZero IP6_LEN := ⟨nofun⟩

instance : NeZero DOMAIN_MAX_LEN := ⟨nofun⟩

/-- An IPv4 address as its four network bytes. -/
abbrev Ip4 := Slot 4

/-- An IPv6 address as its sixteen network bytes. -/
abbrev Ip6 := Slot IP6_LEN

/-- The libc conversions between addresses and their text. -/
structure Inet where
  ntop4 : Ip4 → Str
  ntop6 : Ip6 → Str
  pton4 : Str → Option Ip4
  pton6 : Str → Option Ip6

/-- An address library that knows no address. -/
def Inet.mute : Inet := { ntop4 := fun _ => [], ntop6 := fun _ => [], pton4 := fun _ => none, pton6 := fun _ => none }

/-- A 16-bit field in network byte order. -/
structure Be16 where
  hi : UInt8
  lo : UInt8
deriving DecidableEq, Repr

def rte_be_to_cpu_16 (x : Be16) : ℕ := x.hi.toNat * 256 + x.lo.toNat

/-- `struct net_port` without the names that only appear in log lines. -/
structure NetPort where
  port_id : UInt16
  mac_addr : Slot 6
  neighbor_mac : Slot 6
  neighbor_learned : Bool

/-- `struct info_of_pakage`. `pad` is the byte the compiler leaves between
`ip_version` and `ip4_src`; a domain that overruns its array writes it. -/
structure InfoOfPakage where
  ethernet_type_host : Be16
  ethernet_type_protocol : Be16
  number_port : Be16
  domain : Slot DOMAIN_MAX_LEN
  ip_version : UInt8
  pad : UInt8
  ip4_src : Ip4
  ip4_dist : Ip4
  ip6_src : Ip6
  ip6_dist : Ip6

/-- `memset(&info_pac, 0, sizeof(info_pac))`. -/
def InfoOfPakage.zero : InfoOfPakage :=
  { ethernet_type_host := ⟨0, 0⟩, ethernet_type_protocol := ⟨0, 0⟩, number_port := ⟨0, 0⟩,
    domain := fun _ => 0, ip_version := 0, pad := 0, ip4_src := fun _ => 0,
    ip4_dist := fun _ => 0, ip6_src := fun _ => 0, ip6_dist := fun _ => 0 }

/-- The bytes of the structure from `domain` to its end. -/
def InfoOfPakage.image (info : InfoOfPakage) : ℕ → UInt8 :=
  member DOMAIN_MAX_LEN (bytesOf info.domain) <| member 1 (fun _ => info.ip_version) <|
  member 1 (fun _ => info.pad) <| member 4 (bytesOf info.ip4_src) <|
  member 4 (bytesOf info.ip4_dist) <| member IP6_LEN (bytesOf info.ip6_src) <|
  member IP6_LEN (bytesOf info.ip6_dist) fun _ => 0

/-- The string the callees of `pakage_processing` read at `info_pac.domain`. -/
def InfoOfPakage.domain_str (info : InfoOfPakage) : Str := cstr info.image 0 302

theorem InfoOfPakage.image_domain (info : InfoOfPakage) (k : Fin DOMAIN_MAX_LEN) :
    info.image (0 + k.val) = info.domain k := by
  rw [Nat.zero_add, InfoOfPakage.image, member_of_lt _ _ k.isLt, bytesOf_apply]

theorem InfoOfPakage.domain_str_of_terminated {info : InfoOfPakage} (h : info.domain.Terminated) :
    info.domain_str = info.domain.str :=
  cstr_terminated_slot info.image_domain (by decide) h

theorem InfoOfPakage.le_length_domain_str {info : InfoOfPakage} (h : ¬ info.domain.Terminated) :
    DOMAIN_MAX_LEN ≤ info.domain_str.length := by
  rw [InfoOfPakage.domain_str, cstr_slot info.image_domain (by decide), if_neg h, List.length_append,
    List.length_ofFn]
  exact Nat.le_add_right _ _

theorem InfoOfPakage.domain_str_eq_nil (info : InfoOfPakage) : info.domain_str = [] ↔ info.domain 0 = 0 := by
  have hfirst : info.image 0 = info.domain 0 := info.image_domain 0
  change (if info.image 0 = 0 then [] else info.image 0 :: cstr info.image 1 301) = [] ↔ _
  rw [hfirst]
  split <;> simp_all

structure TrustCategoriesWithLvl where
  locked_by_trust_category : Slot CATEGORY_MAX_LEN
  trust_lvl : Int32

/-- `struct BASE_POLICY`. -/
structure BasePolicy where
  locked_categories : Fin MAX_CATEGORIES → Slot CATEGORY_MAX_LEN
  categories_with_lvl : Fin MAX_CATEGORIES_BY_TRUST_LVL → TrustCategoriesWithLvl
  ttl_ip : Int32
  ttl_domain : Int32
  block_domains : Fin MAX_DOMAINS → Slot DOMAIN_MAX_LEN
  allow_domains : Fin MAX_DOMAINS → Slot DOMAIN_MAX_LEN
  block_ip4 : Fin MAX_IP4 → Ip4
  allow_ip4 : Fin MAX_IP4 → Ip4
  block_ip6 : Fin MAX_IP6 → Ip6
  allow_ip6 : Fin MAX_IP6 → Ip6
  min_trust_level : Int32

/-- `memset(&current_policy, 0, sizeof(current_policy))`. -/
def BasePolicy.zero : BasePolicy :=
  { locked_categories := fun _ _ => 0,
    categories_with_lvl := fun _ => ⟨fun _ => 0, 0⟩,
    ttl_ip := 0, ttl_domain := 0,
    block_domains := fun _ _ => 0, allow_domains := fun _ _ => 0,
    block_ip4 := fun _ _ => 0, allow_ip4 := fun _ _ => 0,
    block_ip6 := fun _ _ => 0, allow_ip6 := fun _ _ => 0,
    min_trust_level := 0 }

/-- Object representation of one entry: 64 characters, then the level. -/
def TrustCategoriesWithLvl.bytes (entry : TrustCategoriesWithLvl) : Slot 68 :=
  fun k => member CATEGORY_MAX_LEN (bytesOf entry.locked_by_trust_category)
    (bytesOf (leBytes entry.trust_lvl)) k.val

/-- The 85004 bytes of the structure. `strcmp` and an index past
`categories_with_lvl` read them without regard to member boundaries. -/
def BasePolicy.image (p : BasePolicy) : ℕ → UInt8 :=
  member 6400 (rows p.locked_categories) <|
  member 4352 (rows fun i => (p.categories_with_lvl i).bytes) <|
  member 4 (bytesOf (leBytes p.ttl_ip)) <| member 4 (bytesOf (leBytes p.ttl_domain)) <|
  member 16640 (rows p.block_domains) <| member 16640 (rows p.allow_domains) <|
  member 4096 (rows p.block_ip4) <| member 4096 (rows p.allow_ip4) <|
  member 16384 (rows p.block_ip6) <| member 16384 (rows p.allow_ip6) <|
  member 4 (bytesOf (leBytes p.min_trust_level)) fun _ => 0

/-- The string that starts at a byte offset of the structure. -/
def BasePolicy.str_at (p : BasePolicy) (off : ℕ) : Str := cstr p.image off (85004 - off)

def BasePolicy.locked_category (p : BasePolicy) (i : ℕ) : Str := p.str_at (CATEGORY_MAX_LEN * i)

def BasePolicy.trust_category (p : BasePolicy) (i : ℕ) : Str := p.str_at (6400 + 68 * i)

/-- `categories_with_lvl[i].trust_lvl`, also past the end of the array. -/
def BasePolicy.trust_lvl (p : BasePolicy) (i : ℕ) : Int32 :=
  if h : i < MAX_CATEGORIES_BY_TRUST_LVL then (p.categories_with_lvl ⟨i, h⟩).trust_lvl
  else ofLeBytes fun k => p.image (6400 + 68 * i + CATEGORY_MAX_LEN + k.val)

def BasePolicy.block_domain (p : BasePolicy) (i : ℕ) : Str := p.str_at (10760 + DOMAIN_MAX_LEN * i)

def BasePolicy.allow_domain (p : BasePolicy) (i : ℕ) : Str := p.str_at (27400 + DOMAIN_MAX_LEN * i)

/-- `struct requested_classification`. -/
structure RequestedClassification where
  get_categories : Fin MAX_CATEGORIES → Slot CATEGORY_MAX_LEN
  get_trust_level : Int32

def RequestedClassification.image (req : RequestedClassification) : ℕ → UInt8 :=
  member 6400 (rows req.get_categories) <| member 4 (bytesOf (leBytes req.get_trust_level)) fun _ => 0

/-- The string at `get_categories[i]`. A slot without a terminator runs on into
the next slot, and the last one into `get_trust_level`. -/
def RequestedClassification.category (req : RequestedClassification) (i : ℕ) : Str :=
  cstr req.image (CATEGORY_MAX_LEN * i) (6404 - CATEGORY_MAX_LEN * i)

theorem RequestedClassification.image_category (req : RequestedClassification) (i : Fin MAX_CATEGORIES)
    (k : Fin CATEGORY_MAX_LEN) : req.image (CATEGORY_MAX_LEN * i.val + k.val) = req.get_categories i k := by
  have hi : i.val < 100 := i.isLt
  have hk : k.val < 64 := k.isLt
  rw [RequestedClassification.image, member_of_lt _ _ (by simp only [CATEGORY_MAX_LEN]; omega), rows_apply]

theorem BasePolicy.image_locked (p : BasePolicy) (i : Fin MAX_CATEGORIES) (k : Fin CATEGORY_MAX_LEN) :
    p.image (CATEGORY_MAX_LEN * i.val + k.val) = p.locked_categories i k := by
  have hi : i.val < 100 := i.isLt
  have hk : k.val < 64 := k.isLt
  rw [BasePolicy.image, member_of_lt _ _ (by simp only [CATEGORY_MAX_LEN]; omega), rows_apply]

theorem RequestedClassification.category_eq_nil {req : RequestedClassification} {i : Fin MAX_CATEGORIES}
    (h : req.get_categories i 0 = 0) : req.category i.val = [] :=
  cstr_eq_nil ((req.image_category i 0).trans h) _

theorem RequestedClassification.category_ne_nil {req : RequestedClassification} {i : Fin MAX_CATEGORIES}
    (h : req.get_categories i 0 ≠ 0) : req.category i.val ≠ [] := by
  have hi : i.val < 100 := i.isLt
  exact cstr_ne_nil ((req.image_category i 0).trans_ne h) (by simp only [CATEGORY_MAX_LEN]; omega)

theorem BasePolicy.zero_image : ∀ k, BasePolicy.zero.image k = 0 := by
  have hint : ∀ k, bytesOf (leBytes 0) k = 0 := bytesOf_zero leBytes_zero
  have hentry : ∀ k, TrustCategoriesWithLvl.bytes ⟨fun _ => 0, 0⟩ k = 0 :=
    fun k => member_zero (bytesOf_zero fun _ => rfl) hint _ _
  exact member_zero (rows_zero fun _ _ => rfl) (member_zero (rows_zero fun _ => hentry)
    (member_zero hint (member_zero hint (member_zero (rows_zero fun _ _ => rfl) (member_zero (rows_zero fun _ _ => rfl)
      (member_zero (rows_zero fun _ _ => rfl) (member_zero (rows_zero fun _ _ => rfl)
        (member_zero (rows_zero fun _ _ => rfl) (member_zero (rows_zero fun _ _ => rfl)
          (member_zero hint (fun _ => rfl) _) _) _) _) _) _) _) _) _) _) _

theorem BasePolicy.zero_trust_lvl (i : ℕ) : BasePolicy.zero.trust_lvl i = 0 := by
  unfold BasePolicy.trust_lvl
  split
  · rfl
  · exact ofLeBytes_zero fun _ => BasePolicy.zero_image _

theorem BasePolicy.locked_category_eq_nil {p : BasePolicy} {i : Fin MAX_CATEGORIES}
    (h : p.locked_categories i 0 = 0) : p.locked_category i.val = [] :=
  cstr_eq_nil ((p.image_locked i 0).trans h) _

theorem BasePolicy.locked_category_ne_nil {p : BasePolicy} {i : Fin MAX_CATEGORIES}
    (h : p.locked_categories i 0 ≠ 0) : p.locked_category i.val ≠ [] := by
  have hi : i.val < 100 := i.isLt
  exact cstr_ne_nil ((p.image_locked i 0).trans_ne h) (by simp only [CATEGORY_MAX_LEN]; omega)

end grpc_server.dpdk_filter
