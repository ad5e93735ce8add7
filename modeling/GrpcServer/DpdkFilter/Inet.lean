import GrpcServer.DpdkFilter.Types

open c_memory

namespace grpc_server.dpdk_filter

/-- `inet_ntop` and `inet_pton` are mutually inverse, and the text of an IPv6
address is not one of an IPv4 address. -/
structure Inet.Inverse (inet : Inet) : Prop where
  pton4_ntop4 : ∀ ip4, inet.pton4 (inet.ntop4 ip4) = some ip4
  pton6_ntop6 : ∀ ip6, inet.pton6 (inet.ntop6 ip6) = some ip6
  pton4_ntop6 : ∀ ip6, inet.pton4 (inet.ntop6 ip6) = none

def digit (n : ℕ) : UInt8 := UInt8.ofNat (if n < 10 then 48 + n else 87 + n)

def digit_value (c : UInt8) : ℕ := if c.toNat < 58 then c.toNat - 48 else c.toNat - 87

theorem toNat_digit {n : ℕ} (h : n < 16) : (digit n).toNat = if n < 10 then 48 + n else 87 + n := by
  rw [digit, UInt8.toNat_ofNat', Nat.mod_eq_of_lt]
  split <;> omega

theorem digit_value_digit {n : ℕ} (h : n < 16) : digit_value (digit n) = n := by
  rw [digit_value, toNat_digit h]
  by_cases hdecimal : n < 10
  · rw [if_pos hdecimal, if_pos (by omega)]
    omega
  · rw [if_neg hdecimal, if_neg (by omega)]
    omega

theorem digit_ne_dot {n : ℕ} (h : n < 16) : digit n ≠ 46 := by
  intro hdot
  have hnat : (46 : UInt8).toNat = _ := hdot ▸ toNat_digit h
  change 46 = _ at hnat
  split at hnat <;> omega

/-- The decimal digits of a byte without leading zeroes. -/
def octet_digits (b : UInt8) : List ℕ :=
  if b.toNat < 10 then [b.toNat]
  else if b.toNat < 100 then [b.toNat / 10, b.toNat % 10]
  else [b.toNat / 100, b.toNat / 10 % 10, b.toNat % 10]

def octet (b : UInt8) : Str := (octet_digits b).map digit

def octet_value (s : Str) : UInt8 := UInt8.ofNat ((s.map digit_value).foldl (fun n d => 10 * n + d) 0)

theorem octet_digits_lt {b : UInt8} {n : ℕ} (hn : n ∈ octet_digits b) : n < 10 := by
  have hb := b.toNat_lt
  unfold octet_digits at hn
  split at hn
  · simp at hn
    omega
  · split at hn <;> simp at hn <;> omega

theorem octet_digits_value (b : UInt8) : (octet_digits b).foldl (fun n d => 10 * n + d) 0 = b.toNat := by
  unfold octet_digits
  split
  · simp
  · split <;> simp <;> omega

theorem octet_value_octet (b : UInt8) : octet_value (octet b) = b := by
  have hdigits : (octet b).map digit_value = octet_digits b := by
    rw [octet, List.map_map]
    refine (List.map_congr_left fun n hn => ?_).trans (List.map_id _)
    exact digit_value_digit ((octet_digits_lt hn).trans (by omega))
  rw [octet_value, hdigits, octet_digits_value, UInt8.ofNat_toNat]

theorem dot_notMem_octet (b : UInt8) : (46 : UInt8) ∉ octet b := by
  intro hdot
  obtain ⟨n, hn, heq⟩ := List.mem_map.mp hdot
  exact digit_ne_dot ((octet_digits_lt hn).trans (by omega)) heq

/-- The character of an IPv6 address at a position, when no group is shortened:
four digits and a colon. -/
def group_char (ip6 : Ip6) (i : ℕ) : UInt8 :=
  let b := bytesOf ip6 (2 * (i / 5) + i % 5 / 2)
  if i % 5 = 4 then 58 else if i % 5 % 2 = 0 then digit (b.toNat / 16) else digit (b.toNat % 16)

def groups (ip6 : Ip6) : Str := List.ofFn fun i : Fin 39 => group_char ip6 i.val

def groups_value (s : Str) : Ip6 := fun k =>
  let pos := 5 * (k.val / 2) + 2 * (k.val % 2)
  UInt8.ofNat (16 * digit_value (s.getD pos 0) + digit_value (s.getD (pos + 1) 0))

/-- Addresses as `inet_ntop` writes them, but for IPv6 without leaving out
zeroes. -/
def plain_inet : Inet :=
  { ntop4 := fun ip4 => [46].intercalate (List.ofFn fun k => octet (ip4 k))
    ntop6 := groups
    pton4 := fun s =>
      if (s.splitOn 46).length = 4 then some fun k => octet_value ((s.splitOn 46).getD k.val []) else none
    pton6 := fun s => if s.length = 39 then some (groups_value s) else none }

theorem getD_groups (ip6 : Ip6) {i : ℕ} (h : i < 39) : (groups ip6).getD i 0 = group_char ip6 i := by
  rw [List.getD_eq_getElem?_getD, groups, List.getElem?_ofFn, dif_pos h, Option.getD_some]

theorem groups_value_groups (ip6 : Ip6) : groups_value (groups ip6) = ip6 := by
  funext k
  have hk : k.val < 16 := k.isLt
  have hb := (ip6 k).toNat_lt
  have hhigh : group_char ip6 (5 * (k.val / 2) + 2 * (k.val % 2)) = digit ((ip6 k).toNat / 16) := by
    have hpos : 2 * ((5 * (k.val / 2) + 2 * (k.val % 2)) / 5) + (5 * (k.val / 2) + 2 * (k.val % 2)) % 5 / 2 = k.val := by
      omega
    rw [group_char, hpos, bytesOf_apply, if_neg (by omega), if_pos (by omega)]
  have hlow : group_char ip6 (5 * (k.val / 2) + 2 * (k.val % 2) + 1) = digit ((ip6 k).toNat % 16) := by
    have hpos : 2 * ((5 * (k.val / 2) + 2 * (k.val % 2) + 1) / 5) + (5 * (k.val / 2) + 2 * (k.val % 2) + 1) % 5 / 2 =
        k.val := by omega
    rw [group_char, hpos, bytesOf_apply, if_neg (by omega), if_neg (by omega)]
  have hvalue : 16 * ((ip6 k).toNat / 16) + (ip6 k).toNat % 16 = (ip6 k).toNat := by omega
  rw [groups_value, getD_groups ip6 (by omega), getD_groups ip6 (by omega), hhigh, hlow, digit_value_digit (by omega),
    digit_value_digit (by omega), hvalue, UInt8.ofNat_toNat]

theorem dot_notMem_groups (ip6 : Ip6) : (46 : UInt8) ∉ groups ip6 := by
  intro hdot
  obtain ⟨i, hi⟩ := List.mem_ofFn.mp hdot
  have hb := (bytesOf ip6 (2 * (i.val / 5) + i.val % 5 / 2)).toNat_lt
  unfold group_char at hi
  split at hi
  · exact absurd hi (by decide)
  · split at hi
    · exact digit_ne_dot (by omega) hi
    · exact digit_ne_dot (by omega) hi

theorem plain_inet_inverse : plain_inet.Inverse := by
  refine ⟨?_, ?_, ?_⟩
  · intro ip4
    have hsplit : ([46].intercalate (List.ofFn fun k => octet (ip4 k))).splitOn 46 =
        List.ofFn fun k => octet (ip4 k) := by
      apply List.splitOn_intercalate
      · intro text htext
        obtain ⟨k, rfl⟩ := List.mem_ofFn.mp htext
        exact dot_notMem_octet (ip4 k)
      · simp
    simp only [plain_inet, hsplit, List.length_ofFn, if_true, Option.some.injEq]
    funext k
    rw [List.getD_eq_getElem?_getD, List.getElem?_ofFn, dif_pos k.isLt, Option.getD_some, octet_value_octet]
  · intro ip6
    have hlen : (groups ip6).length = 39 := List.length_ofFn
    simp only [plain_inet, hlen, if_true, groups_value_groups]
  · intro ip6
    simp [plain_inet, List.splitOn_eq_singleton (dot_notMem_groups ip6)]

end grpc_server.dpdk_filter
