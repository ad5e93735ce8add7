import GrpcServer.DpdkFilter.FiltrPackets
import GrpcServer.Worker.Policy.Encoding

open c_memory grpc_server.dpdk_filter grpc_server.communication

namespace grpc_server.worker

/-- A check that holds of a packet exactly when its destination is one of the
addresses of its family. -/
def Recognizes (check : InfoOfPakage → Bool) (ip4 : List Ip4) (ip6 : List Ip6) : Prop :=
  ∀ info_pac : InfoOfPakage,
    (info_pac.ip_version = IP_4 → (check info_pac = true ↔ info_pac.ip4_dist ∈ ip4)) ∧
    (info_pac.ip_version = IP_6 → (check info_pac = true ↔ info_pac.ip6_dist ∈ ip6))

/-- A scan up to the first sentinel finds every entry exactly when no entry is a
sentinel. -/
theorem takeWhile_any_iff {α : Type} [DecidableEq α] (stop : α → Bool) (entries : List α) :
    (∀ a, (entries.takeWhile (!stop ·)).any (a == ·) = true ↔ a ∈ entries) ↔ ∀ a ∈ entries, stop a = false := by
  simp only [List.any_beq, List.contains_iff_mem]
  constructor
  · intro h a ha
    simpa using List.mem_takeWhile_imp ((h a).mpr ha)
  · intro h a
    rw [List.takeWhile_eq_self_iff.mpr (by simpa using h)]

/-- A packet of one family with a given destination. -/
def to_ip4 (ip4 : Ip4) : InfoOfPakage := { InfoOfPakage.zero with ip_version := IP_4, ip4_dist := ip4 }

def to_ip6 (ip6 : Ip6) : InfoOfPakage := { InfoOfPakage.zero with ip_version := IP_6, ip6_dist := ip6 }

/-- Two address lists, packed densely from the front of their arrays. -/
abbrev check_packed (ip4 : List Ip4) (ip6 : List Ip6) : InfoOfPakage → Bool :=
  check_ip (fun i => ip4.getD i.val fun _ => 0) (fun i => ip6.getD i.val fun _ => 0)

theorem check_packed_of_ip4 {ip4 : List Ip4} (h4 : ip4.length ≤ MAX_IP4) (ip6 : List Ip6) (info_pac : InfoOfPakage)
    (hversion : info_pac.ip_version = IP_4) :
    check_packed ip4 ip6 info_pac = (ip4.takeWhile (!· == fun _ => 0)).any (info_pac.ip4_dist == ·) := by
  rw [check_packed, check_ip, if_pos hversion]
  exact scan_packed (fun i : Fin MAX_IP4 => ip4.getD i.val fun _ => 0) (fun _ => 0) (· == fun _ => 0)
    (info_pac.ip4_dist == ·) (by simp) ip4 h4 fun _ => rfl

theorem check_packed_of_ip6 (ip4 : List Ip4) {ip6 : List Ip6} (h6 : ip6.length ≤ MAX_IP6) (info_pac : InfoOfPakage)
    (hversion : info_pac.ip_version = IP_6) :
    check_packed ip4 ip6 info_pac = (ip6.takeWhile (!· 0 == 0)).any (info_pac.ip6_dist == ·) := by
  rw [check_packed, check_ip, if_neg (by rw [hversion]; decide)]
  exact scan_packed (fun i : Fin MAX_IP6 => ip6.getD i.val fun _ => 0) (fun _ => 0) (· 0 == 0)
    (info_pac.ip6_dist == ·) (by simp) ip6 h6 fun _ => rfl

theorem check_packed_recognizes_iff {ip4 : List Ip4} {ip6 : List Ip6} (h4 : ip4.length ≤ MAX_IP4)
    (h6 : ip6.length ≤ MAX_IP6) :
    Recognizes (check_packed ip4 ip6) ip4 ip6 ↔ (∀ a ∈ ip4, a ≠ fun _ => 0) ∧ ∀ a ∈ ip6, a 0 ≠ 0 := by
  have hany4 := takeWhile_any_iff (fun b : Ip4 => b == fun _ => 0) ip4
  have hany6 := takeWhile_any_iff (fun b : Ip6 => b 0 == 0) ip6
  simp only [beq_eq_false_iff_ne] at hany4 hany6
  rw [← hany4, ← hany6]
  constructor
  · intro h
    constructor
    · intro a
      have hcheck := (h (to_ip4 a)).1 rfl
      rwa [check_packed_of_ip4 h4 ip6 _ rfl] at hcheck
    · intro a
      have hcheck := (h (to_ip6 a)).2 rfl
      rwa [check_packed_of_ip6 ip4 h6 _ rfl] at hcheck
  · rintro ⟨hall4, hall6⟩ info_pac
    constructor
    · intro hversion
      rw [check_packed_of_ip4 h4 ip6 _ hversion]
      exact hall4 _
    · intro hversion
      rw [check_packed_of_ip6 ip4 h6 _ hversion]
      exact hall6 _

/-- For a message with at most 1024 addresses of each family in each list, storing it
is defined and both checks recognize exactly the parsed addresses, if and only if the
unbounded lists fit, no IPv4 address is `0.0.0.0` and no IPv6 address begins with a
zero byte. -/
theorem ip_lists_recognized_iff {S : Type} (inet : Inet) (trust : List (Sigma fun _ : Str => Int32))
    (pol : WorkerPolicy S) (hblock4 : (parsed4 inet pol.block_ips).length ≤ MAX_IP4)
    (hblock6 : (parsed6 inet pol.block_ips).length ≤ MAX_IP6)
    (hallow4 : (parsed4 inet pol.allow_ips).length ≤ MAX_IP4)
    (hallow6 : (parsed6 inet pol.allow_ips).length ≤ MAX_IP6) :
    (∃ policy, store_policy inet trust pol = some policy ∧
        Recognizes (check_ip_is_block · policy) (parsed4 inet pol.block_ips) (parsed6 inet pol.block_ips) ∧
        Recognizes (check_ip_is_allow · policy) (parsed4 inet pol.allow_ips) (parsed6 inet pol.allow_ips)) ↔
      Fits pol ∧
      (∀ ip4 ∈ parsed4 inet pol.block_ips ++ parsed4 inet pol.allow_ips, ip4 ≠ fun _ => 0) ∧
      ∀ ip6 ∈ parsed6 inet pol.block_ips ++ parsed6 inet pol.allow_ips, ip6 0 ≠ 0 := by
  have hblock : Recognizes (check_ip_is_block · (encoding inet trust pol)) _ _ ↔ _ :=
    check_packed_recognizes_iff hblock4 hblock6
  have hallow : Recognizes (check_ip_is_allow · (encoding inet trust pol)) _ _ ↔ _ :=
    check_packed_recognizes_iff hallow4 hallow6
  simp only [List.forall_mem_append]
  constructor
  · rintro ⟨policy, hstore, hblocked, hallowed⟩
    by_cases hfits : Fits pol
    · rw [store_policy_of_fits hfits] at hstore
      cases hstore
      obtain ⟨hblocked4, hblocked6⟩ := hblock.mp hblocked
      obtain ⟨hallowed4, hallowed6⟩ := hallow.mp hallowed
      exact ⟨hfits, ⟨hblocked4, hallowed4⟩, hblocked6, hallowed6⟩
    · rw [store_policy_of_not_fits hfits] at hstore
      cases hstore
  · rintro ⟨hfits, ⟨hblocked4, hallowed4⟩, hblocked6, hallowed6⟩
    exact ⟨_, store_policy_of_fits hfits inet trust, hblock.mpr ⟨hblocked4, hblocked6⟩,
      hallow.mpr ⟨hallowed4, hallowed6⟩⟩

/-- The text `1.2.3.4`. -/
def dotted_quad : Str := [49, 46, 50, 46, 51, 46, 52]

/-- The text `::1`. -/
def loopback : Str := [58, 58, 49]

/-- `inet_pton` on two texts. -/
def two_texts : Inet :=
  { Inet.mute with
    pton4 := fun s => if s = dotted_quad then some fun k => k.val.toUInt8 + 1 else none
    pton6 := fun s => if s = loopback then some fun k => if k = 15 then 1 else 0 else none }

/-- A message whose only rule blocks one address. -/
def blocking_ip (ip_str : Str) : WorkerPolicy Unit := { WorkerPolicy.empty with block_ips := [ip_str] }

/-- A blocked `::1` is stored, and packets to it pass the check. -/
theorem loopback_not_blocked :
    ∃ policy, store_policy two_texts [] (blocking_ip loopback) = some policy ∧
      ∃ ip6 ∈ parsed6 two_texts (blocking_ip loopback).block_ips,
        check_ip_is_block (to_ip6 ip6) policy = false := by
  have hfits : Fits (blocking_ip loopback) := ⟨Nat.zero_le _, Nat.zero_le _, Nat.zero_le _⟩
  refine ⟨_, store_policy_of_fits hfits _ _, fun k => if k = 15 then 1 else 0, List.mem_cons_self, ?_⟩
  have hlen : (parsed6 two_texts (blocking_ip loopback).block_ips).length ≤ MAX_IP6 := by decide
  have hscan := check_packed_of_ip6 (parsed4 two_texts (blocking_ip loopback).block_ips) hlen
    (to_ip6 fun k => if k = 15 then 1 else 0) rfl
  exact hscan.trans rfl

/-- The message that blocks `1.2.3.4` is recognized. -/
theorem ip_lists_recognized_dotted_quad :
    ∃ policy, store_policy two_texts [] (blocking_ip dotted_quad) = some policy ∧
      Recognizes (check_ip_is_block · policy) [fun k => k.val.toUInt8 + 1] [] ∧
      Recognizes (check_ip_is_allow · policy) [] [] := by
  refine (ip_lists_recognized_iff two_texts [] (blocking_ip dotted_quad) (by decide) (by decide) (by decide)
    (by decide)).mpr ⟨⟨Nat.zero_le _, Nat.zero_le _, Nat.zero_le _⟩, ?_, ?_⟩
  · intro ip4 hmem hzero
    have hstored : ip4 = fun k => k.val.toUInt8 + 1 := List.mem_singleton.mp hmem
    have hbyte : (1 : UInt8) = 0 := (congrFun hstored 0).symm.trans (congrFun hzero 0)
    exact absurd hbyte (by decide)
  · exact fun ip6 hmem => absurd hmem List.not_mem_nil

end grpc_server.worker
