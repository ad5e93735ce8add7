import GrpcServer.CMemory.Fill
import GrpcServer.Communication
import GrpcServer.DpdkFilter.Types

open c_memory grpc_server.dpdk_filter grpc_server.communication

namespace grpc_server.worker

/-- The arrays of `struct BASE_POLICY`. -/
inductive PolicyArray where
  | locked_categories
  | categories_with_lvl
  | block_domains
  | allow_domains
  | block_ip4
  | allow_ip4
  | block_ip6
  | allow_ip6
deriving DecidableEq

def PolicyArray.capacity : PolicyArray → ℕ
  | locked_categories => MAX_CATEGORIES
  | categories_with_lvl => MAX_CATEGORIES_BY_TRUST_LVL
  | block_domains | allow_domains => MAX_DOMAINS
  | block_ip4 | allow_ip4 => MAX_IP4
  | block_ip6 | allow_ip6 => MAX_IP6

def PolicyArray.Entry : PolicyArray → Type
  | locked_categories => Slot CATEGORY_MAX_LEN
  | categories_with_lvl => TrustCategoriesWithLvl
  | block_domains | allow_domains => Slot DOMAIN_MAX_LEN
  | block_ip4 | allow_ip4 => Ip4
  | block_ip6 | allow_ip6 => Ip6

def PolicyArray.get (p : BasePolicy) : (array : PolicyArray) → Fin array.capacity → array.Entry
  | locked_categories => p.locked_categories
  | categories_with_lvl => p.categories_with_lvl
  | block_domains => p.block_domains
  | allow_domains => p.allow_domains
  | block_ip4 => p.block_ip4
  | allow_ip4 => p.allow_ip4
  | block_ip6 => p.block_ip6
  | allow_ip6 => p.allow_ip6

def PolicyArray.put (p : BasePolicy) : (array : PolicyArray) → (Fin array.capacity → array.Entry) → BasePolicy
  | locked_categories, entries => { p with locked_categories := entries }
  | categories_with_lvl, entries => { p with categories_with_lvl := entries }
  | block_domains, entries => { p with block_domains := entries }
  | allow_domains, entries => { p with allow_domains := entries }
  | block_ip4, entries => { p with block_ip4 := entries }
  | allow_ip4, entries => { p with allow_ip4 := entries }
  | block_ip6, entries => { p with block_ip6 := entries }
  | allow_ip6, entries => { p with allow_ip6 := entries }

/-- One assignment of the copy loops. -/
structure PolicyWrite where
  array : PolicyArray
  index : ℕ
  entry : array.Entry

def PolicyWrite.InBounds (write : PolicyWrite) : Prop := write.index < write.array.capacity

instance (write : PolicyWrite) : Decidable write.InBounds :=
  inferInstanceAs (Decidable (write.index < write.array.capacity))

/-- The assignment; one past the end of its array is undefined. -/
def PolicyWrite.apply (write : PolicyWrite) (p : BasePolicy) : Option BasePolicy :=
  if write.InBounds then some (write.array.put p (set (write.array.get p) write.index write.entry)) else none

/-- `strncpy(slot, s.c_str(), w - 1); slot[w - 1] = '\0';` on a zeroed slot. -/
def copy_str {w : ℕ} (s : Str) : Slot w :=
  fun k => if k.val = w - 1 then 0 else strncpy (fun _ => 0) s (w - 1) k

/-- The loops over `block_categories`, `block_domains` and `allow_domains`,
which never look at the array's capacity. -/
def copy_strs (array : PolicyArray) (copy : Str → array.Entry) : ℕ → List Str → List PolicyWrite
  | _, [] => []
  | i, s :: rest => ⟨array, i, copy s⟩ :: copy_strs array copy (i + 1) rest

def copy_trust : ℕ → List (Sigma fun _ : Str => Int32) → List PolicyWrite
  | _, [] => []
  | idx, ⟨category, min_trust⟩ :: rest =>
    if idx ≥ MAX_CATEGORIES_BY_TRUST_LVL then []
    else ⟨.categories_with_lvl, idx, (⟨copy_str category, min_trust⟩ : TrustCategoriesWithLvl)⟩ ::
      copy_trust (idx + 1) rest

/-- The loop over `block_ips` and over `allow_ips`. -/
def copy_ips (inet : Inet) (write4 : ℕ → Ip4 → PolicyWrite) (write6 : ℕ → Ip6 → PolicyWrite) :
    ℕ → ℕ → List Str → List PolicyWrite
  | _, _, [] => []
  | ip4_idx, ip6_idx, ip_str :: rest =>
    match inet.pton4 (cut ip_str) with
    | some ip4 =>
      if ip4_idx < MAX_IP4 then write4 ip4_idx ip4 :: copy_ips inet write4 write6 (ip4_idx + 1) ip6_idx rest
      else copy_ips inet write4 write6 ip4_idx ip6_idx rest
    | none =>
      match inet.pton6 (cut ip_str) with
      | some ip6 =>
        if ip6_idx < MAX_IP6 then write6 ip6_idx ip6 :: copy_ips inet write4 write6 ip4_idx (ip6_idx + 1) rest
        else copy_ips inet write4 write6 ip4_idx ip6_idx rest
      | none => copy_ips inet write4 write6 ip4_idx ip6_idx rest

/-- The assignments made for a provided policy. `trust` lists `block_by_trust`
in the order the map iterates. -/
def policy_writes {S : Type} (inet : Inet) (trust : List (Sigma fun _ : Str => Int32)) (pol : WorkerPolicy S) :
    List PolicyWrite :=
  copy_strs .locked_categories copy_str 0 pol.block_categories ++ copy_trust 0 trust ++
  copy_strs .block_domains copy_str 0 pol.block_domains ++
  copy_strs .allow_domains copy_str 0 pol.allow_domains ++
  copy_ips inet (⟨.block_ip4, ·, ·⟩) (⟨.block_ip6, ·, ·⟩) 0 0 pol.block_ips ++
  copy_ips inet (⟨.allow_ip4, ·, ·⟩) (⟨.allow_ip6, ·, ·⟩) 0 0 pol.allow_ips

def apply_writes : BasePolicy → List PolicyWrite → Option BasePolicy
  | p, [] => some p
  | p, write :: rest => (write.apply p).bind fun p => apply_writes p rest

/-- `current_policy` after `POLICY_PROVIDED`. -/
def store_policy {S : Type} (inet : Inet) (trust : List (Sigma fun _ : Str => Int32)) (pol : WorkerPolicy S) :
    Option BasePolicy :=
  (apply_writes BasePolicy.zero (policy_writes inet trust pol)).map fun p =>
    { p with min_trust_level := pol.min_trust_level, ttl_ip := pol.ttl_ip, ttl_domain := pol.ttl_domain }

end grpc_server.worker
