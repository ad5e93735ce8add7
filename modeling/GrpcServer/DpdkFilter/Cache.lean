import GrpcServer.CMemory.Strncpy
import GrpcServer.TtlCache
import GrpcServer.DpdkFilter.Types

open c_memory ttl_cache

namespace grpc_server.dpdk_filter

/-- The members `struct node_cache_domain` and `struct node_cache_ip` share and
the caches use. `pad` are the bytes the compiler leaves in front of `trust_lvl`. -/
structure NodeCache where
  categories : Fin MAX_CATEGORIES → Slot CATEGORY_MAX_LEN
  solution_is_send : Bool
  pad : Slot 3
  trust_lvl : Int32
  timestamp : UInt64
  ttl_seconds : UInt32

/-- A node fresh from `rte_calloc`. -/
def NodeCache.zero : NodeCache :=
  { categories := fun _ _ => 0, solution_is_send := false, pad := fun _ => 0, trust_lvl := 0, timestamp := 0
    ttl_seconds := 0 }

/-- The bytes of the members. The one behind `ttl_seconds` counts as zero. -/
def NodeCache.image (node : NodeCache) : ℕ → UInt8 :=
  member 6400 (rows node.categories) <| member 1 (fun _ => if node.solution_is_send then 1 else 0) <|
  member 3 (bytesOf node.pad) <| member 4 (bytesOf (leBytes node.trust_lvl)) <|
  member 8 (bytesOf (leBytes64 node.timestamp)) <| member 4 (bytesOf (leBytes node.ttl_seconds.toInt32)) fun _ => 0

/-- The string at `categories[i]`. A slot without a terminator runs on into the
next slot, and the last one into the members behind the array. -/
def NodeCache.category (node : NodeCache) (i : Fin MAX_CATEGORIES) : Str :=
  cstr node.image (CATEGORY_MAX_LEN * i.val) (6420 - CATEGORY_MAX_LEN * i.val)

theorem NodeCache.image_category (node : NodeCache) (i : Fin MAX_CATEGORIES) (k : Fin CATEGORY_MAX_LEN) :
    node.image (CATEGORY_MAX_LEN * i.val + k.val) = node.categories i k := by
  have hi : i.val < 100 := i.isLt
  have hk : k.val < 64 := k.isLt
  rw [NodeCache.image, member_of_lt _ _ (by simp only [CATEGORY_MAX_LEN]; omega), rows_apply]

/-- The node `pakage_processing` stores for a computed verdict. -/
def NodeCache.fresh (solution_is_send : Bool) : NodeCache := { NodeCache.zero with solution_is_send }

/-- `struct ip_key`, hashed and compared over all its bytes. -/
structure IpKey where
  version : UInt32
  addr : Slot IP6_LEN
deriving DecidableEq

abbrev DomainKey := Slot DOMAIN_MAX_LEN

/-- What the calls inside one lookup and one insertion return. -/
structure CacheEnv where
  lookup_cycles : UInt64
  del_key_ok : Bool
  key_alloc_ok : Bool
  add_cycles : UInt64
  add_key_ok : Bool

/-- `age_seconds >= ttl_seconds`, with the wrapping subtraction of the source. -/
def NodeCache.expired (hz now : UInt64) (node : NodeCache) : Bool :=
  node.ttl_seconds.toUInt64 ≤ (now - node.timestamp) / hz

def NodeCache.stamped (node : NodeCache) (now : UInt64) (ttl : Int32) : NodeCache :=
  { node with timestamp := now, ttl_seconds := ttl.toUInt32 }

structure Caches where
  ip_hash : Table IpKey NodeCache
  dns_hash : Table DomainKey NodeCache

def Caches.empty : Caches := ⟨∅, ∅⟩

def lookup_ip_cache (hz : UInt64) (env : CacheEnv) (key : IpKey) (caches : Caches) : Lookup NodeCache × Caches :=
  let (ret, ip_hash) := lookup (NodeCache.expired hz env.lookup_cycles) env.del_key_ok key caches.ip_hash
  (ret, { caches with ip_hash })

def lookup_dns_cache (hz : UInt64) (env : CacheEnv) (domain : DomainKey) (caches : Caches) :
    Lookup NodeCache × Caches :=
  let (ret, dns_hash) := lookup (NodeCache.expired hz env.lookup_cycles) env.del_key_ok domain caches.dns_hash
  (ret, { caches with dns_hash })

def add_to_ip_cache (env : CacheEnv) (key : IpKey) (node : NodeCache) (ttl_ip : Int32) (caches : Caches) : Caches :=
  { caches with
    ip_hash := add (env.key_alloc_ok && env.add_key_ok) key (node.stamped env.add_cycles ttl_ip) caches.ip_hash }

/-- The key `add_to_dns_cache` stores: `strncpy` of the domain into a buffer of
`DOMAIN_MAX_LEN` bytes whose last byte is then overwritten. -/
def dns_key_copy (domain : DomainKey) : DomainKey :=
  Function.update (strncpy (fun _ => 0) domain.str DOMAIN_MAX_LEN) 259 0

def add_to_dns_cache (env : CacheEnv) (domain : DomainKey) (node : NodeCache) (ttl_dns : Int32) (caches : Caches) :
    Caches :=
  { caches with
    dns_hash := add (env.key_alloc_ok && env.add_key_ok) (dns_key_copy domain)
      (node.stamped env.add_cycles ttl_dns) caches.dns_hash }

def clear_ip_cache (caches : Caches) : Caches := { caches with ip_hash := ∅ }

def clear_dns_cache (caches : Caches) : Caches := { caches with dns_hash := ∅ }

/-- The entry points `pakage_processing` uses of the two caches. -/
structure CacheOps (C : Type) where
  lookup_ip_cache : CacheEnv → IpKey → C → Lookup NodeCache × C
  lookup_dns_cache : CacheEnv → DomainKey → C → Lookup NodeCache × C
  add_to_ip_cache : CacheEnv → IpKey → NodeCache → Int32 → C → C
  add_to_dns_cache : CacheEnv → DomainKey → NodeCache → Int32 → C → C

def rteCaches (hz : UInt64) : CacheOps Caches :=
  { lookup_ip_cache := lookup_ip_cache hz, lookup_dns_cache := lookup_dns_cache hz,
    add_to_ip_cache := add_to_ip_cache, add_to_dns_cache := add_to_dns_cache }

/-- Caches that always miss. -/
def missCaches : CacheOps Unit :=
  { lookup_ip_cache := fun _ _ c => (.enoent, c), lookup_dns_cache := fun _ _ c => (.enoent, c),
    add_to_ip_cache := fun _ _ _ _ c => c, add_to_dns_cache := fun _ _ _ _ c => c }

theorem lookup_ip_cache_fst (hz : UInt64) (env : CacheEnv) (key : IpKey) (caches : Caches) :
    (lookup_ip_cache hz env key caches).1 =
      (lookup (NodeCache.expired hz env.lookup_cycles) env.del_key_ok key caches.ip_hash).1 := rfl

theorem lookup_dns_cache_snd (hz : UInt64) (env : CacheEnv) (domain : DomainKey) (caches : Caches) :
    (lookup_dns_cache hz env domain caches).2 =
      { caches with
        dns_hash := (lookup (NodeCache.expired hz env.lookup_cycles) env.del_key_ok domain caches.dns_hash).2 } := rfl

/-- A verdict stored for one name answers the name that equals the stored key. -/
theorem lookup_add_dns_cache {hz : UInt64} {env : CacheEnv} {domain other : DomainKey} {node : NodeCache}
    {ttl : Int32} (hkey : dns_key_copy domain = other) (hstored : (env.key_alloc_ok && env.add_key_ok) = true)
    (hfresh : (node.stamped env.add_cycles ttl).expired hz env.lookup_cycles = false) (caches : Caches) :
    ∃ after, lookup_dns_cache hz env other (add_to_dns_cache env domain node ttl caches) =
      (.hit (node.stamped env.add_cycles ttl), after) := by
  simp only [lookup_dns_cache, add_to_dns_cache, hkey, hstored, lookup_add_self _ _ hfresh]
  exact ⟨_, rfl⟩

theorem dns_key_copy_terminated (domain : DomainKey) : (dns_key_copy domain).Terminated :=
  ⟨259, by simp [dns_key_copy]⟩

theorem dns_key_copy_eq (domain : DomainKey) :
    dns_key_copy domain = strncpy (fun _ => 0) domain.str (DOMAIN_MAX_LEN - 1) :=
  update_strncpy (by decide : 259 ≤ DOMAIN_MAX_LEN) _ _

theorem dns_key_copy_idem (domain : DomainKey) : dns_key_copy (dns_key_copy domain) = dns_key_copy domain := by
  rw [dns_key_copy_eq (dns_key_copy domain), dns_key_copy_eq domain]
  exact strncpy_str_strncpy_zero (by decide) _

/-- The stored key holds the domain cut to 259 bytes, whatever follows the
terminator in the packet's buffer. -/
theorem dns_key_copy_str (domain : DomainKey) : (dns_key_copy domain).str = domain.str.take 259 := by
  rw [dns_key_copy_eq, str_strncpy_zero (by decide), Slot.str, cut_cut]
  rfl

/-- A domain with zeroes behind its name is stored under its own bytes. -/
theorem dns_key_copy_ofStr {name : Str} (hbytes : ∀ b ∈ name, b ≠ 0) (hlen : name.length < DOMAIN_MAX_LEN) :
    dns_key_copy (Slot.ofStr name) = Slot.ofStr name := by
  rw [dns_key_copy_eq, (Slot.ofStr_short hbytes hlen).2, strncpy_eq_ofStr hbytes (Nat.le_sub_one_of_lt hlen)]

theorem dns_key_copy_str_of_terminated {domain : DomainKey} (h : domain.Terminated) :
    (dns_key_copy domain).str = domain.str := by
  rw [dns_key_copy_str, List.take_of_length_le (Nat.le_of_lt_succ h.length_str_lt)]

end grpc_server.dpdk_filter
