import GrpcServer.DpdkFilter.Cache.Persistence
import GrpcServer.Transition

open c_memory ttl_cache transition

namespace grpc_server.dpdk_filter

/-- A verdict handed to a cache, with the real time. -/
structure Computed (K : Type) where
  key : K
  node : NodeCache
  time : ℕ

/-- The two caches of a host over several lifetimes of the worker. Real time is
counted in cycles of the timer. `saved` and the lists of computed verdicts only
record what has happened: the tables at the last completed save of each, and
every verdict handed to a cache. -/
structure Host where
  now : ℕ
  boot : ℕ
  caches : Caches
  domain_db : Database
  ip_db : Database
  saved : Caches
  dns_computed : List (Computed DomainKey)
  ip_computed : List (Computed IpKey)

def Host.start : Host :=
  { now := 0, boot := 0, caches := Caches.empty, domain_db := Database.empty, ip_db := Database.empty
    saved := Caches.empty, dns_computed := [], ip_computed := [] }

/-- `rte_get_timer_cycles`, which starts from zero at every boot. -/
def Host.cycles (s : Host) : UInt64 := UInt64.ofNat (s.now - s.boot)

def Host.env (s : Host) (env : CacheEnv) : CacheEnv := { env with lookup_cycles := s.cycles, add_cycles := s.cycles }

def Host.load_env {K : Type} (s : Host) (env : LoadEnv K) : LoadEnv K := { env with now_cycles := s.cycles }

/-- What the worker gets from its surroundings when it starts. -/
structure Startup where
  domain_env : LoadEnv DomainKey
  domain_rows : List (Sigma fun _ : Str => MainRow)
  ip_env : LoadEnv IpKey
  ip_rows : List (Sigma fun _ : Str => MainRow)
  stack : Str → IpKey

inductive HostAction where
  | tick (cycles : ℕ)
  | add_dns (env : CacheEnv) (domain : DomainKey) (node : NodeCache) (ttl_dns : Int32)
  | add_ip (env : CacheEnv) (info_pac : InfoOfPakage) (node : NodeCache) (ttl_ip : Int32)
  | lookup_dns (env : CacheEnv) (domain : DomainKey)
  | lookup_ip (env : CacheEnv) (key : IpKey)
  | clear_dns
  | clear_ip
  | save_dns (entries : List (Sigma fun _ : DomainKey => NodeCache))
  | save_ip (entries : List (Sigma fun _ : IpKey => NodeCache))
  | restart (startup : Startup)
  | reboot (downtime : ℕ)

section Step

variable (inet : Inet) (hz : UInt64)

/-- The tables `init_ip_cache` and `init_dns_cache` fill. -/
def Host.load (s : Host) (startup : Startup) : Caches :=
  { ip_hash := load_cache_ip_from_sqlite inet hz (s.load_env startup.ip_env) startup.stack s.ip_db startup.ip_rows ∅
    dns_hash := load_cache_from_sqlite hz (s.load_env startup.domain_env) s.domain_db startup.domain_rows ∅ }

def host_step (s : Host) : HostAction → Host
  | .tick cycles => { s with now := s.now + cycles }
  | .add_dns env domain node ttl_dns =>
    { s with
      caches := add_to_dns_cache (s.env env) domain node ttl_dns s.caches
      dns_computed := ⟨dns_key_copy domain, node.stamped s.cycles ttl_dns, s.now⟩ :: s.dns_computed }
  | .add_ip env info_pac node ttl_ip =>
    { s with
      caches := add_to_ip_cache (s.env env) (ip_key info_pac) node ttl_ip s.caches
      ip_computed := ⟨ip_key info_pac, node.stamped s.cycles ttl_ip, s.now⟩ :: s.ip_computed }
  | .lookup_dns env domain => { s with caches := (lookup_dns_cache hz (s.env env) domain s.caches).2 }
  | .lookup_ip env key => { s with caches := (lookup_ip_cache hz (s.env env) key s.caches).2 }
  | .clear_dns => { s with caches := clear_dns_cache s.caches }
  | .clear_ip => { s with caches := clear_ip_cache s.caches }
  | .save_dns entries =>
    { s with
      domain_db := save_all_cache_to_sqlite entries s.domain_db
      saved := { s.saved with dns_hash := s.caches.dns_hash } }
  | .save_ip entries =>
    { s with
      ip_db := save_all_cache_ip_to_sqlite inet entries s.ip_db
      saved := { s.saved with ip_hash := s.caches.ip_hash } }
  | .restart startup => { s with caches := s.load inet hz startup }
  | .reboot downtime =>
    -- the counter starts again, and the worker has lost its memory
    { s with now := s.now + downtime + 1, boot := s.now + downtime + 1, caches := Caches.empty }

abbrev host_run : Host → List HostAction → Option Host := run fun s a => some (host_step inet hz s a)

end Step

/-- The orders in which tables and rows are read name every entry once. -/
def Host.Possible (s : Host) : HostAction → Prop
  | .save_dns entries => Enumerates entries s.caches.dns_hash
  | .save_ip entries => Enumerates entries s.caches.ip_hash
  | .restart startup =>
    Enumerates startup.domain_rows s.domain_db.main_table ∧ Enumerates startup.ip_rows s.ip_db.main_table
  | _ => True

/-- The worker stores its verdict on `a` and saves it. -/
def store_letter : List HostAction :=
  [.tick 5, .add_dns ⟨0, true, true, 0, true⟩ (Slot.ofStr [97]) (NodeCache.fresh true) 60, .save_dns letter_entries]

def letter_startup : Startup :=
  { domain_env := loaded_at 0 DomainKey, domain_rows := letter_rows, ip_env := loaded_at 0 IpKey, ip_rows := []
    stack := fun _ => ⟨0, fun _ => 0⟩ }

def letter_host : Host :=
  { Host.start with
    now := 5
    caches := ⟨∅, (∅ : Table DomainKey NodeCache).insert letter_key letter_node⟩
    domain_db := letter_db
    saved := ⟨∅, (∅ : Table DomainKey NodeCache).insert letter_key letter_node⟩
    dns_computed := [⟨letter_key, letter_node, 5⟩] }

theorem run_store_letter (inet : Inet) : host_run inet 1 Host.start store_letter = some letter_host := rfl

theorem possible_store_letter (inet : Inet) :
    Meets (fun s a => some (host_step inet 1 s a)) Host.Possible Host.start store_letter := by
  simp only [store_letter, meets_total_cons]
  exact ⟨trivial, trivial, letter_entries_enumerates, trivial⟩

/-- A start-up that finds the row of `a` unexpired serves it. -/
theorem lookup_letter_restarted {inet : Inet} {s : Host} (hdomain : s.domain_db = letter_db)
    (hfresh : letter_node.expired 1 s.cycles = false) (env : CacheEnv) :
    ∃ categories pad, (lookup_dns_cache 1 ((host_step inet 1 s (.restart letter_startup)).env env) letter_key
      (host_step inet 1 s (.restart letter_startup)).caches).1 = .hit { letter_node with categories, pad } := by
  have hsucceeds : (s.load_env letter_startup.domain_env).Succeeds :=
    ⟨fun _ => rfl, fun _ => rfl, fun _ => rfl, fun _ _ _ => rfl⟩
  obtain ⟨categories, pad, hloaded⟩ := lookup_letter_loaded _ hsucceeds hfresh
  refine ⟨categories, pad, ?_⟩
  rw [← hdomain] at hloaded
  exact congrArg Prod.fst (lookup_hit env.del_key_ok hloaded hfresh)

theorem possible_letter_startup {s : Host} (hdomain : s.domain_db = letter_db) (hip : s.ip_db = Database.empty) :
    s.Possible (.restart letter_startup) := by
  rw [Host.Possible, hdomain, hip]
  exact ⟨letter_rows_enumerates, rfl⟩

end grpc_server.dpdk_filter
