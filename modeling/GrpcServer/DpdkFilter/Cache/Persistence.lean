import GrpcServer.DpdkFilter.Cache.Sqlite
import GrpcServer.DpdkFilter.Inet
import GrpcServer.DpdkFilter.ProcPackets.Counters

open c_memory ttl_cache

namespace grpc_server.dpdk_filter

section Domain

/-- A call of `add_to_dns_cache`. -/
structure DnsAddition where
  env : CacheEnv
  domain : DomainKey
  node : NodeCache
  ttl_dns : Int32

def build_dns_cache (adds : List DnsAddition) : Caches :=
  adds.foldl (fun caches a => add_to_dns_cache a.env a.domain a.node a.ttl_dns caches) Caches.empty

/-- `cache.db` after a sequence of saves. -/
def domain_saves (saves : List (List (Sigma fun _ : DomainKey => NodeCache))) : Database :=
  saves.foldl (fun db entries => save_all_cache_to_sqlite entries db) Database.empty

/-- The texts the saves use. -/
def DomainTexts (db : Database) : Prop := ∀ text ∈ db.main_table, ∃ key, text = (dns_key_copy key).str

theorem snapshot_key_eq (key : DomainKey) : snapshot_key key = dns_key_copy key :=
  (update_strncpy (Nat.le_refl 259) _ _).trans (dns_key_copy_eq key).symm

theorem dns_key_copy_of_str {domain other : DomainKey} (h : domain.str = other.str) :
    dns_key_copy domain = dns_key_copy other := by
  unfold dns_key_copy
  rw [h]

/-- The key made from a row's text is the stored key the text came from. -/
theorem loaded_dns_key_of_text (key : DomainKey) : loaded_dns_key (dns_key_copy key).str = dns_key_copy key :=
  dns_key_copy_idem key

theorem DomainTexts.save {db : Database} (h : DomainTexts db) (entries : List (Sigma fun _ : DomainKey => NodeCache)) :
    DomainTexts (save_all_cache_to_sqlite entries db) := by
  intro text htext
  rw [save_all_cache_to_sqlite_main_table] at htext
  rcases mem_save htext with ⟨entry, _, rfl⟩ | hbefore
  · exact ⟨entry.1, congrArg Slot.str (snapshot_key_eq entry.1)⟩
  · exact h text hbefore

theorem domainTexts_saves (saves : List (List (Sigma fun _ : DomainKey => NodeCache))) :
    DomainTexts (domain_saves saves) := by
  refine List.foldlRecOn saves _ ?_ fun db h entries _ => h.save entries
  intro text htext
  exact absurd htext Finmap.notMem_empty

/-- Stored keys are copies, so that they are zero behind the terminator. -/
theorem build_dns_cache_keys (adds : List DnsAddition) :
    Holds (fun key _ => dns_key_copy key = key) (build_dns_cache adds).dns_hash := by
  refine List.foldlRecOn (motive := fun caches : Caches => Holds (fun key _ => dns_key_copy key = key) caches.dns_hash)
    adds _ (holds_empty _) ?_
  intro caches h a _
  exact h.add _ (dns_key_copy_idem a.domain)

/-- Every cached domain has the row of its node after the save. -/
theorem lookup_saved_domain {table : Table DomainKey NodeCache}
    {entries : List (Sigma fun _ : DomainKey => NodeCache)} (db : Database)
    (hkeys : Holds (fun key _ => dns_key_copy key = key) table) (hentries : Enumerates entries table)
    {key : DomainKey} {node : NodeCache} (hcached : table.lookup key = some node) :
    (save_all_cache_to_sqlite entries db).main_table.lookup key.str = some (main_row node) := by
  have hcopy : ∀ key ∈ table, snapshot_key key = key := by
    intro key hmem
    obtain ⟨value, hvalue⟩ := Finmap.mem_iff.mp hmem
    exact (snapshot_key_eq key).trans (hkeys key value hvalue)
  rw [save_all_cache_to_sqlite_main_table, ← hcopy key (Finmap.mem_of_lookup_eq_some hcached)]
  refine hentries.lookup_save (fun key => (snapshot_key key).str) main_row ?_ hcached
  intro key hkey other hother htext
  have hsame : dns_key_copy (snapshot_key other) = dns_key_copy (snapshot_key key) := dns_key_copy_of_str htext
  rwa [hcopy other hother, hcopy key hkey, ← snapshot_key_eq, ← snapshot_key_eq, hcopy other hother,
    hcopy key hkey] at hsame

theorem DomainTexts.text_eq {db : Database} (h : DomainTexts db) (text : Str) (htext : text ∈ db.main_table)
    (key : DomainKey) (hkey : some (loaded_dns_key text) = some key) : key.str = text := by
  obtain ⟨source, hsource⟩ := h text htext
  rw [← Option.some.inj hkey, hsource, loaded_dns_key_of_text]

/-- Every cached domain is answered from the loaded cache with its verdict, timestamp
and TTL while it has not expired, and with `-ENOENT` once it has expired at the load
or at the lookup. -/
theorem domain_cache_round_trip (hz : UInt64) (adds : List DnsAddition)
    (saves : List (List (Sigma fun _ : DomainKey => NodeCache)))
    (entries : List (Sigma fun _ : DomainKey => NodeCache)) (rows : List (Sigma fun _ : Str => MainRow))
    (env : LoadEnv DomainKey) (lookup_env : CacheEnv) (ip_hash : Table IpKey NodeCache) (key : DomainKey)
    (node : NodeCache) (hentries : Enumerates entries (build_dns_cache adds).dns_hash)
    (hrows : Enumerates rows (save_all_cache_to_sqlite entries (domain_saves saves)).main_table)
    (hsize : rows.length ≤ CACHE_SIZE) (henv : env.Succeeds)
    (hcached : (build_dns_cache adds).dns_hash.lookup key = some node) :
    let db := save_all_cache_to_sqlite entries (domain_saves saves)
    let ret := (lookup_dns_cache hz lookup_env key ⟨ip_hash, load_cache_from_sqlite hz env db rows ∅⟩).1
    (node.expired hz env.now_cycles = false → node.expired hz lookup_env.lookup_cycles = false →
      ∃ categories pad, ret = .hit { node with categories, pad }) ∧
    (node.expired hz env.now_cycles = true ∨ node.expired hz lookup_env.lookup_cycles = true → ret = .enoent) := by
  intro db ret
  have hkeys := build_dns_cache_keys adds
  have hcopy : dns_key_copy key = key := hkeys key node hcached
  have hrow : db.main_table.lookup key.str = some (main_row node) :=
    lookup_saved_domain _ hkeys hentries hcached
  have hloaded : ∀ found, (load_cache_from_sqlite hz env db rows ∅).lookup key = some found ↔ _ :=
    lookup_load_saved_iff henv hrows hsize ((domainTexts_saves saves).save entries).text_eq hrow
  constructor
  · intro hload hlookup
    refine ⟨load_categories db key.str (env.node_memory key.str), env.node_pad key.str, ?_⟩
    have hfound := (hloaded _).mpr ⟨congrArg some hcopy, hload, rfl⟩
    exact congrArg Prod.fst (lookup_hit lookup_env.del_key_ok hfound hlookup)
  · intro hexpired
    apply lookup_enoent
    intro found hfound
    obtain ⟨_, hload, rfl⟩ := (hloaded found).mp hfound
    rcases hexpired with hexpired | hexpired
    · rw [hload] at hexpired
      cases hexpired
    · exact hexpired

/-- The stored key of the domain `a`. -/
def letter_key : DomainKey := dns_key_copy (Slot.ofStr [97])

/-- A verdict of 60 seconds, stored at second 5. -/
def letter_node : NodeCache := (NodeCache.fresh true).stamped 5 60

def letter_addition : DnsAddition := ⟨⟨0, true, true, 5, true⟩, Slot.ofStr [97], NodeCache.fresh true, 60⟩

def letter_entries : List (Sigma fun _ : DomainKey => NodeCache) := [⟨letter_key, letter_node⟩]

def letter_db : Database := save_all_cache_to_sqlite letter_entries Database.empty

def letter_rows : List (Sigma fun _ : Str => MainRow) := [⟨letter_key.str, main_row letter_node⟩]

theorem build_letter : (build_dns_cache [letter_addition]).dns_hash =
    (∅ : Table DomainKey NodeCache).insert letter_key letter_node := rfl

theorem snapshot_letter_key : snapshot_key letter_key = letter_key :=
  (snapshot_key_eq letter_key).trans (dns_key_copy_idem _)

theorem letter_entries_enumerates :
    Enumerates letter_entries ((∅ : Table DomainKey NodeCache).insert letter_key letter_node) := rfl

theorem single_row_enumerates (node : NodeCache) :
    Enumerates [⟨letter_key.str, main_row node⟩]
      (save_all_cache_to_sqlite [⟨letter_key, node⟩] Database.empty).main_table := by
  rw [save_all_cache_to_sqlite_main_table, save, List.foldl_cons, List.foldl_nil, snapshot_letter_key]
  rfl

theorem letter_rows_enumerates : Enumerates letter_rows letter_db.main_table := single_row_enumerates letter_node

/-- A machine whose calls succeed. -/
def loaded_at (now_cycles : UInt64) (K : Type) : LoadEnv K :=
  { now_cycles, node_alloc_ok := fun _ => true, node_memory := fun _ _ _ => 0, node_pad := fun _ _ => 0
    select_ok := fun _ => true, key_alloc_ok := fun _ => true, add_key_ok := fun _ _ => true }

theorem loaded_at_succeeds (now_cycles : UInt64) (K : Type) : (loaded_at now_cycles K).Succeeds :=
  ⟨fun _ => rfl, fun _ => rfl, fun _ => rfl, fun _ _ _ => rfl⟩

theorem lookup_letter_loaded (env : LoadEnv DomainKey) (henv : env.Succeeds)
    (hfresh : letter_node.expired 1 env.now_cycles = false) :
    ∃ categories pad, (load_cache_from_sqlite 1 env letter_db letter_rows ∅).lookup letter_key =
      some { letter_node with categories, pad } := by
  have hrow : letter_db.main_table.lookup letter_key.str = some (main_row letter_node) :=
    letter_rows_enumerates.mem_iff.mp List.mem_cons_self
  have htexts := ((domainTexts_saves []).save letter_entries).text_eq
  exact ⟨_, _, (lookup_load_saved_iff henv letter_rows_enumerates (by decide) htexts hrow _).mpr
    ⟨congrArg some (dns_key_copy_idem _), hfresh, rfl⟩⟩

/-- The verdict loaded at second 20 is found at second 30. -/
theorem domain_cache_round_trip_letter :
    ∃ categories pad, (lookup_dns_cache 1 ⟨30, true, true, 0, true⟩ letter_key
      ⟨∅, load_cache_from_sqlite 1 (loaded_at 20 DomainKey) letter_db letter_rows ∅⟩).1 =
        .hit { letter_node with categories, pad } := by
  have hcached : (build_dns_cache [letter_addition]).dns_hash.lookup letter_key = some letter_node := by
    rw [build_letter, Finmap.lookup_insert]
  exact (domain_cache_round_trip 1 [letter_addition] [] letter_entries letter_rows (loaded_at 20 DomainKey)
    ⟨30, true, true, 0, true⟩ ∅ letter_key letter_node letter_entries_enumerates letter_rows_enumerates (by decide)
    (loaded_at_succeeds _ _) hcached).1 (by decide) (by decide)

end Domain

section Ip

/-- `ip_cache.db` after a sequence of saves. -/
def ip_saves (inet : Inet) (saves : List (List (Sigma fun _ : IpKey => NodeCache))) : Database :=
  saves.foldl (fun db entries => save_all_cache_ip_to_sqlite inet entries db) Database.empty

/-- The texts the saves use. -/
def IpTexts (inet : Inet) (db : Database) : Prop := ∀ text ∈ db.main_table, ∃ key, text = ip_text inet key

variable {inet : Inet}

theorem IpKey.write_ip4_of_lt (key : IpKey) (ip4 : Ip4) (k : Fin 4) :
    key.write_ip4 ip4 ⟨k.val, k.isLt.trans (by decide)⟩ = ip4 k := dif_pos k.isLt

theorem ip_str_to_key_ntop4 (hinet : inet.Inverse) (ip4 : Ip4) (key : IpKey) :
    ip_str_to_key inet (inet.ntop4 ip4) key = some ⟨4, key.write_ip4 ip4⟩ := by
  rw [ip_str_to_key, hinet.pton4_ntop4]

theorem ip_str_to_key_ntop6 (hinet : inet.Inverse) (ip6 : Ip6) (key : IpKey) :
    ip_str_to_key inet (inet.ntop6 ip6) key = some ⟨6, ip6⟩ := by
  rw [ip_str_to_key, hinet.pton4_ntop6, hinet.pton6_ntop6]

theorem ip_text_version4 (inet : Inet) (addr : Ip6) :
    ip_text inet ⟨4, addr⟩ = inet.ntop4 (IpKey.ip4 ⟨4, addr⟩) := rfl

theorem ip_text_version6 (inet : Inet) (addr : Ip6) : ip_text inet ⟨6, addr⟩ = inet.ntop6 addr := rfl

theorem ip_text_ip_key (inet : Inet) (info_pac : InfoOfPakage) :
    ip_text inet (ip_key info_pac) = ip_str inet info_pac := by
  unfold ip_key ip_str
  split
  · rw [ip_text_version4]
    congr 1
    funext k
    exact bytesOf_apply info_pac.ip4_dist k
  · exact ip_text_version6 inet info_pac.ip6_dist

/-- Writing the address of a packet gives its key exactly when the bytes behind an
IPv4 address were zero. -/
theorem ip_str_to_key_ip_key_iff (hinet : inet.Inverse) (info_pac : InfoOfPakage) (key : IpKey) :
    ip_str_to_key inet (ip_str inet info_pac) key = some (ip_key info_pac) ↔
      (info_pac.ip_version = IP_4 → ∀ k : Fin IP6_LEN, 4 ≤ k.val → key.addr k = 0) := by
  unfold ip_str ip_key
  split
  · rename_i hversion
    rw [ip_str_to_key_ntop4 hinet, Option.some.injEq, IpKey.mk.injEq, funext_iff]
    simp only [hversion, true_and, forall_const]
    refine forall_congr' fun k => ?_
    unfold IpKey.write_ip4 bytesOf
    by_cases hk : k.val < 4
    · simp [hk]
    · simp [hk, Nat.le_of_not_lt hk]
  · rename_i hversion
    simp [ip_str_to_key_ntop6 hinet, hversion]

theorem IpTexts.save {db : Database} (h : IpTexts inet db) (entries : List (Sigma fun _ : IpKey => NodeCache)) :
    IpTexts inet (save_all_cache_ip_to_sqlite inet entries db) := by
  intro text htext
  rw [save_all_cache_ip_to_sqlite_main_table] at htext
  rcases mem_save htext with ⟨entry, _, rfl⟩ | hbefore
  · exact ⟨entry.1, rfl⟩
  · exact h text hbefore

theorem ipTexts_saves (inet : Inet) (saves : List (List (Sigma fun _ : IpKey => NodeCache))) :
    IpTexts inet (ip_saves inet saves) := by
  refine List.foldlRecOn saves _ ?_ fun db h entries _ => h.save entries
  intro text htext
  exact absurd htext Finmap.notMem_empty

/-- Reading the text of a key keeps the address, whatever the bytes behind it. -/
theorem ip_text_of_ip_str_to_key (hinet : inet.Inverse) {source stack key : IpKey}
    (hkey : ip_str_to_key inet (ip_text inet source) stack = some key) : ip_text inet key = ip_text inet source := by
  by_cases hversion : source.version = 4
  · have htext4 : ip_text inet source = inet.ntop4 source.ip4 := if_pos hversion
    rw [htext4, ip_str_to_key_ntop4 hinet] at hkey
    cases hkey
    rw [ip_text_version4, htext4]
    congr 1
    funext k
    exact IpKey.write_ip4_of_lt _ _ k
  · have htext6 : ip_text inet source = inet.ntop6 source.addr := if_neg hversion
    rw [htext6, ip_str_to_key_ntop6 hinet] at hkey
    cases hkey
    rw [ip_text_version6, htext6]

theorem IpTexts.text_eq (hinet : inet.Inverse) {stack : Str → IpKey} {db : Database} (h : IpTexts inet db)
    (text : Str) (htext : text ∈ db.main_table) (key : IpKey)
    (hkey : ip_str_to_key inet text (stack text) = some key) : ip_text inet key = text := by
  obtain ⟨source, rfl⟩ := h text htext
  exact ip_text_of_ip_str_to_key hinet hkey

/-- The keys `pakage_processing` uses. -/
def PacketKeys (table : Table IpKey NodeCache) : Prop := Holds (fun key _ => ∃ info_pac, key = ip_key info_pac) table

theorem process_round_packetKeys (sys : System) (hz : UInt64) (w : World Caches) (r : Round)
    (h : PacketKeys w.caches.ip_hash) : PacketKeys (process_round sys (rteCaches hz) w r).caches.ip_hash := by
  unfold process_round
  split
  · exact h
  by_cases hdomain : (sys.parse r.pkt).domain 0 = 0
  · rw [process_packet_of_ip hdomain]
    apply process_with_keeps (fun caches : Caches => PacketKeys caches.ip_hash)
    · exact h
    · exact Holds.lookup h _ _ _
    · exact fun _ _ _ => Holds.add (Holds.lookup h _ _ _) _ ⟨_, rfl⟩
  · rw [process_packet_of_domain hdomain]
    apply process_with_keeps (fun caches : Caches => PacketKeys caches.ip_hash)
    · exact h
    · exact h
    · exact fun _ _ _ => h

theorem process_run_packetKeys (sys : System) (hz : UInt64) (bursts : List Burst) (wire : Wire) :
    PacketKeys (process_run sys (rteCaches hz) bursts ⟨wire, Caches.empty⟩).caches.ip_hash := by
  rw [process_run_rounds]
  exact List.foldlRecOn (motive := fun w : World Caches => PacketKeys w.caches.ip_hash) _ _ (holds_empty _)
    fun w h r _ => process_round_packetKeys sys hz w r h

theorem lookup_saved_ip (hinet : inet.Inverse) {table : Table IpKey NodeCache}
    {entries : List (Sigma fun _ : IpKey => NodeCache)} (db : Database) (hkeys : PacketKeys table)
    (hentries : Enumerates entries table) {info_pac : InfoOfPakage} {node : NodeCache}
    (hcached : table.lookup (ip_key info_pac) = some node) :
    (save_all_cache_ip_to_sqlite inet entries db).main_table.lookup (ip_text inet (ip_key info_pac)) =
      some (main_row node) := by
  -- a zeroed key takes every address of a packet, so that the text determines it
  have hparsed : ∀ info_pac : InfoOfPakage,
      ip_str_to_key inet (ip_text inet (ip_key info_pac)) ⟨0, fun _ => 0⟩ = some (ip_key info_pac) := by
    intro info_pac
    rw [ip_text_ip_key]
    exact (ip_str_to_key_ip_key_iff hinet info_pac _).mpr fun _ _ _ => rfl
  rw [save_all_cache_ip_to_sqlite_main_table]
  refine hentries.lookup_save (ip_text inet) main_row ?_ hcached
  intro key hkey other hother htext
  obtain ⟨value, hvalue⟩ := Finmap.mem_iff.mp hkey
  obtain ⟨found, hfound⟩ := Finmap.mem_iff.mp hother
  obtain ⟨first, rfl⟩ := hkeys key value hvalue
  obtain ⟨second, rfl⟩ := hkeys other found hfound
  have hsame := (hparsed second).symm
  rw [htext, hparsed first] at hsame
  exact Option.some.inj hsame

/-- Every cached address that has not expired is answered with its verdict if and only
if the bytes behind the address in the variable `key` were zero for every such IPv4
address. -/
theorem ip_cache_round_trip_iff (sys : System) (hz : UInt64) (bursts : List Burst) (wire : Wire)
    (saves : List (List (Sigma fun _ : IpKey => NodeCache))) (entries : List (Sigma fun _ : IpKey => NodeCache))
    (rows : List (Sigma fun _ : Str => MainRow)) (env : LoadEnv IpKey) (stack : Str → IpKey) (lookup_env : CacheEnv)
    (dns_hash : Table DomainKey NodeCache) (hinet : sys.inet.Inverse)
    (hentries : Enumerates entries (process_run sys (rteCaches hz) bursts ⟨wire, Caches.empty⟩).caches.ip_hash)
    (hrows : Enumerates rows (save_all_cache_ip_to_sqlite sys.inet entries (ip_saves sys.inet saves)).main_table)
    (hsize : rows.length ≤ CACHE_SIZE) (henv : env.Succeeds) :
    let ip_hash := (process_run sys (rteCaches hz) bursts ⟨wire, Caches.empty⟩).caches.ip_hash
    let db := save_all_cache_ip_to_sqlite sys.inet entries (ip_saves sys.inet saves)
    let loaded := load_cache_ip_from_sqlite sys.inet hz env stack db rows ∅
    let due : InfoOfPakage → NodeCache → Prop := fun info_pac node =>
      ip_hash.lookup (ip_key info_pac) = some node ∧ node.expired hz env.now_cycles = false ∧
        node.expired hz lookup_env.lookup_cycles = false
    (∀ info_pac node, due info_pac node →
      ∃ found, (lookup_ip_cache hz lookup_env (ip_key info_pac) ⟨loaded, dns_hash⟩).1 = .hit found ∧
        found.solution_is_send = node.solution_is_send) ↔
    ∀ info_pac node, due info_pac node → info_pac.ip_version = IP_4 →
      ∀ k : Fin IP6_LEN, 4 ≤ k.val → (stack (ip_str sys.inet info_pac)).addr k = 0 := by
  intro ip_hash db loaded due
  have hloaded : ∀ info_pac node, ip_hash.lookup (ip_key info_pac) = some node → ∀ found,
      loaded.lookup (ip_key info_pac) = some found ↔ _ := fun info_pac node hcached =>
    lookup_load_saved_iff henv hrows hsize (((ipTexts_saves sys.inet saves).save entries).text_eq hinet)
      (lookup_saved_ip hinet _ (process_run_packetKeys sys hz bursts wire) hentries hcached)
  simp only [ip_text_ip_key, ip_str_to_key_ip_key_iff hinet] at hloaded
  refine forall_congr' fun info_pac => forall_congr' fun node => forall_congr' fun hdue => ?_
  obtain ⟨hcached, hload, hlookup⟩ := hdue
  constructor
  · rintro ⟨found, hhit, _⟩
    rw [lookup_ip_cache_fst] at hhit
    exact ((hloaded info_pac node hcached _).mp (lookup_eq_hit hhit).1).1
  · intro hzero
    have hfound := (hloaded info_pac node hcached _).mpr ⟨hzero, hload, rfl⟩
    exact ⟨_, congrArg Prod.fst (lookup_hit lookup_env.del_key_ok hfound hlookup), rfl⟩

/-- A UDP packet from 10.0.0.1 to port 443 of 10.0.0.2. -/
def quic_packet : RteMbuf :=
  let bytes : Str := [2, 0, 0, 0, 0, 1, 2, 0, 0, 0, 0, 2, 8, 0] ++
    ipv4_header 8 (ipv4_cksum fun k => (ipv4_header 8 ⟨0, 0⟩).getD k 0) ++ [200, 0, 1, 187, 0, 8, 0, 0]
  { id := 0, data := fun k => bytes.getD k 0, data_len := 42 }

/-- The packet is let through at second 5 and its verdict kept for a week. -/
def quic_burst : Burst :=
  { policy := { BasePolicy.zero with ttl_ip := IP_CACHE_DEFAULT_TTL }
    filtring_is_turned_off := false
    pkts := [(quic_packet, ⟨⟨5, true, true, 5, true⟩, fun _ _ => none, true, true⟩)] }

def quic_node : NodeCache := (NodeCache.fresh true).stamped 5 IP_CACHE_DEFAULT_TTL

def quic_info : InfoOfPakage := parsing_pakage udp4_net quic_packet

def quic_ip_hash : Table IpKey NodeCache :=
  (process_run (filter_system udp4_net plain_inet) (rteCaches 1) [quic_burst] ⟨Wire.start, Caches.empty⟩).caches.ip_hash

def quic_entries : List (Sigma fun _ : IpKey => NodeCache) := [⟨ip_key quic_info, quic_node⟩]

def quic_db : Database := save_all_cache_ip_to_sqlite plain_inet quic_entries Database.empty

def quic_rows : List (Sigma fun _ : Str => MainRow) := [⟨ip_text plain_inet (ip_key quic_info), main_row quic_node⟩]

theorem quic_ip_hash_eq : quic_ip_hash = (∅ : Table IpKey NodeCache).insert (ip_key quic_info) quic_node := rfl

theorem lookup_quic_ip_hash : quic_ip_hash.lookup (ip_key quic_info) = some quic_node := by
  rw [quic_ip_hash_eq, Finmap.lookup_insert]

theorem quic_entries_enumerates : Enumerates quic_entries quic_ip_hash := rfl

theorem quic_rows_enumerates : Enumerates quic_rows quic_db.main_table := by
  rw [quic_db, save_all_cache_ip_to_sqlite_main_table]
  rfl

/-- The cached verdict is saved, loaded under a key with garbage behind the
address, and not found. -/
theorem ip_cache_round_trip_lost :
    let loaded := load_cache_ip_from_sqlite plain_inet 1 (loaded_at 20 IpKey) (fun _ => ⟨0, fun _ => 255⟩) quic_db
      quic_rows ∅
    quic_ip_hash.lookup (ip_key quic_info) = some quic_node ∧ quic_node.expired 1 20 = false ∧
      quic_node.expired 1 30 = false ∧
      (lookup_ip_cache 1 ⟨30, true, true, 0, true⟩ (ip_key quic_info) ⟨loaded, ∅⟩).1 = .enoent := by
  intro loaded
  refine ⟨lookup_quic_ip_hash, by decide, by decide, ?_⟩
  rw [lookup_ip_cache_fst]
  apply lookup_enoent
  intro found hfound
  have hrow : quic_db.main_table.lookup (ip_text plain_inet (ip_key quic_info)) = some (main_row quic_node) :=
    quic_rows_enumerates.mem_iff.mp List.mem_cons_self
  have hparsed := ((lookup_load_saved_iff (loaded_at_succeeds 20 IpKey) quic_rows_enumerates (by decide)
    (((ipTexts_saves plain_inet []).save quic_entries).text_eq plain_inet_inverse) hrow found).mp hfound).1
  rw [ip_text_ip_key] at hparsed
  have hclean := (ip_str_to_key_ip_key_iff plain_inet_inverse quic_info _).mp hparsed rfl 4 le_rfl
  exact absurd hclean (by decide)

/-- With a clean stack it is found. -/
theorem ip_cache_round_trip_clean :
    let loaded := load_cache_ip_from_sqlite plain_inet 1 (loaded_at 20 IpKey) (fun _ => ⟨0, fun _ => 0⟩) quic_db
      quic_rows ∅
    ∃ found, (lookup_ip_cache 1 ⟨30, true, true, 0, true⟩ (ip_key quic_info) ⟨loaded, ∅⟩).1 = .hit found ∧
      found.solution_is_send = true :=
  (ip_cache_round_trip_iff (filter_system udp4_net plain_inet) 1 [quic_burst] Wire.start [] quic_entries quic_rows
    (loaded_at 20 IpKey) (fun _ => ⟨0, fun _ => 0⟩) ⟨30, true, true, 0, true⟩ ∅ plain_inet_inverse
    quic_entries_enumerates quic_rows_enumerates (by decide) (loaded_at_succeeds 20 IpKey)).mpr
    (fun _ _ _ _ _ _ => rfl) quic_info quic_node ⟨lookup_quic_ip_hash, by decide, by decide⟩

end Ip

end grpc_server.dpdk_filter
