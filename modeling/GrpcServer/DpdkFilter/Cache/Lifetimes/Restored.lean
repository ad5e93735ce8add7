import GrpcServer.DpdkFilter.Cache.Lifetimes

open c_memory ttl_cache transition

namespace grpc_server.dpdk_filter

section Restored

variable {K : Type} [DecidableEq K]

/-- Every entry was saved, up to its categories and padding. -/
def FromSave (saved table : Table K NodeCache) : Prop :=
  Holds (fun key node => ∃ categories pad, saved.lookup key = some { node with categories, pad }) table

/-- Every saved entry has its row. -/
def RowsOf (text_of : K → Str) (db : Database) (saved : Table K NodeCache) : Prop :=
  Holds (fun key node => db.main_table.lookup (text_of key) = some (main_row node)) saved

/-- Every row has its saved entry. -/
def RowsSaved (text_of : K → Str) (db : Database) (saved : Table K NodeCache) : Prop :=
  ∀ text ∈ db.main_table, ∃ key ∈ saved, text_of key = text

omit [DecidableEq K] in
theorem rowsSaved_empty (text_of : K → Str) (saved : Table K NodeCache) : RowsSaved text_of Database.empty saved :=
  fun _ htext => absurd htext Finmap.notMem_empty

/-- A save of a table that still has every key of the save before it. -/
theorem RowsSaved.save {text_of : K → Str} {db : Database} {saved table : Table K NodeCache}
    {entries : List (Sigma fun _ : K => NodeCache)} (h : RowsSaved text_of db saved)
    (hentries : Enumerates entries table) (hkept : ∀ key ∈ saved, key ∈ table) :
    ∀ text ∈ save text_of main_row entries db.main_table, ∃ key ∈ table, text_of key = text := by
  intro text htext
  rcases mem_save htext with ⟨entry, hentry, rfl⟩ | hbefore
  · exact ⟨entry.1, Finmap.mem_of_lookup_eq_some (hentries.mem_iff.mp hentry), rfl⟩
  · obtain ⟨key, hkey, rfl⟩ := h text hbefore
    exact ⟨key, hkept key hkey, rfl⟩

/-- Loading restores saved entries only, if every row is the row of a saved entry and
gives back its key. -/
theorem RowsOf.load {text_of : K → Str} {db : Database} {saved : Table K NodeCache} {hz : UInt64} {env : LoadEnv K}
    {to_key : Str → Option K} {rows : List (Sigma fun _ : Str => MainRow)} (h : RowsOf text_of db saved)
    (hrows : Enumerates rows db.main_table)
    (hsaved : RowsSaved text_of db saved) (hkeys : ∀ key ∈ saved, to_key (text_of key) = some key) :
    FromSave saved (load_rows (create_node hz env db to_key) rows ∅) := by
  intro key node hloaded
  obtain ⟨text, row, hrow, -, hkey, rfl⟩ := lookup_load_rows hrows hloaded
  obtain ⟨source, hsource, rfl⟩ := hsaved text (Finmap.mem_of_lookup_eq_some hrow)
  obtain rfl : source = key := Option.some.inj ((hkeys source hsource).symm.trans hkey)
  obtain ⟨stored, hstored⟩ := Finmap.mem_iff.mp hsource
  have hmain := h source stored hstored
  obtain rfl : main_row stored = row := Option.some.inj (hmain.symm.trans hrow)
  refine ⟨stored.categories, stored.pad, ?_⟩
  rw [main_row_node]
  exact hstored

/-- The table has no entry under the key. -/
def Absent (key : K) (table : Table K NodeCache) : Prop := Holds (fun other _ => other ≠ key) table

theorem Absent.enoent {key : K} {table : Table K NodeCache} (h : Absent key table) (expired : NodeCache → Bool)
    (evict : Bool) : (lookup expired evict key table).1 = .enoent :=
  lookup_enoent evict fun value hvalue => absurd rfl (h key value hvalue)

theorem FromSave.holds {saved table : Table K NodeCache} (h : FromSave saved table) {P : K → Prop}
    (hsaved : Holds (fun key _ => P key) saved) : Holds (fun key _ => P key) table := by
  intro key node hnode
  obtain ⟨categories, pad, hfound⟩ := h key node hnode
  exact hsaved key _ hfound

end Restored

/-- A save finds in memory every key that the save before it wrote: what has been
cleared, evicted or lost by a start-up or a reboot since then has been added again.
At a start-up the bytes behind the IPv4 addresses are zero. -/
def Host.KeepsSaved (inet : Inet) (s : Host) : HostAction → Prop
  | .save_dns _ => ∀ key ∈ s.saved.dns_hash, key ∈ s.caches.dns_hash
  | .save_ip _ => ∀ key ∈ s.saved.ip_hash, key ∈ s.caches.ip_hash
  | .restart startup =>
    ∀ info_pac, ip_key info_pac ∈ s.saved.ip_hash → info_pac.ip_version = IP_4 →
      ∀ k : Fin IP6_LEN, 4 ≤ k.val → (startup.stack (ip_str inet info_pac)).addr k = 0
  | _ => True

/-- What the tables, the last saves and the databases have to do with each other. -/
structure Host.Restorable (inet : Inet) (s : Host) : Prop where
  dns_keys : Holds (fun key _ => dns_key_copy key = key) s.caches.dns_hash
  dns_saved_keys : Holds (fun key _ => dns_key_copy key = key) s.saved.dns_hash
  dns_rows : RowsOf Slot.str s.domain_db s.saved.dns_hash
  dns_rows_saved : RowsSaved (fun key => (snapshot_key key).str) s.domain_db s.saved.dns_hash
  ip_keys : PacketKeys s.caches.ip_hash
  ip_saved_keys : PacketKeys s.saved.ip_hash
  ip_rows : RowsOf (ip_text inet) s.ip_db s.saved.ip_hash
  ip_rows_saved : RowsSaved (ip_text inet) s.ip_db s.saved.ip_hash

variable {inet : Inet} {hz : UInt64} {s : Host}

theorem Host.Restorable.start (inet : Inet) : Host.start.Restorable inet :=
  ⟨holds_empty _, holds_empty _, holds_empty _, rowsSaved_empty _ _, holds_empty _, holds_empty _, holds_empty _,
    rowsSaved_empty _ _⟩

theorem Host.Restorable.load_dns (h : s.Restorable inet) {startup : Startup}
    (hpossible : s.Possible (.restart startup)) :
    FromSave s.saved.dns_hash (s.load inet hz startup).dns_hash := by
  have hcopy : ∀ key ∈ s.saved.dns_hash, dns_key_copy key = key := by
    intro key hkey
    obtain ⟨node, hnode⟩ := Finmap.mem_iff.mp hkey
    exact h.dns_saved_keys key node hnode
  refine h.dns_rows.load hpossible.1 ?_ fun key hkey => congrArg some (hcopy key hkey)
  intro text htext
  obtain ⟨key, hkey, rfl⟩ := h.dns_rows_saved text htext
  refine ⟨key, hkey, ?_⟩
  dsimp only
  rw [snapshot_key_eq, hcopy key hkey]

theorem Host.Restorable.load_ip (hinet : inet.Inverse) (h : s.Restorable inet) {startup : Startup}
    (hpossible : s.Possible (.restart startup)) (hkept : s.KeepsSaved inet (.restart startup)) :
    FromSave s.saved.ip_hash (s.load inet hz startup).ip_hash := by
  refine h.ip_rows.load hpossible.2 h.ip_rows_saved ?_
  intro key hkey
  obtain ⟨node, hnode⟩ := Finmap.mem_iff.mp hkey
  obtain ⟨info_pac, rfl⟩ := h.ip_saved_keys key node hnode
  rw [ip_text_ip_key]
  exact (ip_str_to_key_ip_key_iff hinet info_pac _).mpr (hkept info_pac hkey)

theorem Host.Restorable.step (hinet : inet.Inverse) (hz : UInt64) (h : s.Restorable inet) {a : HostAction}
    (hpossible : s.Possible a) (hkept : s.KeepsSaved inet a) : (host_step inet hz s a).Restorable inet := by
  cases a with
  | tick cycles => exact { h with }
  | add_dns env domain node ttl_dns => exact { h with dns_keys := h.dns_keys.add _ (dns_key_copy_idem domain) }
  | add_ip env info_pac node ttl_ip => exact { h with ip_keys := Holds.add h.ip_keys _ ⟨info_pac, rfl⟩ }
  | lookup_dns env domain => exact { h with dns_keys := h.dns_keys.lookup _ _ _ }
  | lookup_ip env key => exact { h with ip_keys := Holds.lookup h.ip_keys _ _ _ }
  | clear_dns => exact { h with dns_keys := holds_empty _ }
  | clear_ip => exact { h with ip_keys := holds_empty _ }
  | save_dns entries =>
    refine { h with dns_saved_keys := h.dns_keys, dns_rows := ?_, dns_rows_saved := ?_ }
    · intro key node hnode
      exact lookup_saved_domain s.domain_db h.dns_keys hpossible hnode
    · intro text htext
      rw [host_step, save_all_cache_to_sqlite_main_table] at htext
      exact h.dns_rows_saved.save hpossible hkept text htext
  | save_ip entries =>
    refine { h with ip_saved_keys := h.ip_keys, ip_rows := ?_, ip_rows_saved := ?_ }
    · intro key node hnode
      obtain ⟨info_pac, rfl⟩ := h.ip_keys key node hnode
      exact lookup_saved_ip hinet s.ip_db h.ip_keys hpossible hnode
    · intro text htext
      rw [host_step, save_all_cache_ip_to_sqlite_main_table] at htext
      exact h.ip_rows_saved.save hpossible hkept text htext
  | restart startup =>
    exact { h with
      dns_keys := (h.load_dns hpossible).holds h.dns_saved_keys
      ip_keys := (h.load_ip hinet hpossible hkept).holds h.ip_saved_keys }
  | reboot downtime => exact { h with dns_keys := holds_empty _, ip_keys := holds_empty _ }

def HostAction.Restarts : HostAction → Prop
  | .restart _ => True
  | _ => False

def HostAction.AddsDns (key : DomainKey) : HostAction → Prop
  | .add_dns _ domain _ _ => dns_key_copy domain = key
  | _ => False

def HostAction.AddsIp (key : IpKey) : HostAction → Prop
  | .add_ip _ info_pac _ _ => ip_key info_pac = key
  | _ => False

theorem absent_dns_step {key : DomainKey} {a : HostAction} (h : Absent key s.caches.dns_hash) (hadd : ¬ a.AddsDns key)
    (hrestart : ¬ a.Restarts) : Absent key (host_step inet hz s a).caches.dns_hash := by
  cases a with
  | add_dns env domain node ttl_dns => exact Holds.add h _ hadd
  | lookup_dns env domain => exact Holds.lookup h _ _ _
  | clear_dns => exact holds_empty _
  | reboot downtime => exact holds_empty _
  | restart startup => exact absurd trivial hrestart
  | tick | add_ip | lookup_ip | clear_ip | save_dns | save_ip => exact h

theorem absent_ip_step {key : IpKey} {a : HostAction} (h : Absent key s.caches.ip_hash) (hadd : ¬ a.AddsIp key)
    (hrestart : ¬ a.Restarts) : Absent key (host_step inet hz s a).caches.ip_hash := by
  cases a with
  | add_ip env info_pac node ttl_ip => exact Holds.add h _ hadd
  | lookup_ip env key => exact Holds.lookup h _ _ _
  | clear_ip => exact holds_empty _
  | reboot downtime => exact holds_empty _
  | restart startup => exact absurd trivial hrestart
  | tick | add_dns | lookup_dns | clear_dns | save_dns | save_ip => exact h

/-- A step leaves the record of the last save alone or is a save. -/
theorem saved_step (a : HostAction) :
    ((host_step inet hz s a).saved.dns_hash = s.saved.dns_hash ∨
      (host_step inet hz s a).saved.dns_hash = s.caches.dns_hash) ∧
    ((host_step inet hz s a).saved.ip_hash = s.saved.ip_hash ∨
      (host_step inet hz s a).saved.ip_hash = s.caches.ip_hash) := by
  cases a with
  | save_dns entries => exact ⟨.inr rfl, .inl rfl⟩
  | save_ip entries => exact ⟨.inl rfl, .inr rfl⟩
  | tick | add_dns | add_ip | lookup_dns | lookup_ip | clear_dns | clear_ip | restart | reboot =>
    exact ⟨.inl rfl, .inl rfl⟩

/-- The step can happen and keeps what was saved. -/
def Host.Clean (inet : Inet) (s : Host) (a : HostAction) : Prop := s.Possible a ∧ s.KeepsSaved inet a

theorem Host.Restorable.run (hinet : inet.Inverse) {final : Host} {acts : List HostAction} (h : s.Restorable inet)
    (hmeets : Meets (fun s a => some (host_step inet hz s a)) (Host.Clean inet) s acts)
    (hrun : host_run inet hz s acts = some final) : final.Restorable inet := by
  refine run_invariant (fun s => s.Restorable inet) ?_ h hmeets hrun
  rintro s a next hs hclean hnext
  cases hnext
  exact hs.step hinet hz hclean.1 hclean.2

section Cleared

variable {K : Type} [DecidableEq K]

/-- One of the two caches in memory and in its last save, with what a step can do to
it. -/
structure CacheSide (inet : Inet) (hz : UInt64) (K : Type) [DecidableEq K] where
  table : Host → Table K NodeCache
  saved : Host → Table K NodeCache
  Adds : K → HostAction → Prop
  absent_step : ∀ key s a, Absent key (table s) → ¬ Adds key a → ¬ a.Restarts →
    Absent key (table (host_step inet hz s a))
  saved_step : ∀ s a, saved (host_step inet hz s a) = saved s ∨ saved (host_step inet hz s a) = table s
  load : ∀ s startup, s.Restorable inet → s.Clean inet (.restart startup) →
    FromSave (saved s) (table (host_step inet hz s (.restart startup)))

def dns_side (inet : Inet) (hz : UInt64) : CacheSide inet hz DomainKey :=
  { table := fun s => s.caches.dns_hash
    saved := fun s => s.saved.dns_hash
    Adds := HostAction.AddsDns
    absent_step := fun _ _ _ => absent_dns_step
    saved_step := fun _ a => (dpdk_filter.saved_step a).1
    load := fun _ _ hs hclean => hs.load_dns hclean.1 }

def ip_side {inet : Inet} (hinet : inet.Inverse) (hz : UInt64) : CacheSide inet hz IpKey :=
  { table := fun s => s.caches.ip_hash
    saved := fun s => s.saved.ip_hash
    Adds := HostAction.AddsIp
    absent_step := fun _ _ _ => absent_ip_step
    saved_step := fun _ a => (dpdk_filter.saved_step a).2
    load := fun _ _ hs hclean => hs.load_ip hinet hclean.1 hclean.2 }

variable (side : CacheSide inet hz K) {key : K}

/-- An entry that is neither in memory nor in the last save stays away until it is
added again. -/
theorem CacheSide.absent_run (hinet : inet.Inverse) {final : Host} {acts : List HostAction} (hs : s.Restorable inet)
    (hgone : Absent key (side.table s)) (hgone_saved : Absent key (side.saved s))
    (hmeets : Meets (fun s a => some (host_step inet hz s a)) (Host.Clean inet) s acts)
    (hacts : ∀ a ∈ acts, ¬ side.Adds key a) (hrun : host_run inet hz s acts = some final) :
    Absent key (side.table final) := by
  refine (run_invariant (fun s => s.Restorable inet ∧ Absent key (side.table s) ∧ Absent key (side.saved s)) ?_
    ⟨hs, hgone, hgone_saved⟩ (hmeets.and_forall hacts) hrun).2.1
  rintro s a next ⟨hs, hgone, hgone_saved⟩ ⟨hclean, hadd⟩ hnext
  cases hnext
  refine ⟨hs.step hinet hz hclean.1 hclean.2, ?_, ?_⟩
  · by_cases hrestart : a.Restarts
    · cases a with
      | restart startup => exact (side.load s startup hs hclean).holds hgone_saved
      | _ => exact hrestart.elim
    · exact side.absent_step key s a hgone hadd hrestart
  · rcases side.saved_step s a with heq | heq
    · rwa [heq]
    · rwa [heq]

/-- What was cleared before a save stays away until it is added again. -/
theorem CacheSide.absent_cleared (hinet : inet.Inverse) {final : Host} {clear save : HostAction}
    {before middle after : List HostAction}
    (hmeets : Meets (fun s a => some (host_step inet hz s a)) (Host.Clean inet) Host.start
      (before ++ clear :: (middle ++ save :: after)))
    (hrun : host_run inet hz Host.start (before ++ clear :: (middle ++ save :: after)) = some final)
    (hadds : ∀ a ∈ middle ++ after, ¬ side.Adds key a) (hrestarts : ∀ a ∈ middle, ¬ a.Restarts)
    (hclear : ∀ s, Absent key (side.table (host_step inet hz s clear)))
    (hsave : ∀ s, side.table (host_step inet hz s save) = side.table s ∧
      side.saved (host_step inet hz s save) = side.table s) : Absent key (side.table final) := by
  obtain ⟨first, hfirst, hrun⟩ := run_append_eq_some.mp hrun
  have hs := (Host.Restorable.start inet).run hinet hmeets.of_append hfirst
  have hmeets := hmeets.of_run hfirst
  obtain ⟨cleared, hcleared, hrun⟩ := run_cons_eq_some.mp hrun
  cases hcleared
  have hs := hs.step hinet hz hmeets.1.1 hmeets.1.2
  have hmeets := hmeets.2 _ rfl
  obtain ⟨last, hlast, hrun⟩ := run_append_eq_some.mp hrun
  have hgone : Absent key (side.table last) := by
    refine run_invariant (fun s => Absent key (side.table s)) ?_ (hclear first)
      (hmeets.of_append.and_forall (P := fun a => ¬ side.Adds key a ∧ ¬ a.Restarts) ?_) hlast
    · rintro s a next hgone ⟨_, hadd, hrestart⟩ hnext
      cases hnext
      exact side.absent_step key s a hgone hadd hrestart
    · exact fun a ha => ⟨hadds a (List.mem_append_left _ ha), hrestarts a ha⟩
  have hs := hs.run hinet hmeets.of_append hlast
  have hmeets := hmeets.of_run hlast
  obtain ⟨next, hnext, hrun⟩ := run_cons_eq_some.mp hrun
  cases hnext
  obtain ⟨htable, hrecord⟩ := hsave last
  exact side.absent_run hinet (hs.step hinet hz hmeets.1.1 hmeets.1.2) (htable ▸ hgone) (hrecord ▸ hgone) (hmeets.2 _ rfl)
    (fun a ha => hadds a (List.mem_append_right _ ha)) hrun

end Cleared

/-- Start-up restores only what was in memory at the last completed save, in every
run in which each save still has what the one before it wrote: every loaded entry is
in that save, and an entry removed by a clear before a save is not served again until
it is computed again. -/
theorem restart_restores_last_save (inet : Inet) (hz : UInt64) (acts : List HostAction) (final : Host)
    (hinet : inet.Inverse) (hrun : host_run inet hz Host.start acts = some final)
    (hmeets : Meets (fun s a => some (host_step inet hz s a)) (Host.Clean inet) Host.start acts) :
    (∀ before startup after s, acts = before ++ .restart startup :: after →
      host_run inet hz Host.start before = some s →
      FromSave s.saved.dns_hash (host_step inet hz s (.restart startup)).caches.dns_hash ∧
      FromSave s.saved.ip_hash (host_step inet hz s (.restart startup)).caches.ip_hash) ∧
    (∀ before middle entries after key, acts = before ++ .clear_dns :: (middle ++ .save_dns entries :: after) →
      (∀ a ∈ middle ++ after, ¬ a.AddsDns key) → (∀ a ∈ middle, ¬ a.Restarts) →
      ∀ env, (lookup_dns_cache hz env key final.caches).1 = .enoent) ∧
    (∀ before middle entries after key, acts = before ++ .clear_ip :: (middle ++ .save_ip entries :: after) →
      (∀ a ∈ middle ++ after, ¬ a.AddsIp key) → (∀ a ∈ middle, ¬ a.Restarts) →
      ∀ env, (lookup_ip_cache hz env key final.caches).1 = .enoent) := by
  refine ⟨?_, ?_, ?_⟩
  · rintro before startup after s rfl hbefore
    have hs := (Host.Restorable.start inet).run hinet hmeets.of_append hbefore
    have hclean := (hmeets.of_run hbefore).1
    exact ⟨hs.load_dns hclean.1, hs.load_ip hinet hclean.1 hclean.2⟩
  · rintro before middle entries after key rfl hadds hrestarts env
    have hgone := (dns_side inet hz).absent_cleared hinet hmeets hrun hadds hrestarts (fun _ => holds_empty _)
      fun _ => ⟨rfl, rfl⟩
    exact hgone.enoent _ _
  · rintro before middle entries after key rfl hadds hrestarts env
    have hgone := (ip_side hinet hz).absent_cleared hinet hmeets hrun hadds hrestarts (fun _ => holds_empty _)
      fun _ => ⟨rfl, rfl⟩
    exact hgone.enoent _ _

/-- A policy update clears the saved verdict on `a`; after a further save and a
restart it is served again. -/
theorem cleared_verdict_restored :
    let acts := store_letter ++ [.clear_dns, .save_dns [], .restart letter_startup]
    ∃ final, host_run plain_inet 1 Host.start acts = some final ∧
      Meets (fun s a => some (host_step plain_inet 1 s a)) Host.Possible Host.start acts ∧
      final.saved.dns_hash = ∅ ∧
      ∃ categories pad, (lookup_dns_cache 1 (final.env ⟨0, true, true, 0, true⟩) letter_key final.caches).1 =
        .hit { letter_node with categories, pad } := by
  intro acts
  let cleared : Host := { letter_host with caches := Caches.empty, saved := Caches.empty }
  refine ⟨host_step plain_inet 1 cleared (.restart letter_startup), rfl, ?_, rfl, ?_⟩
  · refine (possible_store_letter plain_inet).append (run_store_letter plain_inet) ?_
    simp only [meets_total_cons]
    exact ⟨trivial, rfl, possible_letter_startup rfl rfl, trivial⟩
  · exact lookup_letter_restarted rfl (by decide) _

def second_key : DomainKey := dns_key_copy (Slot.ofStr [98])

/-- A verdict of 60 seconds, stored at second 10. -/
def second_node : NodeCache := (NodeCache.fresh false).stamped 10 60

def pair_entries : List (Sigma fun _ : DomainKey => NodeCache) :=
  [⟨second_key, second_node⟩, ⟨letter_key, letter_node⟩]

/-- After the save of `a` a verdict on `b` is stored, and both are saved. -/
def store_pair : List HostAction :=
  store_letter ++ [.tick 5, .add_dns ⟨0, true, true, 0, true⟩ (Slot.ofStr [98]) (NodeCache.fresh false) 60,
    .save_dns pair_entries]

def pair_startup : Startup :=
  { letter_startup with
    domain_rows := [⟨letter_key.str, main_row letter_node⟩, ⟨second_key.str, main_row second_node⟩] }

def pair_host : Host :=
  { letter_host with
    now := 10
    caches := ⟨∅, ((∅ : Table DomainKey NodeCache).insert letter_key letter_node).insert second_key second_node⟩
    domain_db := save_all_cache_to_sqlite pair_entries letter_db
    saved := ⟨∅, ((∅ : Table DomainKey NodeCache).insert letter_key letter_node).insert second_key second_node⟩
    dns_computed := [⟨second_key, second_node, 10⟩, ⟨letter_key, letter_node, 5⟩] }

theorem run_store_pair : host_run plain_inet 1 Host.start store_pair = some pair_host := rfl

theorem clean_store_pair :
    Meets (fun s a => some (host_step plain_inet 1 s a)) (Host.Clean plain_inet) Host.start store_pair := by
  simp only [store_pair, store_letter, List.cons_append, List.nil_append, meets_total_cons]
  refine ⟨⟨trivial, trivial⟩, ⟨trivial, trivial⟩, ⟨letter_entries_enumerates, fun key hkey => ?_⟩, ⟨trivial, trivial⟩,
    ⟨trivial, trivial⟩, ⟨rfl, fun key hkey => ?_⟩, trivial⟩
  · exact absurd hkey Finmap.notMem_empty
  · exact Finmap.mem_insert.mpr (.inr hkey)

theorem pair_rows_enumerates : Enumerates pair_startup.domain_rows pair_host.domain_db.main_table := by
  have hletter : letter_key.str = [97] := by
    rw [letter_key, dns_key_copy_str, (Slot.ofStr_short (by simp) (by decide)).2]
    rfl
  have hsecond : second_key.str = [98] := by
    rw [second_key, dns_key_copy_str, (Slot.ofStr_short (by simp) (by decide)).2]
    rfl
  have hsnapshot : snapshot_key second_key = second_key := (snapshot_key_eq second_key).trans (dns_key_copy_idem _)
  change Enumerates _ (save_all_cache_to_sqlite pair_entries letter_db).main_table
  rw [letter_db, save_all_cache_to_sqlite_main_table, save_all_cache_to_sqlite_main_table]
  simp only [save, pair_entries, letter_entries, List.foldl_cons, List.foldl_nil, snapshot_letter_key, hsnapshot,
    pair_startup, hletter, hsecond]
  rfl

/-- A restart after the second save restores both verdicts. -/
theorem restart_restores_pair :
    (host_step plain_inet 1 pair_host (.restart pair_startup)).caches.dns_hash.keys = {letter_key, second_key} ∧
    FromSave pair_host.saved.dns_hash
      (host_step plain_inet 1 pair_host (.restart pair_startup)).caches.dns_hash := by
  have hclean : pair_host.Clean plain_inet (.restart pair_startup) :=
    ⟨⟨pair_rows_enumerates, rfl⟩, fun info_pac hsaved => absurd hsaved Finmap.notMem_empty⟩
  have hrun : host_run plain_inet 1 Host.start (store_pair ++ [.restart pair_startup]) =
      some (host_step plain_inet 1 pair_host (.restart pair_startup)) := rfl
  refine ⟨by decide +kernel, ?_⟩
  exact ((restart_restores_last_save plain_inet 1 (store_pair ++ [.restart pair_startup]) _ plain_inet_inverse hrun
    (clean_store_pair.append run_store_pair (meets_total_cons.mpr ⟨hclean, trivial⟩))).1 store_pair pair_startup []
    pair_host rfl run_store_pair).1

end grpc_server.dpdk_filter
