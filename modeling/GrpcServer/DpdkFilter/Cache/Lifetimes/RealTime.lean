import GrpcServer.DpdkFilter.Cache.Lifetimes

open c_memory ttl_cache transition

namespace grpc_server.dpdk_filter

section Computed

variable {K : Type}

/-- The verdict is not from the future, and its timestamp counts from the current
boot unless it is older. -/
def Computed.Timed (boot now : ℕ) (c : Computed K) : Prop :=
  c.time ≤ now ∧ (boot ≤ c.time → c.node.timestamp = UInt64.ofNat (c.time - boot))

theorem Computed.Timed.later {boot now later : ℕ} {c : Computed K} (h : c.Timed boot now) (hle : now ≤ later) :
    c.Timed boot later := ⟨h.1.trans hle, h.2⟩

/-- After a reboot all verdicts are older than the boot. -/
theorem Computed.Timed.reboot {boot now later : ℕ} {c : Computed K} (h : c.Timed boot now) (hlt : now < later) :
    c.Timed later later :=
  ⟨h.1.trans hlt.le, fun hle => absurd (h.1.trans_lt hlt) (Nat.not_lt.mpr hle)⟩

/-- The node is a verdict computed since the boot, up to its categories and padding. -/
def SinceBoot (boot : ℕ) (computed : List (Computed K)) (Same : K → Prop) (node : NodeCache) : Prop :=
  ∃ c ∈ computed, Same c.key ∧ node = { c.node with categories := node.categories, pad := node.pad } ∧ boot ≤ c.time

theorem SinceBoot.cons {boot : ℕ} {computed : List (Computed K)} {Same : K → Prop} {node : NodeCache}
    (h : SinceBoot boot computed Same node) (c : Computed K) : SinceBoot boot (c :: computed) Same node := by
  obtain ⟨found, hfound, hrest⟩ := h
  exact ⟨found, List.mem_cons_of_mem c hfound, hrest⟩

/-- While the counter has not wrapped, an entry that passes the check is younger
than its TTL. -/
theorem age_lt_ttl {boot now : ℕ} {c : Computed K} {hz : UInt64} {node : NodeCache} (hhz : 0 < hz)
    (huptime : now - boot < 2 ^ 64) (htimed : c.Timed boot now) (hboot : boot ≤ c.time)
    (hnode : node = { c.node with categories := node.categories, pad := node.pad })
    (hfresh : node.expired hz (UInt64.ofNat (now - boot)) = false) :
    now - c.time < node.ttl_seconds.toNat * hz.toNat := by
  have hstamp : node.timestamp = UInt64.ofNat (c.time - boot) := by
    rw [hnode]
    exact htimed.2 hboot
  have hage : (UInt64.ofNat (now - boot) - node.timestamp).toNat = now - c.time := by
    have htime := htimed.1
    have hnow : (UInt64.ofNat (now - boot)).toNat = now - boot := UInt64.toNat_ofNat_of_lt' huptime
    have hthen : (UInt64.ofNat (c.time - boot)).toNat = c.time - boot :=
      UInt64.toNat_ofNat_of_lt' ((Nat.sub_le_sub_right htime boot).trans_lt huptime)
    rw [hstamp, UInt64.toNat_sub_of_le, hnow, hthen]
    · omega
    · rw [UInt64.le_iff_toNat_le, hnow, hthen]
      omega
  rw [NodeCache.expired, decide_eq_false_iff_not, UInt64.not_le, UInt64.lt_iff_toNat_lt, UInt64.toNat_div, hage,
    UInt32.toNat_toUInt64] at hfresh
  exact (Nat.div_lt_iff_lt_mul (UInt64.lt_iff_toNat_lt.mp hhz)).mp hfresh

end Computed

/-- Every row that passes the check at start-up was stamped since the last boot. -/
def Host.StampedSinceBoot (inet : Inet) (hz : UInt64) (s : Host) : HostAction → Prop
  | .restart _ =>
    (∀ text row, s.domain_db.main_table.lookup text = some row → row.expired hz s.cycles = false →
      ∃ c ∈ s.dns_computed, c.key.str = text ∧ main_row c.node = row ∧ s.boot ≤ c.time) ∧
    (∀ text row, s.ip_db.main_table.lookup text = some row → row.expired hz s.cycles = false →
      ∃ c ∈ s.ip_computed, ip_text inet c.key = text ∧ main_row c.node = row ∧ s.boot ≤ c.time)
  | _ => True

/-- Every entry in memory was computed since the last boot. -/
structure Host.InTime (inet : Inet) (s : Host) : Prop where
  boot_le : s.boot ≤ s.now
  dns_timed : ∀ c ∈ s.dns_computed, c.Timed s.boot s.now ∧ dns_key_copy c.key = c.key
  ip_timed : ∀ c ∈ s.ip_computed, c.Timed s.boot s.now
  dns : Holds (fun key => SinceBoot s.boot s.dns_computed (· = key)) s.caches.dns_hash
  ip : Holds (fun key => SinceBoot s.boot s.ip_computed (ip_text inet · = ip_text inet key)) s.caches.ip_hash

variable {inet : Inet} {hz : UInt64} {s : Host}

theorem Host.InTime.start (inet : Inet) : Host.start.InTime inet :=
  ⟨le_rfl, fun _ h => absurd h List.not_mem_nil, fun _ h => absurd h List.not_mem_nil, holds_empty _, holds_empty _⟩

/-- What a stamp says when it is made. -/
theorem computed_now_timed {K : Type} (key : K) (node : NodeCache) (ttl : Int32) (s : Host) :
    (⟨key, node.stamped s.cycles ttl, s.now⟩ : Computed K).Timed s.boot s.now := ⟨le_rfl, fun _ => rfl⟩

theorem Host.InTime.load_dns (h : s.InTime inet) {startup : Startup} (hpossible : s.Possible (.restart startup))
    (hrows : s.StampedSinceBoot inet hz (.restart startup)) :
    Holds (fun key => SinceBoot s.boot s.dns_computed (· = key)) (s.load inet hz startup).dns_hash := by
  intro key node hloaded
  obtain ⟨text, row, hrow, hfresh, hkey, rfl⟩ := lookup_load_rows hpossible.1 hloaded
  obtain ⟨c, hc, rfl, rfl, hboot⟩ := hrows.1 text row hrow hfresh
  refine ⟨c, hc, ?_, main_row_node _ _ _, hboot⟩
  exact ((h.dns_timed c hc).2.symm).trans (Option.some.inj hkey)

theorem Host.InTime.load_ip (hinet : inet.Inverse) {startup : Startup} (hpossible : s.Possible (.restart startup))
    (hrows : s.StampedSinceBoot inet hz (.restart startup)) :
    Holds (fun key => SinceBoot s.boot s.ip_computed (ip_text inet · = ip_text inet key))
      (s.load inet hz startup).ip_hash := by
  intro key node hloaded
  obtain ⟨text, row, hrow, hfresh, hkey, rfl⟩ := lookup_load_rows hpossible.2 hloaded
  obtain ⟨c, hc, rfl, rfl, hboot⟩ := hrows.2 text row hrow hfresh
  exact ⟨c, hc, (ip_text_of_ip_str_to_key hinet hkey).symm, main_row_node _ _ _, hboot⟩

theorem Host.InTime.step (hinet : inet.Inverse) (h : s.InTime inet) {a : HostAction} (hpossible : s.Possible a)
    (hrows : s.StampedSinceBoot inet hz a) : (host_step inet hz s a).InTime inet := by
  obtain ⟨hle, hdns_timed, hip_timed, hdns, hip⟩ := h
  cases a with
  | tick cycles =>
    have hlater : s.now ≤ s.now + cycles := Nat.le_add_right _ _
    exact ⟨hle.trans hlater, fun c hc => ⟨(hdns_timed c hc).1.later hlater, (hdns_timed c hc).2⟩,
      fun c hc => (hip_timed c hc).later hlater, hdns, hip⟩
  | add_dns env domain node ttl_dns =>
    refine ⟨hle, ?_, hip_timed, ?_, hip⟩
    · intro c hc
      rcases List.mem_cons.mp hc with rfl | hc
      · exact ⟨computed_now_timed _ _ _ s, dns_key_copy_idem domain⟩
      · exact hdns_timed c hc
    · exact (hdns.mono fun _ _ h => h.cons _).add _ ⟨_, List.mem_cons_self, rfl, rfl, hle⟩
  | add_ip env info_pac node ttl_ip =>
    refine ⟨hle, hdns_timed, ?_, hdns, ?_⟩
    · intro c hc
      rcases List.mem_cons.mp hc with rfl | hc
      · exact computed_now_timed _ _ _ s
      · exact hip_timed c hc
    · exact (hip.mono fun _ _ h => h.cons _).add _ ⟨_, List.mem_cons_self, rfl, rfl, hle⟩
  | lookup_dns env domain => exact ⟨hle, hdns_timed, hip_timed, hdns.lookup _ _ _, hip⟩
  | lookup_ip env key => exact ⟨hle, hdns_timed, hip_timed, hdns, hip.lookup _ _ _⟩
  | clear_dns => exact ⟨hle, hdns_timed, hip_timed, holds_empty _, hip⟩
  | clear_ip => exact ⟨hle, hdns_timed, hip_timed, hdns, holds_empty _⟩
  | save_dns entries => exact ⟨hle, hdns_timed, hip_timed, hdns, hip⟩
  | save_ip entries => exact ⟨hle, hdns_timed, hip_timed, hdns, hip⟩
  | restart startup =>
    have hs : s.InTime inet := ⟨hle, hdns_timed, hip_timed, hdns, hip⟩
    exact ⟨hle, hdns_timed, hip_timed, hs.load_dns hpossible hrows, load_ip hinet hpossible hrows⟩
  | reboot downtime =>
    have hlt : s.now < s.now + downtime + 1 := by omega
    exact ⟨le_rfl, fun c hc => ⟨(hdns_timed c hc).1.reboot hlt, (hdns_timed c hc).2⟩,
      fun c hc => (hip_timed c hc).reboot hlt, holds_empty _, holds_empty _⟩

/-- The TTL holds in real time, in every run whose start-ups find no row of an earlier
boot that still passes the check, while the counter has not wrapped: a verdict is
served only until `ttl_seconds` after it was computed. -/
theorem ttl_holds_in_real_time (inet : Inet) (hz : UInt64) (acts : List HostAction) (final : Host)
    (hinet : inet.Inverse) (hhz : 0 < hz) (hrun : host_run inet hz Host.start acts = some final)
    (hmeets : Meets (fun s a => some (host_step inet hz s a))
      (fun s a => s.Possible a ∧ s.StampedSinceBoot inet hz a) Host.start acts)
    (huptime : final.now - final.boot < 2 ^ 64) :
    (∀ env key node, (lookup_dns_cache hz (final.env env) key final.caches).1 = .hit node →
      ∃ c ∈ final.dns_computed, c.key = key ∧ node = { c.node with categories := node.categories, pad := node.pad } ∧
        c.time ≤ final.now ∧ final.now - c.time < node.ttl_seconds.toNat * hz.toNat) ∧
    (∀ env key node, (lookup_ip_cache hz (final.env env) key final.caches).1 = .hit node →
      ∃ c ∈ final.ip_computed, ip_text inet c.key = ip_text inet key ∧
        node = { c.node with categories := node.categories, pad := node.pad } ∧
        c.time ≤ final.now ∧ final.now - c.time < node.ttl_seconds.toNat * hz.toNat) := by
  have htime : final.InTime inet := by
    refine run_invariant (fun s => s.InTime inet) ?_ (Host.InTime.start inet) hmeets hrun
    rintro s a next hs ⟨hpossible, hrows⟩ hnext
    cases hnext
    exact hs.step hinet hpossible hrows
  constructor
  · intro env key node hhit
    obtain ⟨hfound, hfresh⟩ := lookup_eq_hit hhit
    obtain ⟨c, hc, hkey, hnode, hboot⟩ := htime.dns key node hfound
    have htimed := (htime.dns_timed c hc).1
    exact ⟨c, hc, hkey, hnode, htimed.1, age_lt_ttl hhz huptime htimed hboot hnode hfresh⟩
  · intro env key node hhit
    obtain ⟨hfound, hfresh⟩ := lookup_eq_hit hhit
    obtain ⟨c, hc, hkey, hnode, hboot⟩ := htime.ip key node hfound
    have htimed := htime.ip_timed c hc
    exact ⟨c, hc, hkey, hnode, htimed.1, age_lt_ttl hhz huptime htimed hboot hnode hfresh⟩

/-- The verdict of 60 seconds is served 1011 seconds after it was computed: the
counter of the second boot is at 10, not far from the 5 of the first. -/
theorem expired_verdict_served :
    let acts := store_letter ++ [.tick 1000, .reboot 0, .tick 10, .restart letter_startup]
    ∃ final, host_run plain_inet 1 Host.start acts = some final ∧
      Meets (fun s a => some (host_step plain_inet 1 s a)) Host.Possible Host.start acts ∧
      (∃ categories pad, (lookup_dns_cache 1 (final.env ⟨0, true, true, 0, true⟩) letter_key final.caches).1 =
        .hit { letter_node with categories, pad }) ∧
      ∀ c ∈ final.dns_computed, letter_node.ttl_seconds.toNat < final.now - c.time := by
  intro acts
  let rebooted : Host := { letter_host with now := 1016, boot := 1006, caches := Caches.empty }
  refine ⟨host_step plain_inet 1 rebooted (.restart letter_startup), rfl, ?_, ?_, ?_⟩
  · refine (possible_store_letter plain_inet).append (run_store_letter plain_inet) ?_
    simp only [meets_total_cons]
    exact ⟨trivial, trivial, trivial, possible_letter_startup rfl rfl, trivial⟩
  · exact lookup_letter_restarted rfl (by decide) _
  · intro c hc
    cases List.mem_singleton.mp hc
    decide

/-- After a restart without a reboot it is served in time. -/
theorem ttl_holds_for_letter :
    let final := host_step plain_inet 1 letter_host (.restart letter_startup)
    ∃ node, (lookup_dns_cache 1 (final.env ⟨0, true, true, 0, true⟩) letter_key final.caches).1 = .hit node ∧
      ∃ c ∈ final.dns_computed, c.key = letter_key ∧ final.now - c.time < node.ttl_seconds.toNat * 1 := by
  intro final
  obtain ⟨categories, pad, hhit⟩ : ∃ categories pad,
      (lookup_dns_cache 1 (final.env ⟨0, true, true, 0, true⟩) letter_key final.caches).1 =
        .hit { letter_node with categories, pad } := lookup_letter_restarted rfl (by decide) _
  have hrun : host_run plain_inet 1 Host.start (store_letter ++ [.restart letter_startup]) = some final := rfl
  have hmeets : Meets (fun s a => some (host_step plain_inet 1 s a))
      (fun s a => s.Possible a ∧ s.StampedSinceBoot plain_inet 1 a) Host.start
      (store_letter ++ [.restart letter_startup]) := by
    have hstored : Meets (fun s a => some (host_step plain_inet 1 s a))
        (fun s a => s.Possible a ∧ s.StampedSinceBoot plain_inet 1 a) Host.start store_letter := by
      simp only [store_letter, meets_total_cons]
      exact ⟨⟨trivial, trivial⟩, ⟨trivial, trivial⟩, ⟨letter_entries_enumerates, trivial⟩, trivial⟩
    refine hstored.append (run_store_letter plain_inet)
      (meets_total_cons.mpr ⟨⟨possible_letter_startup rfl rfl, ?_, ?_⟩, trivial⟩)
    · intro text row hrow _
      have hmem : ⟨text, row⟩ ∈ letter_rows := letter_rows_enumerates.mem_iff.mpr hrow
      cases List.mem_singleton.mp hmem
      exact ⟨⟨letter_key, letter_node, 5⟩, List.mem_singleton_self _, rfl, rfl, Nat.zero_le _⟩
    · intro text row hrow _
      exact absurd hrow (by simp [letter_host, Host.start, Database.empty])
  obtain ⟨c, hc, hkey, _, _, hage⟩ := (ttl_holds_in_real_time plain_inet 1 _ final plain_inet_inverse (by decide) hrun
    hmeets (by decide)).1 _ _ _ hhit
  exact ⟨_, hhit, c, hc, hkey, hage⟩

end grpc_server.dpdk_filter
