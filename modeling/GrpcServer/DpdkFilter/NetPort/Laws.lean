import GrpcServer.DeviceTable
import GrpcServer.DpdkFilter.NetPort

open c_memory device_table

namespace grpc_server.dpdk_filter

variable {σ D : Type}

/-- What is assumed of DPDK, in terms of the devices it has. A call for a number or a
name changes no device of another number or name, a device keeps its name while it is
there, and what a call reports is so. -/
structure EthDev.Lawful (dpdk : EthDev σ) (table : σ → Table UInt16 Str D) (name : D → Str) (started : D → Bool) :
    Prop where
  /-- `RTE_MAX_ETHPORTS` is less. -/
  unnumbered : ∀ s, (table s).dev (-1) = none
  get_name : ∀ p s, dpdk.rte_eth_dev_get_name_by_port p s = ((table s).dev p).map name
  vdev_init_fails : ∀ n args s, (dpdk.rte_vdev_init n args s).1 < 0 → table (dpdk.rte_vdev_init n args s).2 = table s
  vdev_init_succeeds : ∀ n args s, ¬ (dpdk.rte_vdev_init n args s).1 < 0 →
    ∃ p, CreatesAt name p n (table s) (table (dpdk.rte_vdev_init n args s).2)
  vdev_uninit : ∀ n s, RemovesNamed name n (table s) (table (dpdk.rte_vdev_uninit n s).2)
  vdev_uninit_fails : ∀ n s, (dpdk.rte_vdev_uninit n s).1 ≠ 0 →
    (table (dpdk.rte_vdev_uninit n s).2).names = (table s).names
  vdev_uninit_succeeds : ∀ n s, (dpdk.rte_vdev_uninit n s).1 = 0 →
    (table (dpdk.rte_vdev_uninit n s).2).names = (table s).names \ {n} ∧
    ∀ p, ((table s).dev p).map name = some n → (table (dpdk.rte_vdev_uninit n s).2).dev p = none
  configure : ∀ p s, KeepsAt name p (table s) (table (dpdk.rte_eth_dev_configure p s).2)
  rx_queue_setup : ∀ p s, KeepsAt name p (table s) (table (dpdk.rte_eth_rx_queue_setup p s).2)
  tx_queue_setup : ∀ p s, KeepsAt name p (table s) (table (dpdk.rte_eth_tx_queue_setup p s).2)
  dev_start : ∀ p s, KeepsAt name p (table s) (table (dpdk.rte_eth_dev_start p s).2)
  dev_start_succeeds : ∀ p s d, ¬ (dpdk.rte_eth_dev_start p s).1 < 0 →
    (table (dpdk.rte_eth_dev_start p s).2).dev p = some d → started d = true
  promiscuous_enable : ∀ p s, KeepsAt name p (table s) (table (dpdk.rte_eth_promiscuous_enable p s).2)
  promiscuous_started : ∀ p s d next, (table s).dev p = some d →
    (table (dpdk.rte_eth_promiscuous_enable p s).2).dev p = some next → started next = started d
  dev_stop : ∀ p s, KeepsAt name p (table s) (table (dpdk.rte_eth_dev_stop p s).2)
  dev_stop_invalid : ∀ p s, (table s).dev p = none → (dpdk.rte_eth_dev_stop p s).1 ≠ 0
  dev_close : ∀ p s, ChangesAt name p (table s) (table (dpdk.rte_eth_dev_close p s).2)
  dev_close_succeeds : ∀ p s, (dpdk.rte_eth_dev_close p s).1 = 0 →
    (table (dpdk.rte_eth_dev_close p s).2).dev p = none

/-- No call fails that takes a device or a name back. -/
structure EthDev.Tidy (dpdk : EthDev σ) (table : σ → Table UInt16 Str D) : Prop where
  vdev_uninit : ∀ n s, n ∈ (table s).names → (dpdk.rte_vdev_uninit n s).1 = 0
  dev_stop : ∀ p s, (table s).dev p ≠ none → (dpdk.rte_eth_dev_stop p s).1 = 0
  dev_close : ∀ p s, (table s).dev p ≠ none → (dpdk.rte_eth_dev_close p s).1 = 0

/-- No call fails that sets a device up. Of the numbers below `limit`, the lowest that is
free is taken, and every device counts: `rte_eth_dev_count_avail` leaves out those that
have an owner, so none has. -/
structure EthDev.Willing (dpdk : EthDev σ) (table : σ → Table UInt16 Str D) (name : D → Str) (limit : UInt16) :
    Prop where
  vdev_init : ∀ n args s p, Unused name n (table s) → p < limit → (table s).dev p = none →
    ¬ (dpdk.rte_vdev_init n args s).1 < 0
  lowest : ∀ n args s p, CreatesAt name p n (table s) (table (dpdk.rte_vdev_init n args s).2) →
    ∀ q, q < p → (table s).dev q ≠ none
  counted : ∀ s p, (∀ q, q ≤ p → (table s).dev q ≠ none) → p < dpdk.rte_eth_dev_count_avail s
  info_get : ∀ p s, (table s).dev p ≠ none → dpdk.rte_eth_dev_info_get p s = 0
  is_valid_port : ∀ p s, (table s).dev p ≠ none → dpdk.rte_eth_dev_is_valid_port p s = true
  configure : ∀ p s, (table s).dev p ≠ none → ¬ (dpdk.rte_eth_dev_configure p s).1 < 0
  rx_queue_setup : ∀ p s, (table s).dev p ≠ none → ¬ (dpdk.rte_eth_rx_queue_setup p s).1 < 0
  tx_queue_setup : ∀ p s, (table s).dev p ≠ none → ¬ (dpdk.rte_eth_tx_queue_setup p s).1 < 0
  macaddr_get : ∀ p s, (table s).dev p ≠ none → ¬ (dpdk.rte_eth_macaddr_get p s).1 < 0
  dev_start : ∀ p s, (table s).dev p ≠ none → ¬ (dpdk.rte_eth_dev_start p s).1 < 0
  promiscuous_enable : ∀ p s, (table s).dev p ≠ none → (dpdk.rte_eth_promiscuous_enable p s).1 = 0

section Specifications

variable {dpdk : EthDev σ} {table : σ → Table UInt16 Str D} {name : D → Str} {started : D → Bool}
  (hlaws : dpdk.Lawful table name started) {s : σ} {port : NamedPort} {dev_name : Str}

include hlaws

theorem find_port_in_ok {numbers : List UInt16} {port_id : UInt16}
    (h : find_port_in dpdk dev_name s numbers = .ok port_id) :
    ∃ d, (table s).dev port_id = some d ∧ name d = dev_name := by
  induction numbers with
  | nil => cases h
  | cons first rest ih =>
    unfold find_port_in at h
    split at h
    · cases h
    · split at h
      · rename_i hname
        cases h
        rw [hlaws.get_name] at hname
        exact Option.map_eq_some_iff.mp hname
      · exact ih h

/-- Setting a device up changes nothing but this device. -/
theorem keepsAt_try_setup (p : UInt16) (s : σ) :
    KeepsAt name p (table s) (table (try_calls (setup_calls dpdk p) s).2) := by
  have hcalls : ∀ calls : List (σ → ℤ × σ), (∀ call ∈ calls, ∀ s, KeepsAt name p (table s) (table (call s).2)) →
      ∀ s, KeepsAt name p (table s) (table (try_calls calls s).2) := by
    intro calls hcall
    induction calls with
    | nil => exact fun s => KeepsAt.refl _
    | cons call rest ih =>
      intro s
      obtain ⟨hfirst, hrest⟩ := List.forall_mem_cons.mp hcall
      unfold try_calls
      split
      rename_i ret next hnext
      have hkeeps := hfirst s
      rw [hnext] at hkeeps
      split
      · exact hkeeps
      · exact hkeeps.trans (ih hrest next)
  apply hcalls
  intro call hcall
  simp only [setup_calls, List.mem_cons, List.not_mem_nil, or_false] at hcall
  rcases hcall with rfl | rfl | rfl
  · exact hlaws.configure p
  · exact hlaws.rx_queue_setup p
  · exact hlaws.tx_queue_setup p

/-- What `net_port_init` does: nothing, or it creates a device, which it keeps if it
returns 0 and tries to remove otherwise. The port may have its number in either
case. -/
theorem net_port_init_cases {ret : ℤ} {after : NamedPort} {next : σ}
    (h : net_port_init dpdk port s = (ret, after, next)) :
    after.dev_name = port.dev_name ∧ ((ret ≠ 0 ∧ table next = table s ∧ after = port) ∨
      ∃ p mid, CreatesAt name p port.dev_name (table s) (table mid) ∧
        ((ret = 0 ∧ next = mid ∧ after.port_id = p) ∨
          (ret ≠ 0 ∧ next = (dpdk.rte_vdev_uninit port.dev_name mid).2 ∧
            (after.port_id = port.port_id ∨ after.port_id = p)))) := by
  unfold net_port_init at h
  split at h
  rename_i ret₀ created hvdev
  split at h
  · rename_i hfails
    have hsame := hlaws.vdev_init_fails port.dev_name port.dev_args s
    rw [hvdev] at hsame
    cases h
    exact ⟨rfl, .inl ⟨by omega, hsame hfails, rfl⟩⟩
  · rename_i hok
    have hcreates := hlaws.vdev_init_succeeds port.dev_name port.dev_args s
    rw [hvdev] at hcreates
    obtain ⟨p, hcreate⟩ := hcreates hok
    split at h
    · cases h
      exact ⟨rfl, .inr ⟨p, created, hcreate, .inr ⟨by decide, rfl, .inl rfl⟩⟩⟩
    · rename_i port_id hfound
      obtain ⟨d, hd, hname⟩ := find_port_in_ok hlaws hfound
      obtain rfl : port_id = p := hcreate.eq_of_name hd hname
      simp only at h
      split at h
      · cases h
        exact ⟨rfl, .inr ⟨port_id, created, hcreate, .inr ⟨by decide, rfl, .inr rfl⟩⟩⟩
      · have hready := hcreate.keepsAt (keepsAt_try_setup hlaws port_id created)
        split at h
        · cases h
          exact ⟨rfl, .inr ⟨port_id, _, hready, .inr ⟨by omega, rfl, .inr rfl⟩⟩⟩
        · split at h
          · cases h
            exact ⟨rfl, .inr ⟨port_id, _, hready, .inr ⟨by omega, rfl, .inr rfl⟩⟩⟩
          · cases h
            exact ⟨rfl, .inr ⟨port_id, _, hready, .inl ⟨rfl, rfl, rfl⟩⟩⟩

/-- Starting a device changes nothing else, and reports what is so. -/
theorem net_port_start_spec {p : UInt16} {ret : ℤ} {next : σ} (h : net_port_start dpdk p s = (ret, next)) :
    KeepsAt name p (table s) (table next) ∧
      (ret = 0 → ∀ d, (table next).dev p = some d → started d = true) := by
  unfold net_port_start at h
  split at h
  rename_i ret₀ mid hstart
  have hkeeps := hlaws.dev_start p s
  have hstarted := hlaws.dev_start_succeeds p s
  rw [hstart] at hkeeps hstarted
  split at h
  · cases h
    exact ⟨hkeeps, fun hzero => by omega⟩
  · rename_i hok
    have hpromiscuous := hlaws.promiscuous_enable p mid
    have hsame := hlaws.promiscuous_started p mid
    rw [h] at hpromiscuous hsame
    refine ⟨hkeeps.trans hpromiscuous, ?_⟩
    intro _ d hd
    obtain ⟨before, hbefore, _⟩ : ∃ before, (table mid).dev p = some before ∧ name before = name d := by
      have hmap := hpromiscuous.at_p
      rw [hd, Option.map_some] at hmap
      exact Option.map_eq_some_iff.mp hmap.symm
    rw [hsame before d hbefore hd]
    exact hstarted before hok hbefore

/-- What `net_port_close` does: it stops the device of the port's number, closes it
and removes the port's name, up to the first call that fails. -/
theorem net_port_close_cases {after : NamedPort} {next : σ} (h : net_port_close dpdk port s = (after, next)) :
    ∃ stopped, KeepsAt name port.port_id (table s) (table stopped) ∧
      ((after = port ∧ next = stopped ∧ (dpdk.Tidy table → (table s).dev port.port_id = none)) ∨
        (table s).dev port.port_id ≠ none ∧ ∃ closed, ChangesAt name port.port_id (table stopped) (table closed) ∧
          ((after = port ∧ next = closed ∧ ¬ dpdk.Tidy table) ∨
            (table closed).dev port.port_id = none ∧ RemovesNamed name port.dev_name (table closed) (table next) ∧
              ((after = port ∧ (table next).names = (table closed).names ∧
                  (dpdk.Tidy table → port.dev_name ∉ (table closed).names)) ∨
                (after = { port with port_id := -1 } ∧ (table next).names = (table closed).names \ {port.dev_name} ∧
                  ∀ p, ((table closed).dev p).map name = some port.dev_name → (table next).dev p = none)))) := by
  unfold net_port_close at h
  split at h
  rename_i ret stopped hstop
  have hkeeps := hlaws.dev_stop port.port_id s
  have hinvalid := hlaws.dev_stop_invalid port.port_id s
  have hstops : dpdk.Tidy table → (table s).dev port.port_id ≠ none → ret = 0 := by
    intro ht hdev
    rw [← ht.dev_stop port.port_id s hdev, hstop]
  rw [hstop] at hkeeps hinvalid
  refine ⟨stopped, hkeeps, ?_⟩
  split at h
  · rename_i hret
    cases h
    exact .inl ⟨rfl, rfl, fun ht => by_contra fun hdev => hret (hstops ht hdev)⟩
  · rename_i hret
    have hdev : (table s).dev port.port_id ≠ none := fun hnone => hinvalid hnone (not_ne_iff.mp hret)
    have hstill := hkeeps.ne_none hdev
    split at h
    rename_i ret closed hclose
    have hchange := hlaws.dev_close port.port_id stopped
    have hgone := hlaws.dev_close_succeeds port.port_id stopped
    have hcloses : dpdk.Tidy table → ret = 0 := by
      intro ht
      rw [← ht.dev_close port.port_id stopped hstill, hclose]
    rw [hclose] at hchange hgone
    refine .inr ⟨hdev, closed, hchange, ?_⟩
    split at h
    · rename_i hret
      cases h
      exact .inl ⟨rfl, rfl, fun ht => hret (hcloses ht)⟩
    · rename_i hret
      split at h
      rename_i ret removed huninit
      have hremoves := hlaws.vdev_uninit port.dev_name closed
      have hfails := hlaws.vdev_uninit_fails port.dev_name closed
      have hsucceeds := hlaws.vdev_uninit_succeeds port.dev_name closed
      have hunits : dpdk.Tidy table → port.dev_name ∈ (table closed).names → ret = 0 := by
        intro ht hmem
        rw [← ht.vdev_uninit port.dev_name closed hmem, huninit]
      rw [huninit] at hremoves hfails hsucceeds
      refine .inr ⟨hgone (not_ne_iff.mp hret), ?_⟩
      split at h
      · rename_i hret
        cases h
        exact ⟨hremoves, .inl ⟨rfl, hfails hret, fun ht hmem => hret (hunits ht hmem)⟩⟩
      · rename_i hret
        cases h
        exact ⟨hremoves, .inr ⟨rfl, hsucceeds (not_ne_iff.mp hret)⟩⟩

end Specifications

section Success

variable {dpdk : EthDev σ} {table : σ → Table UInt16 Str D} {name : D → Str} {started : D → Bool} {limit : UInt16}
  (hlaws : dpdk.Lawful table name started) (hwilling : dpdk.Willing table name limit) {s : σ} {dev_name : Str}

include hlaws hwilling

/-- The search passes over the devices with other names. -/
theorem find_port_in_eq {front back : List UInt16} {p : UInt16}
    (hfront : ∀ q ∈ front, ∃ d, (table s).dev q = some d ∧ name d ≠ dev_name)
    (hp : ∃ d, (table s).dev p = some d ∧ name d = dev_name) :
    find_port_in dpdk dev_name s (front ++ p :: back) = .ok p := by
  have hinfo : ∀ q d, (table s).dev q = some d → dpdk.rte_eth_dev_info_get q s = 0 := by
    intro q d hd
    apply hwilling.info_get
    rw [hd]
    exact Option.some_ne_none d
  induction front with
  | nil =>
    obtain ⟨d, hd, hname⟩ := hp
    rw [List.nil_append, find_port_in, hinfo p d hd, if_neg (not_not_intro rfl), hlaws.get_name, hd, Option.map_some,
      hname, if_pos rfl]
  | cons q front ih =>
    obtain ⟨⟨d, hd, hname⟩, hrest⟩ := List.forall_mem_cons.mp hfront
    rw [List.cons_append, find_port_in, hinfo q d hd, if_neg (not_not_intro rfl), hlaws.get_name, hd, Option.map_some,
      if_neg fun heq => hname (Option.some.inj heq)]
    exact ih hrest

/-- A device that has just been created is found. -/
theorem find_port_of_created {p : UInt16} {args : Str}
    (hcreate : CreatesAt name p dev_name (table s) (table (dpdk.rte_vdev_init dev_name args s).2)) :
    find_port_by_dev_name dpdk dev_name (dpdk.rte_vdev_init dev_name args s).2 = .ok p := by
  have htaken : ∀ q, q ≤ p → (table (dpdk.rte_vdev_init dev_name args s).2).dev q ≠ none := by
    intro q hq
    by_cases hsame : q = p
    · rw [hsame]
      exact hcreate.ne_none
    · rw [hcreate.other q hsame]
      exact hwilling.lowest _ _ _ _ hcreate q (UInt16.lt_of_le_of_ne hq hsame)
  have hcount := UInt16.lt_iff_toNat_lt.mp (hwilling.counted _ p htaken)
  obtain ⟨more, hmore⟩ := Nat.exists_eq_add_of_lt hcount
  have hrange : (List.range (dpdk.rte_eth_dev_count_avail (dpdk.rte_vdev_init dev_name args s).2).toNat).map
      UInt16.ofNat = (List.range p.toNat).map UInt16.ofNat ++ p ::
        ((List.range more).map fun k => UInt16.ofNat (p.toNat + (k + 1))) := by
    rw [hmore, Nat.add_assoc, List.range_add, List.map_append, List.range_succ_eq_map]
    simp [Function.comp_def]
  rw [find_port_by_dev_name, hrange]
  apply find_port_in_eq hlaws hwilling _ hcreate.at_p
  intro q hq
  obtain ⟨k, hk, rfl⟩ := List.mem_map.mp hq
  have hlt : UInt16.ofNat k < p := by
    rw [UInt16.lt_iff_toNat_lt, UInt16.toNat_ofNat_of_lt']
    · exact List.mem_range.mp hk
    · exact (List.mem_range.mp hk).trans p.toNat_lt
  obtain ⟨d, hd⟩ := Option.ne_none_iff_exists'.mp (htaken _ (UInt16.le_of_lt hlt))
  refine ⟨d, hd, ?_⟩
  intro hname
  rw [hcreate.eq_of_name hd hname] at hlt
  exact UInt16.lt_irrefl p hlt

/-- Setting up a device that exists succeeds. -/
theorem try_setup_succeeds {p : UInt16} (hp : (table s).dev p ≠ none) :
    ¬ (try_calls (setup_calls dpdk p) s).1 < 0 := by
  have hcalls : ∀ calls : List (σ → ℤ × σ), (∀ call ∈ calls, ∀ s, KeepsAt name p (table s) (table (call s).2) ∧
      ((table s).dev p ≠ none → ¬ (call s).1 < 0)) →
      ∀ s, (table s).dev p ≠ none → ¬ (try_calls calls s).1 < 0 := by
    intro calls hcall
    induction calls with
    | nil => exact fun s _ => (by decide : ¬ (0 : ℤ) < 0)
    | cons call rest ih =>
      intro s hdev
      obtain ⟨hfirst, hrest⟩ := List.forall_mem_cons.mp hcall
      obtain ⟨hkeeps, hok⟩ := hfirst s
      simp only [try_calls, if_neg (hok hdev)]
      exact ih hrest _ (hkeeps.ne_none hdev)
  refine hcalls _ ?_ s hp
  intro call hcall s
  simp only [setup_calls, List.mem_cons, List.not_mem_nil, or_false] at hcall
  rcases hcall with rfl | rfl | rfl
  · exact ⟨hlaws.configure p s, hwilling.configure p s⟩
  · exact ⟨hlaws.rx_queue_setup p s, hwilling.rx_queue_setup p s⟩
  · exact ⟨hlaws.tx_queue_setup p s, hwilling.tx_queue_setup p s⟩

/-- If the name is not used and a number is free, `net_port_init` succeeds. -/
theorem net_port_init_succeeds {port : NamedPort} (hunused : Unused name port.dev_name (table s)) {free : UInt16}
    (hlimit : free < limit) (hfree : (table s).dev free = none) : (net_port_init dpdk port s).1 = 0 := by
  have hok := hwilling.vdev_init port.dev_name port.dev_args s free hunused hlimit hfree
  obtain ⟨p, hcreate⟩ := hlaws.vdev_init_succeeds port.dev_name port.dev_args s hok
  have hdev := hcreate.ne_none
  have hset_up := (keepsAt_try_setup hlaws p (dpdk.rte_vdev_init port.dev_name port.dev_args s).2).ne_none hdev
  simp only [net_port_init, if_neg hok, find_port_of_created hlaws hwilling hcreate, hwilling.is_valid_port p _ hdev,
    Bool.not_true, Bool.false_eq_true, if_false, if_neg (try_setup_succeeds hlaws hwilling hdev),
    if_neg (hwilling.macaddr_get p _ hset_up)]

theorem net_port_start_succeeds {p : UInt16} (hp : (table s).dev p ≠ none) : (net_port_start dpdk p s).1 = 0 := by
  simp only [net_port_start, if_neg (hwilling.dev_start p s hp)]
  exact hwilling.promiscuous_enable p _ ((hlaws.dev_start p s).ne_none hp)

end Success

end grpc_server.dpdk_filter
