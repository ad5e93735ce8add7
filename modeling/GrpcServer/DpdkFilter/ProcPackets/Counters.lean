import GrpcServer.DpdkFilter.ParsPackets.Query
import GrpcServer.DpdkFilter.ProcPackets.View
import GrpcServer.Transition

open ttl_cache transition

namespace grpc_server.dpdk_filter

/-- The counters behind `record_packet_received`, `record_packet_passed` and
`record_packet_dropped`. -/
inductive Counter where
  | received
  | passed
  | dropped
deriving DecidableEq

def Event.counter : Event → Option Counter
  | .received => some .received
  | .passed => some .passed
  | .dropped => some .dropped
  | _ => none

/-- The calls of the three functions in their order. -/
def Wire.counts (w : Wire) : List Counter := w.view Event.counter

/-- Every received packet is counted in exactly one of the two other counters. -/
def Tallied : List Counter → Prop
  | [] => True
  | .received :: .passed :: rest => Tallied rest
  | .received :: .dropped :: rest => Tallied rest
  | _ => False

/-- At the end of a burst nothing is missing and nothing counted twice. -/
def Wire.Conserved (w : Wire) : Prop :=
  w.counts.count .received = w.counts.count .passed + w.counts.count .dropped ∧ Tallied w.counts

/-- One packet with the policy and the switch of its burst. -/
structure Round where
  policy : BasePolicy
  filtring_is_turned_off : Bool
  pkt : RteMbuf
  env : PacketEnv

/-- A call of `pakage_processing`. -/
structure Burst where
  policy : BasePolicy
  filtring_is_turned_off : Bool
  pkts : List (RteMbuf × PacketEnv)

def Burst.rounds (b : Burst) : List Round :=
  b.pkts.map fun (pkt, env) => { policy := b.policy, filtring_is_turned_off := b.filtring_is_turned_off, pkt, env }

section Run

variable {C : Type} (sys : System) (ops : CacheOps C)

/-- A round of either loop of `pakage_processing`. -/
def process_round (w : World C) (r : Round) : World C :=
  if r.filtring_is_turned_off then
    { w with
      wire := package_sending_decision sys.net r.env.tx_ok true r.pkt .port_in .port_out (w.wire.emit .received) }
  else process_packet sys ops r.policy w (r.pkt, r.env)

def process_run (bursts : List Burst) (w : World C) : World C :=
  bursts.foldl (fun w b => pakage_processing sys ops b.policy b.filtring_is_turned_off b.pkts w) w

theorem pakage_processing_rounds (b : Burst) (w : World C) :
    pakage_processing sys ops b.policy b.filtring_is_turned_off b.pkts w =
      b.rounds.foldl (process_round sys ops) w := by
  unfold pakage_processing Burst.rounds
  rw [List.foldl_map]
  cases b.filtring_is_turned_off <;> simp [process_round]

theorem process_run_rounds (bursts : List Burst) (w : World C) :
    process_run sys ops bursts w = (bursts.flatMap Burst.rounds).foldl (process_round sys ops) w := by
  rw [List.flatMap_def, List.foldl_flatten, List.foldl_map]
  simp only [process_run, pakage_processing_rounds]

/-- The verdict on a packet whose lookup answered so. -/
def cached_solution (solution_is_send : Bool) : Lookup NodeCache → Bool
  | .hit node => node.solution_is_send
  | .enoent => solution_is_send
  | .error => false

/-- The packet is handed to `forward_packet_with_rewrite`. -/
def sends (caches : C) (r : Round) : Bool :=
  let info_pac := sys.parse r.pkt
  r.filtring_is_turned_off || check_is_exception info_pac.number_port ||
    if info_pac.domain 0 = 0 then
      cached_solution (ip_solution sys.inet r.policy r.env info_pac)
        (ops.lookup_ip_cache r.env.cache (ip_key info_pac) caches).1
    else
      cached_solution (domain_solution r.policy r.env info_pac)
        (ops.lookup_dns_cache r.env.cache info_pac.domain caches).1

end Run

/-- An IPv4 packet whose time to live has run out. -/
def Expiring (pkt : RteMbuf) : Prop := be16_at pkt.data 12 = ⟨0x08, 0x00⟩ ∧ pkt.data 22 ≤ 1

instance (pkt : RteMbuf) : Decidable (Expiring pkt) := inferInstanceAs (Decidable (_ ∧ _))

/-- The counters a packet bumps once it is decided whether it is sent. -/
def decision_counts (sent tx_ok : Bool) (pkt : RteMbuf) : List Counter :=
  if sent then if Expiring pkt then [] else if tx_ok then [.passed] else [.dropped, .passed]
  else [.dropped]

@[simp] theorem Wire.counts_emit (w : Wire) (e : Event) : (w.emit e).counts = w.counts ++ e.counter.toList :=
  Wire.view_emit w e

theorem counts_transmit (tx_ok : Bool) (pkt : RteMbuf) (out_port : Port) (w : Wire) :
    (transmit tx_ok pkt out_port w).counts = w.counts ++ if tx_ok then [.passed] else [.dropped, .passed] := by
  cases tx_ok <;> simp [transmit, Event.counter]

/-- Writing the Ethernet addresses leaves the bytes behind them alone. -/
theorem rewrite_ether_of_le (port : NetPort) (data : ℕ → UInt8) {k : ℕ} (hk : 12 ≤ k) :
    rewrite_ether port data k = data k := by
  simp only [rewrite_ether, set_bytes]
  rw [dif_neg (by omega), dif_neg (by omega)]

theorem expiring_iff_rewritten (port : NetPort) (pkt : RteMbuf) :
    Expiring pkt ↔
      be16_at (rewrite_ether port pkt.data) 12 = ⟨0x08, 0x00⟩ ∧ ¬ 1 < rewrite_ether port pkt.data 22 := by
  rw [Expiring, be16_at, be16_at, rewrite_ether_of_le port pkt.data (Nat.le_refl 12),
    rewrite_ether_of_le port pkt.data (by omega), rewrite_ether_of_le port pkt.data (by omega), UInt8.not_lt]

theorem counts_forward (net : RteNet) (tx_ok : Bool) (pkt : RteMbuf) (in_port out_port : Port) (w : Wire) :
    (forward_packet_with_rewrite net tx_ok pkt in_port out_port w).counts =
      w.counts ++ decision_counts true tx_ok pkt := by
  have hlearn : ∀ w : Wire, (learn_neighbor_mac in_port pkt out_port w).counts = w.counts :=
    Wire.view_learn_neighbor_mac in_port pkt out_port
  have hquiet : ((w.emit (.forward pkt in_port out_port)).emit (.access pkt.id)).counts = w.counts := by
    simp [Event.counter]
  simp only [forward_packet_with_rewrite, decision_counts, if_true]
  split
  · rename_i htype
    split
    · rename_i hlive
      rw [counts_transmit, hlearn, hquiet, if_neg fun h => ((expiring_iff_rewritten _ _).mp h).2 hlive]
    · rename_i hlive
      rw [Wire.counts_emit, hlearn, hquiet, if_pos ((expiring_iff_rewritten _ _).mpr ⟨htype, hlive⟩)]
      rfl
  · rename_i htype
    rw [counts_transmit, hlearn, hquiet, if_neg fun h => htype ((expiring_iff_rewritten _ _).mp h).1]

theorem counts_decision (net : RteNet) (tx_ok solution_is_send : Bool) (pkt : RteMbuf) (in_port out_port : Port)
    (w : Wire) :
    (package_sending_decision net tx_ok solution_is_send pkt in_port out_port w).counts =
      w.counts ++ decision_counts solution_is_send tx_ok pkt := by
  cases solution_is_send with
  | true =>
    rw [package_sending_decision, if_pos rfl, counts_forward, Wire.counts_emit]
    simp [Event.counter]
  | false => simp [package_sending_decision, decision_counts, Event.counter]

variable {C : Type}

theorem counts_process_with (net : RteNet) (env : PacketEnv) (pkt : RteMbuf) (number_port : Be16)
    (lookup_cache : C → Lookup NodeCache × C) (solution_is_send : Bool) (add_to_cache : NodeCache → C → C)
    (w : World C) :
    (process_with net env pkt number_port lookup_cache solution_is_send add_to_cache w).wire.counts =
      w.wire.counts ++ decision_counts
        (check_is_exception number_port || cached_solution solution_is_send (lookup_cache w.caches).1) env.tx_ok pkt := by
  unfold process_with
  split
  · rename_i hport
    rw [counts_decision, hport, Bool.true_or]
  · rename_i hport
    rw [Bool.not_eq_true] at hport
    rw [hport, Bool.false_or]
    split
    · rename_i node caches hlookup
      rw [counts_decision, hlookup]
      rfl
    · rename_i caches hlookup
      rw [counts_decision, hlookup]
      rfl
    · rename_i caches hlookup
      rw [hlookup]
      simp [cached_solution, decision_counts, Event.counter]

theorem counts_process_round (sys : System) (ops : CacheOps C) (w : World C) (r : Round) :
    (process_round sys ops w r).wire.counts =
      w.wire.counts ++ .received :: decision_counts (sends sys ops w.caches r) r.env.tx_ok r.pkt := by
  have hreceived : ((w.wire.emit .received).emit (.access r.pkt.id)).counts = w.wire.counts ++ [.received] := by
    simp [Event.counter]
  unfold process_round sends
  split
  · rename_i hoff
    rw [counts_decision, Wire.counts_emit, hoff, List.append_assoc]
    rfl
  · rename_i hoff
    rw [Bool.not_eq_true] at hoff
    simp only [hoff, Bool.false_or]
    by_cases hdomain : (sys.parse r.pkt).domain 0 = 0
    · rw [process_packet_of_ip hdomain, process_ip, counts_process_with, hreceived, if_pos hdomain, List.append_assoc]
      rfl
    · rw [process_packet_of_domain hdomain, process_domain, counts_process_with, hreceived, if_neg hdomain,
        List.append_assoc]
      rfl

/-- A packet that is sent leaves: its time to live has not run out and the
transmit queue takes it. -/
def Accounted (sys : System) (ops : CacheOps C) (w : World C) (r : Round) : Prop :=
  sends sys ops w.caches r = true → ¬ Expiring r.pkt ∧ r.env.tx_ok = true

theorem Tallied.count_eq {counts : List Counter} (h : Tallied counts) :
    counts.count .received = counts.count .passed + counts.count .dropped := by
  fun_induction Tallied counts with
  | case1 => rfl
  | case2 rest ih =>
    simp only [List.count_cons, ih h]
    simp
    omega
  | case3 rest ih =>
    simp only [List.count_cons, ih h]
    simp
    omega
  | case4 => exact h.elim

/-- A packet is counted once exactly if it is accounted for. The next packet's
calls begin with `record_packet_received`. -/
theorem tallied_round_iff (sent tx_ok : Bool) (pkt : RteMbuf) {later : List Counter}
    (hlater : later = [] ∨ ∃ rest, later = .received :: rest) :
    Tallied (.received :: (decision_counts sent tx_ok pkt ++ later)) ↔
      (sent = true → ¬ Expiring pkt ∧ tx_ok = true) ∧ Tallied later := by
  cases sent with
  | false => simp [decision_counts, Tallied]
  | true =>
    by_cases hexpiring : Expiring pkt
    · rcases hlater with rfl | ⟨rest, rfl⟩ <;> simp [decision_counts, hexpiring, Tallied]
    · cases tx_ok <;> simp [decision_counts, hexpiring, Tallied]

/-- What a run of packets adds to the calls. -/
theorem rounds_counts (sys : System) (ops : CacheOps C) (rounds : List Round) (w : World C) :
    ∃ later, (rounds.foldl (process_round sys ops) w).wire.counts = w.wire.counts ++ later ∧
      (later = [] ∨ ∃ rest, later = .received :: rest) ∧
      (Tallied later ↔ Meets (fun w r => some (process_round sys ops w r)) (Accounted sys ops) w rounds) := by
  induction rounds generalizing w with
  | nil => exact ⟨[], by simp, .inl rfl, Iff.rfl⟩
  | cons r rest ih =>
    obtain ⟨later, hcounts, hlater, htallied⟩ := ih (process_round sys ops w r)
    refine ⟨.received :: (decision_counts (sends sys ops w.caches r) r.env.tx_ok r.pkt ++ later), ?_, .inr ⟨_, rfl⟩, ?_⟩
    · rw [List.foldl_cons, hcounts, counts_process_round]
      simp
    · rw [tallied_round_iff _ _ _ hlater, htallied]
      simp [Meets, Accounted]

/-- At the end of every burst each received packet has been counted as passed or as
dropped, exactly once, if and only if no packet that is sent has run out of time to
live or is refused by the transmit queue. -/
theorem counters_conserved_iff (sys : System) (ops : CacheOps C) (bursts : List Burst) (w : World C)
    (hstart : w.wire.counts = []) :
    (∀ done rest, bursts = done ++ rest → (process_run sys ops done w).wire.Conserved) ↔
      Meets (fun w r => some (process_round sys ops w r)) (Accounted sys ops) w (bursts.flatMap Burst.rounds) := by
  have hrun : ∀ done, Tallied (process_run sys ops done w).wire.counts ↔
      Meets (fun w r => some (process_round sys ops w r)) (Accounted sys ops) w (done.flatMap Burst.rounds) := by
    intro done
    obtain ⟨later, hcounts, _, htallied⟩ := rounds_counts sys ops (done.flatMap Burst.rounds) w
    rw [process_run_rounds, hcounts, hstart, List.nil_append]
    exact htallied
  constructor
  · intro hconserved
    exact (hrun bursts).mp (hconserved bursts [] (by simp)).2
  · rintro hmeets done rest rfl
    rw [List.flatMap_append] at hmeets
    have htallied := (hrun done).mpr hmeets.of_append
    exact ⟨htallied.count_eq, htallied⟩

/-- A query for `a` with the bypass on. -/
def bypassed_query (tx_ok : Bool) : Burst :=
  { policy := BasePolicy.zero
    filtring_is_turned_off := true
    pkts := [(dns_query 0 [[97]], ⟨⟨0, true, true, 0, true⟩, fun _ _ => none, true, tx_ok⟩)] }

/-- A packet that the transmit queue refuses is counted as dropped and as passed. -/
theorem counters_not_conserved :
    let sys := filter_system udp4_net Inet.mute
    let final := process_run sys (rteCaches 1) [bypassed_query false] ⟨Wire.start, Caches.empty⟩
    final.wire.counts = [.received, .dropped, .passed] ∧ ¬ final.wire.Conserved := by
  intro sys final
  have hcounts : final.wire.counts = [.received, .dropped, .passed] := rfl
  refine ⟨hcounts, ?_⟩
  rintro ⟨hcount, _⟩
  rw [hcounts] at hcount
  cases hcount

theorem counters_conserved_bypassed :
    (process_run (filter_system udp4_net Inet.mute) (rteCaches 1) [bypassed_query true]
      ⟨Wire.start, Caches.empty⟩).wire.Conserved := by
  refine (counters_conserved_iff (filter_system udp4_net Inet.mute) (rteCaches 1) [bypassed_query true]
    ⟨Wire.start, Caches.empty⟩ rfl).mpr ?_ [bypassed_query true] [] rfl
  refine ⟨fun _ => ⟨?_, rfl⟩, fun _ _ => trivial⟩
  exact fun h => absurd h.2 (by decide)

end grpc_server.dpdk_filter
