import GrpcServer.DpdkFilter.ProcPackets.Neighbor
import GrpcServer.Rounding
import Mathlib.Data.List.Chain

open transition grpc_server.dpdk_filter

namespace grpc_server.worker

abbrev MIN_POLICY_TIME : ℤ := 30
abbrev MAX_POLICY_TIME : ℤ := 45
abbrev METRICS_FLUSH_INTERVAL_SEC : ℤ := 5
abbrev timer_check_interval : ℕ := 10000

/-- The nanoseconds of a second. -/
abbrev second : ℤ := 1000000000

/-- What one iteration of `MainLoop` meets: the frames on the ports, the clock
behind them, and what `rand` returns. -/
structure Turn where
  iteration : Iteration
  now : ℤ
  rand : ℕ

/-- The locals of `MainLoop`, the members of `Worker` it works on and the counters
of the metrics. `polls` are the times at which a policy was requested, `managed`
is how often `rte_timer_manage` was called. -/
structure MainLoop (C : Type) where
  world : World C
  timer_check_counter : ℕ
  managed : ℕ
  last_policy_time : ℤ
  policy_interval : ℤ
  polls : List ℤ
  last_metrics_push_time : ℤ
  local_packets : Counter → UInt64
  packets_counter : Counter → ℚ

/-- `now` is the clock when the loop is entered. -/
def MainLoop.start {C : Type} (world : World C) (now : ℤ) : MainLoop C :=
  { world
    timer_check_counter := 0
    managed := 0
    last_policy_time := now
    policy_interval := MIN_POLICY_TIME
    polls := []
    last_metrics_push_time := 0
    local_packets := fun _ => 0
    packets_counter := fun _ => 0 }

section Turns

variable {C : Type} (sys : System) (ops : CacheOps C) (r : Rounding)

/-- The calls of a counting function between two traces. -/
def recorded (before after : Wire) (counter : Counter) : ℕ := after.counts.count counter - before.counts.count counter

/-- The three forwarding calls. -/
def MainLoop.forward (s : MainLoop C) (i : Iteration) : MainLoop C :=
  let world := forward_iteration sys ops s.world i
  { s with
    world
    local_packets := fun counter =>
      s.local_packets counter + UInt64.ofNat (recorded s.world.wire world.wire counter) }

def MainLoop.check_timer (s : MainLoop C) : MainLoop C :=
  let timer_check_counter := s.timer_check_counter + 1
  if timer_check_counter ≥ timer_check_interval then { s with timer_check_counter := 0, managed := s.managed + 1 }
  else { s with timer_check_counter }

def MainLoop.check_policy (s : MainLoop C) (now : ℤ) (rand : ℕ) : MainLoop C :=
  let seconds_since_policy := (now - s.last_policy_time).tdiv second
  if seconds_since_policy ≥ s.policy_interval then
    { s with
      polls := s.polls ++ [now]
      last_policy_time := now
      policy_interval := MIN_POLICY_TIME + rand % (MAX_POLICY_TIME - MIN_POLICY_TIME + 1) }
  else s

/-- `flushLocalCounters`. The counters are doubles. -/
def MainLoop.flush_local_counters (s : MainLoop C) : MainLoop C :=
  { s with
    local_packets := fun _ => 0
    packets_counter := fun counter =>
      if s.local_packets counter > 0 then
        r.fl (s.packets_counter counter + r.fl (s.local_packets counter).toNat)
      else s.packets_counter counter }

def MainLoop.check_metrics (s : MainLoop C) (now : ℤ) : MainLoop C :=
  let seconds_since_metrics := (now - s.last_metrics_push_time).tdiv second
  if seconds_since_metrics ≥ METRICS_FLUSH_INTERVAL_SEC then
    { s.flush_local_counters r with last_metrics_push_time := now }
  else s

/-- One iteration. -/
def MainLoop.turn (s : MainLoop C) (t : Turn) : MainLoop C :=
  (((s.forward sys ops t.iteration).check_timer).check_policy t.now t.rand).check_metrics r t.now

/-- The iterations until a signal sets `stop_flag`, and what follows them. -/
def main_loop (s : MainLoop C) (turns : List Turn) : MainLoop C :=
  (turns.foldl (MainLoop.turn sys ops r) s).flush_local_counters r

end Turns

section Schedule

variable {C : Type} {sys : System} {ops : CacheOps C} {r : Rounding}

/-- Whole seconds are at least `n` when the nanoseconds are. -/
theorem le_tdiv_second_iff {ns n : ℤ} (hn : 0 < n) : n ≤ ns.tdiv second ↔ n * 1000000000 ≤ ns := by
  by_cases hns : 0 ≤ ns
  · rw [Int.tdiv_eq_ediv_of_nonneg hns]
    simp only [second]
    omega
  · have hneg : 0 ≤ (-ns).tdiv second := Int.tdiv_nonneg (by omega) (by decide)
    rw [Int.neg_tdiv] at hneg
    omega

/-- The requests so far, at the times `polls`, of a loop entered at `start`. -/
structure Polled (start : ℤ) (s : MainLoop C) : Prop where
  least : MIN_POLICY_TIME ≤ s.policy_interval
  most : s.policy_interval ≤ MAX_POLICY_TIME
  last : (start :: s.polls).getLast (List.cons_ne_nil _ _) = s.last_policy_time
  apart : (start :: s.polls).IsChain fun earlier later => earlier + MIN_POLICY_TIME * second ≤ later

theorem Polled.congr {start : ℤ} {s t : MainLoop C} (h : Polled start s)
    (hinterval : t.policy_interval = s.policy_interval)
    (hpolls : t.polls = s.polls) (hlast : t.last_policy_time = s.last_policy_time) : Polled start t := by
  refine ⟨hinterval ▸ h.least, hinterval ▸ h.most, ?_, hpolls ▸ h.apart⟩
  simp only [hpolls, hlast]
  exact h.last

/-- A request is due at most once in the shortest interval, and behind the check
the last one is younger than the longest. -/
theorem Polled.check_policy {start : ℤ} {s : MainLoop C} (h : Polled start s) (now : ℤ) (rand : ℕ) :
    Polled start (s.check_policy now rand) ∧
      now < (s.check_policy now rand).last_policy_time + MAX_POLICY_TIME * second := by
  obtain ⟨hleast, hmost, hlast, hapart⟩ := h
  simp only [MIN_POLICY_TIME] at hleast
  simp only [MAX_POLICY_TIME] at hmost
  unfold MainLoop.check_policy
  simp only
  split
  · rename_i hdue
    rw [ge_iff_le, le_tdiv_second_iff (by omega)] at hdue
    refine ⟨⟨?_, ?_, ?_, ?_⟩, ?_⟩
    · simp only [MIN_POLICY_TIME, MAX_POLICY_TIME]
      omega
    · simp only [MIN_POLICY_TIME, MAX_POLICY_TIME]
      omega
    · simp
    · simp only
      rw [← List.cons_append, List.isChain_append]
      refine ⟨hapart, List.isChain_singleton _, ?_⟩
      intro earlier hearlier later hlater
      rw [List.getLast?_eq_some_getLast (List.cons_ne_nil _ _), Option.mem_some_iff] at hearlier
      rw [List.head?_cons, Option.mem_some_iff] at hlater
      rw [← hearlier, ← hlater, hlast]
      simp only [MIN_POLICY_TIME, second]
      omega
    · simp only [MAX_POLICY_TIME, second]
      omega
  · rename_i hdue
    rw [ge_iff_le, le_tdiv_second_iff (by omega)] at hdue
    refine ⟨⟨hleast, hmost, hlast, hapart⟩, ?_⟩
    simp only [MAX_POLICY_TIME, second]
    omega

/-- An iteration makes no request or one. -/
theorem MainLoop.turn_polls (s : MainLoop C) (sys : System) (ops : CacheOps C) (r : Rounding) (t : Turn) :
    ((s.turn sys ops r t).last_policy_time = s.last_policy_time ∧ (s.turn sys ops r t).polls = s.polls) ∨
      ((s.turn sys ops r t).last_policy_time = t.now ∧ (s.turn sys ops r t).polls = s.polls ++ [t.now]) := by
  have hpolicy : ∀ s : MainLoop C, ((s.check_policy t.now t.rand).last_policy_time = s.last_policy_time ∧
      (s.check_policy t.now t.rand).polls = s.polls) ∨ ((s.check_policy t.now t.rand).last_policy_time = t.now ∧
        (s.check_policy t.now t.rand).polls = s.polls ++ [t.now]) := by
    intro s
    unfold MainLoop.check_policy
    simp only
    split
    · exact .inr ⟨rfl, rfl⟩
    · exact .inl ⟨rfl, rfl⟩
  have htimer : ((s.forward sys ops t.iteration).check_timer).last_policy_time = s.last_policy_time ∧
      ((s.forward sys ops t.iteration).check_timer).polls = s.polls := by
    unfold MainLoop.check_timer
    simp only
    split <;> exact ⟨rfl, rfl⟩
  have hturn := hpolicy (s.forward sys ops t.iteration).check_timer
  rw [htimer.1, htimer.2] at hturn
  unfold MainLoop.turn MainLoop.check_metrics
  simp only
  split <;> exact hturn

/-- The checks of the timer and of the metrics leave the requests alone. -/
theorem Polled.turn {start : ℤ} {s : MainLoop C} (h : Polled start s) (sys : System) (ops : CacheOps C) (r : Rounding)
    (t : Turn) :
    Polled start (s.turn sys ops r t) ∧
      t.now < (s.turn sys ops r t).last_policy_time + MAX_POLICY_TIME * second := by
  have htimer : Polled start (s.forward sys ops t.iteration).check_timer := by
    unfold MainLoop.check_timer
    simp only
    split <;> exact h.congr rfl rfl rfl
  obtain ⟨hpolled, hrecent⟩ := htimer.check_policy t.now t.rand
  unfold MainLoop.turn MainLoop.check_metrics
  simp only
  split
  · exact ⟨hpolled.congr rfl rfl rfl, hrecent⟩
  · exact ⟨hpolled, hrecent⟩

/-- What the two counters of the timer check come to. -/
structure Ticked (turns : ℕ) (s : MainLoop C) : Prop where
  below : s.timer_check_counter < timer_check_interval
  total : timer_check_interval * s.managed + s.timer_check_counter = turns

theorem Ticked.turn {turns : ℕ} {s : MainLoop C} (h : Ticked turns s) (t : Turn) :
    Ticked (turns + 1) (s.turn sys ops r t) := by
  obtain ⟨hbelow, htotal⟩ := h
  have htimer : Ticked (turns + 1) (s.forward sys ops t.iteration).check_timer := by
    unfold MainLoop.check_timer MainLoop.forward
    simp only
    split
    · refine ⟨Nat.zero_lt_succ 9999, ?_⟩
      simp only [timer_check_interval] at *
      omega
    · refine ⟨by simp only; omega, ?_⟩
      simp only [timer_check_interval] at *
      omega
  unfold MainLoop.turn MainLoop.check_metrics MainLoop.check_policy
  simp only
  split <;> split <;> exact ⟨htimer.below, htimer.total⟩

theorem MainLoop.turns_invariant (inv : List Turn → MainLoop C → Prop) {s : MainLoop C} (hinit : inv [] s)
    (hturn : ∀ past s t, inv past s → inv (past ++ [t]) (s.turn sys ops r t)) (turns : List Turn) :
    inv turns (turns.foldl (MainLoop.turn sys ops r) s) :=
  foldl_history inv hinit (fun past t h => hturn past _ t h) turns

/-- Whatever the loop receives and whatever the clock and `rand` say: two requests for
a policy are at least 30 seconds apart, at the end of an iteration the last one, or
the start of the loop, is less than 45 seconds old, and `rte_timer_manage` has been
called once in 10000 iterations. -/
theorem main_loop_schedule (sys : System) (ops : CacheOps C) (r : Rounding) (world : World C) (start : ℤ)
    (turns : List Turn) :
    let s := turns.foldl (MainLoop.turn sys ops r) (MainLoop.start world start)
    (start :: s.polls).IsChain (fun earlier later => earlier + MIN_POLICY_TIME * second ≤ later) ∧
    (∀ t ∈ turns.getLast?, t.now < (start :: s.polls).getLast (List.cons_ne_nil _ _) + MAX_POLICY_TIME * second) ∧
    s.managed = turns.length / timer_check_interval := by
  intro s
  obtain ⟨hpolled, hrecent⟩ : Polled start s ∧
      ∀ t ∈ turns.getLast?, t.now < s.last_policy_time + MAX_POLICY_TIME * second := by
    refine MainLoop.turns_invariant (fun past s => Polled start s ∧ ∀ t ∈ past.getLast?,
      t.now < s.last_policy_time + MAX_POLICY_TIME * second) ?_ ?_ turns
    · refine ⟨⟨Int.le_refl _, (by decide : MIN_POLICY_TIME ≤ MAX_POLICY_TIME), rfl, List.isChain_singleton _⟩, ?_⟩
      intro t ht
      cases ht
    · intro past s t h
      obtain ⟨hturn, hnow⟩ := h.1.turn sys ops r t
      refine ⟨hturn, ?_⟩
      intro last hlast
      rw [List.getLast?_concat, Option.mem_some_iff] at hlast
      exact hlast ▸ hnow
  have hticked : Ticked turns.length s := by
    refine MainLoop.turns_invariant (fun past s => Ticked past.length s) ⟨Nat.zero_lt_succ 9999, rfl⟩ ?_ turns
    intro past s t h
    rw [List.length_append]
    exact h.turn t
  refine ⟨hpolled.apart, ?_, ?_⟩
  · rw [hpolled.last]
    exact hrecent
  · obtain ⟨hbelow, htotal⟩ := hticked
    simp only [timer_check_interval] at *
    omega

end Schedule

section Metrics

variable {C : Type} {sys : System} {ops : CacheOps C} {r : Rounding}

theorem counts_handle_arrival (sys : System) (ops : CacheOps C) (w : World C) (a : Arrival) :
    ∃ more, (handle_arrival sys ops w a).wire.counts = w.wire.counts ++ more := by
  cases a with
  | port_in round => exact ⟨_, counts_process_round sys ops w round⟩
  | port_out pkt tx_ok => exact ⟨_, counts_forward sys.net tx_ok pkt .port_out .port_in w.wire⟩
  | port_exception pkt tx_ok => exact ⟨_, counts_forward sys.net tx_ok pkt .port_exception .port_in w.wire⟩

/-- An iteration only adds to what has been recorded. -/
theorem counts_forward_iteration (sys : System) (ops : CacheOps C) (w : World C) (i : Iteration) :
    ∃ more, (forward_iteration sys ops w i).wire.counts = w.wire.counts ++ more := by
  rw [forward_iteration_arrivals]
  generalize i.arrivals = arrivals
  induction arrivals generalizing w with
  | nil => exact ⟨[], (List.append_nil _).symm⟩
  | cons a rest ih =>
    obtain ⟨first, hfirst⟩ := counts_handle_arrival sys ops w a
    obtain ⟨later, hlater⟩ := ih (handle_arrival sys ops w a)
    refine ⟨first ++ later, ?_⟩
    rw [List.foldl_cons, hlater, hfirst, List.append_assoc]

/-- What a counter of the metrics and the local counter hold together, as long as
that is small enough for a double. -/
structure Tracked (start : Wire) (s : MainLoop C) : Prop where
  grows : ∃ more, s.world.wire.counts = start.counts ++ more
  total : ∀ counter, recorded start s.world.wire counter ≤ 2 ^ 53 → ∃ exported : ℕ,
    s.packets_counter counter = exported ∧
      exported + (s.local_packets counter).toNat = recorded start s.world.wire counter

theorem Tracked.congr {start : Wire} {s t : MainLoop C} (h : Tracked start s) (hworld : t.world = s.world)
    (hlocal : t.local_packets = s.local_packets) (hcounter : t.packets_counter = s.packets_counter) :
    Tracked start t := by
  refine ⟨hworld ▸ h.grows, ?_⟩
  rw [hworld, hlocal, hcounter]
  exact h.total

theorem Tracked.forward {start : Wire} {s : MainLoop C} (h : Tracked start s) (sys : System) (ops : CacheOps C)
    (i : Iteration) :
    Tracked start (s.forward sys ops i) := by
  obtain ⟨before, hbefore⟩ := h.grows
  obtain ⟨more, hmore⟩ := counts_forward_iteration sys ops s.world i
  have hcounts : (s.forward sys ops i).world.wire.counts = start.counts ++ (before ++ more) := by
    rw [← List.append_assoc, ← hbefore]
    exact hmore
  refine ⟨⟨_, hcounts⟩, ?_⟩
  intro counter hsmall
  have hnew : recorded s.world.wire (forward_iteration sys ops s.world i).wire counter = more.count counter := by
    rw [recorded, hmore, List.count_append, Nat.add_sub_cancel_left]
  have hold : recorded start s.world.wire counter = before.count counter := by
    rw [recorded, hbefore, List.count_append, Nat.add_sub_cancel_left]
  have hall : recorded start (s.forward sys ops i).world.wire counter =
      before.count counter + more.count counter := by
    rw [recorded, hcounts, List.count_append, Nat.add_sub_cancel_left, List.count_append]
  rw [hall] at hsmall
  obtain ⟨exported, hexported, hsum⟩ := h.total counter (by omega)
  refine ⟨exported, hexported, ?_⟩
  have hlocal : ((s.forward sys ops i).local_packets counter).toNat =
      (s.local_packets counter).toNat + more.count counter := by
    change (s.local_packets counter + UInt64.ofNat (recorded s.world.wire _ counter)).toNat = _
    rw [hnew, UInt64.toNat_add, UInt64.toNat_ofNat_of_lt' (by simp only [UInt64.size]; omega), Nat.mod_eq_of_lt (by omega)]
  rw [hlocal, hall]
  omega

theorem Tracked.flush {start : Wire} {s : MainLoop C} (h : Tracked start s) :
    Tracked start (s.flush_local_counters r) := by
  refine ⟨h.grows, ?_⟩
  intro counter hsmall
  obtain ⟨exported, hexported, hsum⟩ := h.total counter hsmall
  have hbound : recorded start s.world.wire counter ≤ 2 ^ 53 := hsmall
  refine ⟨exported + (s.local_packets counter).toNat, ?_, hsum⟩
  simp only [MainLoop.flush_local_counters]
  split
  · rw [hexported, r.fl_add (by omega)]
  · rename_i hzero
    have hlocal : (s.local_packets counter).toNat = 0 := by
      have hle := UInt64.le_iff_toNat_le.mp (UInt64.not_lt.mp hzero)
      exact Nat.le_zero.mp hle
    rw [hexported, hlocal, Nat.add_zero]

theorem Tracked.turn {start : Wire} {s : MainLoop C} (h : Tracked start s) (t : Turn) :
    Tracked start (s.turn sys ops r t) := by
  have hpolicy : Tracked start (((s.forward sys ops t.iteration).check_timer).check_policy t.now t.rand) := by
    have hforward := h.forward sys ops t.iteration
    unfold MainLoop.check_policy MainLoop.check_timer
    simp only
    split <;> split <;> exact hforward.congr rfl rfl rfl
  unfold MainLoop.turn MainLoop.check_metrics
  simp only
  split
  · exact (hpolicy.flush (r := r)).congr rfl rfl rfl
  · exact hpolicy

/-- Whatever the loop receives and however the clock runs, after it has ended each
counter of the metrics holds exactly the number of calls of its function, as long as
that is at most `2 ^ 53`. -/
theorem exported_counts (sys : System) (ops : CacheOps C) (r : Rounding) (world : World C) (start : ℤ)
    (turns : List Turn) (counter : Counter)
    (hsmall : recorded world.wire (main_loop sys ops r (MainLoop.start world start) turns).world.wire counter ≤ 2 ^ 53) :
    (main_loop sys ops r (MainLoop.start world start) turns).packets_counter counter =
      recorded world.wire (main_loop sys ops r (MainLoop.start world start) turns).world.wire counter := by
  have htracked : Tracked world.wire (turns.foldl (MainLoop.turn sys ops r) (MainLoop.start world start)) := by
    refine MainLoop.turns_invariant (fun _ s => Tracked world.wire s) ?_ (fun _ _ t h => h.turn t) turns
    refine ⟨⟨[], (List.append_nil _).symm⟩, ?_⟩
    intro counter _
    refine ⟨0, rfl, ?_⟩
    rw [recorded]
    exact (Nat.sub_self _).symm
  obtain ⟨exported, hexported, hsum⟩ := (htracked.flush (r := r)).total counter hsmall
  have hlocal : exported = recorded world.wire
      (main_loop sys ops r (MainLoop.start world start) turns).world.wire counter := hsum
  rw [main_loop, hexported, hlocal]
  rfl

/-- One frame arrives while filtering is off. -/
def bypassed_turn : Turn :=
  { iteration := ⟨[], ⟨BasePolicy.zero, true,
      [(dns_query 0 [[97]], ⟨⟨0, true, true, 0, true⟩, fun _ _ => none, true, true⟩)]⟩, []⟩
    now := 0
    rand := 0 }

theorem exported_counts_bypassed :
    (main_loop (filter_system udp4_net Inet.mute) (rteCaches 1) Rounding.identity
      (MainLoop.start ⟨Wire.start, Caches.empty⟩ 0) [bypassed_turn]).packets_counter .passed = 1 := by
  have hone : recorded Wire.start (main_loop (filter_system udp4_net Inet.mute) (rteCaches 1) Rounding.identity
      (MainLoop.start ⟨Wire.start, Caches.empty⟩ 0) [bypassed_turn]).world.wire .passed = 1 := by
    rfl
  rw [exported_counts _ _ _ _ _ _ _ (by rw [hone]; decide), hone]
  rfl

end Metrics

end grpc_server.worker
