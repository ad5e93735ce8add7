import GrpcServer.Protocol.Versions
import GrpcServer.Worker.MainLoop.Schedule

open c_memory transition grpc_server.dpdk_filter grpc_server.communication grpc_server.manager grpc_server.worker

namespace grpc_server.protocol

variable {V S : Type} {codec : Codec V S} {inet : Inet}

section Refreshing

variable {s next : State V S}

/-- A call remembers the version it began at. -/
theorem Moves.begun {a : Action} (h : Moves codec inet s a next) {n : ℕ} {c : Call S} (hcall : s.calls n = some c) :
    ∃ d, next.calls n = some d ∧ d.begun = c.begun := by
  have hmoved : ∀ {m : ℕ} {d : Call S} (stage : Stage S), s.calls m = some d →
      ∃ e, (s.set_call m { d with stage }).calls n = some e ∧ e.begun = c.begun := by
    intro m d stage hd
    by_cases hsame : n = m
    · subst hsame
      cases hcall.symm.trans hd
      exact ⟨_, Function.update_self _ _ _, rfl⟩
    · exact ⟨c, (Function.update_of_ne hsame _ _).trans hcall, rfl⟩
  have hnew : ∀ {m : ℕ} (d : Call S), s.calls m = none → ∃ e, (s.set_call m d).calls n = some e ∧ e.begun = c.begun := by
    intro m d hfree
    have hne : n ≠ m := by
      rintro rfl
      rw [hfree] at hcall
      cases hcall
    exact ⟨c, (Function.update_of_ne hne _ _).trans hcall, rfl⟩
  cases h with
  | restart => exact ⟨c.interrupt, Option.map_eq_some_iff.mpr ⟨c, hcall, rfl⟩, by unfold Call.interrupt; split <;> rfl⟩
  | request _ _ hfree => exact hnew _ hfree
  | poll hfree _ => exact hnew _ hfree
  | register hd _ => exact hmoved _ hd
  | read_version hd _ => exact hmoved _ hd
  | build_policy hd _ => exact hmoved _ hd
  | finish hd _ => exact hmoved _ hd
  | _ => exact ⟨c, hcall, rfl⟩

theorem run_begun {acts : List Action} (hrun : run (step codec inet) s acts = some next) {n : ℕ} {c : Call S}
    (hcall : s.calls n = some c) : ∃ d, next.calls n = some d ∧ d.begun = c.begun := by
  induction acts generalizing s c with
  | nil =>
    cases hrun
    exact ⟨c, hcall, rfl⟩
  | cons a rest ih =>
    obtain ⟨middle, hstep, hrest⟩ := run_cons_eq_some.mp hrun
    obtain ⟨d, hd, hbegun⟩ := (moves_of_step hstep).begun hcall
    obtain ⟨e, he, hsame⟩ := ih hrest hd
    exact ⟨e, he, hsame.trans hbegun⟩

/-- A call whose version is unchanged asked for one that is not older than its
beginning. -/
def Unchanging (s : State V S) : Prop :=
  ∀ n c, s.calls n = some c → FoundUnchanged c.stage → c.begun.toNat ≤ c.requested.toNat

theorem Unchanging.step {a : Action} (h : Unchanging s) (hs : Agreement codec s) (hfresh : Fresh s)
    (hmove : Moves codec inet s a next) : Unchanging next := by
  intro n d hd hunchanged
  obtain ⟨c, hc, hrequested, hbefore⟩ := hmove.foundUnchanged hd hunchanged
  obtain ⟨d', hd', hbegun⟩ := hmove.begun hc
  cases hd.symm.trans hd'
  rw [hbegun, ← hrequested]
  obtain hunchanged | ⟨_, hversion⟩ := hbefore
  · exact h n c hc hunchanged
  · rw [hrequested, ← hversion]
    exact (hfresh.snapshot hs.snapshots hc).begun_le

/-- A worker that takes an answer is at least at the version at which its request
was sent. -/
theorem begun_le_of_deliver (hs : Agreement codec s) (hfresh : Fresh s) (hunchanging : Unchanging s)
    {worker_id : UInt64} {trust : List (Sigma fun _ : Str => Int32)} {n : ℕ} {c : Call S} {resp : GetPolicyResponse S}
    (hwaiting : (s.workers worker_id).waiting = some n) (hcall : s.calls n = some c)
    (hanswer : c.stage = .answered (some resp)) (hstep : step codec inet s (.deliver worker_id trust) = some next) :
    c.begun.toNat ≤ (next.workers worker_id).current_config_version.toNat := by
  cases moves_of_step hstep with
  | @deliver _ _ m d resp' hwaiting' hcall' hanswer' _ =>
    cases hwaiting.symm.trans hwaiting'
    cases hcall.symm.trans hcall'
    cases hanswer.symm.trans hanswer'
    rw [State.set_worker]
    simp only [Function.update_self]
    obtain ⟨result, enabled⟩ := resp
    cases result with
    | provided pol => exact ((hfresh.snapshot hs.snapshots hcall).provides pol (provides_of_answered hanswer)).1
    | unchanged =>
      obtain ⟨d, hd, _, _, hrequested⟩ := hs.awaited worker_id n hwaiting
      cases hcall.symm.trans hd
      have hle := hunchanging n c hcall (by rw [hanswer]; trivial)
      rw [hrequested] at hle
      exact hle

end Refreshing

/-- Actions with the times they happen at. -/
abbrev Timeline := List (ℤ × Action)

/-- How many updates have been successful by the time. -/
def updates_by (codec : Codec V S) (timeline : Timeline) (time : ℤ) : ℕ :=
  ((timeline.filter fun event => event.1 ≤ time).filterMap fun event => installs codec event.2).length

/-- A poll of the worker, sent at the time, whose answer the worker has taken. -/
def Answered (codec : Codec V S) (inet : Inet) (memory : UInt64 → BasePolicy) (timeline : Timeline)
    (worker_id : UInt64) (sent : ℤ) : Prop :=
  ∃ before n during taken trust rest s c resp,
    timeline = before ++ (sent, .poll n worker_id) :: (during ++ (taken, .deliver worker_id trust) :: rest) ∧
    run (step codec inet) (State.start memory) ((before ++ (sent, .poll n worker_id) :: during).map Prod.snd) = some s ∧
    (s.workers worker_id).waiting = some n ∧ s.calls n = some c ∧ c.stage = .answered (some resp)

section Times

variable {timeline : Timeline}

/-- What happened by a time stands in front of what happened later. -/
theorem updates_by_le {before rest : Timeline} {event : ℤ × Action}
    (hsorted : (before ++ event :: rest).Pairwise fun earlier later => earlier.1 ≤ later.1) {time : ℤ}
    (htime : time < event.1) :
    updates_by codec (before ++ event :: rest) time ≤ ((before.map Prod.snd).filterMap (installs codec)).length := by
  have hlater : (event :: rest).filter (fun e => e.1 ≤ time) = [] := by
    rw [List.filter_eq_nil_iff]
    intro e he
    have hle : event.1 ≤ e.1 := by
      rcases List.mem_cons.mp he with rfl | hrest
      · exact le_refl _
      · exact (List.pairwise_cons.mp (List.pairwise_append.mp hsorted).2.1).1 e hrest
    simp only [decide_eq_true_eq]
    omega
  rw [updates_by, List.filter_append, hlater, List.append_nil, List.filterMap_map]
  exact (List.filter_sublist.filterMap _).length_le

/-- A poll is sent at the version that counts the updates before it. -/
theorem begun_of_poll {memory : UInt64 → BasePolicy} {worker_id : UInt64} {n : ℕ} {c : Call S}
    {before during : List Action} {s : State V S} (hrestart : ∀ a ∈ before ++ .poll n worker_id :: during, a ≠ .restart)
    (hcount : (before.filterMap (installs codec)).length < 2 ^ 64)
    (hrun : run (step codec inet) (State.start memory) (before ++ .poll n worker_id :: during) = some s)
    (hcall : s.calls n = some c) : c.begun.toNat = (before.filterMap (installs codec)).length := by
  obtain ⟨first, hfirst, hpoll⟩ := run_append_eq_some.mp hrun
  obtain ⟨second, hstep, hduring⟩ := run_cons_eq_some.mp hpoll
  obtain ⟨hsound, _, hinstalled⟩ := run_start (List.forall_mem_append.mp hrestart).1 hcount hfirst
  cases moves_of_step hstep with
  | poll hfree _ =>
    obtain ⟨d, hd, hkept⟩ := run_begun hduring (Function.update_self n _ _)
    cases hcall.symm.trans hd
    rw [hkept, ← hinstalled]
    exact hsound.snapshots.recorded.version

/-- Once the answer to a call has been taken, the worker stays at or above the
version at which the call began. -/
theorem begun_le_version {memory : UInt64 → BasePolicy} {worker_id : UInt64} {n : ℕ} {c : Call S}
    {resp : GetPolicyResponse S} {trust : List (Sigma fun _ : Str => Int32)} {early late : List Action}
    {s final : State V S} (hrestart : ∀ a ∈ early ++ .deliver worker_id trust :: late, a ≠ .restart)
    (hcount : ((early ++ .deliver worker_id trust :: late).filterMap (installs codec)).length < 2 ^ 64)
    (hs : run (step codec inet) (State.start memory) early = some s) (hwaiting : (s.workers worker_id).waiting = some n)
    (hcall : s.calls n = some c) (hanswer : c.stage = .answered (some resp))
    (hrun : run (step codec inet) s (.deliver worker_id trust :: late) = some final) :
    c.begun.toNat ≤ (final.workers worker_id).current_config_version.toNat := by
  rw [List.filterMap_append, List.filterMap_cons_none rfl, List.length_append] at hcount
  obtain ⟨hearly, hlate⟩ := List.forall_mem_append.mp hrestart
  obtain ⟨hdelivery, hlate⟩ := List.forall_mem_cons.mp hlate
  obtain ⟨next, hdeliver, hrest⟩ := run_cons_eq_some.mp hrun
  obtain ⟨hsound, hfresh, hunchanging⟩ := run_inOneLife Unchanging
    (fun t a next ht htfresh hinv hmove => hinv.step ht htfresh hmove) (Agreement.start codec memory)
    (Fresh.start memory) nofun hearly (by simp only [State.start, List.length_nil]; omega) hs
  refine (begun_le_of_deliver hsound hfresh hunchanging hwaiting hcall hanswer hdeliver).trans ?_
  have hquiet : (early ++ [Action.deliver worker_id trust]).filterMap (installs codec) =
      early.filterMap (installs codec) := by
    rw [List.filterMap_append, List.filterMap_cons_none rfl, List.filterMap_nil, List.append_nil]
  obtain ⟨htaken, htfresh, hinstalled⟩ := run_start (List.forall_mem_append.mpr
    ⟨hearly, List.forall_mem_singleton.mpr hdelivery⟩) (by rw [hquiet]; omega)
    (run_concat_eq_some.mpr ⟨s, hs, hdeliver⟩)
  rw [hquiet] at hinstalled
  exact run_version_le htaken htfresh hlate (by rw [hinstalled]; exact hcount) hrest worker_id

/-- A worker that has taken the answer to a poll has every update from before it. -/
theorem updates_by_le_version {memory : UInt64 → BasePolicy} {worker_id : UInt64} {sent time : ℤ}
    {final : State V S} (hsorted : timeline.Pairwise fun earlier later => earlier.1 ≤ later.1)
    (hrestart : ∀ event ∈ timeline, event.2 ≠ .restart)
    (hcount : ((timeline.map Prod.snd).filterMap (installs codec)).length < 2 ^ 64)
    (hrun : run (step codec inet) (State.start memory) (timeline.map Prod.snd) = some final)
    (hanswered : Answered codec inet memory timeline worker_id sent) (htime : time < sent) :
    updates_by codec timeline time ≤ (final.workers worker_id).current_config_version.toNat := by
  obtain ⟨before, n, during, taken, trust, rest, s, c, resp, rfl, hs, hwaiting, hcall, hanswer⟩ := hanswered
  refine (updates_by_le hsorted htime).trans ?_
  have hacts : ∀ a ∈ (before ++ (sent, Action.poll n worker_id) :: (during ++ (taken, .deliver worker_id trust) ::
      rest)).map Prod.snd, a ≠ .restart := List.forall_mem_map.mpr hrestart
  rw [List.map_append, List.map_cons] at hs
  have hsplit : (before ++ (sent, Action.poll n worker_id) :: (during ++ (taken, .deliver worker_id trust) :: rest)).map
      Prod.snd = (before.map Prod.snd ++ .poll n worker_id :: during.map Prod.snd) ++ .deliver worker_id trust ::
        rest.map Prod.snd := by simp
  rw [hsplit] at hcount hrun hacts
  rw [run_append, hs] at hrun
  have hbegun := begun_of_poll (List.forall_mem_append.mp hacts).1 (by
    rw [List.append_assoc, List.filterMap_append, List.length_append] at hcount
    omega) hs hcall
  rw [← hbegun]
  exact begun_le_version hacts hcount hs hwaiting hcall hanswer hrun

end Times

section Spacing

variable {C : Type} {sys : System} {ops : CacheOps C} {r : Rounding}

/-- The times of the iterations: the clock does not go back, and no iteration takes
longer than `longest`. -/
def Paced (longest : ℤ) (times : List ℤ) : Prop :=
  times.IsChain fun earlier later => earlier ≤ later ∧ later ≤ earlier + longest

/-- How far apart the polls of a main loop can be, at the time `now`. -/
structure Spaced (start longest now : ℤ) (s : MainLoop C) : Prop extends Polled start s where
  past : s.last_policy_time ≤ now
  recent : now < s.last_policy_time + MAX_POLICY_TIME * second
  close : (start :: s.polls).IsChain fun earlier later => later < earlier + MAX_POLICY_TIME * second + longest

theorem Spaced.turn {start longest now : ℤ} {s : MainLoop C} (h : Spaced start longest now s) (sys : System)
    (ops : CacheOps C) (r : Rounding) (t : Turn) (hforward : now ≤ t.now) (hpace : t.now ≤ now + longest) :
    Spaced start longest t.now (s.turn sys ops r t) := by
  obtain ⟨hpolled, hrecent⟩ := h.toPolled.turn sys ops r t
  obtain ⟨hlast, hpolls⟩ | ⟨hlast, hpolls⟩ := s.turn_polls sys ops r t
  · refine ⟨hpolled, ?_, hrecent, ?_⟩
    · rw [hlast]
      exact h.past.trans hforward
    · rw [hpolls]
      exact h.close
  · refine ⟨hpolled, le_of_eq hlast, hrecent, ?_⟩
    · rw [hpolls, ← List.cons_append, List.isChain_append]
      refine ⟨h.close, List.isChain_singleton _, ?_⟩
      intro earlier hearlier later hlater
      rw [List.getLast?_eq_some_getLast (List.cons_ne_nil _ _), Option.mem_some_iff] at hearlier
      rw [List.head?_cons, Option.mem_some_iff] at hlater
      have hold := h.recent
      rw [← hearlier, ← hlater, h.last]
      omega

theorem spaced_foldl {start longest : ℤ} (world : World C) {turns : List Turn}
    (hpaced : Paced longest (start :: turns.map Turn.now)) :
    Spaced start longest ((start :: turns.map Turn.now).getLast (List.cons_ne_nil _ _))
      (turns.foldl (MainLoop.turn sys ops r) (MainLoop.start world start)) := by
  refine MainLoop.turns_invariant (fun past s => Paced longest (start :: past.map Turn.now) →
    Spaced start longest ((start :: past.map Turn.now).getLast (List.cons_ne_nil _ _)) s) ?_ ?_ turns hpaced
  · intro _
    refine ⟨⟨Int.le_refl _, (by decide : MIN_POLICY_TIME ≤ MAX_POLICY_TIME), rfl, List.isChain_singleton _⟩,
      le_refl _, ?_, List.isChain_singleton _⟩
    simp only [List.map_nil, List.getLast_singleton, MainLoop.start, MAX_POLICY_TIME, second]
    omega
  · intro past s t h hpaced
    simp only [List.map_append, List.map_singleton, ← List.cons_append, Paced, List.isChain_append] at hpaced
    obtain ⟨hbefore, _, hpair⟩ := hpaced
    obtain ⟨hforward, hpace⟩ := hpair _ (List.getLast?_eq_some_getLast (List.cons_ne_nil _ _)) t.now rfl
    have hturn := (h hbefore).turn sys ops r t hforward hpace
    simpa using hturn

/-- Of the polls that are at least `delay` old, one was sent in the last 45 seconds,
an iteration and that delay. -/
theorem Spaced.exists_poll {start longest now : ℤ} {s : MainLoop C} (h : Spaced start longest now s) {delay : ℤ}
    (hlongest : 0 ≤ longest) (hdelay : 0 ≤ delay) (hshort : delay ≤ MIN_POLICY_TIME * second)
    (hsome : ∃ sent ∈ s.polls, sent + delay ≤ now) :
    ∃ sent ∈ s.polls, sent + delay ≤ now ∧ now - (MAX_POLICY_TIME * second + longest + delay) < sent := by
  obtain ⟨old, hold, hdone⟩ := hsome
  have hrecent := h.recent
  have hpast := h.past
  cases hpolls : s.polls using List.reverseRecOn with
  | nil =>
    rw [hpolls] at hold
    cases hold
  | append_singleton front sent =>
    have hlast : sent = s.last_policy_time := by
      rw [← h.last]
      simp [hpolls]
    by_cases hready : sent + delay ≤ now
    · exact ⟨sent, by simp, hready, by omega⟩
    · -- the last poll is too young, the one before it is not
      cases hfront : front using List.reverseRecOn with
      | nil =>
        rw [hpolls, hfront, List.nil_append, List.mem_singleton] at hold
        rw [hold] at hdone
        exact absurd hdone hready
      | append_singleton earlier before =>
        have hpair : ∀ {R : ℤ → ℤ → Prop}, (start :: s.polls).IsChain R → R before sent := by
          intro R hchain
          rw [hpolls, hfront, List.append_assoc, ← List.cons_append, List.isChain_append] at hchain
          exact (List.isChain_cons_cons.mp hchain.2.1).1
        have hclose := hpair h.close
        have hapart := hpair h.apart
        exact ⟨before, by simp, by omega, by omega⟩

end Spacing

/-- While the controller does not restart: a worker whose iterations take at most
`longest`, whose polls have been answered once they are `delay` old, and that has a
poll that old, has every update that is older than 45 seconds, an iteration and that
delay. It has nothing the controller does not have. -/
theorem bounded_staleness {C : Type} (sys : System) (ops : CacheOps C) (r : Rounding) (world : World C)
    (start longest delay now : ℤ) (hlongest : 0 ≤ longest) (hdelay : 0 ≤ delay)
    (hshort : delay ≤ MIN_POLICY_TIME * second) (turns : List Turn)
    (hpaced : Paced longest (start :: turns.map Turn.now))
    (hnow : (start :: turns.map Turn.now).getLast (List.cons_ne_nil _ _) = now) (codec : Codec V S) (inet : Inet)
    (memory : UInt64 → BasePolicy) (timeline : Timeline) (worker_id : UInt64) (final : State V S)
    (hsorted : timeline.Pairwise fun earlier later => earlier.1 ≤ later.1)
    (hrestart : ∀ event ∈ timeline, event.2 ≠ .restart)
    (hcount : ((timeline.map Prod.snd).filterMap (installs codec)).length < 2 ^ 64)
    (hrun : run (step codec inet) (State.start memory) (timeline.map Prod.snd) = some final)
    (hanswered : ∀ sent ∈ (turns.foldl (MainLoop.turn sys ops r) (MainLoop.start world start)).polls,
      sent + delay ≤ now → Answered codec inet memory timeline worker_id sent)
    (hsome : ∃ sent ∈ (turns.foldl (MainLoop.turn sys ops r) (MainLoop.start world start)).polls, sent + delay ≤ now) :
    updates_by codec timeline (now - (MAX_POLICY_TIME * second + longest + delay)) ≤
        (final.workers worker_id).current_config_version.toNat ∧
      (final.workers worker_id).current_config_version.toNat ≤ final.version.toNat := by
  have hspaced : Spaced start longest now (turns.foldl (MainLoop.turn sys ops r) (MainLoop.start world start)) :=
    hnow ▸ spaced_foldl world hpaced
  obtain ⟨sent, hsent, hready, hlate⟩ := hspaced.exists_poll hlongest hdelay hshort hsome
  refine ⟨updates_by_le_version hsorted hrestart hcount hrun (hanswered sent hsent hready) hlate, ?_⟩
  refine (run_start ?_ hcount hrun).2.1.versions worker_id
  intro a ha
  obtain ⟨event, hevent, rfl⟩ := List.mem_map.mp ha
  exact hrestart event hevent

/-- Two iterations in which nothing arrives. -/
def idle_turns : List Turn :=
  [30 * second, 31 * second].map fun now => ⟨⟨[], ⟨BasePolicy.zero, true, []⟩, []⟩, now, 0⟩

theorem paced_idle_turns : Paced (30 * second) (0 :: idle_turns.map Turn.now) :=
  .cons_cons ⟨by decide, by decide⟩ (.cons_cons ⟨by decide, by decide⟩ (.singleton _))

/-- The first of them polls. -/
theorem polls_idle_turns : (idle_turns.foldl
    (MainLoop.turn (filter_system udp4_net Inet.mute) (rteCaches 1) Rounding.identity)
    (MainLoop.start ⟨Wire.start, Caches.empty⟩ 0)).polls = [30 * second] := rfl

/-- Worker 1 polls half a minute after the start of its loop, and has the answer
at once. The update is a hundred seconds older. -/
def answered_timeline : Timeline :=
  (-100 * second, .load_config blocking_toml) :: [Action.poll 0 1, .register 0, .read_version 0, .build_policy 0,
    .finish 0, .deliver 1 []].map fun a => (30 * second, a)

theorem bounded_staleness_first :
    ∃ final : State Unit Unit, run (step sample_codec Inet.mute) (State.start fun _ => BasePolicy.zero)
        (answered_timeline.map Prod.snd) = some final ∧ 1 ≤ (final.workers 1).current_config_version.toNat := by
  refine ⟨_, rfl, ?_⟩
  have hstale := bounded_staleness (filter_system udp4_net Inet.mute) (rteCaches 1) Rounding.identity
    ⟨Wire.start, Caches.empty⟩ 0 (30 * second) second (31 * second) (by decide) (by decide) (by decide) idle_turns
    paced_idle_turns rfl sample_codec Inet.mute (fun _ => BasePolicy.zero) answered_timeline 1 _ (by decide)
    (by simp [answered_timeline]) (by decide) rfl ?_ ?_
  · exact hstale.1
  · rw [polls_idle_turns]
    intro sent hsent _
    rw [List.mem_singleton.mp hsent]
    exact ⟨[(-100 * second, .load_config blocking_toml)], 0,
      [.register 0, .read_version 0, .build_policy 0, .finish 0].map fun a => (30 * second, a), 30 * second, [], [], _,
      _, _, rfl, rfl, rfl, rfl, rfl⟩
  · rw [polls_idle_turns]
    exact ⟨30 * second, List.mem_singleton_self _, by decide⟩

end grpc_server.protocol
