import GrpcServer.DpdkFilter.ProcPackets.Verdicts
import GrpcServer.Protocol.Filtering
import GrpcServer.Protocol.Staleness

open c_memory transition grpc_server.dpdk_filter grpc_server.communication grpc_server.manager grpc_server.worker

namespace grpc_server.protocol

variable {V S : Type} {codec : Codec V S} {inet : Inet} {worker_id : UInt64} {enabled : Bool} {s next : State V S}

section Steps

/-- An answer to this call will report `enabled`. -/
def Call.Reports (worker_id : UInt64) (enabled : Bool) (c : Call S) : Prop :=
  c.worker_id = worker_id ∧ ∀ resp, c.stage = .answered (some resp) → resp.filtering_enabled = enabled

/-- The flag of the worker is `enabled`, and so is what it will be told. -/
structure Switched (worker_id : UInt64) (enabled : Bool) (s : State V S) : Prop where
  flag : is_filtering_enabled worker_id s.manager = enabled
  awaited : ∀ n, (s.workers worker_id).waiting = some n → ∃ c, s.calls n = some c ∧ c.Reports worker_id enabled

/-- A call goes on. What it answers to the worker is asked for here only. -/
theorem Switched.set_call (h : Switched worker_id enabled s) {m : ℕ} {c : Call S} (hcall : s.calls m = some c)
    {stage : Stage S} (hstage : c.worker_id = worker_id → ∀ resp, stage = .answered (some resp) →
      resp.filtering_enabled = enabled) : Switched worker_id enabled (s.set_call m { c with stage }) := by
  refine ⟨h.flag, ?_⟩
  intro n hwaiting
  obtain ⟨d, hd, hreports⟩ := h.awaited n hwaiting
  by_cases hsame : n = m
  · subst hsame
    cases hcall.symm.trans hd
    exact ⟨_, Function.update_self _ _ _, hreports.1, hstage hreports.1⟩
  · exact ⟨d, (Function.update_of_ne hsame _ _).trans hd, hreports⟩

theorem Switched.begin_call (h : Switched worker_id enabled s) {m : ℕ} (hfree : s.calls m = none)
    (other requested : UInt64) (polled : Bool) : Switched worker_id enabled (s.begin_call m other requested polled) := by
  refine ⟨h.flag, ?_⟩
  intro n hwaiting
  obtain ⟨d, hd, hreports⟩ := h.awaited n hwaiting
  have hne : n ≠ m := by
    rintro rfl
    rw [hfree] at hd
    cases hd
  exact ⟨d, (Function.update_of_ne hne _ _).trans hd, hreports⟩

/-- A worker changes and waits for nothing new. -/
theorem Switched.set_worker (h : Switched worker_id enabled s) (other : UInt64) {w : Worker S}
    (hw : w.waiting = none ∨ w.waiting = (s.workers other).waiting) :
    Switched worker_id enabled (s.set_worker other w) := by
  refine ⟨h.flag, ?_⟩
  intro n hwaiting
  refine h.awaited n ?_
  by_cases hsame : worker_id = other
  · subst hsame
    simp only [State.set_worker, Function.update_self] at hwaiting
    obtain hnone | hold := hw
    · rw [hnone] at hwaiting
      cases hwaiting
    · rw [← hold, hwaiting]
  · simpa only [State.set_worker, Function.update_of_ne hsame] using hwaiting

theorem waiting_receive (inet : Inet) (trust : List (Sigma fun _ : Str => Int32)) (w : Worker S)
    (resp : Option (GetPolicyResponse S)) : (w.receive inet trust resp).waiting = none := by
  obtain ⟨pol, filtering_enabled, rfl⟩ | ⟨_, _, _, hwaiting⟩ := w.receive_cases inet trust resp
  · rfl
  · exact hwaiting

/-- A worker that polls will be told what the flag says, if it does not change. -/
theorem switched_poll {n : ℕ} (hmove : Moves codec inet s (.poll n worker_id) next) :
    Switched worker_id (is_filtering_enabled worker_id s.manager) next := by
  cases hmove with
  | poll hfree hidle =>
    refine ⟨rfl, ?_⟩
    intro m hwaiting
    simp only [State.set_worker, Function.update_self, Worker.wait_for, Option.some.injEq] at hwaiting
    subst hwaiting
    refine ⟨_, Function.update_self _ _ _, rfl, ?_⟩
    intro resp hstage
    cases hstage

/-- Nothing but a command to the worker and a restart changes what it is told. -/
theorem Switched.step {a : Action} (h : Switched worker_id enabled s) (hrestart : a ≠ .restart)
    (hcommands : a.commands worker_id = none) (hmove : Moves codec inet s a next) : Switched worker_id enabled next := by
  have hflag := (hmove.is_filtering_enabled hrestart hcommands).trans h.flag
  cases hmove with
  | load_failed => exact h
  | install hparse => exact ⟨hflag, h.awaited⟩
  | toggle_filtering other value => exact ⟨hflag, h.awaited⟩
  | restart => exact absurd rfl hrestart
  | request other requested hfree => exact h.begin_call hfree other requested false
  | @poll n other hfree hidle =>
    by_cases hsame : other = worker_id
    · subst hsame
      have hpoll : Moves codec inet s (.poll n other) _ := .poll hfree hidle
      rw [← h.flag]
      exact switched_poll hpoll
    · have hcalls := h.begin_call hfree other (s.workers other).current_config_version true
      refine ⟨hflag, ?_⟩
      intro m hwaiting
      rw [State.set_worker] at hwaiting
      simp only [Function.update_of_ne (Ne.symm hsame)] at hwaiting
      exact hcalls.awaited m hwaiting
  | register hcall hstage =>
    refine ⟨hflag, (h.set_call hcall ?_).awaited⟩
    intro _ resp hanswered
    cases hanswered
  | read_version hcall hstage =>
    refine h.set_call hcall ?_
    intro _ resp hanswered
    unfold manager.read_version at hanswered
    split at hanswered <;> cases hanswered
  | build_policy hcall hstage =>
    refine h.set_call hcall ?_
    intro _ resp hanswered
    unfold manager.build_policy at hanswered
    split at hanswered <;> cases hanswered
  | finish hcall hfinish =>
    refine h.set_call hcall ?_
    rintro hworker resp rfl
    rw [filtering_enabled_of_finish hfinish, hworker, h.flag]
  | deliver hwaiting hcall hstage htrust => exact h.set_worker _ (.inl (waiting_receive ..))
  | give_up hwaiting => exact h.set_worker _ (.inl rfl)
  | copy_policy other => exact h.set_worker _ (.inr rfl)

/-- Taking an answer sets `enable` to what it reports. -/
theorem Switched.enable_of_answer (h : Switched worker_id enabled s) {trust : List (Sigma fun _ : Str => Int32)} {n : ℕ}
    {c : Call S} {resp : GetPolicyResponse S} (hwaiting : (s.workers worker_id).waiting = some n)
    (hcall : s.calls n = some c) (hanswer : c.stage = .answered (some resp)) :
    ((s.workers worker_id).receive inet trust (some resp)).enable = enabled := by
  obtain ⟨d, hd, _, hreports⟩ := h.awaited n hwaiting
  cases hcall.symm.trans hd
  rw [← hreports resp hanswer]
  obtain ⟨result, flag⟩ := resp
  cases result <;> rfl

/-- A worker that has been told stays as it is. -/
theorem Switched.enable_step {a : Action} (h : Switched worker_id enabled s)
    (henable : (s.workers worker_id).enable = enabled) (hmove : Moves codec inet s a next) : (next.workers worker_id).enable = enabled := by
  have hworker : ∀ {other : UInt64} {w : Worker S}, (other = worker_id → w.enable = enabled) →
      ((s.set_worker other w).workers worker_id).enable = enabled := by
    intro other w hw
    by_cases hsame : worker_id = other
    · subst hsame
      simpa only [State.set_worker, Function.update_self] using hw rfl
    · simpa only [State.set_worker, Function.update_of_ne hsame] using henable
  cases hmove with
  | poll hfree hidle =>
    refine hworker ?_
    rintro rfl
    exact henable
  | @deliver other trust n c resp hwaiting hcall hstage htrust =>
    refine hworker ?_
    rintro rfl
    cases resp with
    | none => exact henable
    | some resp => exact h.enable_of_answer hwaiting hcall hstage
  | give_up hwaiting =>
    refine hworker ?_
    rintro rfl
    exact henable
  | copy_policy other =>
    refine hworker ?_
    rintro rfl
    exact henable
  | _ => exact henable

end Steps

section Runs

/-- What the worker is told, over a run without restarts and commands to it. -/
theorem run_switched {acts : List Action} (hrestart : ∀ a ∈ acts, a ≠ .restart)
    (hcommands : ∀ a ∈ acts, a.commands worker_id = none) (hrun : run (step codec inet) s acts = some next)
    (h : Switched worker_id enabled s) :
    Switched worker_id enabled next ∧
      ((s.workers worker_id).enable = enabled → (next.workers worker_id).enable = enabled) := by
  have hallowed : Meets (step codec inet) (fun _ a => a ≠ .restart ∧ a.commands worker_id = none) s acts :=
    meets_of_forall (fun a ha => ⟨hrestart a ha, hcommands a ha⟩) s
  refine run_invariant (fun t => Switched worker_id enabled t ∧
    ((s.workers worker_id).enable = enabled → (t.workers worker_id).enable = enabled)) ?_ ⟨h, id⟩ hallowed hrun
  rintro t a after ⟨ht, henable⟩ ⟨ha, hnone⟩ hstep
  have hmove := moves_of_step hstep
  exact ⟨ht.step ha hnone hmove, fun hs => ht.enable_step (henable hs) hmove⟩

/-- A worker that has taken the answer to a poll is switched as the controller says,
if no command has been sent to it since the poll. -/
theorem enable_of_answered {memory : UInt64 → BasePolicy} {timeline : Timeline} {sent : ℤ} {final : State V S}
    (hsorted : timeline.Pairwise fun earlier later => earlier.1 ≤ later.1)
    (hrestart : ∀ event ∈ timeline, event.2 ≠ .restart)
    (hquiet : ∀ event ∈ timeline, sent ≤ event.1 → event.2.commands worker_id = none)
    (hrun : run (step codec inet) (State.start memory) (timeline.map Prod.snd) = some final)
    (hanswered : Answered codec inet memory timeline worker_id sent) :
    (final.workers worker_id).enable = is_filtering_enabled worker_id final.manager := by
  obtain ⟨before, n, during, taken, trust, rest, s, c, resp, rfl, hs, hwaiting, hcall, hanswer⟩ := hanswered
  have hlater : ∀ event ∈ (sent, Action.poll n worker_id) :: (during ++ (taken, .deliver worker_id trust) :: rest),
      event.2 ≠ .restart ∧ event.2.commands worker_id = none := by
    intro event hevent
    have hmem := List.mem_append_right before hevent
    refine ⟨hrestart event hmem, hquiet event hmem ?_⟩
    rcases List.mem_cons.mp hevent with rfl | hrest
    · exact le_refl _
    · exact (List.pairwise_cons.mp (List.pairwise_append.mp hsorted).2.1).1 event hrest
  rw [List.forall_mem_cons, List.forall_mem_append, List.forall_mem_cons] at hlater
  obtain ⟨_, hduring, _, hrest⟩ := hlater
  have hacts : ∀ {events : Timeline}, (∀ event ∈ events, event.2 ≠ .restart ∧ event.2.commands worker_id = none) →
      (∀ a ∈ events.map Prod.snd, a ≠ .restart) ∧ ∀ a ∈ events.map Prod.snd, a.commands worker_id = none := by
    intro events h
    constructor
    · intro a ha
      obtain ⟨event, hevent, rfl⟩ := List.mem_map.mp ha
      exact (h event hevent).1
    · intro a ha
      obtain ⟨event, hevent, rfl⟩ := List.mem_map.mp ha
      exact (h event hevent).2
  -- from the poll to the answer, over the answer, and from there to the end
  rw [List.map_append, List.map_cons] at hs hrun
  rw [List.map_append, List.map_cons, ← List.cons_append, ← List.append_assoc, run_append, hs] at hrun
  obtain ⟨first, _, hpoll⟩ := run_append_eq_some.mp hs
  obtain ⟨second, hstep, hwait⟩ := run_cons_eq_some.mp hpoll
  obtain ⟨third, hdeliver, hend⟩ := run_cons_eq_some.mp hrun
  have hswitched := (run_switched (hacts hduring).1 (hacts hduring).2 hwait (switched_poll (moves_of_step hstep))).1
  have htaken : Switched worker_id (is_filtering_enabled worker_id first.manager) third ∧
      (third.workers worker_id).enable = is_filtering_enabled worker_id first.manager := by
    have hmove := moves_of_step hdeliver
    refine ⟨hswitched.step (by simp) rfl hmove, ?_⟩
    cases hmove with
    | deliver hwaiting' hcall' hanswer' _ =>
      cases hwaiting.symm.trans hwaiting'
      cases hcall.symm.trans hcall'
      cases hanswer.symm.trans hanswer'
      simp only [State.set_worker, Function.update_self]
      exact hswitched.enable_of_answer hwaiting hcall hanswer
  obtain ⟨hfinal, henable⟩ := run_switched (hacts hrest).1 (hacts hrest).2 hend htaken.1
  rw [hfinal.flag]
  exact henable htaken.2

end Runs

/-- With filtering switched off, every packet is sent. -/
theorem view_verdict_switched_off {C : Type} (sys : System) (ops : CacheOps C) (policy : BasePolicy)
    (pkts : List (RteMbuf × PacketEnv)) (w : World C) :
    (pakage_processing sys ops policy true pkts w).wire.view Event.verdict =
      w.wire.view Event.verdict ++ pkts.map fun p => (p.1, true) := by
  simp only [pakage_processing, if_true]
  induction pkts generalizing w with
  | nil => exact (List.append_nil _).symm
  | cons p rest ih =>
    rw [List.foldl_cons, ih, view_verdict_decision, Wire.view_emit, List.map_cons, List.append_assoc, List.append_assoc]
    rfl

/-- While the controller does not restart: if a poll of a worker is as old as its
answers take, and no command has been sent to it for 45 seconds, an iteration and this
delay, it is switched as the controller says. If that is off, it sends every packet of
a burst. -/
theorem bounded_switching {C : Type} (sys : System) (ops : CacheOps C) (r : Rounding) (world : World C)
    (start longest delay now : ℤ) (hlongest : 0 ≤ longest) (hdelay : 0 ≤ delay)
    (hshort : delay ≤ MIN_POLICY_TIME * second) (turns : List Turn)
    (hpaced : Paced longest (start :: turns.map Turn.now))
    (hnow : (start :: turns.map Turn.now).getLast (List.cons_ne_nil _ _) = now) (codec : Codec V S) (inet : Inet)
    (memory : UInt64 → BasePolicy) (timeline : Timeline) (worker_id : UInt64) (final : State V S)
    (hsorted : timeline.Pairwise fun earlier later => earlier.1 ≤ later.1)
    (hrestart : ∀ event ∈ timeline, event.2 ≠ .restart)
    (hquiet : ∀ event ∈ timeline, now - (MAX_POLICY_TIME * second + longest + delay) < event.1 →
      event.2.commands worker_id = none)
    (hrun : run (step codec inet) (State.start memory) (timeline.map Prod.snd) = some final)
    (hanswered : ∀ sent ∈ (turns.foldl (MainLoop.turn sys ops r) (MainLoop.start world start)).polls,
      sent + delay ≤ now → Answered codec inet memory timeline worker_id sent)
    (hsome : ∃ sent ∈ (turns.foldl (MainLoop.turn sys ops r) (MainLoop.start world start)).polls, sent + delay ≤ now) :
    (final.workers worker_id).enable = is_filtering_enabled worker_id final.manager ∧
      (is_filtering_enabled worker_id final.manager = false → ∀ policy pkts w,
        (pakage_processing sys ops policy (!(final.workers worker_id).enable) pkts w).wire.view Event.verdict =
          w.wire.view Event.verdict ++ pkts.map fun p => (p.1, true)) := by
  have hspaced : Spaced start longest now (turns.foldl (MainLoop.turn sys ops r) (MainLoop.start world start)) :=
    hnow ▸ spaced_foldl world hpaced
  obtain ⟨sent, hsent, hready, hlate⟩ := hspaced.exists_poll hlongest hdelay hshort hsome
  have henable := enable_of_answered hsorted hrestart
    (fun event hevent htime => hquiet event hevent (lt_of_lt_of_le hlate htime)) hrun (hanswered sent hsent hready)
  refine ⟨henable, fun hoff policy pkts w => ?_⟩
  rw [henable, hoff]
  exact view_verdict_switched_off sys ops policy pkts w

/-- Worker 1 is switched off a hundred seconds before the loop starts, and polls
half a minute after. -/
def switched_timeline : Timeline :=
  (-100 * second, .toggle_filtering 1 false) :: [Action.poll 0 1, .register 0, .read_version 0, .finish 0,
    .deliver 1 []].map fun a => (30 * second, a)

theorem bounded_switching_off :
    ∃ final : State Unit Unit, run (step sample_codec Inet.mute) (State.start fun _ => BasePolicy.zero)
        (switched_timeline.map Prod.snd) = some final ∧ (final.workers 1).enable = false := by
  refine ⟨_, rfl, ?_⟩
  have hswitched := bounded_switching (filter_system udp4_net Inet.mute) (rteCaches 1) Rounding.identity
    ⟨Wire.start, Caches.empty⟩ 0 (30 * second) second (31 * second) (by decide) (by decide) (by decide) idle_turns
    paced_idle_turns rfl sample_codec Inet.mute (fun _ => BasePolicy.zero) switched_timeline 1 _ (by decide)
    (by simp [switched_timeline]) (by decide) rfl ?_ ?_
  · exact hswitched.1
  · rw [polls_idle_turns]
    intro sent hsent _
    rw [List.mem_singleton.mp hsent]
    exact ⟨[(-100 * second, .toggle_filtering 1 false)], 0,
      [.register 0, .read_version 0, .finish 0].map fun a => (30 * second, a), 30 * second, [], [], _,
      _, _, rfl, rfl, rfl, rfl, rfl⟩
  · rw [polls_idle_turns]
    exact ⟨30 * second, List.mem_singleton_self _, by decide⟩

end grpc_server.protocol
