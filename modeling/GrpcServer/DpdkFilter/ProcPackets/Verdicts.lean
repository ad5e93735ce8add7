import GrpcServer.DpdkFilter.ProcPackets.Counters
import GrpcServer.DpdkFilter.ProcPackets.Provenance

open c_memory ttl_cache grpc_server.worker

namespace grpc_server.dpdk_filter

/-- A round in which the lists, the classifier or the cache decide. -/
def Round.filtered (sys : System) (r : Round) : Bool :=
  !r.filtring_is_turned_off && !check_is_exception (sys.parse r.pkt).number_port

section Round

variable {sys : System} {hz : UInt64}

/-- Whether a packet is sent, in terms of its lookup. -/
theorem sends_eq (caches : Caches) (r : Round) :
    sends sys (rteCaches hz) caches r =
      if r.filtered sys then
        cached_solution (miss_solution sys r.policy r.env (sys.parse r.pkt)) (cache_answer sys hz caches (r.pkt, r.env))
      else true := by
  obtain ⟨policy, filtring_is_turned_off, pkt, env⟩ := r
  simp only [sends, Round.filtered, miss_solution, cache_answer, lookup_key]
  cases filtring_is_turned_off <;> cases check_is_exception (sys.parse pkt).number_port <;> simp
  by_cases hdomain : (sys.parse pkt).domain 0 = 0
  · simp only [if_pos hdomain]
    rfl
  · simp only [if_neg hdomain]
    rfl

theorem view_verdict_decision (net : RteNet) (tx_ok solution_is_send : Bool) (pkt : RteMbuf) (in_port out_port : Port)
    (w : Wire) :
    (package_sending_decision net tx_ok solution_is_send pkt in_port out_port w).view Event.verdict =
      w.view Event.verdict ++ [(pkt, solution_is_send)] := by
  rw [quiet_verdict.view_decision]
  cases solution_is_send <;> rfl

theorem view_verdict_process_with {C : Type} (net : RteNet) (env : PacketEnv) (pkt : RteMbuf) (number_port : Be16)
    {lookup_cache : C → Lookup NodeCache × C} (solution_is_send : Bool) (add_to_cache : NodeCache → C → C)
    {w : World C} (hlookup : (lookup_cache w.caches).1 = .enoent ∨ ∃ node, (lookup_cache w.caches).1 = .hit node) :
    (process_with net env pkt number_port lookup_cache solution_is_send add_to_cache w).wire.view Event.verdict =
      w.wire.view Event.verdict ++
        [(pkt, check_is_exception number_port || cached_solution solution_is_send (lookup_cache w.caches).1)] := by
  unfold process_with
  split
  · rename_i hport
    rw [view_verdict_decision, hport, Bool.true_or]
  · rename_i hport
    rw [Bool.not_eq_true] at hport
    rw [hport, Bool.false_or]
    split
    · rename_i node caches hpair
      rw [view_verdict_decision, hpair]
      rfl
    · rename_i caches hpair
      rw [view_verdict_decision, hpair]
      rfl
    · rename_i caches hpair
      rw [hpair] at hlookup
      obtain henoent | ⟨node, hhit⟩ := hlookup
      · cases henoent
      · cases hhit

/-- Every packet gets one verdict. -/
theorem view_verdict_process_round (w : World Caches) (r : Round) :
    (process_round sys (rteCaches hz) w r).wire.view Event.verdict =
      w.wire.view Event.verdict ++ [(r.pkt, sends sys (rteCaches hz) w.caches r)] := by
  unfold process_round
  split
  · rename_i hoff
    rw [view_verdict_decision, sends, hoff]
    simp [Event.verdict]
  · rename_i hoff
    rw [Bool.not_eq_true] at hoff
    rw [process_packet_eq, view_verdict_process_with, view_verdict_received, sends_eq, Round.filtered, hoff]
    · cases check_is_exception (sys.parse r.pkt).number_port <;> rfl
    · exact cache_answer_cases sys hz w.caches (r.pkt, r.env)

end Round

section Rule

/-- A property of verdicts that an entry stored for one packet has for the packets
it is served to as well. -/
def SharedByKey (good : InfoOfPakage → Bool → Prop) : Prop :=
  ∀ first second verdict, first.domain.Terminated → stored_key first = lookup_key second → good first verdict →
    good second verdict

/-- Every cached verdict is good for every packet that its key answers. -/
def GoodEntries (good : InfoOfPakage → Bool → Prop) : Caches → Prop :=
  EveryEntry fun key node => ∀ info_pac, lookup_key info_pac = key → good info_pac node.solution_is_send

variable {sys : System} {good : InfoOfPakage → Bool → Prop}

/-- The packet's name has a terminator, and a miss gives it a good verdict. -/
def GoodMiss (sys : System) (good : InfoOfPakage → Bool → Prop) (r : Round) : Prop :=
  r.filtered sys = true → (sys.parse r.pkt).domain.Terminated ∧
    good (sys.parse r.pkt) (miss_solution sys r.policy r.env (sys.parse r.pkt))

/-- One packet: the entries stay good, and a packet that is filtered gets a good
verdict from them. -/
theorem GoodEntries.process_round (hz : UInt64) {w : World Caches} (hshared : SharedByKey good)
    (h : GoodEntries good w.caches) {r : Round} (hr : GoodMiss sys good r) :
    GoodEntries good (dpdk_filter.process_round sys (rteCaches hz) w r).caches ∧
      (r.filtered sys = true → good (sys.parse r.pkt) (sends sys (rteCaches hz) w.caches r)) := by
  constructor
  · unfold dpdk_filter.process_round
    split
    · exact h
    · rename_i hoff
      refine EveryEntry.process_packet h fun hport _ _ info_pac hkey => ?_
      obtain ⟨hterm, hgood⟩ := hr (by simp [Round.filtered, hoff, hport])
      exact hshared _ _ _ hterm hkey.symm hgood
  · intro hfiltered
    rw [sends_eq, if_pos hfiltered]
    obtain henoent | ⟨node, hhit⟩ := cache_answer_cases sys hz w.caches (r.pkt, r.env)
    · rw [henoent]
      exact (hr hfiltered).2
    · rw [hhit]
      exact h.served hhit _ rfl

/-- A whole run: the packets get their verdicts in order, those that are filtered
good ones and all others are sent. -/
theorem GoodEntries.run (hz : UInt64) {w : World Caches} (hshared : SharedByKey good) (h : GoodEntries good w.caches)
    {rounds : List Round} (hrounds : ∀ r ∈ rounds, GoodMiss sys good r) :
    ∃ verdicts, (rounds.foldl (dpdk_filter.process_round sys (rteCaches hz)) w).wire.view Event.verdict =
        w.wire.view Event.verdict ++ verdicts ∧
      List.Forall₂ (fun r verdict => verdict.1 = r.pkt ∧
        if r.filtered sys then good (sys.parse r.pkt) verdict.2 else verdict.2 = true) rounds verdicts := by
  induction rounds generalizing w with
  | nil => exact ⟨[], (List.append_nil _).symm, .nil⟩
  | cons r rounds ih =>
    obtain ⟨hround, hrest⟩ := List.forall_mem_cons.mp hrounds
    obtain ⟨hkept, hverdict⟩ := h.process_round hz hshared hround
    obtain ⟨verdicts, hview, hgood⟩ := ih hkept hrest
    refine ⟨(r.pkt, sends sys (rteCaches hz) w.caches r) :: verdicts, ?_, .cons ⟨rfl, ?_⟩ hgood⟩
    · rw [List.foldl_cons, hview, view_verdict_process_round, List.append_assoc, List.singleton_append]
    · split
      · rename_i hfiltered
        exact hverdict hfiltered
      · rename_i hfiltered
        simp only [sends_eq, if_neg hfiltered]

end Rule

end grpc_server.dpdk_filter
