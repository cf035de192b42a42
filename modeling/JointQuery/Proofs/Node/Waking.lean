import JointQuery.Proofs.Node.Attempts
import JointQuery.Proofs.Node.Departure

/-! When a sender is run. The end of its session rouses it at once. In a run that lets nothing wait,
in which time stands still while anything can run and is not moved past a timer, the pause of a sender
ends neither early nor late. -/
namespace JointQuery

namespace Agenda

/-- No timer makes a task try again. -/
def Unset (agenda : Agenda) (task : TaskId) : Prop :=
  ∀ timer ∈ agenda.timers, timer.kind = .retry → timer.task ≠ task

variable {agenda next : Agenda} {task : TaskId} {time : Nat} {timer : Timer}

private theorem Unset.retains (unset : agenda.Unset task) (retains : agenda.Retains ∅ next) :
    next.Unset task := fun timer member retry =>
  unset timer ((retains.retries timer retry (by simp)).mp member) retry

private theorem timers_wakeAll (agenda : Agenda) (tasks : List TaskId) :
    (agenda.wakeAll tasks).timers = agenda.timers := by
  induction tasks generalizing agenda with
  | nil => rfl
  | cons task rest ih =>
    refine (ih _).trans ?_
    unfold wake
    split <;> rfl

private theorem timers_moveTo (agenda : Agenda) (time : Nat) :
    (agenda.moveTo time).timers = agenda.timers.dropWhile (·.due ≤ time) := timers_wakeAll ..

private theorem sorted_moveTo (sorted : agenda.Sorted) (time : Nat) :
    (agenda.moveTo time).Sorted := by
  unfold Sorted
  rw [timers_moveTo]
  exact sorted.sublist (List.dropWhile_sublist _)

private theorem now_moveTo (agenda : Agenda) (time : Nat) : (agenda.moveTo time).now = time :=
  (extends_wakeAll ..).now

/-- A timer stays set if and only if it is due later. -/
theorem mem_timers_moveTo (sorted : agenda.Sorted) :
    timer ∈ (agenda.moveTo time).timers ↔ timer ∈ agenda.timers ∧ time < timer.due := by
  rw [timers_moveTo]
  obtain ⟨now, ready, timers⟩ := agenda
  replace sorted : timers.Pairwise (·.due ≤ ·.due) := sorted
  induction timers with
  | nil => simp
  | cons first rest ih =>
    obtain ⟨least, others⟩ := List.pairwise_cons.mp sorted
    by_cases due : first.due ≤ time
    · simp only [List.dropWhile_cons, due, decide_true, if_true, List.mem_cons]
      refine (ih others).trans ⟨fun ⟨member, later⟩ => ⟨.inr member, later⟩, ?_⟩
      rintro ⟨rfl | member, later⟩
      · omega
      · exact ⟨member, later⟩
    · simp only [List.dropWhile_cons, due, decide_false, Bool.false_eq_true, if_false]
      refine (and_iff_left_of_imp fun member => ?_).symm
      rcases List.mem_cons.mp member with rfl | member
      · omega
      · have order := least timer member
        omega

/-- A timer that is due by then lets its task run. -/
theorem ready_moveTo (sorted : agenda.Sorted) (member : timer ∈ agenda.timers)
    (due : timer.due ≤ time) : timer.task ∈ (agenda.moveTo time).ready := by
  refine mem_wakeAll _ (List.mem_map_of_mem ?_)
  have split : timer ∈ agenda.timers.takeWhile (·.due ≤ time) ++
      agenda.timers.dropWhile (·.due ≤ time) := by
    rwa [List.takeWhile_append_dropWhile]
  refine (List.mem_append.mp split).resolve_right fun kept => ?_
  rw [← timers_moveTo, mem_timers_moveTo sorted] at kept
  omega

end Agenda

namespace Node

variable {node after : Node} {place : Nat} {party : Party} {flight : Flight} {exempt : Set TaskId}
  {operation : Operation}

/-! ## The end of a session -/

/-- The sender of a session that has ended can run, unless it has ended itself. -/
def Roused (node : Node) (place : Nat) (party : Party) : Prop :=
  node.Ended place → (node.sender place party).isUnderway = true →
    .sender place party ∈ node.agenda.ready

private theorem Ended.of_front (front : after.front = node.front) (ended : after.Ended place) :
    node.Ended place := by
  obtain ⟨session, present, final⟩ := ended
  have same := (session?_of_front front place).symm.trans present
  exact ⟨session, (node.session?_eq place).trans same, final⟩

private theorem Roused.steady (roused : node.Roused place party)
    (everyone : ∀ party, party ∈ node.directory.targets) (steady : node.Steady exempt after)
    (outside : .sender place party ∉ exempt) : after.Roused place party := by
  intro ended underway
  rw [steady.senders place party outside] at underway
  rcases steady.ends place ended with before | woken
  · exact steady.agenda.ready _ (roused before underway) outside
  · exact woken party (everyone party) outside

private theorem Roused.moveTo (roused : node.Roused place party) (time : Nat) :
    (node.moveTo time).Roused place party := fun ended underway =>
  (Agenda.extends_wakeAll _ _).ready _ (roused ended underway)

/-- Time is moved on only when nothing can run, and no further than to the next timer. -/
def Timely (node : Node) : Operation → Prop
  | .moveTo time => node.isAtRest = true ∧ node.now ≤ time ∧
      ∀ timer ∈ node.agenda.timers, time ≤ max timer.due node.now
  | _ => True

/-- A run that lets nothing wait. -/
def Prompt : Node → List Operation → Prop
  | _, [] => True
  | node, operation :: rest => node.Timely operation ∧ Prompt (node.perform operation) rest

/-- The sender of a session to a party is run when its pause is over, and has no timer beside. -/
structure Wakes (node : Node) (place : Nat) (party : Party) : Prop where
  sorted : node.agenda.Sorted
  timers : ∀ timer ∈ node.agenda.timers, timer.kind = .retry →
    timer.task = .sender place party → node.now < timer.due ∧
      ∃ backoff, node.sender place party = .pausing backoff timer.due
  late : ∀ backoff due, node.sender place party = .pausing backoff due → due ≤ node.now →
    due = node.now ∧ .sender place party ∈ node.agenda.ready
  early : ∀ backoff due, node.sender place party = .pausing backoff due → node.now < due →
    ⟨due, .sender place party, .retry⟩ ∈ node.agenda.timers

namespace Wakes

private theorem of_unset (sorted : node.agenda.Sorted)
    (unset : node.agenda.Unset (.sender place party))
    (other : ∀ backoff due, node.sender place party ≠ .pausing backoff due) :
    node.Wakes place party :=
  ⟨sorted, fun timer member retry own => absurd own (unset timer member retry),
    fun backoff due pausing => absurd pausing (other backoff due),
    fun backoff due pausing => absurd pausing (other backoff due)⟩

/-- A pause that is over makes its sender ready. -/
theorem of_ready {backoff : Backoff} (sorted : node.agenda.Sorted)
    (unset : node.agenda.Unset (.sender place party))
    (pausing : node.sender place party = .pausing backoff node.now)
    (ready : .sender place party ∈ node.agenda.ready) : node.Wakes place party := by
  refine ⟨sorted, fun timer member retry own => absurd own (unset timer member retry),
    fun other due pauses _ => ?_, fun other due pauses later => ?_⟩ <;>
    obtain ⟨-, rfl⟩ := Sender.pausing.inj (pausing.symm.trans pauses)
  · exact ⟨rfl, ready⟩
  · exact absurd later (Nat.lt_irrefl _)

/-- A pause that is not over has a timer set for its end. -/
theorem of_setTimer {backoff : Backoff} {due : Nat} (sorted : node.agenda.Sorted)
    (unset : node.agenda.Unset (.sender place party))
    (pausing : node.sender place party = .pausing backoff due) (later : node.now < due) :
    (node.setTimer (.sender place party) .retry due).Wakes place party := by
  have retains : node.agenda.Retains {.sender place party}
      (node.agenda.setTimer (.sender place party) .retry due) :=
    Agenda.retains_setTimer _ (fun _ => Set.mem_singleton _) due
  have free : node.agenda.isSet (.sender place party) .retry = false := by
    rw [Bool.eq_false_iff, ne_eq, Agenda.isSet_iff]
    rintro ⟨timer, member, own, retry⟩
    exact unset timer member retry own
  have now : (node.setTimer (.sender place party) .retry due).now = node.now := retains.now
  refine ⟨retains.sorted sorted, fun timer member retry own => ?_,
    fun other end_ pauses past => ?_, fun other end_ pauses _ => ?_⟩
  · rcases Agenda.mem_setTimer.mp member with before | ⟨-, rfl⟩
    · exact absurd own (unset timer before retry)
    · exact ⟨now ▸ later, backoff, pausing⟩
  · obtain ⟨-, rfl⟩ := Sender.pausing.inj (pausing.symm.trans pauses)
    rw [now] at past
    exact absurd later (Nat.not_lt_of_le past)
  · obtain ⟨-, rfl⟩ := Sender.pausing.inj (pausing.symm.trans pauses)
    exact Agenda.mem_setTimer.mpr (.inr ⟨free, rfl⟩)

/-- A sender that does not pause for any longer has no timer. -/
theorem unset (wakes : node.Wakes place party)
    (past : ∀ backoff due, node.sender place party = .pausing backoff due → due ≤ node.now) :
    node.agenda.Unset (.sender place party) := by
  intro timer member retry own
  obtain ⟨early, backoff, pausing⟩ := wakes.timers timer member retry own
  exact Nat.not_le_of_lt early (past backoff _ pausing)

private theorem steady (wakes : node.Wakes place party) (steady : node.Steady exempt after)
    (outside : .sender place party ∉ exempt) : after.Wakes place party := by
  have now : after.now = node.now := steady.agenda.now
  have same := steady.senders place party outside
  refine ⟨steady.agenda.sorted wakes.sorted, fun timer member retry own => ?_,
    fun backoff due pausing past => ?_, fun backoff due pausing later => ?_⟩
  · rw [now, same]
    exact wakes.timers timer ((steady.agenda.retries timer retry (own ▸ outside)).mp member) retry own
  · rw [now] at past ⊢
    obtain ⟨exactly, ready⟩ := wakes.late backoff due (same ▸ pausing) past
    exact ⟨exactly, steady.agenda.ready _ ready outside⟩
  · rw [now] at later
    exact (steady.agenda.retries _ rfl outside).mpr (wakes.early backoff due (same ▸ pausing) later)

/-- A sender that pauses is not ready when time moves, so that its pause is not over. -/
theorem moveTo (wakes : node.Wakes place party) {time : Nat}
    (timely : node.Timely (.moveTo time)) : (node.moveTo time).Wakes place party := by
  obtain ⟨rest, onward, next⟩ := timely
  have now : (node.moveTo time).now = time := Agenda.now_moveTo ..
  have idle : node.agenda.ready = [] := List.isEmpty_iff.mp rest
  have waits (backoff : Backoff) (due : Nat)
      (pausing : node.sender place party = .pausing backoff due) :
      node.now < due ∧ time ≤ due ∧ ⟨due, .sender place party, .retry⟩ ∈ node.agenda.timers := by
    have early : node.now < due := by
      by_contra past
      have ready := (wakes.late backoff due pausing (Nat.le_of_not_lt past)).2
      rw [idle] at ready
      cases ready
    have set := wakes.early backoff due pausing early
    have bound := next _ set
    exact ⟨early, by dsimp only at bound; omega, set⟩
  refine ⟨Agenda.sorted_moveTo wakes.sorted time, fun timer member retry own => ?_,
    fun backoff due pausing past => ?_, fun backoff due pausing later => ?_⟩
  · obtain ⟨before, later⟩ := (Agenda.mem_timers_moveTo wakes.sorted).mp member
    exact ⟨now.symm ▸ later, (wakes.timers timer before retry own).2⟩
  · obtain ⟨early, bound, set⟩ := waits backoff due pausing
    rw [now] at past ⊢
    exact ⟨Nat.le_antisymm past bound, Agenda.ready_moveTo wakes.sorted set past⟩
  · rw [now] at later
    exact (Agenda.mem_timers_moveTo wakes.sorted).mpr ⟨(waits backoff due pausing).2.2, later⟩

end Wakes

theorem wakes_endSender (held : node.flights[place]? = some flight) (sorted : node.agenda.Sorted)
    (result : Except QueryError Unit) : (node.endSender place party result).Wakes place party := by
  have cancels : (node.agenda.cancelTimer (.sender place party) .retry).Unset
      (.sender place party) := fun timer member retry own =>
    (Agenda.mem_cancelTimer.mp member).2 ⟨own, retry⟩
  have agenda : (node.endSender place party result).agenda =
      (node.agenda.cancelTimer (.sender place party) .retry).wake (.fanOut place) := by
    rw [endSender_eq]
    rfl
  refine .of_unset ?_ ?_ fun backoff due pausing => ?_
  · rw [agenda]
    exact (Agenda.retains_wake _ _ : Agenda.Retains ∅ _ _).sorted (List.Pairwise.filter _ sorted)
  · rw [agenda]
    exact cancels.retains (Agenda.retains_wake ..)
  · rw [sender_endSender held] at pausing
    cases pausing

theorem wakes_settleSender (held : node.flights[place]? = some flight)
    (sorted : node.agenda.Sorted) (unset : node.agenda.Unset (.sender place party))
    (backoff : Backoff) (channel : Nat) (sending : Sending) :
    (node.settleSender place party backoff channel sending).Wakes place party := by
  cases sending with
  | sent => exact wakes_endSender held sorted _
  | parked =>
    refine .of_unset sorted unset fun backoff due pausing => ?_
    rw [settleSender, sender_setSender held] at pausing
    cases pausing
  | failed cause =>
    have forgets : node.Steady ∅ (node.forgetChannel party cause) :=
      steady_of_edits (edits_forgetChannel trivial fun _ _ _ _ _ _ => trivial)
    have forgotten : (node.forgetChannel party cause).flights[place]? = some flight := by
      rwa [flights_forgetChannel]
    have ordered := forgets.agenda.sorted sorted
    have free := unset.retains forgets.agenda
    have now : (node.forgetChannel party cause).now = node.now := forgets.agenda.now
    simp only [settleSender, retrySender]
    rw [← now]
    cases backoff.sleep with
    | none => exact wakes_endSender forgotten ordered _
    | some pause =>
      obtain ⟨delay, next⟩ := pause
      have set : ((node.forgetChannel party cause).setSender place party (.pausing next
          ((node.forgetChannel party cause).now + delay.toNat))).sender place party =
          .pausing next ((node.forgetChannel party cause).now + delay.toNat) :=
        sender_setSender forgotten _
      dsimp only
      split
      · rename_i none
        subst none
        have first : (node.forgetChannel party cause).agenda.Retains ∅
            ((node.forgetChannel party cause).agenda.wakeFirst (.sender place party)) :=
          Agenda.retains_wakeFirst ..
        exact .of_ready (first.sorted ordered) (free.retains first) set List.mem_cons_self
      · rename_i some
        have positive : 0 < delay.toNat :=
          Nat.pos_of_ne_zero fun none => some (UInt64.toNat_inj.mp none)
        exact .of_setTimer ordered free set (Nat.lt_add_of_pos_right positive)

theorem wakes_attempt (held : node.flights[place]? = some flight) (sorted : node.agenda.Sorted)
    (unset : node.agenda.Unset (.sender place party)) (backoff : Backoff)
    (message : PartyMessage) : (node.attempt place party backoff message).Wakes place party := by
  have acquires : node.Steady ∅ (node.acquire party).1 :=
    steady_of_edits (edits_acquire trivial)
  have flights := node.flights_acquire party
  unfold attempt
  generalize node.acquire party = result at acquires flights
  obtain ⟨acquired, cause | channel⟩ := result
  · exact wakes_settleSender (flights ▸ held) (acquires.agenda.sorted sorted)
      (unset.retains acquires.agenda) backoff 0 (.failed cause)
  · have sends : node.Steady ∅ (acquired.send (.sender place party) channel message).1 :=
      acquires.trans (steady_of_edits (edits_send fun _ _ => trivial))
    have sent := (acquired.sends_send (.sender place party) channel message).flights
    exact wakes_settleSender (sent ▸ flights ▸ held) (sends.agenda.sorted sorted)
      (unset.retains sends.agenda) backoff channel _

/-- A run of a sender leaves it to be run again when it should be. -/
theorem Wakes.pollSender (wakes : node.Wakes place party) (flights : after.flights = node.flights)
    (now : after.now = node.now) (timers : after.agenda.timers = node.agenda.timers) :
    (after.pollSender place party).Wakes place party := by
  have same : after.sender place party = node.sender place party := sender_of_flights flights
  have sorted : after.agenda.Sorted := by
    unfold Agenda.Sorted
    exact timers ▸ wakes.sorted
  have unset (past : ∀ backoff due, after.sender place party = .pausing backoff due →
      due ≤ after.now) : after.agenda.Unset (.sender place party) := by
    unfold Agenda.Unset
    rw [timers]
    exact wakes.unset (same ▸ now ▸ past)
  unfold Node.pollSender
  split
  · rename_i absent
    have none : after.sender place party = .unstarted := by simp [sender, absent]
    exact .of_unset sorted (unset (by simp [none])) (by simp [none])
  · rename_i flight held
    have state : after.sender place party = flight.senders.get party := sender_of_flight held
    dsimp only
    split
    · rename_i unstarted
      rw [unstarted] at state
      exact .of_unset sorted (unset (by simp [state])) (by simp [state])
    · rename_i ended
      rw [ended] at state
      exact .of_unset sorted (unset (by simp [state])) (by simp [state])
    · rename_i backoff due pausing
      rw [pausing] at state
      split
      · exact wakes_endSender held sorted _
      · split
        · rename_i past
          refine wakes_attempt held sorted (unset fun other later pauses => ?_) _ _
          obtain ⟨-, rfl⟩ := Sender.pausing.inj (state.symm.trans pauses)
          exact past
        · rename_i early
          refine ⟨sorted, fun timer member retry own => ?_, fun other later pauses past => ?_,
            fun other later pauses later => ?_⟩
          · rw [now, same]
            exact wakes.timers timer (timers ▸ member) retry own
          · obtain ⟨-, rfl⟩ := Sender.pausing.inj (state.symm.trans pauses)
            exact absurd past early
          · rw [timers]
            exact wakes.early other _ (same ▸ pauses) (now ▸ later)
    · rename_i backoff channel parked
      rw [parked] at state
      have free := unset (by simp [state])
      split
      · exact wakes_endSender (by exact held)
          ((steady_of_edits (edits_abandonBytes trivial) : after.Steady ∅ _).agenda.sorted sorted) _
      · have resumes : after.Steady ∅ (after.resumeSend (.sender place party) channel
            flight.session.startMessage).1 := steady_of_edits (edits_resumeSend fun _ _ => trivial)
        have resumed := (after.sends_resumeSend (.sender place party) channel
          flight.session.startMessage).flights
        exact wakes_settleSender (resumed ▸ held) (resumes.agenda.sorted sorted)
          (free.retains resumes.agenda) _ _ _

theorem Prompt.before {earlier later : List Operation} (prompt : node.Prompt (earlier ++ later)) :
    node.Prompt earlier := by
  induction earlier generalizing node with
  | nil => trivial
  | cons operation rest ih => exact ⟨prompt.1, ih prompt.2⟩

end Node

end JointQuery
