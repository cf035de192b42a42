import JointQuery.Proofs.Node.Working

/-! The frames that start a session at its parties, over every run. They are only ever added to, and
to those of a session that has ended nothing is added. -/
namespace JointQuery.Node

variable {told : Bool} {active : Nat → Prop} {node middle after : Node} {index place : Nat}

/-- The session at a place has ended. -/
def Ended (node : Node) (place : Nat) : Prop :=
  ∃ session, node.session? place = some session ∧ session.isTerminal = true

/-- A session that is to end has ended, whether it was live or not. -/
theorem ended_finish {session : Session} (present : node.session? place = some session)
    {target : SessionState} (final : target.isTerminal = true) :
    (node.finish place target).1.Ended place := by
  by_cases live : session.isTerminal = false
  · obtain ⟨-, ends⟩ := finish_of_live present live target
    refine ⟨(session.finish target).1, ?_, ?_⟩
    · rw [session?_of_front ends]
      exact Ledger.sessions_put_self ((session?_eq ..).symm.trans present) _
    · rw [Session.finish_of_live live]
      exact final
  · have ended : ∀ other, node.session? place = some other → other.isTerminal = true := by
      intro other found
      obtain rfl := Option.some.inj (present.symm.trans found)
      simpa using live
    rw [finish_of_ended ended]
    exact ⟨session, present, ended session present⟩

/-- A node later on, as far as the start of the session at a place goes. Frames that start it stay;
once it has ended, it stays so and none is added. -/
structure Starts (node after : Node) (place : Nat) : Prop where
  ended : node.Ended place → after.Ended place
  frames : ∀ party, ∃ added, (after.starts place party).Perm (node.starts place party ++ added) ∧
    (node.Ended place → added = [])

namespace Starts

private theorem trans (earlier : node.Starts middle place) (later : middle.Starts after place) :
    node.Starts after place where
  ended := later.ended ∘ earlier.ended
  frames party := by
    obtain ⟨first, grown, still⟩ := earlier.frames party
    obtain ⟨second, further, quiet⟩ := later.frames party
    refine ⟨first ++ second, ?_, fun ended => ?_⟩
    · rw [← List.append_assoc]
      exact further.trans (grown.append_right second)
    · rw [still ended, quiet (earlier.ended ended), List.append_nil]

/-- Nothing is added where no frame comes or goes. -/
theorem of_perm (ended : node.Ended place → after.Ended place)
    (same : ∀ party, (after.starts place party).Perm (node.starts place party)) :
    node.Starts after place where
  ended := ended
  frames party := ⟨[], by rw [List.append_nil]; exact same party, fun _ => rfl⟩

private theorem of_same (channels : after.channels = node.channels)
    (ended : node.Ended place → after.Ended place) : node.Starts after place :=
  .of_perm ended fun party => .of_eq (starts_of_channels channels place party)

private theorem refl (node : Node) (place : Nat) : node.Starts node place := .of_same rfl id

end Starts

/-- A session that has ended stays so, whatever happens to it. -/
theorem Flies.isTerminal {flight next : Flight} (flies : Flies told active node place flight next)
    (ended : flight.session.isTerminal = true) : next.session.isTerminal = true := by
  cases flies with
  | grew continues => exact (congrArg SessionState.isTerminal continues.state).trans ended
  | awaited sent =>
    exact (flight.session.transition_live rfl rfl).2.1.trans ended
  | ended live final heard => simp [live] at ended
  | launched idle may now => exact (flight.session.transition_live rfl rfl).2.1.trans ended
  | reported | tried | started | joined => exact ended

private theorem ended_modifyFlight {flight : Flight} (held : node.flights[place]? = some flight)
    {f : Flight → Flight} {other : Nat}
    (ends : flight.session.isTerminal = true → (f flight).session.isTerminal = true)
    (ended : node.Ended other) : (node.modifyFlight place f).Ended other := by
  obtain ⟨session, present, final⟩ := ended
  by_cases same : other = place
  · subst same
    obtain rfl := Option.some.inj ((session?_of_flight held).symm.trans present)
    exact ⟨(f flight).session, by rw [session?_modifyFlight held, if_pos rfl], ends final⟩
  · exact ⟨session, by rw [session?_modifyFlight held, if_neg same, present], final⟩

/-- A frame that starts a session is put on a channel only while the session is live. -/
theorem Starts.sent {flight : Flight} {channel : Channel} {frame : Frame} {place other : Nat}
    (present : node.flights[place]? = some flight)
    (held : node.channels[index]? = some channel) (live : flight.session.isTerminal = false)
    (starts : frame.session = some place) : node.Starts
      ((node.setChannel index (channel.push frame)).setSender place channel.party (.ended (.ok ())))
      other := by
  refine ⟨fun ended => ?_, fun party => ⟨_, starts_push held frame party, fun ended => ?_⟩⟩
  · have present' : (node.setChannel index (channel.push frame)).flights[place]? = some flight :=
      present
    exact ended_modifyFlight present' id ended
  · obtain ⟨session, found, final⟩ := ended
    have elsewhere : place ≠ other := by
      rintro rfl
      obtain rfl := Option.some.inj ((session?_of_flight present).symm.trans found)
      simp [live] at final
    have none : startsOf other [frame] = [] := by simp [startsOf, starts, elsewhere]
    rw [none, ite_self]

/-- Every change adds to the frames that start a session, and only while it is live. -/
theorem Change.starts (change : Change told active node after) (place : Nat) :
    node.Starts after place := by
  cases change with
  | beside same =>
    exact .of_same same.channels fun ⟨session, found, final⟩ =>
      ⟨session, (same.session? place).trans found, final⟩
  | joined | queued | filed | settled | unpooled => exact .of_same rfl id
  | entered session fresh blank =>
    refine .of_same rfl fun ⟨found, present, final⟩ => ⟨found, ?_, final⟩
    obtain ⟨flight, held, rfl⟩ := Option.map_eq_some_iff.mp present
    have inside : place < node.flights.length := (List.getElem?_eq_some_iff.mp held).1
    rw [session?, List.getElem?_append_left inside, held, Option.map_some]
  | flew held flies => exact .of_same rfl (ended_modifyFlight held flies.isTerminal)
  | opened party => exact .of_perm id fun other => .of_eq (node.framesTo_open party other rfl)
  | closed held => exact .of_perm id (starts_setChannel held rfl rfl)
  | posted held running apart =>
    exact .of_perm id (starts_setChannel held rfl (by simp [startsOf, Channel.push, apart]))
  | sent present held running live underway message starts =>
    exact .sent present held live starts

private theorem Changes.starts (changes : Changes told active node after) (place : Nat) :
    node.Starts after place := by
  induction changes with
  | refl => exact .refl node place
  | tail _ change ih => exact ih.trans (change.starts place)

/-- Writing, or losing, the frames of a channel adds none. -/
theorem Writes.starts (writes : Writes node index after) (place : Nat) :
    node.Starts after place := by
  have ended : node.Ended place → after.Ended place := by
    rintro ⟨session, found, final⟩
    exact ⟨session, (writes.clients.2.2 place).trans found, final⟩
  rcases writes.channels with same | ⟨channel, next, held, same, toward, frames⟩
  · exact .of_same same ended
  · refine .of_perm ended fun party => (List.Perm.of_eq (starts_of_channels same ..)).trans ?_
    exact starts_setChannel held toward (congrArg _ frames) party

private theorem starts_performAll (order : node.InOrder false) (operations : List Operation)
    (place : Nat) : node.Starts (node.performAll operations) place := by
  induction operations generalizing node with
  | nil => exact .refl node place
  | cons operation rest ih =>
    have first : node.Starts (node.perform operation) place := by
      cases writer : operation.writer? with
      | none => exact (changes_perform order writer (by simp)).starts place
      | some index => exact (writes_perform writer).starts place
    exact first.trans (ih (inOrder_perform order (by simp)))

/-! ## What was put on channels -/

/-- A party was sent the message that starts a session, or no frame to it starts the session. -/
theorem Dispatched.starts_cases {flight : Flight} (dispatched : node.Dispatched place flight)
    (party : Party) : (flight.senders.get party).isSent = false ∧ node.starts place party = [] ∨
      ∃ frame, node.starts place party = [frame] ∧
        frame.message = flight.session.startMessage := by
  have starts := dispatched.starts party
  cases sent : (flight.senders.get party).isSent with
  | false =>
    rw [sent, if_neg Bool.false_ne_true, List.perm_nil, List.map_eq_nil_iff] at starts
    exact .inl ⟨rfl, starts⟩
  | true =>
    rw [sent, if_pos rfl, List.perm_singleton, List.map_eq_singleton_iff] at starts
    exact .inr starts

private theorem Dispatches.starts_length (dispatches : node.Dispatches) (place : Nat)
    (party : Party) : (node.starts place party).length ≤ 1 := by
  cases held : node.flights[place]? with
  | none => simp [dispatches.beyond place held party]
  | some flight =>
    rcases (dispatches.flights place flight held).starts_cases party with
      ⟨-, none⟩ | ⟨frame, one, -⟩
    · simp [none]
    · simp [one]

/-- How a session is started at its parties, in every run. At most one frame that starts it is ever
put on a channel to a party, and it carries the identifier of the session, its query and the
reference of its client; a frame that was put there stays. Once the session has ended none is put
on any channel any more; and it awaits results only with one frame for each party. -/
theorem starts_once (config : Config) (limits : OutputLimits) (identifiers : Nat → QueryId)
    (operations : List Operation) (node : Node)
    (reached : (start config limits identifiers).performAll operations = node)
    (place : Nat) (session : Session) (found : node.session? place = some session) :
    (∀ party, node.starts place party = [] ∨ ∃ frame, node.starts place party = [frame] ∧
      frame.message = .startQuery session.id session.query.wire session.clientRef) ∧
    (∀ later party frame, frame ∈ node.starts place party →
      (node.performAll later).starts place party = [frame]) ∧
    (session.isTerminal = true → ∀ later party,
      (node.performAll later).starts place party = node.starts place party) ∧
    (session.state = .awaitingResults → ∀ party, ∃ frame, node.starts place party = [frame] ∧
      frame.message = .startQuery session.id session.query.wire session.clientRef) := by
  have order : node.InOrder false :=
    reached ▸ inOrder_performAll (inOrder_start false config limits identifiers) (by simp)
  obtain ⟨flight, held, rfl⟩ := Option.map_eq_some_iff.mp found
  have dispatched := order.dispatches.flights place flight held
  have startsOnce (party : Party) := dispatched.starts_cases party
  have grown (later : List Operation) := starts_performAll order later place
  refine ⟨fun party => (startsOnce party).imp And.right id, fun later party frame member => ?_,
    fun final later party => ?_, fun awaits party => ?_⟩
  · obtain ⟨added, more, -⟩ := (grown later).frames party
    have atMostOne := ((inOrder_performAll order (by simp)).dispatches :
      (node.performAll later).Dispatches).starts_length place party
    rcases startsOnce party with ⟨-, none⟩ | ⟨only, one, -⟩
    · simp [none] at member
    · rw [one, List.mem_singleton] at member
      subst member
      rw [one] at more
      have length := more.length_eq
      have nothing : added = [] := List.length_eq_zero_iff.mp (by simp at length; omega)
      exact List.perm_singleton.mp (by simpa [nothing] using more)
  · obtain ⟨added, more, quiet⟩ := (grown later).frames party
    rw [quiet ⟨_, found, final⟩, List.append_nil] at more
    rcases startsOnce party with ⟨-, none⟩ | ⟨only, one, -⟩
    · rw [none] at more ⊢
      exact List.perm_nil.mp more
    · rw [one] at more ⊢
      exact List.perm_singleton.mp more
  · have sent := dispatched.awaiting awaits party
    exact (startsOnce party).resolve_left fun ⟨unsent, _⟩ => by simp [sent] at unsent

/-- A query that is cancelled when its message to one party is on the channel, not written yet, and
that to another waits for bytes. -/
def halfSentRun : List Operation :=
  [.addClient "front" 8 0 false, .addReservation .db1 (OutputLimits.standard.get .db1),
    .run (.reservation 0), .beginQuery 0 Session.oneCount true, .run (.fanOut 0),
    .run (.sender 0 .db2), .run (.sender 0 .db1), .cancel (QueryId.numbered 0)]

/-- The first message stays the only one to its party, and the other is never sent. -/
theorem starts_once_cancelled : ∃ node session frame,
    (start (.ofParty .ph) .standard QueryId.numbered).performAll halfSentRun = node ∧
    node.session? 0 = some session ∧ session.state = .cancelled ∧
    node.delivered.length = 0 ∧
    (node.budgets.get .db1).waiters.map (·.task) = [.sender 0 .db1] ∧
    frame.message = .startQuery session.id session.query.wire session.clientRef ∧
    ∀ later, (node.performAll later).starts 0 .db2 = [frame] ∧
      (node.performAll later).starts 0 .db1 = [] := by
  have run :
      let node := (start (.ofParty .ph) .standard QueryId.numbered).performAll halfSentRun
      (node.session? 0).map (·.state) = some .cancelled ∧ node.delivered.length = 0 ∧
        (node.budgets.get .db1).waiters.map (·.task) = [.sender 0 .db1] ∧
        (node.starts 0 .db2).length = 1 ∧ (node.starts 0 .db1).length = 0 := by decide +kernel
  obtain ⟨state, unwritten, parked, one, none⟩ := run
  obtain ⟨session, found, cancelled⟩ := Option.map_eq_some_iff.mp state
  obtain ⟨once, kept, ended, -⟩ := starts_once (.ofParty .ph) .standard QueryId.numbered
    halfSentRun _ rfl 0 session found
  have final : session.isTerminal = true := by rw [Session.isTerminal, cancelled]; rfl
  rcases once .db2 with nothing | ⟨frame, only, message⟩
  · simp [nothing] at one
  · refine ⟨_, session, frame, rfl, found, cancelled, unwritten, parked, message,
      fun later => ⟨kept later .db2 frame (by simp [only]), ?_⟩⟩
    rw [ended final later .db1]
    exact List.length_eq_zero_iff.mp none

end JointQuery.Node
