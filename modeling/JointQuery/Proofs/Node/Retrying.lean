import JointQuery.Proofs.Node.Failing

/-! The attempts of the senders, counted over every run: how many there are, how long a sender pauses
between them, how it ends, and what becomes of the session when a party cannot be reached. -/
namespace JointQuery.Node

open ClientEvent

variable {node : Node} {place : Nat} {party : Party} {tries : List Try}

/-! ## Senders that have ended -/

/-- A sender that fails in a turn has just made its last try, unless its session has ended. -/
theorem Turn.failed {config : Config} {starts : Nat → Nat → Prop} {now : Nat} {refuses : Prop}
    {session : Session} {more : List Try} {sender next : Sender} {cause : QueryError}
    (turn : Turn now refuses party session tries sender next more)
    (account : Account config starts party tries sender) (failed : next = .ended (.error cause)) :
    next = sender ∧ more = tries ∨ session.isTerminal = true ∨
      ∃ one cause, more.getLast? = some one ∧ one.Failed party now cause := by
  have faulty {backoff : Backoff} {channel : Nat} {sending : Sending}
      (failed : Sender.settled backoff channel now sending = .ended (.error cause)) :
      ∃ cause, sending = .failed cause := by
    cases sending with
    | sent | parked => cases failed
    | failed cause => exact ⟨cause, rfl⟩
  cases turn with
  | rests | early => exact .inl ⟨rfl, rfl⟩
  | cancelled underway ended => exact .inr (.inl ended)
  | tried live late once faults =>
    obtain ⟨cause, rfl⟩ := faulty failed
    exact .inr (.inr ⟨_, cause, List.getLast?_concat, faults cause rfl, rfl⟩)
  | resumed live faults =>
    obtain ⟨cause, rfl⟩ := faulty failed
    cases account with
    | parked =>
      rw [List.modifyLast_concat]
      exact .inr (.inr ⟨_, cause, List.getLast?_concat, faults cause rfl, rfl⟩)

/-- A session has failed, and its client, if it had room, was told of a party that could not be
reached and of no other error. -/
structure FailedOnce (node : Node) (place : Nat) (session : Session) (after : Node) : Prop where
  failed : ∃ ended, after.session? place = some ended ∧ ended.state = .failed
  told : ∀ queue, node.clients[session.client]? = some queue → queue.isConnected = true →
    queue.room ≠ 0 → ∃ peer reason,
      node.sender place peer = .ended (.error (.connectFailed peer reason)) ∧
      (after.told place session.client).filter isError =
        [.ofError (some session.id) (.connectFailed peer reason)]

/-- A live session of which a sender has failed, for good. -/
structure Doomed (first : Node) (operations : List Operation) (node : Node) (place : Nat)
    (party : Party) (tries : List Try) (session : Session) : Prop where
  ready : .fanOut place ∈ node.agenda.ready
  /-- If nothing waits, the sender has failed just now. -/
  promptly : first.Prompt operations →
    ∃ one cause, tries.getLast? = some one ∧ one.Failed party node.now cause
  fails : ∀ later after, (node.perform (.run (.fanOut place))).performAll later = after →
    node.FailedOnce place session after

/-- The account of the attempts that a sender has made from the first node of a run to its last. -/
structure Retries (config : Config) (first : Node) (operations : List Operation) (node : Node)
    (place : Nat) (party : Party) (tries : List Try) : Prop where
  few : tries.length ≤ config.attempts
  dials : ∀ one ∈ tries, one.dials ≤ 1
  /-- Another attempt is made only after a failure, and no earlier than the pause is over. -/
  paused : Paused config (· ≤ ·) party tries
  /-- Nor is it made later, if nothing waits. -/
  promptly : first.Prompt operations → Paused config (· = ·) party tries
  wakes : first.Prompt operations → ∀ backoff due, node.sender place party = .pausing backoff due →
    if node.now < due then ⟨due, .sender place party, .retry⟩ ∈ node.agenda.timers
    else due = node.now ∧ .sender place party ∈ node.agenda.ready
  sent_iff : node.sender place party = .ended (.ok ()) ↔
    ∃ one, tries.getLast? = some one ∧ one.Sent
  starts_iff : node.sender place party = .ended (.ok ()) ↔ node.starts place party ≠ []
  /-- A sender fails for want of a connection if and only if it has failed as often as it may. -/
  exhausted_iff : (∃ reason,
      node.sender place party = .ended (.error (.connectFailed party reason))) ↔
    tries.length = config.attempts ∧ ∀ one ∈ tries, ∃ ended cause, one.Failed party ended cause
  /-- It is cancelled if and only if it was run after the end of its session, still under way. -/
  cancelled_iff : (∃ id, node.sender place party = .ended (.error (.cancelled id))) ↔
    ∃ before rest, operations = before ++ .run (.sender place party) :: rest ∧
      (first.performAll before).Ended place ∧
      ((first.performAll before).sender place party).isUnderway = true
  causes : ∀ cause, node.sender place party = .ended (.error cause) →
    (∃ reason, cause = .connectFailed party reason) ∨ ∃ id, cause = .cancelled id
  roused : node.Ended place → (node.sender place party).isUnderway = true →
    .sender place party ∈ node.agenda.ready
  /-- If its party refuses at each run of the sender, each attempt dials. -/
  refused : (∀ before rest, operations = before ++ .run (.sender place party) :: rest →
      (first.performAll before).Refuses party) →
    ∀ one ∈ tries, one.dials = 1 ∧
      ∃ ended reason, one.Failed party ended (.connectFailed party reason)
  doomed : ∀ session cause, node.session? place = some session → session.isTerminal = false →
    node.sender place party = .ended (.error cause) →
    Doomed first operations node place party tries session

end JointQuery.Node
