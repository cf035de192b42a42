import JointQuery.Proofs.Node.Ends

/-! Everything that a node does, cut into the smallest changes that leave its work in order. A
change says what it needs: who has been told before a session ends, which senders have to be done
before results are awaited, that a frame is put on a channel to the party of its sender. The writers
of channels are the only ones whose changes are not among these. -/
namespace JointQuery

open ClientEvent

/-- A queue later on. What was queued stays, and a client that is gone does not come back. -/
structure ClientQueue.Fades {τ ε : Type} (queue next : ClientQueue τ ε) : Prop where
  events : queue.events <+: next.events
  connected : next.isConnected = true → queue.isConnected = true

/-- A session goes on in the same state. What starts it at a party stays the same. -/
structure Session.Continues (before next : Session) : Prop extends before.Grows next where
  state : next.state = before.state
  startMessage : next.startMessage = before.startMessage

/-- A sender has begun and has not ended. -/
def Sender.isUnderway : Sender → Bool
  | .pausing _ _ => true
  | .parked _ _ => true
  | _ => false

/-- The reporter of a session has begun, or a request waits to say that the session is accepted. -/
def Desk.Pursued (desk : Desk) : Prop :=
  desk.phase ≠ .idle ∨ ∃ request, desk.asks request ≠ none

namespace Node

/-- The client was there and is gone. -/
def Lost (node : Node) (client : Nat) : Prop :=
  ∃ queue, node.clients[client]? = some queue ∧ queue.isConnected = false

/-- The client was told why the session at a place has ended, or is gone. -/
def Heard (node : Node) (place client : Nat) : Prop :=
  node.Lost client ∨ Tells (node.told place client) isError

/-- The session at a place is pursued, or can be: it is live and has a client. -/
def MayPursue (node : Node) (place : Nat) : Prop :=
  (node.desk place).Pursued ∨ ∃ session queue, node.session? place = some session ∧
    session.isTerminal = false ∧ node.clients[session.client]? = some queue

/-- How far a reporter has got agrees with the session and with what its client was told. A final
state that it has seen is the state of the session, and it does not end before the client was told
of the end. -/
def Agrees (node : Node) (place : Nat) (session : Session) : Phase → Prop
  | .idle => False
  | .watching _ | .passing _ _ => True
  | .sending _ seen event => (seen.isTerminal = true → session.state = seen) ∧
      (seen = .completed → event.isAllDone = true ∨ event.doneTuple?.isSome = true)
  | .finished => session.isTerminal = true ∧ (session.state = .completed →
      node.Lost session.client ∨ Tells (node.told place session.client) isAllDone)

/-- Nodes that differ in nothing but the time, what is to be done, the links and bytes toward the
parties, and the node's errands that serve no session. -/
structure Beside (node after : Node) : Prop where
  directory : after.directory = node.directory
  delivered : after.delivered = node.delivered
  channels : after.channels = node.channels
  pooled : after.pooled = node.pooled
  clients : after.clients = node.clients
  flights : after.flights = node.flights
  requests : after.requests = node.requests

/-- What can happen to the session at a place and to the work done for it. If `told`, the client of
a session that is pursued and ends early is told of that, or gone. Only the reporters of `active`
sessions do anything. -/
inductive Flies (told : Bool) (active : Nat → Prop) (node : Node) (place : Nat) (flight : Flight) :
    Flight → Prop where
  | grew (continues : flight.session.Continues next) :
      Flies told active node place flight { flight with session := next }
  | awaited (sent : ∀ party, (flight.senders.get party).isSent = true) :
      Flies told active node place flight
        { flight with session := (flight.session.transition .dispatched .awaitingResults).1 }
  | ended (live : flight.session.isTerminal = false) (final : target.isTerminal = true)
      (heard : told = true → target ≠ .completed → (node.desk place).Pursued →
        node.Heard place flight.session.client) :
      Flies told active node place flight
        { flight with session := (flight.session.finish target).1 }
  | launched (idle : flight.reporter.phase = .idle) (may : node.MayPursue place) (now : Nat) :
      Flies told active node place flight
        { flight with
          session := (flight.session.transition .created .dispatched).1
          fanOut := .starting
          reporter := .watching 0 now }
  | reported (runs : active place) (begun : flight.reporter.phase ≠ .idle)
      (agrees : node.Agrees place flight.session reporter.phase) :
      Flies told active node place flight { flight with reporter := reporter }
  /-- A sender goes on without having sent its message. -/
  | tried (underway : (flight.senders.get party).isUnderway = true) (begun : sender ≠ .unstarted)
      (unsent : sender.isSent = false)
      (leads : ∀ backoff index, sender = .parked backoff index → node.LeadsTo index party) :
      Flies told active node place flight { flight with senders := flight.senders.set party sender }
  /-- All senders are started at once. -/
  | started (starting : flight.fanOut = .starting) (fresh : ∀ party, senders.get party =
        flight.senders.get party ∨ ∃ backoff due, senders.get party = .pausing backoff due) :
      Flies told active node place flight { flight with senders := senders, fanOut := .joining [] }
  | joined (joining : flight.fanOut = .joining ended)
      (still : fanOut = .over ∨ ∃ others, fanOut = .joining others) :
      Flies told active node place flight { flight with fanOut := fanOut }

/-- What can happen to a node in one change. -/
inductive Change (told : Bool) (active : Nat → Prop) (node : Node) : Node → Prop where
  | beside (same : node.Beside after) : Change told active node after
  | joined (ref : String) (capacity patience : Nat) :
      Change told active node
        { node with clients := node.clients ++ [.fresh ref capacity patience] }
  | queued (held : node.clients[client]? = some queue) (fades : queue.Fades next) :
      Change told active node (node.setClient client next)
  | filed (request : Request) (apart : request.state.isApart = true) :
      Change told active node { node with requests := node.requests ++ [request] }
  | settled (index : Nat)
      (may : ∀ place deadline, state = .accepting place deadline → node.MayPursue place) :
      Change told active node (node.setRequest index state)
  | entered (session : Session) (fresh : session.state = .created)
      (blank : node.desk node.flights.length = .blank) :
      Change told active node { node with flights := node.flights ++ [.fresh session] }
  | flew (held : node.flights[place]? = some flight) {f : Flight → Flight}
      (flies : Flies told active node place flight (f flight)) :
      Change told active node (node.modifyFlight place f)
  | opened (party : Party) :
      Change told active node
        { node with
          channels := node.channels ++ [.fresh party]
          pooled := node.pooled.set party (some node.channels.length) }
  | unpooled (party : Party) :
      Change told active node { node with pooled := node.pooled.set party none }
  | closed (held : node.channels[index]? = some channel) :
      Change told active node (node.setChannel index { channel with closed := true })
  | posted (held : node.channels[index]? = some channel) (running : channel.running = true)
      (apart : frame.session = none) :
      Change told active node (node.setChannel index (channel.push frame))
  /-- A sender puts the message that starts its session on a channel, and ends. -/
  | sent (present : node.flights[place]? = some flight)
      (held : node.channels[index]? = some channel) (running : channel.running = true)
      (live : flight.session.isTerminal = false)
      (underway : (flight.senders.get channel.party).isUnderway = true)
      (message : frame.message = flight.session.startMessage)
      (starts : frame.session = some place) :
      Change told active node
        ((node.setChannel index (channel.push frame)).setSender place channel.party
          (.ended (.ok ())))

/-- A series of changes. -/
abbrev Changes (told : Bool) (active : Nat → Prop) : Node → Node → Prop :=
  Relation.ReflTransGen (Change told active)

variable {told : Bool} {active : Nat → Prop} {node middle after : Node}

theorem Beside.refl (node : Node) : node.Beside node := ⟨rfl, rfl, rfl, rfl, rfl, rfl, rfl⟩

theorem Beside.trans (earlier : node.Beside middle) (later : middle.Beside after) :
    node.Beside after where
  directory := later.directory.trans earlier.directory
  delivered := later.delivered.trans earlier.delivered
  channels := later.channels.trans earlier.channels
  pooled := later.pooled.trans earlier.pooled
  clients := later.clients.trans earlier.clients
  flights := later.flights.trans earlier.flights
  requests := later.requests.trans earlier.requests

theorem Beside.changes (same : node.Beside after) : Changes told active node after :=
  .single (.beside same)

theorem Changes.beside (changes : Changes told active node middle) (same : middle.Beside after) :
    Changes told active node after := changes.tail (.beside same)

theorem Change.upTo (change : Change told active node middle) (same : middle.Beside after) :
    Changes told active node after := (Relation.ReflTransGen.single change).tail (.beside same)

/-- A change of a flight to what it is already is none. -/
theorem modifyFlight_of_same {place : Nat} {f : Flight → Flight}
    (same : ∀ flight, node.flights[place]? = some flight → f flight = flight) :
    node.modifyFlight place f = node := by
  have flights : node.flights.modify place f = node.flights := by
    refine List.ext_getElem? fun other => ?_
    by_cases here : place = other
    · subst here
      cases held : node.flights[place]? with
      | none => simp [held]
      | some flight => simp [held, same flight held]
    · simp [here]
  rw [modifyFlight, flights]

theorem flights_modifyFlight {place : Nat} {flight : Flight}
    (held : node.flights[place]? = some flight) (f : Flight → Flight) (other : Nat) :
    (node.modifyFlight place f).flights[other]? =
      if other = place then some (f flight) else node.flights[other]? := by
  by_cases here : other = place
  · subst here
    simp [modifyFlight, held]
  · simp [modifyFlight, here, Ne.symm here]

end Node

end JointQuery
