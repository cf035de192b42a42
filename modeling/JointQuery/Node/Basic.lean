import JointQuery.Backoff
import JointQuery.Channel.Basic
import JointQuery.Channel.Budget
import JointQuery.Client.Queue
import JointQuery.Config.Directory
import JointQuery.Node.Agenda
import JointQuery.Session.Apply
import JointQuery.Session.Registry

/-! The state of a node: its sessions with the work done for each, its channels and byte budgets,
its clients, and what is to be done next. Sessions, channels, clients and requests are kept for
ever and named by their place.

A task is kept as what it waits for, and is run from one such point to the next. What is only
logged is left out. -/
namespace JointQuery

/-- A call of `send_with_retry` where it waits: how one party is told of a session. -/
inductive Sender where
  | unstarted
  /-- The next attempt is made at the given time. -/
  | pausing (backoff : Backoff) (due : Nat)
  /-- Waiting for bytes to put the message on a channel. -/
  | parked (backoff : Backoff) (channel : Nat)
  | ended (result : Except QueryError Unit)

/-- `fan_out` where it waits: the wait for the three senders, with those that have ended since it
was last looked at. -/
inductive FanOut where
  | unstarted
  | starting
  | joining (ended : List Party)
  | over

/-- `report_progress` where it waits: how the client of a session is told about it. -/
inductive Reporter where
  | unstarted
  /-- Tuples before `next` are reported; the next tick is due at `tick`. -/
  | watching (next tick : Nat)
  /-- Waiting for room for an event; `seen` is the state read at the start of the pass. -/
  | sending (next tick : Nat) (seen : SessionState) (event : ClientEvent) (deadline : Nat)
  | over

/-- A session and the work done for it. -/
structure Flight where
  session : Session
  fanOut : FanOut
  senders : PerParty Sender
  reporter : Reporter

/-- A session for which no work has started. -/
def Flight.fresh (session : Session) : Flight :=
  ⟨session, .unstarted, .all .unstarted, .unstarted⟩

/-- A message put on a channel by a task of its own. -/
structure Post where
  channel : Nat
  message : PartyMessage
  /-- Waiting for bytes. -/
  parked : Bool
  result : Option (Except QueryError Unit)

/-- An event for a client, and the place of the session on whose behalf it is queued. -/
structure Notice where
  session : Option Nat
  event : ClientEvent

/-- An event queued for a client by a task of its own. -/
structure Delivery where
  client : Nat
  event : ClientEvent
  deadline : Option Nat
  result : Option Bool

/-- How far a reservation has got. -/
inductive ReservationState where
  | unstarted
  | waiting
  | granted
  | ended
  deriving DecidableEq, Repr

/-- Bytes reserved by a task of its own. -/
structure Reservation where
  party : Party
  bytes : Nat
  state : ReservationState
  deriving DecidableEq, Repr

/-- How far a request of a client has got. -/
inductive RequestState where
  /-- Looking for an identifier that is not in flight. -/
  | drawing (query : Query)
  /-- Waiting for room to say that a session is accepted. -/
  | accepting (session deadline : Nat)
  /-- Waiting for room to tell the client of a fault. -/
  | answering (event : ClientEvent) (deadline : Nat) (outcome : Except QueryError QueryId)
  | ended (outcome : Except QueryError QueryId)

/-- A request of a client. `tellsFaults` says that the client is told when it fails. -/
structure Request where
  client : Nat
  tellsFaults : Bool
  state : RequestState

/-- A node: a `QueryDispatcher` with its `ChannelPool` and its `CorrelationRegistry`, the clients,
and the tasks that were spawned. -/
structure Node where
  config : Config
  directory : Directory
  agenda : Agenda
  /-- The reading of the wall clock in milliseconds. -/
  wall : Int64
  links : PerParty Link
  /-- Someone takes what the links write. -/
  listening : Bool
  /-- Every frame that a link has written. -/
  delivered : List (Party × Frame)
  budgets : PerParty (Budget TaskId)
  channels : List Channel
  /-- The channel that new senders to a party share. -/
  pooled : PerParty (Option Nat)
  clients : List (ClientQueue TaskId Notice)
  /-- Clients that read whatever is queued for them. -/
  attended : List Nat
  flights : List Flight
  registry : Registry Nat
  /-- Where identifiers are drawn from, and how many have been. -/
  identifiers : Nat → QueryId
  drawn : Nat
  posts : List Post
  /-- Posts in the order in which they ended. -/
  posted : List Nat
  deliveries : List Delivery
  /-- Deliveries in the order in which they ended. -/
  deliveredEvents : List Nat
  reservations : List Reservation
  /-- Reservations in the order in which they were granted. -/
  grantedOrder : List Nat
  requests : List Request
  /-- When the sweeper runs next, if there is one. -/
  sweepDue : Option Nat

namespace Node

/-- A node with the given configuration and budgets that has done nothing. -/
def withLimits (config : Config) (limits : OutputLimits) : Node where
  config := config
  directory := .ofConfig config
  agenda := .empty
  wall := 0
  links := .all .idle
  listening := true
  delivered := []
  budgets := limits.bytes.map Budget.ofLimit
  channels := []
  pooled := .all none
  clients := []
  attended := []
  flights := []
  registry := .empty
  identifiers := QueryId.numbered
  drawn := 0
  posts := []
  posted := []
  deliveries := []
  deliveredEvents := []
  reservations := []
  grantedOrder := []
  requests := []
  sweepDue := none

/-- `QueryDispatcher::with_connector`: a node with the given configuration that has done nothing. -/
def ofConfig (config : Config) : Node := withLimits config config.outputLimits

/-- The time in milliseconds. -/
def now (node : Node) : Nat := node.agenda.now

/-- Lets a task run. -/
def wake (node : Node) (task : TaskId) : Node := { node with agenda := node.agenda.wake task }

/-- Lets a task run before all others. -/
def wakeFirst (node : Node) (task : TaskId) : Node :=
  { node with agenda := node.agenda.wakeFirst task }

/-- Lets tasks run in order. -/
def wakeAll (node : Node) (tasks : List TaskId) : Node :=
  { node with agenda := node.agenda.wakeAll tasks }

/-- Sets a timer, unless it is set. -/
def setTimer (node : Node) (task : TaskId) (kind : TimerKind) (due : Nat) : Node :=
  { node with agenda := node.agenda.setTimer task kind due }

/-- Takes a timer off. -/
def cancelTimer (node : Node) (task : TaskId) (kind : TimerKind) : Node :=
  { node with agenda := node.agenda.cancelTimer task kind }

/-- Changes the flight at a place. -/
def modifyFlight (node : Node) (index : Nat) (f : Flight → Flight) : Node :=
  { node with flights := node.flights.modify index f }

/-- Replaces the session at a place. -/
def setSession (node : Node) (index : Nat) (session : Session) : Node :=
  node.modifyFlight index fun flight => { flight with session := session }

/-- Replaces the sender of a session to a party. -/
def setSender (node : Node) (index : Nat) (party : Party) (sender : Sender) : Node :=
  node.modifyFlight index fun flight => { flight with senders := flight.senders.set party sender }

/-- Replaces the wait for the senders of a session. -/
def setFanOut (node : Node) (index : Nat) (fanOut : FanOut) : Node :=
  node.modifyFlight index fun flight => { flight with fanOut := fanOut }

/-- Replaces the reporter of a session. -/
def setReporter (node : Node) (index : Nat) (reporter : Reporter) : Node :=
  node.modifyFlight index fun flight => { flight with reporter := reporter }

/-- The session at a place. -/
def session? (node : Node) (index : Nat) : Option Session :=
  node.flights[index]?.map (·.session)

/-- Replaces the queue of a client. -/
def setClient (node : Node) (index : Nat) (queue : ClientQueue TaskId Notice) : Node :=
  { node with clients := node.clients.set index queue }

/-- Replaces the channel at a place. -/
def setChannel (node : Node) (index : Nat) (channel : Channel) : Node :=
  { node with channels := node.channels.set index channel }

/-- Replaces the budget of a party. -/
def setBudget (node : Node) (party : Party) (budget : Budget TaskId) : Node :=
  { node with budgets := node.budgets.set party budget }

/-- Changes the link to a party. -/
def modifyLink (node : Node) (party : Party) (f : Link → Link) : Node :=
  { node with links := node.links.modify party f }

end Node

end JointQuery
