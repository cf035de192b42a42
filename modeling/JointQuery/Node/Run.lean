import JointQuery.Node.Reporting
import JointQuery.Node.Requests
import JointQuery.Node.Sending

/-! Running a node: tasks run in the order in which they became ready, until each of them waits;
time then moves from timer to timer. This is one schedule of many; what is proved about runs holds in
any. -/
namespace JointQuery.Node

/-- `session_sweeper_task`: has a node end expired sessions periodically, beginning at once. -/
def startSweeper (node : Node) : Node :=
  Node.wake { node with sweepDue := some node.now } .sweeper

/-- The loop in `session_sweeper_task`: runs the sweeper if it is due. -/
def pollSweeper (node : Node) : Node :=
  match node.sweepDue with
  | none => node
  | some due =>
    if due ≤ node.now then
      let next := due + node.config.zombieCheckCooldownSecs.toNat * 1000
      let swept : Node := { node.expire.1 with sweepDue := some next }
      if next ≤ node.now then swept.wakeFirst .sweeper else swept.setTimer .sweeper .tick next
    else node

/-- Runs a task until it waits or ends. -/
def poll (node : Node) : TaskId → Node
  | .fanOut session => node.pollFanOut session
  | .sender session party => node.pollSender session party
  | .reporter session => node.pollReporter session
  | .writer channel => node.pollWriter channel
  | .sweeper => node.pollSweeper
  | .post index => node.pollPost index
  | .delivery index => node.pollDelivery index
  | .reservation index => node.pollReservation index
  | .request index => node.pollRequest index

/-- Runs the task that is ready first. -/
def runNext? (node : Node) : Option Node :=
  match node.agenda.ready with
  | [] => none
  | task :: rest => some (Node.poll { node with agenda := { node.agenda with ready := rest } } task)

/-- No task can run before time passes or something happens. -/
def isAtRest (node : Node) : Bool := node.agenda.ready.isEmpty

/-- A client reads so many events. -/
def readEvents (client : Nat) : Nat → Node → Node
  | 0, node => node
  | count + 1, node => readEvents client count (node.readEvent client).1

/-- How many events a client has not read. -/
def unread (node : Node) (client : Nat) : Nat :=
  match node.clients[client]? with
  | some queue => queue.pending.length
  | none => 0

/-- Attended clients read what is queued for them. -/
def serveClients (node : Node) : Node :=
  node.attended.foldl (fun node client => readEvents client (node.unread client) node) node

/-- Runs tasks, and attended clients between them, for at most so many turns or until nothing more
can happen. -/
def runTurns : Nat → Node → Node
  | 0, node => node
  | turns + 1, node =>
    match node.runNext? with
    | some next => runTurns turns next
    | none =>
      let served := node.serveClients
      if served.isAtRest then served else runTurns turns served

/-- More turns than a node takes to come to rest. -/
def turnLimit : Nat := 100000000

/-- Runs a node until it is at rest. -/
def settle (node : Node) : Node := runTurns turnLimit node

/-- Moves the time on and fires the timers that are due. -/
def moveTo (node : Node) (time : Nat) : Node :=
  { node with agenda := node.agenda.moveTo time }

/-- Moves from timer to timer up to a time, at most so many times, coming to rest at each. -/
def advanceTo (time : Nat) : Nat → Node → Node
  | 0, node => node
  | jumps + 1, node =>
    match node.agenda.nextDue with
    | some due =>
      if due ≤ time then advanceTo time jumps (node.moveTo (max due node.now)).settle
      else node.moveTo time
    | none => node.moveTo time

/-- Lets so many milliseconds pass. -/
def advance (node : Node) (ms : Nat) : Node :=
  let settled := node.settle
  advanceTo (settled.now + ms) (ms + 2) settled

/-- Lets time pass from timer to timer, at most so many times, until a request has ended. -/
def awaitRequest (index : Nat) : Nat → Node → Node
  | 0, node => node
  | jumps + 1, node =>
    match node.outcome? index, node.agenda.nextDue with
    | none, some due => awaitRequest index jumps (node.moveTo (max due node.now)).settle
    | _, _ => node

/-- Runs a node until a request has ended; no request waits longer than a client's patience. -/
def settleRequest (node : Node) (index : Nat) : Node :=
  awaitRequest index (ClientQueue.defaultPatience + 1) node.settle

end JointQuery.Node
