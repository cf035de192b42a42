import JointQuery.Party

/-! What is to be done: tasks that can run, in the order in which they became ready, and timers,
of which those due together fire in the order in which they were set. -/
namespace JointQuery

/-- A piece of work of the node. Sessions, channels and the rest are named by their place. -/
inductive TaskId where
  /-- Starts the senders of a session and waits for them. -/
  | fanOut (session : Nat)
  /-- Brings the start of a session to one party. -/
  | sender (session : Nat) (party : Party)
  /-- Tells the client about a session. -/
  | reporter (session : Nat)
  /-- Writes the frames of a channel. -/
  | writer (channel : Nat)
  /-- Ends sessions that have outlived their time. -/
  | sweeper
  /-- Puts one message on a channel. -/
  | post (index : Nat)
  /-- Queues one event for a client. -/
  | delivery (index : Nat)
  /-- Reserves bytes and keeps them. -/
  | reservation (index : Nat)
  /-- Carries out a request of a client. -/
  | request (index : Nat)
  deriving DecidableEq, Repr

/-- The session that a task starts by what it sends. -/
def TaskId.startedSession? : TaskId → Option Nat
  | .sender session _ => some session
  | _ => none

/-- What a timer is for; a task sets at most one of each kind. -/
inductive TimerKind where
  | tick
  | patience
  | retry
  deriving DecidableEq, Repr

/-- A timer wakes a task when it is due. -/
structure Timer where
  due : Nat
  task : TaskId
  kind : TimerKind
  deriving DecidableEq, Repr

/-- The time in milliseconds, the tasks that can run, and the timers by due time. -/
structure Agenda where
  now : Nat
  ready : List TaskId
  timers : List Timer
  deriving Repr

namespace Agenda

/-- Nothing to do at time zero. -/
def empty : Agenda := ⟨0, [], []⟩

/-- Lets a task run; one that already can keeps its place. -/
def wake (agenda : Agenda) (task : TaskId) : Agenda :=
  if agenda.ready.contains task then agenda
  else { agenda with ready := agenda.ready ++ [task] }

/-- Lets tasks run in order. -/
def wakeAll (agenda : Agenda) (tasks : List TaskId) : Agenda :=
  tasks.foldl wake agenda

/-- Lets a task run before all others. -/
def wakeFirst (agenda : Agenda) (task : TaskId) : Agenda :=
  { agenda with ready := task :: agenda.ready.filter (· != task) }

/-- Whether a timer is set. -/
def isSet (agenda : Agenda) (task : TaskId) (kind : TimerKind) : Bool :=
  agenda.timers.any fun timer => timer.task == task && timer.kind == kind

/-- Puts a timer behind those that are due no later. -/
def insertTimer (timer : Timer) : List Timer → List Timer
  | [] => [timer]
  | other :: rest =>
    if other.due ≤ timer.due then other :: insertTimer timer rest else timer :: other :: rest

/-- Sets a timer, unless it is set. -/
def setTimer (agenda : Agenda) (task : TaskId) (kind : TimerKind) (due : Nat) : Agenda :=
  if agenda.isSet task kind then agenda
  else { agenda with timers := insertTimer ⟨due, task, kind⟩ agenda.timers }

/-- Takes a timer off. -/
def cancelTimer (agenda : Agenda) (task : TaskId) (kind : TimerKind) : Agenda :=
  { agenda with
    timers := agenda.timers.filter fun timer => !(timer.task == task && timer.kind == kind) }

/-- When the next timer is due. -/
def nextDue (agenda : Agenda) : Option Nat := agenda.timers.head?.map (·.due)

/-- Moves the time to `time` and fires the timers that are due by then. -/
def moveTo (agenda : Agenda) (time : Nat) : Agenda :=
  let moved : Agenda :=
    { agenda with now := time, timers := agenda.timers.dropWhile (·.due ≤ time) }
  moved.wakeAll ((agenda.timers.takeWhile (·.due ≤ time)).map (·.task))

end Agenda

end JointQuery
