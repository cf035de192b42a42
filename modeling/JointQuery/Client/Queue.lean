/-! The events queued for a client, up to a capacity. Whoever finds no room waits in line; a place
that is freed is kept for the longest waiting. A client that keeps its queue full for too long, or
has none any more, counts as gone. -/
namespace JointQuery

/-- A sender in line, and whether a place is kept for it. -/
structure Place (τ : Type) where
  task : τ
  kept : Bool
  deriving DecidableEq, Repr

/-- What has become of an event: queued, refused since the client is gone, or still waiting. -/
inductive Offer where
  | sent
  | refused
  | waiting
  deriving DecidableEq, Repr

/-- `ClientHandle`: the queue of a client. -/
structure ClientQueue (τ ε : Type) where
  ref : String
  capacity : Nat
  /-- How long an event may wait for room, in milliseconds. -/
  patience : Nat
  /-- Every event ever queued. -/
  events : List ε
  /-- How many events the client has read. -/
  taken : Nat
  line : List (Place τ)
  /-- The client reads no more. -/
  closed : Bool
  /-- The client counts as gone. -/
  disconnected : Bool

namespace ClientQueue

variable {τ ε : Type} [BEq τ]

/-- `DEFAULT_SEND_TIMEOUT`: how long an event waits for room unless said otherwise. -/
def defaultPatience : Nat := 5000

/-- `ClientHandle::channel`: an empty queue. -/
def fresh (ref : String) (capacity patience : Nat) : ClientQueue τ ε :=
  ⟨ref, capacity, patience, [], 0, [], false, false⟩

/-- The events that are queued and not read. -/
def pending (queue : ClientQueue τ ε) : List ε := queue.events.drop queue.taken

/-- The places that are neither taken nor kept. -/
def room (queue : ClientQueue τ ε) : Nat :=
  queue.capacity - (queue.events.length - queue.taken) - (queue.line.filter (·.kept)).length

/-- `ClientHandle::is_connected`: events can still reach the client. -/
def isConnected (queue : ClientQueue τ ε) : Bool := !queue.disconnected && !queue.closed

/-- `ClientHandle::mark_disconnected`: the client counts as gone from now on. -/
def markDisconnected (queue : ClientQueue τ ε) : ClientQueue τ ε :=
  { queue with disconnected := true }

/-- The queue with one more event. -/
def push (queue : ClientQueue τ ε) (event : ε) : ClientQueue τ ε :=
  { queue with events := queue.events ++ [event] }

/-- `ClientHandle::try_send`: queues an event without waiting. A client without room, or without a
queue, is gone. -/
def trySend (queue : ClientQueue τ ε) (event : ε) : ClientQueue τ ε × Bool :=
  if queue.disconnected then (queue, false)
  else if queue.closed || queue.room == 0 then (queue.markDisconnected, false)
  else (queue.push event, true)

/-- `ClientHandle::send`, until it waits: queues an event, or lines up for room. Without patience, a
client without room is gone. -/
def offer (queue : ClientQueue τ ε) (task : τ) (event : ε) : ClientQueue τ ε × Offer :=
  if queue.disconnected then (queue, .refused)
  else if queue.closed then (queue.markDisconnected, .refused)
  else if queue.room == 0 then
    if queue.patience = 0 then (queue.markDisconnected, .refused)
    else ({ queue with line := queue.line ++ [⟨task, false⟩] }, .waiting)
  else (queue.push event, .sent)

/-- Takes a sender out of the line. -/
def leave (queue : ClientQueue τ ε) (task : τ) : ClientQueue τ ε :=
  { queue with line := queue.line.filter (·.task != task) }

/-- Whether a place is kept for a sender. -/
def isKept (queue : ClientQueue τ ε) (task : τ) : Bool :=
  queue.line.any fun place => place.task == task && place.kept

/-- `ClientHandle::send`, after it has waited: the event takes the place kept for it, or is refused
when the queue has closed or its time is up, which also marks the client gone. -/
def resume (queue : ClientQueue τ ε) (task : τ) (event : ε) (timeUp : Bool) :
    ClientQueue τ ε × Offer :=
  if queue.closed then ((queue.leave task).markDisconnected, .refused)
  else if queue.isKept task then ((queue.leave task).push event, .sent)
  else if timeUp then ((queue.leave task).markDisconnected, .refused)
  else (queue, .waiting)

/-- Keeps a freed place for the first in line that has none, and names it. -/
def keepPlace : List (Place τ) → List (Place τ) × Option τ
  | [] => ([], none)
  | place :: rest =>
    if place.kept then
      let (others, task) := keepPlace rest
      (place :: others, task)
    else ({ place with kept := true } :: rest, some place.task)

/-- Reads the next event; the last part names who can now go on. -/
def read (queue : ClientQueue τ ε) : ClientQueue τ ε × Option ε × Option τ :=
  match queue.closed, queue.pending with
  | false, event :: _ =>
    let (line, task) := keepPlace queue.line
    ({ queue with taken := queue.taken + 1, line := line }, some event, task)
  | _, _ => (queue, none, none)

/-- The client stops reading; everyone in line can go on, to be refused. -/
def close (queue : ClientQueue τ ε) : ClientQueue τ ε × List τ :=
  ({ queue with closed := true }, queue.line.map (·.task))

end ClientQueue

end JointQuery
