import JointQuery.Domain.Basic
import JointQuery.Message.Basic
import JointQuery.Session.Tuple
import JointQuery.Decimal.Rounding

/-! A query in flight: its domain, the slot of every tuple, and where it is in its life. -/
namespace JointQuery

/-- Where a session is in its life. The last four states are final. -/
inductive SessionState where
  | created
  | dispatched
  | awaitingResults
  | completed
  | failed
  | timedOut
  | cancelled
  deriving DecidableEq, Repr, BEq

namespace SessionState

/-- Every state, in order. -/
def all : List SessionState :=
  [.created, .dispatched, .awaitingResults, .completed, .failed, .timedOut, .cancelled]

/-- `SessionState::as_str`: a state's name. -/
def name : SessionState → String
  | .created => "created"
  | .dispatched => "dispatched"
  | .awaitingResults => "awaiting_results"
  | .completed => "completed"
  | .failed => "failed"
  | .timedOut => "timed_out"
  | .cancelled => "cancelled"

/-- The form of a state in reports about the node's own state. -/
def debugName : SessionState → String
  | .created => "Created"
  | .dispatched => "Dispatched"
  | .awaitingResults => "AwaitingResults"
  | .completed => "Completed"
  | .failed => "Failed"
  | .timedOut => "TimedOut"
  | .cancelled => "Cancelled"

/-- The state of a name. -/
def ofName? (text : String) : Option SessionState := Text.findNamed name all text

/-- `SessionState::is_terminal`: a final state is never left. -/
def isTerminal : SessionState → Bool
  | .completed | .failed | .timedOut | .cancelled => true
  | _ => false

end SessionState

/-- `QuerySession`: a session. `client` is the place of the client that asked, and `changed` says
that something happened which the reporter has not seen yet. -/
structure Session where
  id : QueryId
  query : Query
  domain : Domain
  slots : List TupleSlot
  /-- Tuples that are not complete. -/
  remaining : Nat
  state : SessionState
  client : Nat
  clientRef : String
  createdAt : Int64
  changed : Bool

namespace Session

/-- `QuerySession::new`: a new session, if the query has a domain. -/
def create (id : QueryId) (query : Query) (client : Nat) (clientRef : String) (now : Int64) :
    Except QueryError Session := do
  let domain ← Domain.ofQuery query
  return {
    id := id
    query := query
    domain := domain
    slots := List.replicate domain.count (.fresh query.aggregates.length)
    remaining := domain.count
    state := .created
    client := client
    clientRef := clientRef
    createdAt := now
    changed := false }

/-- The number of tuples. -/
def tupleCount (session : Session) : Nat := session.slots.length

/-- The slot of a tuple. -/
def slot? (session : Session) (tuple : Nat) : Option TupleSlot := session.slots[tuple]?

/-- The session with the slot of one tuple replaced. -/
def setSlot (session : Session) (tuple : Nat) (slot : TupleSlot) : Session :=
  { session with slots := session.slots.set tuple slot }

/-- A final state has been reached. -/
def isTerminal (session : Session) : Bool := session.state.isTerminal

/-- `QuerySession::transition`: moves from one state to another; fails in any other state. -/
def transition (session : Session) (source target : SessionState) : Session × Bool :=
  if session.state = source then ({ session with state := target }, true) else (session, false)

/-- `QuerySession::finish`: enters a final state from any live one; only the first attempt
succeeds. -/
def finish (session : Session) (target : SessionState) : Session × Bool :=
  if session.isTerminal then (session, false)
  else ({ session with state := target, changed := true }, true)

/-- `QuerySession::is_tuple_complete`: whether a tuple is complete. -/
def isTupleComplete (session : Session) (tuple : Nat) : Bool :=
  match session.slot? tuple with
  | some slot => slot.complete
  | none => false

/-- `QuerySession::mark_tuple_complete`: claims the completion of a resolved tuple. The answer is
`none` if it is not claimed here, otherwise whether it was the last one. -/
def markTupleComplete (session : Session) (tuple : Nat) : Session × Option Bool :=
  match session.slot? tuple with
  | none => (session, none)
  | some slot =>
    match slot.tryMarkComplete with
    | (_, false) => (session, none)
    | (marked, true) =>
      ({ session.setSlot tuple marked with remaining := session.remaining - 1, changed := true },
        some (session.remaining == 1))

/-- `QuerySession::tuple_fraction`: the scanned part of a tuple's rows. -/
def tupleFraction (session : Session) (tuple : Nat) : Float :=
  match session.slot? tuple with
  | some slot => slot.progress.fraction
  | none => 0.0

/-- `QuerySession::tuple_row`: the group and the rounded values of a tuple. -/
def tupleRow? (session : Session) (tuple scale : Nat) : Option ResultRow := do
  let slot ← session.slot? tuple
  let group ← session.domain.tuple tuple
  return ⟨group, slot.result.cells.map (·.map (Decimal.roundToScale · scale))⟩

/-- `QuerySession::result_table`: the rows of all tuples under the labels of the groups and the
aggregates. -/
def resultTable (session : Session) (scale : Nat) : ResultTable where
  columns := session.domain.columnNames ++ session.query.aggregateLabels
  rows := (List.range session.tupleCount).filterMap (session.tupleRow? · scale)

/-- The session in a report about the node's own state. -/
def debugText (session : Session) : String :=
  "QuerySession \x7b id: " ++ session.id.debugText ++ ", state: " ++ session.state.debugName ++
    ", tuple_count: " ++ toString session.tupleCount ++ ", remaining: " ++
    toString session.remaining ++ " \x7d"

end Session

end JointQuery
