import JointQuery.Query.Basic

/-! The messages between the node, the parties and its clients. -/
namespace JointQuery

/-- Rows that a data party has scanned since it last reported, and how many there are in all, once
it knows. -/
structure RowProgress where
  db : Party
  rowCount : Option UInt64
  rowDelta : UInt64
  deriving DecidableEq, Repr

/-- The final value of the aggregate at a position. -/
structure AggregateValue where
  position : UInt64
  value : Float
  deriving Repr

/-- What a party reports for one tuple of a query. -/
structure PartialResult where
  queryId : QueryId
  tupleIndex : UInt64
  progress : List RowProgress
  values : List AggregateValue
  deriving Repr

/-- A message on a connection between parties. A connection opens with `hello`. -/
inductive PartyMessage where
  | hello (party : Party)
  | startQuery (id : QueryId) (query clientRef : String)
  | partialResult (result : PartialResult)
  deriving Repr

/-- A message from a client. -/
inductive ClientRequest where
  | submit (query : Query)
  | cancel (id : QueryId)
  deriving Repr

/-- The group of a tuple, and its values where they are known. -/
structure ResultRow where
  group : List GroupValue
  values : List (Option Float)
  deriving Repr

/-- The answer to a query: a row for each tuple, under the labels of the groups and aggregates. -/
structure ResultTable where
  columns : List String
  rows : List ResultRow
  deriving Repr

/-- A message to a client. -/
inductive ClientEvent where
  | accepted (id : QueryId) (tupleCount : UInt64)
  | tupleProgress (id : QueryId) (tuple : UInt64) (fraction : Float)
  | tupleDone (id : QueryId) (tuple : UInt64) (row : ResultRow)
  | allDone (id : QueryId) (table : ResultTable)
  | error (id : Option QueryId) (kind message : String)
  deriving Repr

/-- `InboundEvent::kind`: the kind of a party's message. -/
def PartyMessage.kind : PartyMessage → String
  | .hello _ => "hello"
  | .startQuery _ _ _ => "start_query"
  | .partialResult _ => "partial_result"

/-- `InboundEvent::kind`: the kind of a client's message. -/
def ClientRequest.kind : ClientRequest → String
  | .submit _ => "submit"
  | .cancel _ => "cancel"

/-- `ClientEvent::error`: the event that reports a failure, of a query if one is named. -/
def ClientEvent.ofError (id : Option QueryId) (cause : QueryError) : ClientEvent :=
  .error id cause.kind cause.message

/-- `ClientEvent::query_id`: the query that an event is about. -/
def ClientEvent.queryId? : ClientEvent → Option QueryId
  | .accepted id _ => some id
  | .tupleProgress id _ _ => some id
  | .tupleDone id _ _ => some id
  | .allDone id _ => some id
  | .error id _ _ => id

end JointQuery
