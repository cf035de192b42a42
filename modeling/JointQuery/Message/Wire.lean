import JointQuery.Message.Basic
import JointQuery.Query.Wire
import JointQuery.Text.Blank

/-! Messages as lines of text: one JSON value and a newline, which occurs nowhere else in it. -/
namespace JointQuery

open Json (Decoder Stage)

namespace RowProgress

/-- Reads row progress; the total may be left out, and so may the rows since the last report. -/
def decode : Decoder RowProgress := fun stage value => do
  let record ← Json.asRecord false ["db", "row_count", "row_delta"] value
  return {
    db := ← record.required 0 Party.decode stage
    rowCount := ← record.defaulted 1 (Json.asOption Json.asUInt64) none stage
    rowDelta := ← record.defaulted 2 Json.asUInt64 0 stage }

/-- Writes row progress; an unknown total is left out. -/
def toJson (progress : RowProgress) : Json :=
  .object ([("db", progress.db.toJson)] ++
    (match progress.rowCount with
      | some n => [("row_count", .nat n.toNat)]
      | none => []) ++
    [("row_delta", .nat progress.rowDelta.toNat)])

end RowProgress

namespace AggregateValue

/-- Reads a value at its position. -/
def decode : Decoder AggregateValue := fun stage value => do
  let record ← Json.asRecord false ["position", "value"] value
  return {
    position := ← record.required 0 Json.asUInt64 stage
    value := ← record.required 1 Json.asFloat stage }

/-- Writes a value at its position. -/
def toJson (entry : AggregateValue) : Json :=
  .object [("position", .nat entry.position.toNat), ("value", .number (.real entry.value))]

end AggregateValue

namespace PartialResult

/-- Reads a partial result; progress and values may be left out. -/
def decode : Decoder PartialResult := fun stage value => do
  let record ← Json.asRecord false ["query_id", "tuple_index", "progress", "values"] value
  return {
    queryId := ← record.required 0 QueryId.decode stage
    tupleIndex := ← record.required 1 Json.asUInt64 stage
    progress := ← record.defaulted 2 (Json.asList RowProgress.decode) [] stage
    values := ← record.defaulted 3 (Json.asList AggregateValue.decode) [] stage }

/-- The fields of a partial result. -/
def members (result : PartialResult) : List (String × Json) :=
  [("query_id", result.queryId.toJson), ("tuple_index", .nat result.tupleIndex.toNat),
    ("progress", .array (result.progress.map RowProgress.toJson)),
    ("values", .array (result.values.map AggregateValue.toJson))]

/-- Writes a partial result. -/
def toJson (result : PartialResult) : Json := .object result.members

/-- The partial result of a text. -/
def ofText? (text : String) : Option PartialResult := do
  decode .direct (← Json.read text)

end PartialResult

/-- The value of a line, whose blanks at the end do not count. -/
def Json.readLine (line : String) : Option Json :=
  Json.readChars (Text.trimEnd line.toList)

/-- `encode_line`: the line of a value. -/
def Json.line (value : Json) : String :=
  value.render ++ "\n"

namespace PartyMessage

/-- The tags of the messages between parties. -/
def tags : List String := ["hello", "start_query", "partial_result"]

/-- Reads a message between parties. -/
def decode : Decoder PartyMessage := fun stage value => do
  let (tag, body) ← Json.asTagged "type" tags stage value
  if tag = "hello" then
    let record ← Json.asRecord false ["party"] body
    return .hello (← record.required 0 Party.decode .held)
  else if tag = "start_query" then
    let record ← Json.asRecord false ["query_id", "query", "client_ref"] body
    return .startQuery (← record.required 0 QueryId.decode .held)
      (← record.required 1 Json.asString .held) (← record.required 2 Json.asString .held)
  else
    return .partialResult (← PartialResult.decode .held body)

/-- Writes a message between parties, its tag first. -/
def toJson : PartyMessage → Json
  | .hello party => .object [("type", .string "hello"), ("party", party.toJson)]
  | .startQuery id query clientRef =>
    .object [("type", .string "start_query"), ("query_id", id.toJson), ("query", .string query),
      ("client_ref", .string clientRef)]
  | .partialResult result => .object (("type", .string "partial_result") :: result.members)

/-- `PartyMessage::decode`: the message of a line. -/
def ofLine? (line : String) : Option PartyMessage := do
  decode .direct (← Json.readLine line)

/-- `PartyMessage::encode`: the line of a message. -/
def line (message : PartyMessage) : String := message.toJson.line

end PartyMessage

namespace ClientRequest

/-- The tags of a client's requests. -/
def tags : List String := ["submit", "cancel"]

/-- Reads a client's request. -/
def decode : Decoder ClientRequest := fun stage value => do
  let (tag, body) ← Json.asTagged "type" tags stage value
  if tag = "submit" then
    let record ← Json.asRecord false ["query"] body
    return .submit (← record.required 0 Query.decode .held)
  else
    let record ← Json.asRecord false ["query_id"] body
    return .cancel (← record.required 0 QueryId.decode .held)

/-- Writes a client's request, its tag first. -/
def toJson : ClientRequest → Json
  | .submit query => .object [("type", .string "submit"), ("query", query.toJson)]
  | .cancel id => .object [("type", .string "cancel"), ("query_id", id.toJson)]

/-- `ClientRequest::decode`: the request of a line. -/
def ofLine? (line : String) : Option ClientRequest := do
  decode .direct (← Json.readLine line)

end ClientRequest

namespace ResultRow

/-- The fields of a row. -/
def members (row : ResultRow) : List (String × Json) :=
  [("group", .array (row.group.map (Json.nullable .string))),
    ("values", .array (row.values.map (Json.nullable fun x => .number (.real x))))]

/-- Reads the group of a row. -/
def decodeGroup : Decoder (List GroupValue) := Json.asList (Json.asOption Json.asString)

/-- Reads the values of a row. -/
def decodeValues : Decoder (List (Option Float)) := Json.asList (Json.asOption Json.asFloat)

/-- Reads a row. -/
def decode : Decoder ResultRow := fun stage value => do
  let record ← Json.asRecord false ["group", "values"] value
  return {
    group := ← record.required 0 decodeGroup stage
    values := ← record.required 1 decodeValues stage }

end ResultRow

namespace ResultTable

/-- Reads a table. -/
def decode : Decoder ResultTable := fun stage value => do
  let record ← Json.asRecord false ["columns", "rows"] value
  return {
    columns := ← record.required 0 (Json.asList Json.asString) stage
    rows := ← record.required 1 (Json.asList ResultRow.decode) stage }

/-- Writes a table. -/
def toJson (table : ResultTable) : Json :=
  .object [("columns", .strings table.columns),
    ("rows", .array (table.rows.map fun row => .object row.members))]

end ResultTable

namespace ClientEvent

/-- The tags of the events to a client. -/
def tags : List String := ["accepted", "tuple_progress", "tuple_done", "all_done", "error"]

/-- Reads an event. -/
def decode : Decoder ClientEvent := fun stage value => do
  let (tag, body) ← Json.asTagged "type" tags stage value
  if tag = "accepted" then
    let record ← Json.asRecord false ["query_id", "tuple_count"] body
    return .accepted (← record.required 0 QueryId.decode .held)
      (← record.required 1 Json.asUInt64 .held)
  else if tag = "tuple_progress" then
    let record ← Json.asRecord false ["query_id", "tuple_index", "fraction"] body
    return .tupleProgress (← record.required 0 QueryId.decode .held)
      (← record.required 1 Json.asUInt64 .held) (← record.required 2 Json.asFloat .held)
  else if tag = "tuple_done" then
    let record ← Json.asRecord false ["query_id", "tuple_index", "group", "values"] body
    return .tupleDone (← record.required 0 QueryId.decode .held)
      (← record.required 1 Json.asUInt64 .held)
      ⟨← record.required 2 ResultRow.decodeGroup .held,
        ← record.required 3 ResultRow.decodeValues .held⟩
  else if tag = "all_done" then
    let record ← Json.asRecord false ["query_id", "table"] body
    return .allDone (← record.required 0 QueryId.decode .held)
      (← record.required 1 ResultTable.decode .held)
  else
    let record ← Json.asRecord false ["query_id", "kind", "message"] body
    return .error (← record.defaulted 0 (Json.asOption QueryId.decode) none .held)
      (← record.required 1 Json.asString .held) (← record.required 2 Json.asString .held)

/-- Writes an event, its tag first; an error about no query leaves the identifier out. -/
def toJson : ClientEvent → Json
  | .accepted id tupleCount =>
    .object [("type", .string "accepted"), ("query_id", id.toJson),
      ("tuple_count", .nat tupleCount.toNat)]
  | .tupleProgress id tuple fraction =>
    .object [("type", .string "tuple_progress"), ("query_id", id.toJson),
      ("tuple_index", .nat tuple.toNat), ("fraction", .number (.real fraction))]
  | .tupleDone id tuple row =>
    .object ([("type", .string "tuple_done"), ("query_id", id.toJson),
      ("tuple_index", .nat tuple.toNat)] ++ row.members)
  | .allDone id table =>
    .object [("type", .string "all_done"), ("query_id", id.toJson), ("table", table.toJson)]
  | .error id kind message =>
    .object ([("type", .string "error")] ++
      (match id with
        | some id => [("query_id", id.toJson)]
        | none => []) ++
      [("kind", .string kind), ("message", .string message)])

/-- The event of a text. -/
def ofText? (text : String) : Option ClientEvent := do
  decode .direct (← Json.read text)

/-- `ClientEvent::encode`: the line of an event. -/
def line (event : ClientEvent) : String := event.toJson.line

end ClientEvent

end JointQuery
