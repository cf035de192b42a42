import JointQuery.Query.Basic
import JointQuery.Json.Reader
import JointQuery.Json.Writer

/-! The text in which a query travels. Every party reads the same query from it. -/
namespace JointQuery

open Json (Decoder Stage)

namespace Column

/-- Reads a column; its domain may be left out. -/
def decode : Decoder Column := fun stage value => do
  let record ← Json.asRecord false ["table", "name", "db", "column_type", "domain"] value
  return {
    table := ← record.required 0 Json.asString stage
    name := ← record.required 1 Json.asString stage
    db := ← record.required 2 Party.decode stage
    type := ← record.required 3 ColumnType.decode stage
    domain := ← record.defaulted 4 (Json.asOption (Json.asList (Json.asOption Json.asString)))
      none stage }

/-- Writes the values that a column may take. -/
def domainJson (values : List GroupValue) : Json :=
  .array (values.map (Json.nullable .string))

/-- Writes a column; an undeclared domain is left out. -/
def toJson (column : Column) : Json :=
  .object ([("table", .string column.table), ("name", .string column.name),
    ("db", column.db.toJson), ("column_type", column.type.toJson)] ++
    (match column.domain with
      | some values => [("domain", domainJson values)]
      | none => []))

end Column

namespace Aggregate

/-- Reads an aggregate. -/
def decode : Decoder Aggregate := fun stage value => do
  let record ← Json.asRecord false ["function", "column"] value
  return {
    function := ← record.required 0 AggregateFunction.decode stage
    column := ← record.required 1 Column.decode stage }

/-- Writes an aggregate. -/
def toJson (aggregate : Aggregate) : Json :=
  .object [("function", aggregate.function.toJson), ("column", aggregate.column.toJson)]

end Aggregate

namespace Condition

/-- The tags of the two kinds of condition. -/
def tags : List String := ["comparison", "node"]

/-- Reads a condition of at most `levels` levels. -/
def decodeWithin : (levels : Nat) → Decoder Condition
  | 0, _, _ => none
  | levels + 1, stage, value => do
    let (tag, body) ← Json.asTagged "kind" tags stage value
    if tag = "comparison" then
      let record ← Json.asRecord false ["column", "comparison", "value"] body
      return .comparison (← record.required 0 Json.asString .held)
        (← record.required 1 Json.asString .held)
        (← record.defaulted 2 (Json.asOption Json.asString) none .held)
    else
      let record ← Json.asRecord false ["operator", "operands"] body
      return .node (← record.required 0 ConditionOperator.decode .held)
        (← record.required 1 (Json.asList (decodeWithin levels)) .held)

/-- Reads a condition; it has no more levels than the value it is read from. -/
def decode : Decoder Condition := fun stage value =>
  decodeWithin value.height stage value

mutual
/-- Writes a condition; a comparison without a value leaves it out. -/
def toJson : Condition → Json
  | .comparison column relation value =>
    .object ([("kind", .string "comparison"), ("column", .string column),
      ("comparison", .string relation)] ++
      (match value with
        | some text => [("value", .string text)]
        | none => []))
  | .node operator operands =>
    .object [("kind", .string "node"), ("operator", operator.toJson),
      ("operands", .array (operandsJson operands))]

/-- Writes the operands in order. -/
def operandsJson : List Condition → List Json
  | [] => []
  | operand :: rest => toJson operand :: operandsJson rest
end

end Condition

namespace Query

/-- Reads the filters of the parties; a party given twice keeps its last filter. -/
def decodePrefilters : Decoder (PerParty (Option Condition))
  | stage, .object members =>
    members.foldlM (fun prefilters member => do
      let party ← Party.ofName? member.1
      let condition ← Condition.decode stage member.2
      return prefilters.set party (some condition)) (PerParty.all none)
  | _, _ => none

/-- Reads a query; filters and groups may be left out. -/
def decode : Decoder Query := fun stage value => do
  let record ← Json.asRecord false ["table", "aggregates", "prefilters", "group_bys"] value
  return {
    table := ← record.required 0 Json.asString stage
    aggregates := ← record.required 1 (Json.asList Aggregate.decode) stage
    prefilters := ← record.defaulted 2 decodePrefilters (PerParty.all none) stage
    groupBys := ← record.defaulted 3 (Json.asList Column.decode) [] stage }

/-- Writes the filters of the parties that have one, in the order of the parties. -/
def prefiltersJson (prefilters : PerParty (Option Condition)) : Json :=
  .object (Party.all.filterMap fun party =>
    (prefilters.get party).map fun condition => (party.name, condition.toJson))

/-- Writes a query. -/
def toJson (query : Query) : Json :=
  .object [("table", .string query.table),
    ("aggregates", .array (query.aggregates.map Aggregate.toJson)),
    ("prefilters", prefiltersJson query.prefilters),
    ("group_bys", .array (query.groupBys.map Column.toJson))]

/-- `Query::to_wire`: the text of a query. -/
def wire (query : Query) : String :=
  query.toJson.render

/-- `Query::from_wire`: the query of a text. -/
def ofWire? (text : String) : Option Query := do
  decode .direct (← Json.read text)

end Query

end JointQuery
