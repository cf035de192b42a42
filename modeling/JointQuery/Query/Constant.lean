import JointQuery.Text.Folding
import JointQuery.Json.Decoder

/-! The closed sets of names that a query is written with. -/
namespace JointQuery

/-- What an aggregate computes. -/
inductive AggregateFunction where
  | count
  | sum
  | avg
  | stdev
  | stdevp
  | var
  | varp
  deriving DecidableEq, Repr, BEq

/-- The type of a column's values. -/
inductive ColumnType where
  | string
  deriving DecidableEq, Repr, BEq

/-- How a condition joins its operands. -/
inductive ConditionOperator where
  | not
  | and
  | or
  deriving DecidableEq, Repr, BEq

namespace AggregateFunction

/-- Every function, in order. -/
def all : List AggregateFunction := [.count, .sum, .avg, .stdev, .stdevp, .var, .varp]

/-- `AggregateFunction::as_str`: a function's name. -/
def name : AggregateFunction → String
  | .count => "count"
  | .sum => "sum"
  | .avg => "avg"
  | .stdev => "stdev"
  | .stdevp => "stdevp"
  | .var => "var"
  | .varp => "varp"

/-- `AggregateFunction::from_str`: the function of a name written in any case. -/
def ofText? (text : String) : Option AggregateFunction := Text.findFolded name all text

/-- Reads a function's name. -/
def decode : Json.Decoder AggregateFunction := Json.asName (Text.findNamed name all)

/-- Writes a function's name. -/
def toJson (function : AggregateFunction) : Json := .string function.name

end AggregateFunction

namespace ColumnType

/-- Every type, in order. -/
def all : List ColumnType := [.string]

/-- `ColumnType::as_str`: a type's name. -/
def name : ColumnType → String
  | .string => "string"

/-- `ColumnType::from_str`: the type of a name written in any case. -/
def ofText? (text : String) : Option ColumnType := Text.findFolded name all text

/-- Reads a type's name. -/
def decode : Json.Decoder ColumnType := Json.asName (Text.findNamed name all)

/-- Writes a type's name. -/
def toJson (type : ColumnType) : Json := .string type.name

end ColumnType

namespace ConditionOperator

/-- Every operator, in order. -/
def all : List ConditionOperator := [.not, .and, .or]

/-- `ConditionOperator::as_str`: an operator's name. -/
def name : ConditionOperator → String
  | .not => "not"
  | .and => "and"
  | .or => "or"

/-- `ConditionOperator::arity`: how many operands an operator takes. -/
def arity : ConditionOperator → Nat
  | .not => 1
  | .and => 2
  | .or => 2

/-- `ConditionOperator::from_str`: the operator of a name written in any case. -/
def ofText? (text : String) : Option ConditionOperator := Text.findFolded name all text

/-- Reads an operator's name. -/
def decode : Json.Decoder ConditionOperator := Json.asName (Text.findNamed name all)

/-- Writes an operator's name. -/
def toJson (operator : ConditionOperator) : Json := .string operator.name

end ConditionOperator

end JointQuery
