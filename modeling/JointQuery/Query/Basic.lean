import JointQuery.Party
import JointQuery.Query.Constant
import JointQuery.Error

/-! Aggregate queries over columns held by the data parties, and the check that one can be
executed. -/
namespace JointQuery

/-- A value to group by; `none` stands for a missing value. -/
abbrev GroupValue := Option String

/-- A column, the party that holds it, and the values it may take when a query groups by it. -/
structure Column where
  table : String
  name : String
  db : Party
  type : ColumnType
  domain : Option (List GroupValue)
  deriving DecidableEq, Repr

/-- An aggregate over one column. -/
structure Aggregate where
  function : AggregateFunction
  column : Column
  deriving DecidableEq, Repr

/-- A filter, which the data parties evaluate. -/
inductive Condition where
  | comparison (column comparison : String) (value : Option String)
  | node (operator : ConditionOperator) (operands : List Condition)
  deriving Repr

namespace Condition

mutual
/-- Conditions are equal when they are built alike. -/
def decideEq : (a b : Condition) → Decidable (a = b)
  | .comparison column relation value, .comparison column₂ relation₂ value₂ =>
    if h : column = column₂ ∧ relation = relation₂ ∧ value = value₂ then
      isTrue (by rw [h.1, h.2.1, h.2.2])
    else isFalse (fun e => h (by injection e with h₁ h₂ h₃; exact ⟨h₁, h₂, h₃⟩))
  | .node operator operands, .node operator₂ operands₂ =>
    if h : operator = operator₂ then
      match decideOperandsEq operands operands₂ with
      | isTrue same => isTrue (by rw [h, same])
      | isFalse differ => isFalse (fun e => differ (by injection e))
    else isFalse (fun e => h (by injection e))
  | .comparison _ _ _, .node _ _ => isFalse (fun e => by cases e)
  | .node _ _, .comparison _ _ _ => isFalse (fun e => by cases e)

/-- Lists of operands are equal when they agree place by place. -/
def decideOperandsEq : (a b : List Condition) → Decidable (a = b)
  | [], [] => isTrue rfl
  | operand :: rest, operand₂ :: rest₂ =>
    match decideEq operand operand₂ with
    | isTrue same =>
      match decideOperandsEq rest rest₂ with
      | isTrue sameRest => isTrue (by rw [same, sameRest])
      | isFalse differ => isFalse (fun e => differ (by injection e))
    | isFalse differ => isFalse (fun e => differ (by injection e))
  | [], _ :: _ => isFalse (fun e => by cases e)
  | _ :: _, [] => isFalse (fun e => by cases e)
end

instance : DecidableEq Condition := decideEq

end Condition

/-- An aggregate query: what to compute, a filter for each party, and the columns to group by. -/
structure Query where
  table : String
  aggregates : List Aggregate
  prefilters : PerParty (Option Condition)
  groupBys : List Column
  deriving DecidableEq, Repr

/-- `Column::label`: a column's label. -/
def Column.label (column : Column) : String :=
  column.table ++ "." ++ column.name

/-- `Aggregate::label`: an aggregate's label. -/
def Aggregate.label (aggregate : Aggregate) : String :=
  aggregate.function.name ++ "(" ++ aggregate.column.label ++ ")"

namespace Condition

/-- Why an operator with this many operands is refused. -/
def arityFault (operator : ConditionOperator) (operands : Nat) : QueryError :=
  .invalidQuery ("operator '" ++ operator.name ++ "' takes " ++ toString operator.arity ++
    " operand(s), got " ++ toString operands)

mutual
/-- `Condition::check_arity`: every operator has the operands that it takes; an operator is checked
before its operands. -/
def checkArity : Condition → Except QueryError Unit
  | .comparison _ _ _ => .ok ()
  | .node operator operands =>
    if operands.length ≠ operator.arity then .error (arityFault operator operands.length)
    else checkOperands operands

/-- Every operand is checked, the first first. -/
def checkOperands : List Condition → Except QueryError Unit
  | [] => .ok ()
  | operand :: rest => do
    checkArity operand
    checkOperands rest
end

mutual
/-- The levels of a condition: a comparison has one, an operator one more than its operands. -/
def depth : Condition → Nat
  | .comparison _ _ _ => 1
  | .node _ operands => 1 + maxDepth operands

/-- The most levels of any operand. -/
def maxDepth : List Condition → Nat
  | [] => 0
  | operand :: rest => max (depth operand) (maxDepth rest)
end

end Condition

namespace Query

/-- `Query::aggregate_labels`: the labels of the aggregates, in order. -/
def aggregateLabels (query : Query) : List String :=
  query.aggregates.map Aggregate.label

/-- Aggregated columns belong to data parties. -/
def checkAggregate (aggregate : Aggregate) : Except QueryError Unit :=
  if aggregate.column.db.isDb then .ok ()
  else .error (.invalidQuery
    ("aggregate column " ++ aggregate.column.label ++ " is not held by a db party"))

/-- Filters belong to data parties, and their operators have their operands. -/
def checkPrefilter (prefilters : PerParty (Option Condition)) (party : Party) :
    Except QueryError Unit :=
  match prefilters.get party with
  | none => .ok ()
  | some condition =>
    if party.isDb then condition.checkArity
    else .error (.invalidQuery ("prefilter attached to non-db party " ++ party.name))

/-- A query cannot group by a column whose values are not declared. -/
def undeclared (column : Column) : QueryError :=
  .invalidQuery ("group-by column " ++ column.label ++ " has no declared domain")

/-- Columns to group by belong to data parties and declare their values. -/
def checkGroupBy (column : Column) : Except QueryError Unit :=
  if !column.db.isDb then
    .error (.invalidQuery ("group-by column " ++ column.label ++ " is not held by a db party"))
  else if column.domain.isNone then .error (undeclared column)
  else .ok ()

/-- `Query::validate`: a query has an aggregate, and its aggregates, filters and groups pass their
checks, in this order. -/
def validate (query : Query) : Except QueryError Unit := do
  if query.aggregates.isEmpty then
    throw (.invalidQuery "query must contain at least one aggregate")
  query.aggregates.forM checkAggregate
  Party.all.forM (checkPrefilter query.prefilters)
  query.groupBys.forM checkGroupBy

end Query

end JointQuery
