import JointQuery.Proofs.Checks
import JointQuery.Proofs.Domain.Enumeration

/-! The queries that can be executed. A query is checked twice, once by itself and once when the
number of its tuples is found; the two checks overlap, and together they pass exactly the queries
that are described here. -/
namespace JointQuery

/-! ## Filters -/

/-- Every operator of a filter, at any depth, has exactly the operands that it takes. -/
inductive Condition.Complete : Condition → Prop where
  | comparison (column relation : String) (value : Option String) :
      Complete (.comparison column relation value)
  | node (exact : operands.length = operator.arity)
      (each : ∀ operand ∈ operands, Complete operand) : Complete (.node operator operands)

namespace Condition

private theorem complete_node_iff {operator : ConditionOperator} {operands : List Condition} :
    (node operator operands).Complete ↔
      operands.length = operator.arity ∧ ∀ operand ∈ operands, operand.Complete := by
  constructor
  · intro complete
    cases complete with
    | node exact each => exact ⟨exact, each⟩
  · exact fun ⟨exact, each⟩ => .node exact each

mutual
/-- The check of a filter goes through all of it. -/
theorem checkArity_ok_iff : (condition : Condition) →
    (condition.checkArity = .ok () ↔ condition.Complete)
  | .comparison column relation value => by
    simp [checkArity, Complete.comparison]
  | .node operator operands => by
    have each := checkOperands_ok_iff operands
    rw [complete_node_iff, ← each, checkArity]
    split
    · rename_i differs
      simp [differs]
    · rename_i exact
      rw [not_not] at exact
      simp [exact]

theorem checkOperands_ok_iff : (operands : List Condition) →
    (checkOperands operands = .ok () ↔ ∀ operand ∈ operands, operand.Complete)
  | [] => by simp [checkOperands]
  | operand :: rest => by
    rw [checkOperands, andThen_ok_iff, checkArity_ok_iff operand, checkOperands_ok_iff rest,
      List.forall_mem_cons]
end

end Condition

/-! ## Queries -/

namespace Query

private theorem checkAggregate_ok_iff {aggregate : Aggregate} :
    checkAggregate aggregate = .ok () ↔ aggregate.column.db.isDb = true := by
  unfold checkAggregate
  cases aggregate.column.db.isDb <;> simp

private theorem checkPrefilter_ok_iff {prefilters : PerParty (Option Condition)} {party : Party} :
    checkPrefilter prefilters party = .ok () ↔ ∀ condition, prefilters.get party = some condition →
      party.isDb = true ∧ condition.Complete := by
  unfold checkPrefilter
  cases prefilters.get party with
  | none => simp
  | some condition =>
    cases party.isDb <;> simp [Condition.checkArity_ok_iff]

/-- A query that can be executed. -/
structure Executable (query : Query) : Prop where
  /-- There is something to compute. -/
  aggregated : query.aggregates ≠ []
  aggregates : ∀ aggregate ∈ query.aggregates, aggregate.column.db.isDb = true
  prefilters : ∀ party condition, query.prefilters.get party = some condition →
    party.isDb = true ∧ condition.Complete
  groupBys : ∀ column ∈ query.groupBys, column.db.isDb = true ∧ column.Declares
  /-- No party has to address more tuples than it can. -/
  bounded : query.cardinalities.prod ≤ Domain.maxCount

/-- What is wrong with a query: the check of the query speaks first. -/
def fault? (query : Query) : Option QueryError :=
  match query.validate, Domain.ofQuery query with
  | .error cause, _ => some cause
  | .ok (), .error cause => some cause
  | .ok (), .ok _ => none

theorem fault?_eq_none_iff {query : Query} : query.fault? = none ↔
    query.validate = .ok () ∧ ∃ domain, Domain.ofQuery query = .ok domain := by
  unfold fault?
  cases query.validate <;> cases Domain.ofQuery query <;> simp

/-- The two checks pass exactly the queries that can be executed. -/
theorem executable_iff {query : Query} : query.Executable ↔ query.fault? = none := by
  rw [fault?_eq_none_iff, validate_ok_iff]
  simp only [Domain.ofQuery_eq_ok_iff, exists_and_left, exists_eq, and_true,
    checkAggregate_ok_iff, checkPrefilter_ok_iff]
  constructor
  · rintro ⟨aggregated, aggregates, prefilters, groupBys, bounded⟩
    refine ⟨⟨aggregated, aggregates, prefilters, fun column member => ?_⟩,
      fun column member => (groupBys column member).2, bounded⟩
    obtain ⟨held, values, declared, -⟩ := groupBys column member
    exact ⟨held, by simp [declared]⟩
  · rintro ⟨⟨aggregated, aggregates, prefilters, groupBys⟩, declares, bounded⟩
    exact ⟨aggregated, aggregates, prefilters,
      fun column member => ⟨(groupBys column member).1, declares column member⟩, bounded⟩

end Query

end JointQuery
