import JointQuery.Query.Basic

/-! Checks that are made one after another pass exactly when each of them passes; what the checks
of a query say, for one. -/
namespace JointQuery

theorem andThen_ok_iff {first second : Except ε Unit} :
    (first >>= fun _ => second) = .ok () ↔ first = .ok () ∧ second = .ok () := by
  cases first <;> simp [bind, Except.bind]

theorem forM_ok_iff {check : α → Except ε Unit} {entries : List α} :
    forM entries check = .ok () ↔ ∀ entry ∈ entries, check entry = .ok () := by
  induction entries with
  | nil => simp [pure, Except.pure]
  | cons entry rest ih =>
    simp only [List.forM_cons, List.mem_cons, forall_eq_or_imp, ← ih]
    exact andThen_ok_iff

namespace Query

private theorem checkGroupBy_ok_iff {column : Column} :
    checkGroupBy column = .ok () ↔ column.db.isDb = true ∧ column.domain.isSome = true := by
  unfold checkGroupBy
  cases column.db.isDb <;> cases column.domain <;> simp

/-- A query is valid when it has an aggregate and each of its parts passes its check. -/
theorem validate_ok_iff {query : Query} :
    query.validate = .ok () ↔ query.aggregates ≠ [] ∧
      (∀ aggregate ∈ query.aggregates, checkAggregate aggregate = .ok ()) ∧
      (∀ party, checkPrefilter query.prefilters party = .ok ()) ∧
      ∀ column ∈ query.groupBys, column.db.isDb = true ∧ column.domain.isSome = true := by
  have parties : (∀ party ∈ Party.all, checkPrefilter query.prefilters party = .ok ()) ↔
      ∀ party, checkPrefilter query.prefilters party = .ok () :=
    ⟨fun each party => each party (by cases party <;> simp [Party.all]), fun each party _ => each party⟩
  unfold validate
  cases aggregates : query.aggregates with
  | nil => simp [throw, throwThe, MonadExceptOf.throw, bind, Except.bind]
  | cons aggregate rest =>
    simp only [List.isEmpty_cons, Bool.false_eq_true, if_false, andThen_ok_iff,
      List.forM_eq_forM, forM_ok_iff, parties, checkGroupBy_ok_iff, ne_eq, reduceCtorEq,
      not_false_eq_true, true_and]

end Query

end JointQuery
