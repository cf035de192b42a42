import JointQuery.Proofs.Session.Rows
import JointQuery.Session.Tuple

/-! The slot of a tuple. `Sound` is what every operation on a slot keeps: it has a cell for each
aggregate, its rows are tracked, its cells are counted, and it is marked complete only when it is
resolved. A resolved slot has no room for anything else: what is accepted after that says nothing
new. -/
namespace JointQuery

namespace ProgressSlot

/-- The rows of a data party. -/
def rows (slot : ProgressSlot) (db : Holder) : Rows := Rows.ofWord (slot.word db)

/-- The rows of both data parties are tracked. -/
def Tracked (slot : ProgressSlot) : Prop := ∀ db, (slot.rows db).Tracked

@[simp] theorem word_setWord_self (slot : ProgressSlot) (db : Holder) (word : UInt64) :
    (slot.setWord db word).word db = word := by
  cases db <;> rfl

private theorem word_setWord_ne (slot : ProgressSlot) {db other : Holder} (word : UInt64)
    (differ : other ≠ db) : (slot.setWord db word).word other = slot.word other := by
  match db, other with
  | .db1, .db1 | .db2, .db2 => exact absurd rfl differ
  | .db1, .db2 | .db2, .db1 => rfl

private theorem eq_of_word_eq {slot other : ProgressSlot}
    (same : ∀ db, slot.word db = other.word db) : slot = other := by
  have first : slot.db1 = other.db1 := same .db1
  have second : slot.db2 = other.db2 := same .db2
  cases slot
  cases other
  simp_all

/-- A slot is what it says of its rows. -/
theorem eq_of_rows_eq {slot other : ProgressSlot} (same : ∀ db, slot.rows db = other.rows db) :
    slot = other :=
  eq_of_word_eq fun db => Rows.ofWord_injective (same db)

theorem rows_index (slot : ProgressSlot) (db : Holder) :
    (slot.rows db).index = (slot.rowIndex db).toNat := rfl

@[simp] theorem rows_fresh (db : Holder) : fresh.rows db = ⟨none, 0⟩ := by
  cases db <;> rfl

theorem tracked_fresh : fresh.Tracked := fun db => by
  rw [rows_fresh]
  exact ⟨Nat.zero_le _, Nat.le_refl _⟩

/-- A slot takes exactly the reports that can be recorded, and adds them to the rows of the party
that they name. -/
theorem update_ok_iff {slot next : ProgressSlot} (tracked : slot.Tracked) :
    slot.update db reported delta = .ok next ↔
      (slot.rows db).Accepts (reported.map UInt64.toNat) delta.toNat ∧
        next.rows db = (slot.rows db).add (reported.map UInt64.toNat) delta.toNat ∧
          ∀ other, other ≠ db → next.word other = slot.word other := by
  have spec (word : UInt64) : updateWord (slot.word db) reported delta = .ok word ↔ _ :=
    updateWord_ok_iff (tracked db)
  simp only [update]
  cases updated : updateWord (slot.word db) reported delta with
  | error refusal =>
    simp only [Except.map, reduceCtorEq, false_iff, not_and]
    intro accepts added _
    have taken := (spec (next.word db)).mpr ⟨accepts, added⟩
    simp [updated] at taken
  | ok word =>
    obtain ⟨accepts, reads⟩ := (spec word).mp updated
    simp only [Except.map, Except.ok.injEq]
    constructor
    · rintro rfl
      refine ⟨accepts, ?_, fun other differ => word_setWord_ne slot word differ⟩
      simpa [rows] using reads
    · rintro ⟨-, added, others⟩
      apply eq_of_word_eq
      intro other
      by_cases same : other = db
      · subst same
        rw [word_setWord_self]
        exact Rows.ofWord_injective (reads.trans added.symm)
      · rw [word_setWord_ne slot word same, others other same]

theorem update_isOk_iff {slot : ProgressSlot} (tracked : slot.Tracked) :
    (∃ next, slot.update db reported delta = .ok next) ↔
      (slot.rows db).Accepts (reported.map UInt64.toNat) delta.toNat := by
  rw [rows, ← updateWord_isOk_iff (tracked db), update]
  cases updateWord (slot.word db) reported delta <;> simp [Except.map]

theorem Tracked.update {slot next : ProgressSlot} (tracked : slot.Tracked)
    (updated : slot.update db reported delta = .ok next) : next.Tracked := by
  obtain ⟨accepts, added, others⟩ := (update_ok_iff tracked).mp updated
  intro other
  by_cases same : other = db
  · subst same
    rw [added]
    exact (tracked other).add accepts
  · rw [rows, others other same]
    exact tracked other

theorem saturated_iff {slot : ProgressSlot} :
    (slot.rows db).Saturated ↔ slot.rowCount db = some (slot.rowIndex db) := by
  simp only [Rows.Saturated, rows, Rows.ofWord, rowCount, rowIndex]
  cases wordTotal (slot.word db) <;> simp [UInt64.toNat_inj]

theorem isSaturated_iff {slot : ProgressSlot} :
    slot.isSaturated = true ↔ ∀ db, (slot.rows db).Saturated := by
  simp only [saturated_iff, isSaturated, isSaturatedAt, Bool.and_eq_true, beq_iff_eq]
  constructor
  · rintro ⟨first, second⟩ db
    cases db <;> assumption
  · exact fun all => ⟨all .db1, all .db2⟩

/-- A report that adds nothing to the rows changes nothing. -/
theorem update_of_add_eq {slot next : ProgressSlot} (tracked : slot.Tracked)
    (updated : slot.update db reported delta = .ok next)
    (same : (slot.rows db).add (reported.map UInt64.toNat) delta.toNat = slot.rows db) :
    next = slot := by
  obtain ⟨-, added, others⟩ := (update_ok_iff tracked).mp updated
  apply eq_of_rows_eq
  intro other
  by_cases named : other = db
  · subst named
    exact added.trans same
  · rw [rows, others other named, rows]

/-- What is recorded of a party that has scanned all its rows changes nothing. -/
theorem update_of_saturated {slot next : ProgressSlot} (tracked : slot.Tracked)
    (saturated : (slot.rows db).Saturated) (updated : slot.update db reported delta = .ok next) :
    next = slot := by
  obtain ⟨accepts, -, -⟩ := (update_ok_iff tracked).mp updated
  exact update_of_add_eq tracked updated (saturated.add_eq accepts)

end ProgressSlot

namespace ResultSlot

/-- The cells that are written are counted. -/
def Counted (slot : ResultSlot) : Prop := slot.written = slot.cells.countP Option.isSome

/-- Every position has a value. -/
def Full (slot : ResultSlot) : Prop :=
  ∀ position < slot.size, ∃ value, slot.get? position = some value

private theorem counted_fresh (aggregates : Nat) : (fresh aggregates).Counted := by
  simp [Counted, fresh, List.countP_replicate]

theorem full_iff {slot : ResultSlot} : slot.Full ↔ ∀ cell ∈ slot.cells, cell.isSome = true := by
  simp only [Full, size, get?, List.forall_mem_iff_forall_getElem, Option.isSome_iff_exists]
  constructor <;> intro full position inside <;> simpa [inside] using full position inside

private theorem isFull_iff {slot : ResultSlot} (counted : slot.Counted) :
    slot.isFull = true ↔ slot.Full := by
  rw [full_iff, isFull, beq_iff_eq, counted]
  exact List.countP_eq_length

theorem write_ok_iff {slot next : ResultSlot} :
    slot.write position value = .ok next ↔
      slot.cells[position]? = some none ∧
        next = ⟨slot.cells.set position (some value), slot.written + 1⟩ := by
  simp only [write]
  cases cell : slot.cells[position]? with
  | none => simp
  | some content => cases content <;> simp [eq_comm]

theorem Counted.write {slot next : ResultSlot} (counted : slot.Counted)
    (written : slot.write position value = .ok next) : next.Counted := by
  obtain ⟨empty, rfl⟩ := write_ok_iff.mp written
  obtain ⟨inside, cell⟩ := List.getElem?_eq_some_iff.mp empty
  simp only [Counted] at counted ⊢
  simp [List.countP_set inside, cell, counted]

end ResultSlot

namespace TupleSlot

/-- Both totals are known, all rows are scanned, and every position has its value. -/
structure Resolved (slot : TupleSlot) : Prop where
  saturated : ∀ db, slot.progress.rowCount db = some (slot.progress.rowIndex db)
  full : slot.result.Full

/-- What every operation on a slot keeps. -/
structure Sound (aggregates : Nat) (slot : TupleSlot) : Prop where
  size : slot.result.size = aggregates
  tracked : slot.progress.Tracked
  counted : slot.result.Counted
  resolved : slot.complete = true → slot.Resolved

private theorem isResolved_iff {slot : TupleSlot} (counted : slot.result.Counted) :
    slot.isResolved = true ↔ slot.Resolved := by
  simp only [isResolved, Bool.and_eq_true, ProgressSlot.isSaturated_iff,
    ResultSlot.isFull_iff counted, ProgressSlot.saturated_iff]
  exact ⟨fun ⟨saturated, full⟩ => ⟨saturated, full⟩, fun ⟨saturated, full⟩ => ⟨saturated, full⟩⟩

theorem Resolved.rows_saturated {slot : TupleSlot} (resolved : slot.Resolved) (db : Holder) :
    (slot.progress.rows db).Saturated :=
  ProgressSlot.saturated_iff.mpr (resolved.saturated db)

theorem sound_fresh (aggregates : Nat) : (fresh aggregates).Sound aggregates where
  size := List.length_replicate
  tracked := ProgressSlot.tracked_fresh
  counted := ResultSlot.counted_fresh aggregates
  resolved := by simp [fresh]

/-- A claim succeeds exactly on a resolved slot that is not marked, and marks it. -/
theorem tryMarkComplete_eq {slot : TupleSlot} (counted : slot.result.Counted) :
    (slot.Resolved ∧ slot.complete = false ∧
      slot.tryMarkComplete = ({ slot with complete := true }, true)) ∨
    (¬ (slot.Resolved ∧ slot.complete = false) ∧ slot.tryMarkComplete = (slot, false)) := by
  have resolved := isResolved_iff counted
  by_cases claimable : slot.Resolved ∧ slot.complete = false
  · left
    refine ⟨claimable.1, claimable.2, ?_⟩
    simp [tryMarkComplete, resolved.mpr claimable.1, claimable.2]
  · right
    refine ⟨claimable, ?_⟩
    have refused : ¬ (slot.isResolved && !slot.complete) = true := by
      simpa [resolved] using claimable
    simp [tryMarkComplete, refused]

end TupleSlot

end JointQuery
