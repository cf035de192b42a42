import JointQuery.Session.Progress

/-! The state of one tuple: row progress, result cells, and whether its completion has been
claimed. -/
namespace JointQuery

/-- The final values of a tuple's aggregates and how many are written. -/
structure ResultSlot where
  cells : List (Option Float)
  written : Nat
  deriving Repr

namespace ResultSlot

/-- No value is written. -/
def fresh (aggregates : Nat) : ResultSlot := ⟨List.replicate aggregates none, 0⟩

/-- The number of positions. -/
def size (slot : ResultSlot) : Nat := slot.cells.length

/-- `ResultSlot::get`: the value at a position. -/
def get? (slot : ResultSlot) (position : Nat) : Option Float := (slot.cells[position]?).join

/-- `ResultSlot::is_written`: whether a position has its value. -/
def isWritten (slot : ResultSlot) (position : Nat) : Bool := (slot.get? position).isSome

/-- `ResultSlot::write`: writes the value of a position, which can be done once. -/
def write (slot : ResultSlot) (position : Nat) (value : Float) : Except SlotError ResultSlot :=
  match slot.cells[position]? with
  | none => .error .outOfRange
  | some (some _) => .error .alreadyWritten
  | some none => .ok ⟨slot.cells.set position (some value), slot.written + 1⟩

/-- `ResultSlot::is_full`: every position has its value. -/
def isFull (slot : ResultSlot) : Bool := slot.written == slot.cells.length

end ResultSlot

/-- The state of one tuple. -/
structure TupleSlot where
  progress : ProgressSlot
  result : ResultSlot
  complete : Bool
  deriving Repr

namespace TupleSlot

/-- A tuple of which nothing is known. -/
def fresh (aggregates : Nat) : TupleSlot := ⟨.fresh, .fresh aggregates, false⟩

/-- `TupleSlot::is_resolved`: all rows are scanned and all values written. -/
def isResolved (slot : TupleSlot) : Bool := slot.progress.isSaturated && slot.result.isFull

/-- `TupleSlot::try_mark_complete`: claims the completion of a resolved tuple; only the first claim
succeeds. -/
def tryMarkComplete (slot : TupleSlot) : TupleSlot × Bool :=
  if slot.isResolved && !slot.complete then ({ slot with complete := true }, true)
  else (slot, false)

end TupleSlot

end JointQuery
