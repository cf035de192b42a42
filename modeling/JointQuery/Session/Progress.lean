import JointQuery.Party

/-! Row progress of a tuple. For each data party one word holds the total number of rows, once
known, and how many of them have been scanned, so that both change in one step. -/
namespace JointQuery

/-- Why a slot refuses a change. -/
inductive SlotError where
  | rowCountConflict (existing : UInt64)
  | rowIndexOverrun (index total : UInt64)
  | rowLimitExceeded (value : UInt64)
  | alreadyWritten
  | outOfRange
  deriving DecidableEq, Repr

/-- `MAX_TRACKED_ROWS`: the largest total or row index that is tracked. -/
def maxTrackedRows : UInt64 := 4294967294

/-- The sum of two words, or the largest word if it does not fit. -/
def saturatingAdd (a b : UInt64) : UInt64 :=
  if a + b < a then 18446744073709551615 else a + b

/-- A total as it is stored: plus one, or zero while it is unknown. -/
def storedTotal : Option UInt64 → UInt64
  | some total => total + 1
  | none => 0

/-- `pack`: a total and an index in one word: the high half holds the stored total, the low half the
index. -/
def packRows (total : Option UInt64) (index : UInt64) : UInt64 :=
  (storedTotal total <<< 32) ||| index

/-- `unpack`, the first part: the total of a word, if it is known. -/
def wordTotal (word : UInt64) : Option UInt64 :=
  if word >>> 32 = 0 then none else some ((word >>> 32) - 1)

/-- `unpack`, the second part: the row index of a word. -/
def wordIndex (word : UInt64) : UInt64 :=
  word &&& 0xFFFFFFFF

/-- The total after a report: a known one stays, and a different report conflicts with it. -/
def mergeTotal : Option UInt64 → Option UInt64 → Except SlotError (Option UInt64)
  | some existing, some reported =>
    if existing = reported then .ok (some existing) else .error (.rowCountConflict existing)
  | known, reported => .ok (known.or reported)

/-- Whether a row index is allowed: up to the total, or up to what is tracked while that is
unknown. -/
def checkIndex (total : Option UInt64) (index : UInt64) : Except SlotError Unit :=
  match total with
  | some total => if total < index then .error (.rowIndexOverrun index total) else .ok ()
  | none => if maxTrackedRows < index then .error (.rowLimitExceeded index) else .ok ()

/-- A total that is too large to track is refused. -/
def checkReported : Option UInt64 → Except SlotError Unit
  | some reported =>
    if maxTrackedRows < reported then .error (.rowLimitExceeded reported) else .ok ()
  | none => .ok ()

/-- The change in `ProgressSlot::update`: the word after a report of a total and of newly scanned
rows. -/
def updateWord (word : UInt64) (reported : Option UInt64) (delta : UInt64) :
    Except SlotError UInt64 := do
  checkReported reported
  let total ← mergeTotal (wordTotal word) reported
  let index := saturatingAdd (wordIndex word) delta
  checkIndex total index
  return packRows total index

/-- The words of both data parties. -/
structure ProgressSlot where
  db1 : UInt64
  db2 : UInt64
  deriving DecidableEq, Repr

namespace ProgressSlot

/-- Nothing is known and nothing has been scanned. -/
def fresh : ProgressSlot := ⟨0, 0⟩

/-- The word of a data party. -/
def word (slot : ProgressSlot) : Holder → UInt64
  | .db1 => slot.db1
  | .db2 => slot.db2

/-- The slot with the word of one data party replaced. -/
def setWord (slot : ProgressSlot) (db : Holder) (word : UInt64) : ProgressSlot :=
  match db with
  | .db1 => { slot with db1 := word }
  | .db2 => { slot with db2 := word }

/-- `ProgressSlot::row_count`: the total of a data party, if it is known. -/
def rowCount (slot : ProgressSlot) (db : Holder) : Option UInt64 := wordTotal (slot.word db)

/-- `ProgressSlot::row_index`: how many rows a data party has scanned. -/
def rowIndex (slot : ProgressSlot) (db : Holder) : UInt64 := wordIndex (slot.word db)

/-- `ProgressSlot::update`: records a total and newly scanned rows of one data party in one step. A
refused report changes nothing. -/
def update (slot : ProgressSlot) (db : Holder) (reported : Option UInt64) (delta : UInt64) :
    Except SlotError ProgressSlot :=
  (updateWord (slot.word db) reported delta).map (slot.setWord db)

/-- `ProgressSlot::set_row_count`: records a total. -/
def setRowCount (slot : ProgressSlot) (db : Holder) (total : UInt64) :
    Except SlotError ProgressSlot :=
  slot.update db (some total) 0

/-- `ProgressSlot::advance`: records newly scanned rows. -/
def advance (slot : ProgressSlot) (db : Holder) (delta : UInt64) : Except SlotError ProgressSlot :=
  slot.update db none delta

/-- A data party has scanned all its rows. -/
def isSaturatedAt (slot : ProgressSlot) (db : Holder) : Bool :=
  slot.rowCount db == some (slot.rowIndex db)

/-- `ProgressSlot::is_saturated`: both data parties have scanned all their rows. -/
def isSaturated (slot : ProgressSlot) : Bool :=
  slot.isSaturatedAt .db1 && slot.isSaturatedAt .db2

/-- The scanned rows and all rows of both parties, once both totals are known. -/
def scanned (slot : ProgressSlot) : Option (UInt64 × UInt64) :=
  match slot.rowCount .db1, slot.rowCount .db2 with
  | some a, some b => some (slot.rowIndex .db1 + slot.rowIndex .db2, a + b)
  | _, _ => none

/-- `ProgressSlot::fraction`: the scanned part of all rows: one if there are none, and zero while a
total is unknown. -/
def fraction (slot : ProgressSlot) : Float :=
  match slot.scanned with
  | some (done, total) => if total = 0 then 1.0 else done.toFloat / total.toFloat
  | none => 0.0

end ProgressSlot

end JointQuery
