import JointQuery.Session.Basic

/-! Applying a partial result to a session. Everything is checked against the state before the
event; then row progress is written entry by entry, then the values, and last the completion of
the tuple is claimed. -/
namespace JointQuery

/-- What an accepted partial result has brought about. -/
inductive ApplyOutcome where
  | applied
  | tupleCompleted (tuple : Nat)
  | sessionCompleted
  deriving DecidableEq, Repr

namespace Session

/-- Where an event is addressed to: the query and the tuple, for the wording of violations. -/
structure Target where
  id : QueryId
  tuple : UInt64
  tupleCount : Nat
  deriving DecidableEq, Repr

/-- A reported total is one that is tracked, and the known one if there is one. -/
def checkTotal (target : Target) (db : Party) (known reported : Option UInt64) :
    Except Violation Unit :=
  match reported with
  | none => .ok ()
  | some total =>
    if maxTrackedRows < total then .error (.rowLimitExceeded target.id target.tuple db total)
    else
      match known with
      | some existing =>
        if existing = total then .ok ()
        else .error (.rowCountConflict target.id target.tuple db existing total)
      | none => .ok ()

/-- The scanned rows stay within the total, if it is known or reported. -/
def checkRows (target : Target) (db : Party) (total : Option UInt64) (index : UInt64) :
    Except Violation Unit :=
  match total with
  | some total =>
    if total < index then .error (.rowIndexOverrun target.id target.tuple db index total)
    else .ok ()
  | none => .ok ()

/-- A progress entry belongs to a data party and agrees with the state before the event. -/
def checkProgress (target : Target) (slot : TupleSlot) (entry : RowProgress) :
    Except Violation Unit := do
  match entry.db.holder? with
  | none => .error (.notADb target.id entry.db)
  | some db =>
    let known := slot.progress.rowCount db
    checkTotal target entry.db known entry.rowCount
    checkRows target entry.db (known.or entry.rowCount)
      (saturatingAdd (slot.progress.rowIndex db) entry.rowDelta)

/-- Every value has a position of its own that is not written; `seen` are the positions before. -/
def checkValues (target : Target) (slot : TupleSlot) (seen : List UInt64) :
    List AggregateValue → Except Violation Unit
  | [] => .ok ()
  | entry :: rest =>
    if slot.result.size ≤ entry.position.toNat then
      .error (.aggregateOutOfRange target.id target.tuple entry.position
        (UInt64.ofNat slot.result.size))
    else if slot.result.isWritten entry.position.toNat || seen.contains entry.position then
      .error (.doubleWrite target.id target.tuple entry.position)
    else checkValues target slot (entry.position :: seen) rest

/-- A slot's refusal of a progress entry, as a violation. -/
def progressViolation (target : Target) (entry : RowProgress) : SlotError → Violation
  | .rowCountConflict existing =>
    .rowCountConflict target.id target.tuple entry.db existing (entry.rowCount.getD existing)
  | .rowIndexOverrun index total => .rowIndexOverrun target.id target.tuple entry.db index total
  | .rowLimitExceeded value => .rowLimitExceeded target.id target.tuple entry.db value
  | .alreadyWritten | .outOfRange =>
    .tupleOutOfRange target.id target.tuple (UInt64.ofNat target.tupleCount)

/-- Writes progress entries one by one. A refused entry ends the writing; those before it stay. -/
def writeProgress (target : Target) (slot : ProgressSlot) :
    List RowProgress → ProgressSlot × Except Violation Unit
  | [] => (slot, .ok ())
  | entry :: rest =>
    match entry.db.holder? with
    | none => (slot, .error (.notADb target.id entry.db))
    | some db =>
      match slot.update db entry.rowCount entry.rowDelta with
      | .error refusal => (slot, .error (progressViolation target entry refusal))
      | .ok updated => writeProgress target updated rest

/-- Writes values one by one. A refused value ends the writing; those before it stay. -/
def writeValues (target : Target) (slot : ResultSlot) :
    List AggregateValue → ResultSlot × Except Violation Unit
  | [] => (slot, .ok ())
  | entry :: rest =>
    match slot.write entry.position.toNat entry.value with
    | .error _ => (slot, .error (.doubleWrite target.id target.tuple entry.position))
    | .ok written => writeValues target written rest

/-- The first half of `apply_partial_result`: the checks of an event against a tuple's slot. -/
def checkEvent (target : Target) (slot : TupleSlot) (event : PartialResult) :
    Except Violation Unit := do
  event.progress.forM (checkProgress target slot)
  checkValues target slot [] event.values

/-- The second half of `apply_partial_result`: writes the progress and then the values of an event
into a tuple's slot. -/
def writeEvent (target : Target) (slot : TupleSlot) (event : PartialResult) :
    TupleSlot × Except Violation Unit :=
  match writeProgress target slot.progress event.progress with
  | (progress, .error violation) => ({ slot with progress := progress }, .error violation)
  | (progress, .ok ()) =>
    match writeValues target slot.result event.values with
    | (result, outcome) => ({ slot with progress := progress, result := result }, outcome)

/-- The end of `apply_partial_result`: claims the completion of a tuple, and names what that
completes. -/
def claim (session : Session) (tuple : Nat) : Session × ApplyOutcome :=
  match session.markTupleComplete tuple with
  | (marked, some true) => (marked, .sessionCompleted)
  | (marked, some false) => (marked, .tupleCompleted tuple)
  | (same, none) => (same, .applied)

/-- `apply_partial_result`: the session after a partial result, and what that has brought about or
why it is refused. -/
def apply (session : Session) (event : PartialResult) :
    Session × Except Violation ApplyOutcome :=
  let target : Target := ⟨session.id, event.tupleIndex, session.tupleCount⟩
  let tuple := event.tupleIndex.toNat
  match session.slot? tuple with
  | none =>
    (session, .error (.tupleOutOfRange session.id event.tupleIndex
      (UInt64.ofNat session.tupleCount)))
  | some slot =>
    match checkEvent target slot event with
    | .error violation => (session, .error violation)
    | .ok () =>
      match writeEvent target slot event with
      | (written, .error violation) => (session.setSlot tuple written, .error violation)
      | (written, .ok ()) =>
        let (claimed, outcome) := (session.setSlot tuple written).claim tuple
        (claimed, .ok outcome)

end Session

end JointQuery
