import JointQuery.Proofs.Checks
import JointQuery.Proofs.Session.Slots
import JointQuery.Session.Apply

/-! What a partial result does to a session. An event is admitted when each of its entries, taken
alone, suits the slot as it was before the event; its entries are then recorded one by one, so that
an entry can still be refused by what an earlier one has changed. `Applied` lists the four ways in
which an event can end, each with the session that it leaves. -/
namespace JointQuery

namespace Rows

/-- A report that suits the rows: it agrees with the total, and does not pass a total that is known
or reported. -/
structure Admits (rows : Rows) (reported : Option Nat) (delta : Nat) : Prop where
  agrees : rows.Agrees reported
  within : ∀ total ∈ rows.total.or reported, rows.index + delta ≤ total

/-- An admitted report can be recorded unless it passes what is tracked while no total is known. -/
theorem accepts_iff {rows : Rows} {reported : Option Nat} {delta : Nat} :
    rows.Accepts reported delta ↔
      rows.Admits reported delta ∧
        (rows.total.or reported = none → rows.index + delta ≤ limit) := by
  constructor
  · rintro ⟨agrees, within⟩
    simp only [bound, Rows.add] at within
    refine ⟨⟨agrees, fun total known => ?_⟩, fun unknown => ?_⟩
    · rw [Option.mem_def.mp known] at within
      exact within
    · rw [unknown] at within
      exact within
  · rintro ⟨⟨agrees, within⟩, tracked⟩
    refine ⟨agrees, ?_⟩
    simp only [bound, Rows.add]
    cases known : rows.total.or reported with
    | none => exact tracked known
    | some total => exact within total known

end Rows

/-- The total that an entry reports. -/
def RowProgress.reported (entry : RowProgress) : Option Nat := entry.rowCount.map UInt64.toNat

/-- The rows that an entry adds. -/
def RowProgress.scanned (entry : RowProgress) : Nat := entry.rowDelta.toNat

namespace ProgressSlot

/-- An entry suits a slot: it belongs to a data party, and its report suits that party's rows. -/
def Admits (slot : ProgressSlot) (entry : RowProgress) : Prop :=
  ∃ db, entry.db.holder? = some db ∧ (slot.rows db).Admits entry.reported entry.scanned

/-- Entries recorded one after another. -/
inductive Written : ProgressSlot → List RowProgress → ProgressSlot → Prop where
  | nil : Written slot [] slot
  | cons (holder : entry.db.holder? = some db)
      (updated : slot.update db entry.rowCount entry.rowDelta = .ok next)
      (rest : Written next entries last) : Written slot (entry :: entries) last

/-- An entry that a slot does not record. -/
def Refuses (slot : ProgressSlot) (entry : RowProgress) : Prop :=
  ∀ db, entry.db.holder? = some db → ¬ (slot.rows db).Accepts entry.reported entry.scanned

theorem Written.tracked {slot last : ProgressSlot} (written : Written slot entries last)
    (tracked : slot.Tracked) : last.Tracked := by
  induction written with
  | nil => exact tracked
  | cons holder updated rest ih => exact ih (tracked.update updated)

/-- Slots that have scanned everything are not changed by what they record. -/
theorem Written.eq_of_saturated {slot last : ProgressSlot} (written : Written slot entries last)
    (tracked : slot.Tracked) (saturated : ∀ db, (slot.rows db).Saturated) : last = slot := by
  induction written with
  | nil => rfl
  | cons holder updated rest ih =>
    obtain rfl := update_of_saturated tracked (saturated _) updated
    exact ih tracked saturated

/-- Entries do not touch the rows of a party that none of them names. -/
theorem Written.rows_of_unnamed {slot last : ProgressSlot} (written : Written slot entries last)
    (tracked : slot.Tracked) (unnamed : ∀ entry ∈ entries, entry.db.holder? ≠ some db) :
    last.rows db = slot.rows db := by
  induction written with
  | nil => rfl
  | cons holder updated rest ih =>
    obtain ⟨-, -, others⟩ := (update_ok_iff tracked).mp updated
    have differ : db ≠ _ := fun same => unnamed _ List.mem_cons_self (same ▸ holder)
    rw [ih (tracked.update updated) fun entry member =>
      unnamed entry (List.mem_cons_of_mem _ member), rows, others db differ, rows]

end ProgressSlot

namespace ResultSlot

/-- Values that a slot takes: each has a position of its own that is empty. -/
structure Fits (slot : ResultSlot) (values : List AggregateValue) : Prop where
  empty : ∀ entry ∈ values, slot.cells[entry.position.toNat]? = some none
  distinct : (values.map (·.position)).Nodup

theorem empty_iff {slot : ResultSlot} {position : Nat} :
    slot.cells[position]? = some none ↔
      position < slot.size ∧ slot.isWritten position = false := by
  simp only [size, isWritten, get?]
  cases cell : slot.cells[position]? with
  | none => simpa using List.getElem?_eq_none_iff.mp cell
  | some content =>
    obtain ⟨inside, -⟩ := List.getElem?_eq_some_iff.mp cell
    cases content <;> simp [inside]

theorem fits_cons_iff {slot : ResultSlot} {entry : AggregateValue} {rest : List AggregateValue} :
    slot.Fits (entry :: rest) ↔ slot.cells[entry.position.toNat]? = some none ∧
      (∀ other ∈ rest, other.position ≠ entry.position) ∧ slot.Fits rest := by
  constructor
  · rintro ⟨empty, distinct⟩
    rw [List.map_cons, List.nodup_cons] at distinct
    refine ⟨empty entry List.mem_cons_self, fun other member same => ?_,
      fun other member => empty other (List.mem_cons_of_mem _ member), distinct.2⟩
    exact distinct.1 (List.mem_map.mpr ⟨other, member, same⟩)
  · rintro ⟨empty, apart, others, distinct⟩
    refine ⟨fun other member => ?_, ?_⟩
    · rcases List.mem_cons.mp member with rfl | member
      · exact empty
      · exact others other member
    · rw [List.map_cons, List.nodup_cons]
      refine ⟨fun again => ?_, distinct⟩
      obtain ⟨other, member, same⟩ := List.mem_map.mp again
      exact apart other member same

/-- A slot with values written. -/
def fill (slot : ResultSlot) (values : List AggregateValue) : ResultSlot :=
  ⟨values.foldl (fun cells entry => cells.set entry.position.toNat (some entry.value)) slot.cells,
    slot.written + values.length⟩

/-- A full slot takes no values. -/
theorem Full.eq_nil_of_fits {slot : ResultSlot} (full : slot.Full) (fits : slot.Fits values) :
    values = [] := by
  cases values with
  | nil => rfl
  | cons entry rest =>
    have empty := List.mem_of_getElem? (fits.empty entry List.mem_cons_self)
    simpa using full_iff.mp full none empty

theorem Fits.write {slot : ResultSlot} (fits : slot.Fits (entry :: rest)) :
    ∃ next, slot.write entry.position.toNat entry.value = .ok next ∧ next.Fits rest ∧
      next.fill rest = slot.fill (entry :: rest) := by
  obtain ⟨empty, differ, others, distinct⟩ := fits_cons_iff.mp fits
  refine ⟨_, write_ok_iff.mpr ⟨empty, rfl⟩, ⟨fun other member => ?_, distinct⟩, ?_⟩
  · have apart : entry.position.toNat ≠ other.position.toNat := fun same =>
      differ other member (UInt64.toNat_inj.mp same).symm
    rw [List.getElem?_set_ne apart]
    exact others other member
  · simp [fill, Nat.add_assoc, Nat.add_comm 1]

theorem Counted.fill {slot : ResultSlot} (counted : slot.Counted) (fits : slot.Fits values) :
    (slot.fill values).Counted := by
  induction values generalizing slot with
  | nil => exact counted
  | cons entry rest ih =>
    obtain ⟨next, written, fits, filled⟩ := fits.write
    rw [← filled]
    exact ih (counted.write written) fits

@[simp] theorem size_fill (slot : ResultSlot) (values : List AggregateValue) :
    (slot.fill values).size = slot.size := by
  simp only [fill, size]
  induction values generalizing slot with
  | nil => rfl
  | cons entry rest ih =>
    simpa using ih ⟨slot.cells.set entry.position.toNat (some entry.value), slot.written⟩

end ResultSlot

namespace TupleSlot

/-- The slot after an event that is recorded in full. -/
def record (slot : TupleSlot) (progress : ProgressSlot) (values : List AggregateValue) :
    TupleSlot :=
  { slot with progress := progress, result := slot.result.fill values }

/-- An event suits a slot when each of its entries does, and the slot takes its values. -/
structure Admits (slot : TupleSlot) (event : PartialResult) : Prop where
  progress : ∀ entry ∈ event.progress, slot.progress.Admits entry
  values : slot.result.Fits event.values

end TupleSlot

namespace Session

open ProgressSlot (Written)

/-! ## Checking -/

private theorem checkTotal_ok_iff :
    checkTotal target db known reported = .ok () ↔
      ∀ total ∈ reported.map UInt64.toNat, total ≤ Rows.limit ∧
        ∀ before ∈ known.map UInt64.toNat, before = total := by
  cases reported with
  | none => simp [checkTotal]
  | some total =>
    simp only [checkTotal, UInt64.lt_iff_toNat_lt, Rows.limit_eq]
    cases known with
    | none => split <;> simp_all
    | some before =>
      split
      · rename_i above
        simp only [reduceCtorEq, Option.map_some, Option.mem_def, Option.some.injEq, forall_eq',
          false_iff, not_and]
        omega
      · split <;> simp_all [UInt64.toNat_inj]

private theorem checkRows_ok_iff :
    checkRows target db total index = .ok () ↔
      ∀ rows ∈ total.map UInt64.toNat, index.toNat ≤ rows := by
  cases total with
  | none => simp [checkRows]
  | some total =>
    simp only [checkRows, UInt64.lt_iff_toNat_lt]
    split <;> simp_all

private theorem checkProgress_ok_iff {slot : TupleSlot} (tracked : slot.progress.Tracked) :
    checkProgress target slot entry = .ok () ↔ slot.progress.Admits entry := by
  simp only [checkProgress, ProgressSlot.Admits]
  cases holder : entry.db.holder? with
  | none => simp
  | some db =>
    simp only [Option.some.injEq, exists_eq_left', andThen_ok_iff, checkTotal_ok_iff,
      checkRows_ok_iff, saturatingAdd_toNat, or_map_toNat]
    have known_le : ∀ total ∈ (slot.progress.rows db).total, total ≤ Rows.limit := by
      intro total known
      have bound := (tracked db).bound_le
      rwa [Rows.bound, Option.mem_def.mp known] at bound
    constructor
    · rintro ⟨agrees, within⟩
      refine ⟨agrees, fun total known => ?_⟩
      have below := within total known
      have total_le : total ≤ Rows.limit := by
        cases before : (slot.progress.rows db).total with
        | some rows =>
          rw [before, Option.some_or] at known
          exact known_le total (before.trans known)
        | none =>
          rw [before, Option.none_or] at known
          exact (agrees total known).1
      simp only [Rows.limit] at total_le
      simp only [ProgressSlot.rows_index, RowProgress.scanned]
      omega
    · rintro ⟨agrees, within⟩
      refine ⟨agrees, fun total known => ?_⟩
      have below := within total known
      simp only [ProgressSlot.rows_index, RowProgress.scanned] at below
      omega

private theorem checkValues_ok_iff {slot : TupleSlot} :
    checkValues target slot seen values = .ok () ↔
      slot.result.Fits values ∧ ∀ entry ∈ values, entry.position ∉ seen := by
  induction values generalizing seen with
  | nil => simp [checkValues, ResultSlot.Fits.mk]
  | cons entry rest ih =>
    simp only [checkValues, ResultSlot.fits_cons_iff, ResultSlot.empty_iff]
    split
    · rename_i outside
      simp [Nat.not_lt.mpr outside]
    · rename_i inside
      split
      · rename_i taken
        simp only [Bool.or_eq_true, List.contains_iff_mem] at taken
        simp only [reduceCtorEq, false_iff, not_and]
        rintro ⟨⟨-, unwritten⟩, -, -⟩ unseen
        exact unseen entry List.mem_cons_self (taken.resolve_left (by simp [unwritten]))
      · rename_i free
        simp only [Bool.or_eq_true, List.contains_iff_mem, not_or, Bool.not_eq_true] at free
        rw [ih]
        simp only [List.mem_cons, not_or, forall_eq_or_imp, forall_and]
        constructor
        · rintro ⟨fits, apart, unseen⟩
          exact ⟨⟨⟨Nat.not_le.mp inside, free.1⟩, apart, fits⟩, free.2, unseen⟩
        · rintro ⟨⟨-, apart, fits⟩, -, unseen⟩
          exact ⟨fits, apart, unseen⟩

/-- The checks pass exactly the events that suit the slot. -/
theorem checkEvent_ok_iff {slot : TupleSlot} (tracked : slot.progress.Tracked) :
    checkEvent target slot event = .ok () ↔ slot.Admits event := by
  simp only [checkEvent, andThen_ok_iff, List.forM_eq_forM, forM_ok_iff,
    checkProgress_ok_iff tracked, checkValues_ok_iff, List.not_mem_nil, not_false_eq_true,
    implies_true, and_true]
  exact ⟨fun ⟨progress, values⟩ => ⟨progress, values⟩, fun ⟨progress, values⟩ => ⟨progress, values⟩⟩

/-! ## Writing -/

private theorem writeProgress_ok {slot : ProgressSlot}
    (ran : writeProgress target slot entries = (last, .ok ())) : Written slot entries last := by
  induction entries generalizing slot with
  | nil =>
    simp only [writeProgress, Prod.mk.injEq, and_true] at ran
    subst ran
    exact .nil
  | cons entry rest ih =>
    simp only [writeProgress] at ran
    split at ran
    · simp at ran
    · rename_i db holder
      split at ran
      · simp at ran
      · rename_i next updated
        exact .cons holder updated (ih ran)

/-- A refused entry ends the writing, with the entries before it recorded. -/
theorem writeProgress_error {slot : ProgressSlot} (tracked : slot.Tracked)
    (ran : writeProgress target slot entries = (last, .error violation)) :
    ∃ before bad after, entries = before ++ bad :: after ∧ Written slot before last ∧
      last.Refuses bad := by
  induction entries generalizing slot with
  | nil => simp [writeProgress] at ran
  | cons entry rest ih =>
    simp only [writeProgress] at ran
    split at ran
    · rename_i holder
      obtain ⟨rfl, -⟩ := Prod.mk.inj ran
      exact ⟨[], entry, rest, rfl, .nil, by simp [ProgressSlot.Refuses, holder]⟩
    · rename_i db holder
      split at ran
      · rename_i refusal refused
        obtain ⟨rfl, -⟩ := Prod.mk.inj ran
        refine ⟨[], entry, rest, rfl, .nil, fun other same accepts => ?_⟩
        obtain rfl := Option.some.inj (holder.symm.trans same)
        obtain ⟨next, updated⟩ := (ProgressSlot.update_isOk_iff tracked).mpr accepts
        simp [updated] at refused
      · rename_i next updated
        obtain ⟨before, bad, after, rfl, written, refuses⟩ := ih (tracked.update updated) ran
        exact ⟨entry :: before, bad, after, rfl, .cons holder updated written, refuses⟩

private theorem writeProgress_of_written (target : Target) {slot progress : ProgressSlot}
    (written : Written slot before progress) (rest : List RowProgress) :
    writeProgress target slot (before ++ rest) = writeProgress target progress rest := by
  induction written with
  | nil => rfl
  | cons holder updated _ ih => simpa [writeProgress, holder, updated] using ih

private theorem writeProgress_of_refuses (target : Target) {slot : ProgressSlot}
    (tracked : slot.Tracked) (refuses : slot.Refuses bad) (rest : List RowProgress) :
    ∃ violation, writeProgress target slot (bad :: rest) = (slot, .error violation) := by
  simp only [writeProgress]
  split
  · exact ⟨_, rfl⟩
  · rename_i db holder
    split
    · exact ⟨_, rfl⟩
    · rename_i next updated
      exact absurd ((ProgressSlot.update_ok_iff tracked).mp updated).1 (refuses db holder)

/-- Values that a slot takes are all written. -/
theorem writeValues_of_fits {slot : ResultSlot} (fits : slot.Fits values) :
    writeValues target slot values = (slot.fill values, .ok ()) := by
  induction values generalizing slot with
  | nil => simp [writeValues, ResultSlot.fill]
  | cons entry rest ih =>
    obtain ⟨next, written, fits, filled⟩ := fits.write
    simp only [writeValues, written]
    rw [ih fits, filled]

/-! ## Applying -/

/-- The session with a tuple marked complete. -/
def mark (session : Session) (tuple : Nat) (slot : TupleSlot) : Session :=
  { session.setSlot tuple { slot with complete := true } with
    remaining := session.remaining - 1, changed := true }

/-- The ways in which an event can end, each with the session that it leaves. -/
inductive Applied (session : Session) (event : PartialResult) :
    Session → Except Violation ApplyOutcome → Prop where
  /-- There is no such tuple, or the event does not suit its slot. -/
  | refused
      (unsuited : ∀ slot, session.slot? event.tupleIndex.toNat = some slot → ¬ slot.Admits event) :
      Applied session event session (.error violation)
  /-- An entry is refused for what has been recorded before it. -/
  | cut (found : session.slot? event.tupleIndex.toNat = some slot) (admits : slot.Admits event)
      (split : event.progress = before ++ bad :: after)
      (written : Written slot.progress before progress) (refuses : progress.Refuses bad) :
      Applied session event
        (session.setSlot event.tupleIndex.toNat { slot with progress := progress })
        (.error violation)
  /-- The event is recorded, and there is nothing to claim. -/
  | recorded (found : session.slot? event.tupleIndex.toNat = some slot)
      (admits : slot.Admits event) (written : Written slot.progress event.progress progress)
      (unclaimed : ¬ ((slot.record progress event.values).Resolved ∧ slot.complete = false)) :
      Applied session event
        (session.setSlot event.tupleIndex.toNat (slot.record progress event.values))
        (.ok .applied)
  /-- The event is recorded and resolves the tuple, whose completion is claimed. -/
  | claimed (found : session.slot? event.tupleIndex.toNat = some slot)
      (admits : slot.Admits event) (written : Written slot.progress event.progress progress)
      (resolved : (slot.record progress event.values).Resolved)
      (unmarked : slot.complete = false) :
      Applied session event
        (session.mark event.tupleIndex.toNat (slot.record progress event.values))
        (.ok (if session.remaining = 1 then .sessionCompleted
          else .tupleCompleted event.tupleIndex.toNat))

theorem slot?_setSlot_self {session : Session} (found : session.slot? tuple = some before) :
    (session.setSlot tuple slot).slot? tuple = some slot := by
  obtain ⟨inside, -⟩ := List.getElem?_eq_some_iff.mp found
  exact List.getElem?_set_self inside

theorem slot?_setSlot_ne (session : Session) {tuple other : Nat} (slot : TupleSlot)
    (differ : other ≠ tuple) : (session.setSlot tuple slot).slot? other = session.slot? other :=
  List.getElem?_set_ne (Ne.symm differ)

theorem slot?_mark_self {session : Session} (found : session.slot? tuple = some before) :
    (session.mark tuple slot).slot? tuple = some { slot with complete := true } :=
  slot?_setSlot_self found

/-- Events do not touch the other tuples. -/
theorem Applied.slot?_of_ne {session : Session} (applied : Applied session event after outcome)
    (differ : tuple ≠ event.tupleIndex.toNat) : after.slot? tuple = session.slot? tuple := by
  cases applied with
  | refused => rfl
  | cut => exact slot?_setSlot_ne session _ differ
  | recorded => exact slot?_setSlot_ne session _ differ
  | claimed => exact slot?_setSlot_ne session _ differ

/-- What a claim finds in a slot that has just been written. -/
private theorem claim_setSlot {session : Session} (found : session.slot? tuple = some before)
    (counted : slot.result.Counted) :
    (slot.Resolved ∧ slot.complete = false ∧
      (session.setSlot tuple slot).claim tuple = (session.mark tuple slot,
        if session.remaining = 1 then .sessionCompleted else .tupleCompleted tuple)) ∨
    (¬ (slot.Resolved ∧ slot.complete = false) ∧
      (session.setSlot tuple slot).claim tuple = (session.setSlot tuple slot, .applied)) := by
  have present : (session.setSlot tuple slot).slot? tuple = some slot := slot?_setSlot_self found
  rcases TupleSlot.tryMarkComplete_eq counted with ⟨resolved, unmarked, marks⟩ | ⟨unclaimable, same⟩
  · left
    refine ⟨resolved, unmarked, ?_⟩
    have marked : (session.setSlot tuple slot).markTupleComplete tuple =
        (session.mark tuple slot, some (session.remaining == 1)) := by
      simp only [markTupleComplete, present, marks]
      simp [mark, setSlot]
    simp only [claim, marked]
    cases last : session.remaining == 1 <;> simp_all
  · right
    refine ⟨unclaimable, ?_⟩
    simp [claim, markTupleComplete, present, same]

/-- An admitted event is recorded in full, or cut where an entry is refused. -/
private theorem writeEvent_cases (target : Target) {slot : TupleSlot}
    (tracked : slot.progress.Tracked) (admits : slot.Admits event) :
    (∃ before bad after progress violation, event.progress = before ++ bad :: after ∧
      Written slot.progress before progress ∧ progress.Refuses bad ∧
      writeEvent target slot event = ({ slot with progress := progress }, .error violation)) ∨
    (∃ progress, Written slot.progress event.progress progress ∧
      writeEvent target slot event = (slot.record progress event.values, .ok ())) := by
  simp only [writeEvent]
  rcases ran : writeProgress target slot.progress event.progress with ⟨progress, outcome⟩
  cases outcome with
  | error violation =>
    left
    obtain ⟨before, bad, after, split, written, refuses⟩ := writeProgress_error tracked ran
    exact ⟨before, bad, after, progress, violation, split, written, refuses, rfl⟩
  | ok _ =>
    right
    refine ⟨progress, writeProgress_ok ran, ?_⟩
    simp only [writeValues_of_fits admits.values, TupleSlot.record]

/-- Every event ends in one of the four ways. -/
theorem apply_applied {session : Session} (sound : ∀ slot ∈ session.slots, slot.Sound aggregates)
    (event : PartialResult) :
    Applied session event (session.apply event).1 (session.apply event).2 := by
  cases found : session.slot? event.tupleIndex.toNat with
  | none =>
    simp only [apply, found]
    exact .refused (by simp [found])
  | some slot =>
    obtain ⟨-, tracked, counted, -⟩ := sound slot (List.mem_of_getElem? found)
    cases checked : checkEvent ⟨session.id, event.tupleIndex, session.tupleCount⟩ slot event with
    | error violation =>
      simp only [apply, found, checked]
      refine .refused fun other same admits => ?_
      obtain rfl := Option.some.inj (found.symm.trans same)
      simp [(checkEvent_ok_iff tracked).mpr admits] at checked
    | ok _ =>
      have admits := (checkEvent_ok_iff tracked).mp checked
      rcases writeEvent_cases ⟨session.id, event.tupleIndex, session.tupleCount⟩ tracked
        admits with
        ⟨before, bad, after, progress, violation, split, written, refuses, stopped⟩ |
        ⟨progress, written, finished⟩
      · simp only [apply, found, checked, stopped]
        exact .cut found admits split written refuses
      · simp only [apply, found, checked, finished]
        have kept : (slot.record progress event.values).result.Counted :=
          counted.fill admits.values
        rcases claim_setSlot found kept with ⟨resolved, unmarked, claims⟩ | ⟨unclaimed, same⟩
        · rw [claims]
          exact .claimed found admits written resolved unmarked
        · rw [same]
          exact .recorded found admits written unclaimed

/-- An event with an entry that is refused leaves what is recorded before that entry. -/
theorem apply_of_cut {session : Session} (found : session.slot? event.tupleIndex.toNat = some slot)
    (tracked : slot.progress.Tracked) (admits : slot.Admits event)
    (split : event.progress = before ++ bad :: after)
    (written : Written slot.progress before progress) (refuses : progress.Refuses bad) :
    ∃ violation, session.apply event =
      (session.setSlot event.tupleIndex.toNat { slot with progress := progress },
        .error violation) := by
  obtain ⟨violation, stops⟩ := writeProgress_of_refuses
    ⟨session.id, event.tupleIndex, session.tupleCount⟩ (written.tracked tracked) refuses after
  have ends := (writeProgress_of_written ⟨session.id, event.tupleIndex, session.tupleCount⟩ written
    (bad :: after)).trans stops
  refine ⟨violation, ?_⟩
  simp only [apply, found, (checkEvent_ok_iff tracked).mpr admits, writeEvent, split, ends]

end Session

end JointQuery
