import JointQuery.Proofs.Session.Consistency
import JointQuery.Proofs.Session.Rejections

/-! What a session collects is never taken back. An event that is refused may still have recorded
some of its rows, but like one that is accepted it only adds: no index goes down, a total or a value
that is there stays, and so does the mark of a complete tuple. What one event keeps in this way,
any run of a session keeps. -/
namespace JointQuery

namespace ProgressSlot

/-- Row progress of which nothing has been taken back. -/
structure Grows (before after : ProgressSlot) : Prop where
  rowIndex_le : ∀ db, before.rowIndex db ≤ after.rowIndex db
  rowCount : ∀ db total, before.rowCount db = some total → after.rowCount db = some total

theorem Grows.refl (slot : ProgressSlot) : slot.Grows slot :=
  ⟨fun _ => UInt64.le_refl _, fun _ _ known => known⟩

theorem Grows.trans {first second third : ProgressSlot} (earlier : first.Grows second)
    (later : second.Grows third) : first.Grows third where
  rowIndex_le db := UInt64.le_trans (earlier.rowIndex_le db) (later.rowIndex_le db)
  rowCount db total known := later.rowCount db total (earlier.rowCount db total known)

theorem grows_update {slot next : ProgressSlot} (tracked : slot.Tracked)
    (updated : slot.update db reported delta = .ok next) : slot.Grows next := by
  obtain ⟨-, added, others⟩ := (update_ok_iff tracked).mp updated
  constructor
  · intro other
    by_cases same : other = db
    · subst same
      have sum : (next.rowIndex other).toNat = (slot.rowIndex other).toNat + delta.toNat :=
        congrArg Rows.index added
      rw [UInt64.le_iff_toNat_le, sum]
      exact Nat.le_add_right _ _
    · rw [rowIndex, rowIndex, others other same]
      exact UInt64.le_refl _
  · intro other total known
    by_cases same : other = db
    · subst same
      have held : (next.rowCount other).map UInt64.toNat = some total.toNat := by
        have merged := congrArg Rows.total added
        have before : (slot.rows other).total = some total.toNat :=
          congrArg (Option.map UInt64.toNat) known
        rwa [Rows.add, before, Option.some_or] at merged
      obtain ⟨rows, found, equal⟩ := Option.map_eq_some_iff.mp held
      rw [found, UInt64.toNat_inj.mp equal]
    · rw [rowCount, others other same]
      exact known

private theorem Written.grows {slot last : ProgressSlot} (written : Written slot entries last)
    (tracked : slot.Tracked) : slot.Grows last := by
  induction written with
  | nil => exact .refl _
  | cons holder updated rest ih =>
    exact (grows_update tracked updated).trans (ih (tracked.update updated))

end ProgressSlot

/-- Values that fit leave those that are written. -/
theorem ResultSlot.Fits.get?_fill {slot : ResultSlot} (fits : slot.Fits values)
    (held : slot.get? position = some value) : (slot.fill values).get? position = some value := by
  have unnamed : ∀ entry ∈ values, entry.position.toNat ≠ position := by
    rintro entry member rfl
    simp [get?, fits.empty entry member] at held
  rw [fits.filled.kept position unnamed, held]

namespace TupleSlot

/-- A slot from which nothing has been taken. -/
structure Grows (before after : TupleSlot) : Prop where
  progress : before.progress.Grows after.progress
  values : ∀ position value, before.result.get? position = some value →
    after.result.get? position = some value
  complete : before.complete = true → after.complete = true

private theorem Grows.refl (slot : TupleSlot) : slot.Grows slot :=
  ⟨.refl _, fun _ _ held => held, fun marked => marked⟩

private theorem Grows.trans {first second third : TupleSlot} (earlier : first.Grows second)
    (later : second.Grows third) : first.Grows third where
  progress := earlier.progress.trans later.progress
  values position value held := later.values position value (earlier.values position value held)
  complete marked := later.complete (earlier.complete marked)

open ProgressSlot (Written)

variable {slot : TupleSlot} {progress : ProgressSlot}

/-- Entries that are recorded take nothing away, whether or not one after them is refused. -/
theorem grows_written (tracked : slot.progress.Tracked)
    (written : Written slot.progress entries progress) :
    slot.Grows { slot with progress := progress } :=
  ⟨written.grows tracked, fun _ _ held => held, fun marked => marked⟩

private theorem grows_record {event : PartialResult} (tracked : slot.progress.Tracked)
    (admits : slot.Admits event) (written : Written slot.progress event.progress progress) :
    slot.Grows (slot.record progress event.values) :=
  ⟨written.grows tracked, fun _ _ held => admits.values.get?_fill held, fun marked => marked⟩

private theorem grows_marked (slot : TupleSlot) : slot.Grows { slot with complete := true } :=
  ⟨.refl _, fun _ _ held => held, fun _ => rfl⟩

end TupleSlot

namespace Session

variable {id : QueryId} {query : Query} {client : Nat} {ref : String} {now : Int64}
  {fresh session next later : Session}

/-- A session that may have followed one, with nothing taken away: it has the same tuples, each has
what it had, and no more of them remain. -/
structure Advances (before after : Session) : Prop where
  tupleCount : after.tupleCount = before.tupleCount
  slots : ∀ tuple slot, before.slot? tuple = some slot →
    ∃ next, after.slot? tuple = some next ∧ slot.Grows next
  remaining_le : after.remaining ≤ before.remaining

theorem Advances.refl (session : Session) : session.Advances session :=
  ⟨rfl, fun _ slot found => ⟨slot, found, .refl slot⟩, Nat.le_refl _⟩

private theorem Advances.trans {first second third : Session} (earlier : first.Advances second)
    (later : second.Advances third) : first.Advances third where
  tupleCount := later.tupleCount.trans earlier.tupleCount
  slots := by
    intro tuple slot found
    obtain ⟨middle, held, before⟩ := earlier.slots tuple slot found
    obtain ⟨last, there, after⟩ := later.slots tuple middle held
    exact ⟨last, there, before.trans after⟩
  remaining_le := Nat.le_trans later.remaining_le earlier.remaining_le

/-- A session that keeps its slots and what remains advances. -/
theorem advances_of_same (slots : next.slots = session.slots)
    (remaining : next.remaining = session.remaining) : session.Advances next := by
  refine ⟨congrArg List.length slots, ?_, Nat.le_of_eq remaining⟩
  intro tuple slot found
  rw [slot?, ← slots] at found
  exact ⟨slot, found, .refl slot⟩

/-- When one slot grows and the others stay as they are, nothing is taken away. -/
private theorem slots_of_one
    (others : ∀ other, other ≠ tuple → next.slot? other = session.slot? other)
    (found : session.slot? tuple = some slot) (present : next.slot? tuple = some grown)
    (grows : slot.Grows grown) :
    ∀ other before, session.slot? other = some before →
      ∃ last, next.slot? other = some last ∧ before.Grows last := by
  intro other before held
  by_cases same : other = tuple
  · subst same
    obtain rfl := Option.some.inj (found.symm.trans held)
    exact ⟨grown, present, grows⟩
  · exact ⟨before, (others other same).trans held, .refl before⟩

/-- No event takes anything away, accepted or not. -/
theorem Applied.advances (applied : Applied session event next outcome)
    (sound : session.Sound) : session.Advances next := by
  refine ⟨applied.tupleCount_eq, ?_, applied.remaining_le⟩
  have others : ∀ tuple, tuple ≠ event.tupleIndex.toNat →
      next.slot? tuple = session.slot? tuple := fun _ => applied.slot?_of_ne
  have tracked : ∀ {tuple slot}, session.slot? tuple = some slot → slot.progress.Tracked :=
    fun found => (sound.slots _ (List.mem_of_getElem? found)).tracked
  cases applied with
  | refused unsuited => exact (Advances.refl session).slots
  | cut found admits split written refuses =>
    exact slots_of_one others found (slot?_setSlot_self found)
      (TupleSlot.grows_written (tracked found) written)
  | recorded found admits written unclaimed =>
    exact slots_of_one others found (slot?_setSlot_self found)
      (TupleSlot.grows_record (tracked found) admits written)
  | claimed found admits written resolved unmarked =>
    have recorded := TupleSlot.grows_record (tracked found) admits written
    exact slots_of_one others found (slot?_mark_self found)
      (recorded.trans (TupleSlot.grows_marked _))

/-! ## A whole run -/

/-- What a session can become: events are applied to it, its state moves on or is finished, and what
has changed is seen. -/
inductive Reaches (session : Session) : Session → Prop where
  | here : Reaches session session
  | applied {middle : Session} (earlier : Reaches session middle) (event : PartialResult) :
      Reaches session (middle.apply event).1
  | moved {middle : Session} (earlier : Reaches session middle) (source target : SessionState) :
      Reaches session (middle.transition source target).1
  | finished {middle : Session} (earlier : Reaches session middle) (target : SessionState) :
      Reaches session (middle.finish target).1
  | seen {middle : Session} (earlier : Reaches session middle) :
      Reaches session { middle with changed := false }

/-- Every session that is reached is sound, and nothing has been taken away on the way. -/
theorem Reaches.sound_advances (reaches : session.Reaches later) (sound : session.Sound) :
    later.Sound ∧ session.Advances later := by
  induction reaches with
  | here => exact ⟨sound, .refl session⟩
  | applied _ event ih =>
    obtain ⟨held, advances⟩ := ih
    exact ⟨held.apply event, advances.trans ((apply_applied held.slots event).advances held)⟩
  | @moved middle _ source target ih =>
    obtain ⟨state, moved⟩ := middle.transition_eq source target
    rw [moved]
    exact ⟨ih.1.of_same rfl rfl rfl, ih.2.trans (advances_of_same rfl rfl)⟩
  | @finished middle _ target ih =>
    obtain ⟨state, changed, finished⟩ := middle.finish_eq target
    rw [finished]
    exact ⟨ih.1.of_same rfl rfl rfl, ih.2.trans (advances_of_same rfl rfl)⟩
  | seen _ ih => exact ⟨ih.1.of_same rfl rfl rfl, ih.2.trans (advances_of_same rfl rfl)⟩

/-- What a session has collected only grows, whatever it has been through and whatever is received:
across an event, accepted or not, rows do not go back, known totals, written values and marks stay,
and what remains does not increase. Other tuples are not touched, and an event that is refused leaves
all values and marks, and what remains, as they are. The same growth holds from any time to any
later one. -/
theorem collected_grows (created : create id query client ref now = .ok fresh)
    (reached : fresh.Reaches session) :
    (∀ event,
      session.Advances (session.apply event).1 ∧
      (∀ tuple, tuple ≠ event.tupleIndex.toNat →
        (session.apply event).1.slot? tuple = session.slot? tuple) ∧
      (∀ violation, (session.apply event).2 = .error violation →
        (session.apply event).1.remaining = session.remaining ∧
        ∀ tuple, ((session.apply event).1.slot? tuple).map
            (fun slot => (slot.result, slot.complete)) =
          (session.slot? tuple).map fun slot => (slot.result, slot.complete))) ∧
    (∀ later, session.Reaches later → session.Advances later) := by
  obtain ⟨sound, -⟩ := reached.sound_advances (sound_create created)
  constructor
  · intro event
    have applied := apply_applied sound.slots event
    refine ⟨applied.advances sound, fun _ => applied.slot?_of_ne, ?_⟩
    intro violation refused
    rw [refused] at applied
    exact applied.kept_of_error
  · intro later reaches
    exact (reaches.sound_advances sound).2

/-- The event that spills five rows of one party leaves the session grown, though refused. -/
theorem collected_grows_single :
    create single.id oneCount 0 "" 0 = .ok single ∧ single.Reaches single ∧
      (single.apply (report [⟨.db1, none, 5⟩, ⟨.db2, none, 4294967295⟩] [])).2 =
        .error (.rowLimitExceeded single.id 0 .db2 4294967295) ∧
      single.Advances (single.apply (report [⟨.db1, none, 5⟩, ⟨.db2, none, 4294967295⟩] [])).1 ∧
      (single.apply (report [⟨.db1, none, 5⟩, ⟨.db2, none, 4294967295⟩] [])).1.remaining = 1 := by
  have refused : (single.apply (report [⟨.db1, none, 5⟩, ⟨.db2, none, 4294967295⟩] [])).2 =
      .error (.rowLimitExceeded single.id 0 .db2 4294967295) := rfl
  obtain ⟨grows, -, kept⟩ := (collected_grows create_single .here).1
    (report [⟨.db1, none, 5⟩, ⟨.db2, none, 4294967295⟩] [])
  exact ⟨create_single, .here, refused, grows, (kept _ refused).1⟩

end Session

end JointQuery
