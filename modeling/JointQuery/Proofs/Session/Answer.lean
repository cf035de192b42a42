import JointQuery.Proofs.Session.Order
import JointQuery.Proofs.Session.Stream
import Mathlib.Data.List.Basic
import Mathlib.Tactic.Choose

/-! The answer of a session and the partial results that it has come from. In the cells of a tuple
is what the accepted events have brought for it, and each of them was brought by one event alone;
the rows of the answer are those cells, tuple by tuple. -/
namespace JointQuery

/-- The event brings the value at a position of a tuple. -/
def PartialResult.writes (event : PartialResult) (tuple position : Nat) : Bool :=
  event.tupleIndex.toNat == tuple && event.values.any (·.position.toNat == position)

namespace ResultSlot

/-- The slot was empty, and has collected values since, each for a position of its own. -/
structure Collects (values : List AggregateValue) (slot : ResultSlot) : Prop where
  fits : (fresh slot.size).Fits values
  filled : (fresh slot.size).Filled values slot

private theorem collects_fresh (aggregates : Nat) : (fresh aggregates).Collects [] := by
  have size : (fresh aggregates).size = aggregates := List.length_replicate
  refine ⟨⟨by simp, by simp⟩, ?_⟩
  rw [size]
  exact ⟨rfl, by simp, fun _ _ => rfl⟩

private theorem Collects.append {slot next : ResultSlot} (collects : slot.Collects values)
    (fits : slot.Fits more) (filled : slot.Filled more next) :
    next.Collects (values ++ more) := by
  refine ⟨?_, ?_⟩
  · rw [filled.size]
    exact collects.filled.fits_append_iff.mpr ⟨collects.fits, fits⟩
  · rw [filled.size]
    exact collects.filled.append filled fits

/-- Every value of a full slot has been collected. -/
theorem Collects.exists_entry {slot : ResultSlot} (collects : slot.Collects values)
    (full : slot.Full) (inside : position < slot.size) :
    ∃ entry ∈ values, entry.position.toNat = position ∧
      slot.cells[position]? = some (some entry.value) := by
  obtain ⟨value, found⟩ := full position inside
  have named : ∃ entry ∈ values, entry.position.toNat = position := by
    by_contra never
    have unnamed : ∀ entry ∈ values, entry.position.toNat ≠ position := by simpa using never
    have empty : (fresh slot.size).get? position = none := by simp [get?, fresh, inside]
    rw [collects.filled.kept position unnamed, empty] at found
    cases found
  obtain ⟨entry, member, rfl⟩ := named
  exact ⟨entry, member, rfl, Option.join_eq_some_iff.mp (collects.filled.written entry member)⟩

end ResultSlot

namespace Session

variable {id : QueryId} {query : Query} {client : Nat} {ref : String} {now : Int64}
  {session later : Session} {events : List PartialResult} {tuple position scale : Nat}

private theorem toldValues_append_self {event : PartialResult}
    (addressed : event.tupleIndex.toNat = tuple) (events : List PartialResult) :
    toldValues (events ++ [event]) tuple = toldValues events tuple ++ event.values := by
  simp [toldValues, addressed]

private theorem toldValues_append_ne {event : PartialResult}
    (other : event.tupleIndex.toNat ≠ tuple) (events : List PartialResult) :
    toldValues (events ++ [event]) tuple = toldValues events tuple := by
  simp [toldValues, other]

/-! ## What the cells hold -/

/-- In the cells of each tuple is what events have brought for it. -/
def Holds (session : Session) (events : List PartialResult) : Prop :=
  ∀ tuple slot, session.slot? tuple = some slot →
    slot.result.Collects (toldValues events tuple)

theorem holds_create (created : create id query client ref now = .ok session) :
    session.Holds [] := by
  intro tuple slot found
  obtain ⟨domain, -, rfl⟩ := create_eq created
  obtain rfl := List.eq_of_mem_replicate (List.mem_of_getElem? found)
  exact ResultSlot.collects_fresh _

theorem Holds.of_slots (holds : session.Holds events) (same : later.slots = session.slots) :
    later.Holds events := by
  intro tuple slot found
  rw [slot?, same] at found
  exact holds tuple slot found

theorem slots_transition (session : Session) (source target : SessionState) :
    (session.transition source target).1.slots = session.slots := by
  obtain ⟨state, moved⟩ := session.transition_eq source target
  rw [moved]

theorem slots_finish (session : Session) (target : SessionState) :
    (session.finish target).1.slots = session.slots := by
  obtain ⟨state, changed, finished⟩ := session.finish_eq target
  rw [finished]

/-- An event that is accepted adds its values. -/
theorem Holds.accepted {event : PartialResult} (holds : session.Holds events)
    (sound : session.Sound) (accepts : (session.apply event).2 = .ok outcome) :
    (session.apply event).1.Holds (events ++ [event]) := by
  have applied := apply_applied sound.slots event
  have consistent := (sound.apply_ok_iff event).mp ⟨outcome, accepts⟩
  rw [accepts] at applied
  intro tuple slot found
  by_cases same : event.tupleIndex.toNat = tuple
  · subst same
    obtain ⟨before, after, held, present, gains, -⟩ := applied.gains sound
    obtain rfl := Option.some.inj (present.symm.trans found)
    rw [toldValues_append_self rfl]
    exact (holds _ before held).append (consistent.takes before held).values gains.result
  · rw [toldValues_append_ne same]
    rw [applied.slot?_of_ne (Ne.symm same)] at found
    exact holds tuple slot found

/-- An event that is refused adds none, even if some of its rows have been recorded. -/
theorem Holds.refused {event : PartialResult} (holds : session.Holds events)
    (sound : session.Sound) (refused : (session.apply event).2 = .error violation) :
    (session.apply event).1.Holds events := by
  have applied := apply_applied sound.slots event
  rw [refused] at applied
  generalize (session.apply event).1 = next at applied
  cases applied with
  | refused unsuited => exact holds
  | cut held admits split written refuses =>
    intro tuple slot found
    by_cases same : tuple = event.tupleIndex.toNat
    · subst same
      obtain rfl := Option.some.inj ((slot?_setSlot_self held).symm.trans found)
      have collects := holds _ _ held
      exact collects
    · rw [slot?_setSlot_ne _ _ same] at found
      exact holds tuple slot found

/-! ## What a value has come from -/

private theorem filter_eq_singleton {values : List AggregateValue} {entry : AggregateValue}
    (distinct : (values.map (·.position)).Nodup) (member : entry ∈ values) :
    values.filter (·.position.toNat = entry.position.toNat) = [entry] := by
  induction values with
  | nil => simp at member
  | cons first rest ih =>
    rw [List.map_cons, List.nodup_cons] at distinct
    obtain ⟨alone, distinct⟩ := distinct
    rcases List.mem_cons.mp member with rfl | member
    · have others : rest.filter (·.position.toNat = entry.position.toNat) = [] := by
        rw [List.filter_eq_nil_iff]
        intro other named same
        have equal := UInt64.toNat_inj.mp (of_decide_eq_true same)
        exact alone (List.mem_map.mpr ⟨other, named, equal⟩)
      rw [List.filter_cons_of_pos (by simp), others]
    · have differ : first.position.toNat ≠ entry.position.toNat := fun same =>
        alone (List.mem_map.mpr ⟨entry, member, (UInt64.toNat_inj.mp same).symm⟩)
      rw [List.filter_cons_of_neg (by simpa using differ), ih distinct member]

private theorem writes_iff {event : PartialResult} : event.writes tuple position = true ↔
    event.tupleIndex.toNat = tuple ∧ ∃ entry ∈ event.values, entry.position.toNat = position := by
  simp [PartialResult.writes]

private theorem filter_writes_eq_nil
    (unnamed : ∀ value ∈ toldValues events tuple, value.position.toNat ≠ position) :
    events.filter (·.writes tuple position) = [] := by
  rw [List.filter_eq_nil_iff]
  intro event member writes
  obtain ⟨addressed, value, brought, same⟩ := writes_iff.mp writes
  have about : event ∈ events.filter fun event => event.tupleIndex.toNat = tuple :=
    List.mem_filter.mpr ⟨member, decide_eq_true addressed⟩
  exact unnamed value (List.mem_flatMap.mpr ⟨event, about, brought⟩) same

/-- When no position is told of twice, each value that is told was brought by one event alone. -/
theorem exists_writer (distinct : ((toldValues events tuple).map (·.position)).Nodup)
    (member : entry ∈ toldValues events tuple) :
    ∃ event, events.filter (·.writes tuple entry.position.toNat) = [event] ∧
      event.values.filter (·.position.toNat = entry.position.toNat) = [entry] := by
  induction events with
  | nil => simp [toldValues] at member
  | cons first rest ih =>
    by_cases addressed : first.tupleIndex.toNat = tuple
    · subst addressed
      rw [(told_cons_self first rest).2] at distinct member
      rw [List.map_append, List.nodup_append] at distinct
      obtain ⟨early, late, apart⟩ := distinct
      have alone : ∀ one ∈ first.values, ∀ two ∈ toldValues rest first.tupleIndex.toNat,
          one.position.toNat ≠ two.position.toNat := fun one named two told same =>
        apart _ (List.mem_map.mpr ⟨one, named, rfl⟩) _ (List.mem_map.mpr ⟨two, told, rfl⟩)
          (UInt64.toNat_inj.mp same)
      rcases List.mem_append.mp member with own | later
      · refine ⟨first, ?_, filter_eq_singleton early own⟩
        have others : rest.filter (·.writes first.tupleIndex.toNat entry.position.toNat) = [] :=
          filter_writes_eq_nil fun value told => (alone entry own value told).symm
        rw [List.filter_cons_of_pos, others]
        exact writes_iff.mpr ⟨rfl, entry, own, rfl⟩
      · obtain ⟨event, only, brought⟩ := ih late later
        refine ⟨event, ?_, brought⟩
        rw [List.filter_cons_of_neg, only]
        intro writes
        obtain ⟨-, value, named, same⟩ := writes_iff.mp writes
        exact alone value named entry later same
    · rw [(told_cons_ne addressed rest).2] at distinct member
      obtain ⟨event, only, brought⟩ := ih distinct member
      refine ⟨event, ?_, brought⟩
      rw [List.filter_cons_of_neg, only]
      intro writes
      exact addressed (writes_iff.mp writes).1

/-- Each value of a full slot is that of the one event that has brought it. -/
theorem Holds.exists_writer (holds : session.Holds events)
    (found : session.slot? tuple = some slot) (full : slot.result.Full)
    (inside : position < slot.result.size) :
    ∃ event entry, events.filter (·.writes tuple position) = [event] ∧
      event.values.filter (·.position.toNat = position) = [entry] ∧
      slot.result.cells[position]? = some (some entry.value) := by
  have collects := holds tuple slot found
  obtain ⟨entry, member, rfl, cell⟩ := collects.exists_entry full inside
  obtain ⟨event, only, brought⟩ := Session.exists_writer collects.fits.distinct member
  exact ⟨event, entry, only, brought, cell⟩

/-! ## The rows of the answer -/

/-- The row of a tuple is its group and what is in its cells, rounded. -/
theorem tupleRow?_eq_some_iff {row : ResultRow} : session.tupleRow? tuple scale = some row ↔
    ∃ slot, session.slot? tuple = some slot ∧ session.domain.tuple tuple = some row.group ∧
      row.values = slot.result.cells.map (·.map (Decimal.roundToScale · scale)) := by
  simp only [tupleRow?, bind, Option.bind_eq_some_iff, pure, Option.some.injEq]
  constructor
  · rintro ⟨slot, found, group, held, rfl⟩
    exact ⟨slot, found, held, rfl⟩
  · rintro ⟨slot, found, held, values⟩
    exact ⟨slot, found, row.group, held, by rw [← values]⟩

/-- The answer has a row for each tuple. -/
theorem Built.resultTable_rows (built : session.Built) (scale : Nat) :
    (session.resultTable scale).rows.length = session.domain.count ∧
      ∀ tuple, (session.resultTable scale).rows[tuple]? = session.tupleRow? tuple scale := by
  have rows : ∀ tuple, ∃ row, tuple < session.tupleCount →
      session.tupleRow? tuple scale = some row := by
    intro tuple
    by_cases inside : tuple < session.tupleCount
    · obtain ⟨row, found⟩ := built.exists_tupleRow scale inside
      exact ⟨row, fun _ => found⟩
    · exact ⟨⟨[], []⟩, fun within => absurd within inside⟩
  choose row found using rows
  have table : (session.resultTable scale).rows = (List.range session.tupleCount).map row :=
    List.filterMap_eq_map_iff_forall_eq_some.mpr fun tuple member =>
      found tuple (List.mem_range.mp member)
  refine ⟨?_, fun tuple => ?_⟩
  · rw [table, List.length_map, List.length_range, built.tupleCount]
  · rw [table, List.getElem?_map]
    by_cases inside : tuple < session.tupleCount
    · rw [List.getElem?_range inside, found tuple inside]
      rfl
    · have outside : session.slot? tuple = none :=
        List.getElem?_eq_none_iff.mpr (Nat.le_of_not_lt inside)
      simp [tupleRow?, outside, Nat.le_of_not_lt inside]

private theorem Built.columns_eq (built : session.Built) (scale : Nat) :
    (session.resultTable scale).columns =
      session.query.groupBys.map Column.label ++ session.query.aggregateLabels := by
  rw [resultTable, Domain.columnNames_eq built.domain]

/-- A row answers for a tuple of a session that has accepted these partial results. -/
structure Answers (session : Session) (events : List PartialResult) (scale tuple : Nat)
    (row : ResultRow) : Prop where
  group : session.domain.tuple tuple = some row.group
  width : row.values.length = session.query.aggregates.length
  /-- At each position is the value, rounded, of the one partial result that has brought it. -/
  values : ∀ position < session.query.aggregates.length, ∃ event entry,
    events.filter (·.writes tuple position) = [event] ∧
    event.values.filter (·.position.toNat = position) = [entry] ∧
    row.values[position]? = some (some (Decimal.roundToScale entry.value scale))
  /-- Both parties have reported all rows of the tuple. -/
  reported : ∃ slot, session.slot? tuple = some slot ∧
    ∀ db, slot.progress.rowCount db = some (slot.progress.rowIndex db)

/-- A table is the aggregated answer of a session that has accepted these partial results. -/
structure Aggregates (session : Session) (events : List PartialResult) (scale : Nat)
    (table : ResultTable) : Prop where
  domain : Domain.ofQuery session.query = .ok session.domain
  columns : table.columns =
    session.query.groupBys.map Column.label ++ session.query.aggregateLabels
  length : table.rows.length = session.domain.count
  rows : ∀ tuple row, table.rows[tuple]? = some row → session.Answers events scale tuple row

private theorem Regular.row_of_completed (regular : session.Regular)
    (completed : session.state = .completed) (holds : session.Holds events)
    (found : session.tupleRow? tuple scale = some row) :
    session.Answers events scale tuple row := by
  obtain ⟨slot, present, group, values⟩ := tupleRow?_eq_some_iff.mp found
  have inside : tuple < session.tupleCount := (List.getElem?_eq_some_iff.mp present).1
  have sound := regular.sound.slots slot (List.mem_of_getElem? present)
  obtain ⟨same, held, marked⟩ := isTupleComplete_iff.mp (regular.isTupleComplete completed inside)
  obtain rfl := Option.some.inj (present.symm.trans held)
  obtain ⟨saturated, full⟩ := sound.resolved marked
  refine ⟨group, ?_, fun position within => ?_, slot, present, saturated⟩
  · rw [values, List.length_map]
    exact sound.size
  · obtain ⟨event, entry, only, brought, cell⟩ :=
      holds.exists_writer present full (sound.size.symm ▸ within)
    refine ⟨event, entry, only, brought, ?_⟩
    rw [values, List.getElem?_map, cell]
    rfl

/-- The table of a completed session is its aggregated answer. -/
theorem Regular.aggregates_of_completed (regular : session.Regular)
    (completed : session.state = .completed) (holds : session.Holds events) (scale : Nat) :
    session.Aggregates events scale (session.resultTable scale) := by
  obtain ⟨length, row⟩ := regular.built.resultTable_rows scale
  refine ⟨regular.built.domain, regular.built.columns_eq scale, length, fun tuple _ found => ?_⟩
  exact regular.row_of_completed completed holds ((row tuple).symm.trans found)

end Session

end JointQuery
