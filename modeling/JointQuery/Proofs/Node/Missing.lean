import JointQuery.Proofs.Decimal.Rounded
import JointQuery.Proofs.Decimal.Written
import JointQuery.Proofs.Message.Rows
import JointQuery.Proofs.Node.Answer

/-! Values that are told as missing. Every cell that a client is told of has its value, since a tuple
is told only when it is complete. Its text is a number as long as scaling the value up for rounding
stays within the doubles; a value that is larger than that rounds to infinity, and infinity is
written like a value that is not there. -/
namespace JointQuery

open Decimal (isFinite overflowPoint roundToScale size maxScale)

/-- The text of a value that is not there. -/
def nullText : List Char := ['n', 'u', 'l', 'l']

private theorem scanNumber_nullText : Json.scanNumber nullText = none := rfl

/-- A cell is written as a number exactly if its value is finite, and else like an empty one. -/
theorem write_cell (value : Float) :
    ((∃ literal, Json.scanNumber (Json.write (Json.cell (some value))) = some (literal, [])) ↔
      isFinite value = true) ∧
    (Json.write (Json.cell (some value)) = Json.write (Json.cell none) ↔
      isFinite value = false) := by
  have empty : Json.write (Json.cell none) = nullText := rfl
  have text : Json.write (Json.cell (some value)) =
      (Decimal.text? value).getD nullText := rfl
  rw [empty, text, Decimal.text?]
  cases finite : isFinite value with
  | true =>
    obtain ⟨literal, scanned⟩ := Decimal.scanNumber_finiteText value
    refine ⟨iff_of_true ⟨literal, scanned⟩ rfl, iff_of_false ?_ Bool.noConfusion⟩
    intro same
    rw [if_pos rfl, Option.getD_some] at same
    rw [same, scanNumber_nullText] at scanned
    cases scanned
  | false =>
    refine ⟨iff_of_false ?_ Bool.noConfusion, iff_of_true rfl rfl⟩
    rintro ⟨literal, scanned⟩
    cases scanned

/-- A row of a complete tuple has at each position the rounded value of the one event that has
brought it. -/
theorem Session.Regular.cell_of_complete {session : Session} (regular : session.Regular)
    (complete : session.isTupleComplete tuple = true) (holds : session.Holds events)
    (found : session.tupleRow? tuple scale = some row) {cell : Option Float}
    (stands : row.values[position]? = some cell) : ∃ event entry,
    events.filter (·.writes tuple position) = [event] ∧
      event.values.filter (·.position.toNat = position) = [entry] ∧
      cell = some (roundToScale entry.value scale) := by
  obtain ⟨slot, present, -, values⟩ := Session.tupleRow?_eq_some_iff.mp found
  obtain ⟨same, held, marked⟩ := Session.isTupleComplete_iff.mp complete
  obtain rfl := Option.some.inj (present.symm.trans held)
  obtain ⟨-, full⟩ := (regular.sound.slots slot (List.mem_of_getElem? present)).resolved marked
  rw [values, List.getElem?_map] at stands
  obtain ⟨before, inside, rfl⟩ := Option.map_eq_some_iff.mp stands
  obtain ⟨event, entry, only, brought, value⟩ :=
    holds.exists_writer present full (List.getElem?_eq_some_iff.mp inside).1
  obtain rfl := Option.some.inj (inside.symm.trans value)
  exact ⟨event, entry, only, brought, rfl⟩

/-- An event tells the rows of complete tuples. -/
theorem Session.Regular.row_of_bears {session : Session} (regular : session.Regular)
    {event : ClientEvent} (bears : session.Bears scale event) (told : event.row? tuple = some row) :
    session.isTupleComplete tuple = true ∧ session.tupleRow? tuple scale = some row := by
  cases event with
  | accepted | tupleProgress | error => cases told
  | tupleDone id index held =>
    obtain ⟨-, complete, found⟩ := bears
    simp only [ClientEvent.row?] at told
    split at told
    · rename_i same
      cases told
      exact same ▸ ⟨complete, found⟩
    · cases told
  | allDone id table =>
    obtain ⟨-, completed, rfl⟩ := bears
    have found := ((regular.built.resultTable_rows scale).2 tuple).symm.trans told
    obtain ⟨slot, present, -⟩ := Session.tupleRow?_eq_some_iff.mp found
    exact ⟨regular.isTupleComplete completed (List.getElem?_eq_some_iff.mp present).1, found⟩

namespace Node

/-- What a client finds in the place of a value, in every run in which a session accepts only finite
values. Each cell of the rows that it is told is part of the line of the event, and stands for the
rounded value of the one accepted partial result that has brought it. It is a number exactly when
scaling the value up stays below the middle between the largest double and the power of two that
comes next; and from there on it is what an empty cell would be. -/
theorem told_missing_iff (config : Config) (limits : OutputLimits) (identifiers : Nat → QueryId)
    (operations : List Operation) (node : Node)
    (reached : (start config limits identifiers).performAll operations = node) (place client : Nat)
    (finite : ∀ source ∈ accepted place (start config limits identifiers) operations,
      ∀ entry ∈ source.values, isFinite entry.value = true)
    (event : ClientEvent) (told : event ∈ node.told place client) (tuple position : Nat)
    (cell : Json) (stands : event.cell? tuple position = some cell) :
    Json.write cell <:+: event.line.toList ∧ ∃ source entry,
      (accepted place (start config limits identifiers) operations).filter
        (·.writes tuple position) = [source] ∧
      source.values.filter (·.position.toNat = position) = [entry] ∧
      cell = Json.cell (some (roundToScale entry.value config.resultScale.toNat)) ∧
      ((∃ literal, Json.scanNumber (Json.write cell) = some (literal, [])) ↔
        size entry.value * 10 ^ min config.resultScale.toNat maxScale < overflowPoint) ∧
      (Json.write cell = Json.write (Json.cell none) ↔
        overflowPoint ≤ size entry.value * 10 ^ min config.resultScale.toNat maxScale) := by
  refine ⟨ClientEvent.write_infix_line stands, ?_⟩
  have sound := sound_front_performAll config limits identifiers operations
  have scale := scale_performAll config limits identifiers operations
  have holds := holds_start config limits identifiers place operations
  rw [reached] at sound scale holds
  rw [ClientEvent.cell?_eq] at stands
  obtain ⟨row, tells, inRow⟩ := Option.bind_eq_some_iff.mp stands
  obtain ⟨value, at_, rfl⟩ := Option.map_eq_some_iff.mp inRow
  obtain ⟨session, present, -, bears⟩ := sound.bears told
  have regular := sound.ledger.regular_at present
  obtain ⟨complete, found⟩ := regular.row_of_bears bears tells
  obtain ⟨source, entry, only, brought, rfl⟩ :=
    regular.cell_of_complete complete (holds.session session present) found at_
  have isSource : source ∈ accepted place (start config limits identifiers) operations :=
    List.mem_of_mem_filter (only ▸ List.mem_singleton_self source)
  have isEntry : entry ∈ source.values :=
    List.mem_of_mem_filter (brought ▸ List.mem_singleton_self entry)
  have rounded := Decimal.isFinite_roundToScale_iff (finite source isSource entry isEntry)
    config.resultScale.toNat
  obtain ⟨number, missing⟩ := write_cell (roundToScale entry.value config.resultScale.toNat)
  rw [scale]
  refine ⟨source, entry, only, brought, rfl, number.trans rounded, missing.trans ?_⟩
  rw [← not_lt, ← rounded, Bool.not_eq_true]

/-- A count is asked for, and both parties have no rows; the value of the count is given. -/
def counted (value : Float) : List Operation :=
  [.addClient "front" 8 0 false, .beginQuery 0 Session.oneCount true,
    .receivePartial ⟨QueryId.numbered 0, 0, [⟨.db1, some 0, 0⟩, ⟨.db2, some 0, 0⟩], [⟨0, value⟩]⟩,
    .run (.reporter 0)]

/-- The value of a count is told as a number. -/
theorem told_missing_iff_count : ∃ node event cell,
    (start (.ofParty .ph) (Config.ofParty .ph).outputLimits QueryId.numbered).performAll
      (counted 1) = node ∧
    event ∈ node.told 0 0 ∧ event.cell? 0 0 = some cell ∧
    ∃ literal, Json.scanNumber (Json.write cell) = some (literal, []) := by
  obtain ⟨-, source, entry, only, brought, -, number, -⟩ :=
    told_missing_iff (.ofParty .ph) (Config.ofParty .ph).outputLimits QueryId.numbered (counted 1) _
      rfl 0 0 (by decide +kernel) _ (List.mem_cons_of_mem _ List.mem_cons_self) 0 0 _ rfl
  obtain rfl : _ = source := (List.cons.inj only).1
  obtain rfl : _ = entry := (List.cons.inj brought).1
  have parts : Decimal.magnitude 1 = ⟨2 ^ 52, -52⟩ := by decide +kernel
  have one : size 1 = 1 := by
    rw [size, parts]
    norm_num
  have small : size 1 * 10 ^ min 6 maxScale < overflowPoint := by
    rw [one, one_mul]
    exact_mod_cast Decimal.natCast_lt (by decide : 10 ^ 6 ≤ 2 ^ 64)
  exact ⟨_, _, _, rfl, List.mem_cons_of_mem _ List.mem_cons_self, rfl, number.mpr small⟩

/-- A finite value is told as if it were missing, both of its tuple and in the answer. -/
theorem told_missing_huge : ∃ node opened done answer,
    (start (.ofParty .ph) (Config.ofParty .ph).outputLimits QueryId.numbered).performAll
      (counted 1e308) = node ∧
    isFinite 1e308 = true ∧ node.told 0 0 = [opened, done, answer] ∧
    done.cell? 0 0 = some (Json.cell (some (roundToScale 1e308 6))) ∧
    answer.cell? 0 0 = some (Json.cell (some (roundToScale 1e308 6))) ∧
    Json.write (Json.cell (some (roundToScale 1e308 6))) = Json.write (Json.cell none) :=
  ⟨_, _, _, _, rfl, by decide +kernel, rfl, rfl, rfl, by decide +kernel⟩

end Node

end JointQuery
