import JointQuery.Message.Wire

/-! The rows that events tell, and where their cells stand. An event about a tuple carries its row,
and the answer carries all of them; a cell is the item of a position in the values of a row, and its
text is part of the line of the event. -/
namespace JointQuery

namespace Json

variable {json part : Json} {key : String} {index : Nat}

/-- The value under a key. -/
def member? (key : String) : Json → Option Json
  | .object members => (members.find? (·.1 == key)).map (·.2)
  | _ => none

/-- The item at an index. -/
def item? (index : Nat) : Json → Option Json
  | .array items => items[index]?
  | _ => none

private theorem write_infix_writeItems {items : List Json} (member : part ∈ items) :
    write part <:+: writeItems items := by
  induction items with
  | nil => cases member
  | cons item rest ih =>
    rw [writeItems]
    rcases List.mem_cons.mp member with rfl | later
    · exact ⟨[','], writeItems rest, by simp⟩
    · exact (ih later).trans (List.suffix_append _ _).isInfix

private theorem write_infix_writeMembers {members : List (String × Json)}
    (member : (key, part) ∈ members) : write part <:+: writeMembers members := by
  induction members with
  | nil => cases member
  | cons first rest ih =>
    obtain ⟨other, value⟩ := first
    rw [writeMembers]
    rcases List.mem_cons.mp member with same | later
    · obtain ⟨rfl, rfl⟩ := Prod.mk.inj same
      exact ⟨',' :: quotedText key ++ [':'], writeMembers rest, by simp⟩
    · exact (ih later).trans (List.suffix_append _ _).isInfix

/-- The text of an item is part of the text of its array. -/
theorem write_infix_of_item (found : json.item? index = some part) :
    write part <:+: write json := by
  cases json with
  | array items =>
    cases items with
    | nil => cases found
    | cons item rest =>
      rw [write]
      rcases List.mem_cons.mp (List.mem_of_getElem? found) with rfl | later
      · exact ⟨['['], writeItems rest, by simp⟩
      · exact (write_infix_writeItems later).trans (List.suffix_append _ _).isInfix
  | _ => cases found

/-- The text of a member's value is part of the text of its object. -/
theorem write_infix_of_member (found : json.member? key = some part) :
    write part <:+: write json := by
  cases json with
  | object members =>
    obtain ⟨⟨other, value⟩, sought, rfl⟩ := Option.map_eq_some_iff.mp found
    cases members with
    | nil => cases sought
    | cons first rest =>
      obtain ⟨start, opened⟩ := first
      rw [write]
      rcases List.mem_cons.mp (List.mem_of_find?_eq_some sought) with same | later
      · obtain ⟨rfl, rfl⟩ := Prod.mk.inj same
        exact ⟨'\x7b' :: quotedText other ++ [':'], writeMembers rest, by simp⟩
      · exact (write_infix_writeMembers later).trans (List.suffix_append _ _).isInfix
  | _ => cases found

/-- A cell of a row. -/
def cell : Option Float → Json := nullable fun x => .number (.real x)

end Json

namespace ClientEvent

variable {event : ClientEvent} {tuple position : Nat} {cell : Json}

/-- The row that an event tells of a tuple. -/
def row? (tuple : Nat) : ClientEvent → Option ResultRow
  | .tupleDone _ index row => if index.toNat = tuple then some row else none
  | .allDone _ table => table.rows[tuple]?
  | _ => none

/-- The cell of a tuple and a position in the encoded form of an event. -/
def cell? (event : ClientEvent) (tuple position : Nat) : Option Json :=
  match event with
  | .tupleDone _ index _ =>
    if index.toNat = tuple then (event.toJson.member? "values").bind (·.item? position) else none
  | .allDone _ _ => do
    let table ← event.toJson.member? "table"
    let rows ← table.member? "rows"
    let row ← rows.item? tuple
    let values ← row.member? "values"
    values.item? position
  | _ => none

private theorem member_values (row : ResultRow) (before : List (String × Json))
    (others : ∀ member ∈ before, member.1 ≠ "values") :
    Json.member? "values" (.object (before ++ row.members)) =
      some (.array (row.values.map Json.cell)) := by
  have none : before.find? (·.1 == "values") = none :=
    List.find?_eq_none.mpr fun member among => by simpa using others member among
  simp [Json.member?, none, ResultRow.members, Json.cell]

/-- The cells of the encoded form are those of the rows. -/
theorem cell?_eq (event : ClientEvent) (tuple position : Nat) :
    event.cell? tuple position =
      (event.row? tuple).bind fun row => (row.values[position]?).map Json.cell := by
  cases event with
  | accepted | tupleProgress | error => rfl
  | tupleDone id index row =>
    simp only [cell?, row?, toJson]
    split
    · rw [member_values row _ (by simp)]
      simp [Json.item?]
    · rfl
  | allDone id table =>
    have rows : (toJson (.allDone id table)).member? "table" = some table.toJson ∧
        table.toJson.member? "rows" =
          some (.array (table.rows.map fun row => .object row.members)) := ⟨rfl, rfl⟩
    simp only [cell?, row?, rows.1, rows.2, Option.bind_eq_bind, Option.bind_some, Json.item?,
      List.getElem?_map]
    cases table.rows[tuple]? with
    | none => rfl
    | some row =>
      have values := member_values row [] (by simp)
      rw [List.nil_append] at values
      simp [values]

/-- The text of a cell is part of the line of its event. -/
theorem write_infix_line (found : event.cell? tuple position = some cell) :
    Json.write cell <:+: event.line.toList := by
  have line : event.line.toList = Json.write event.toJson ++ ['\n'] := by
    simp [ClientEvent.line, Json.line, Json.render]
  rw [line]
  refine List.IsInfix.trans ?_ (List.prefix_append _ _).isInfix
  cases event with
  | accepted | tupleProgress | error => cases found
  | tupleDone id index row =>
    simp only [cell?] at found
    split at found
    · obtain ⟨values, member, item⟩ := Option.bind_eq_some_iff.mp found
      exact (Json.write_infix_of_item item).trans (Json.write_infix_of_member member)
    · cases found
  | allDone id table =>
    simp only [cell?, Option.bind_eq_bind, Option.bind_eq_some_iff] at found
    obtain ⟨_, inEvent, _, inTable, _, inRows, _, inRow, item⟩ := found
    exact (Json.write_infix_of_item item).trans <| (Json.write_infix_of_member inRow).trans <|
      (Json.write_infix_of_item inRows).trans <| (Json.write_infix_of_member inTable).trans
        (Json.write_infix_of_member inEvent)

end ClientEvent

end JointQuery
