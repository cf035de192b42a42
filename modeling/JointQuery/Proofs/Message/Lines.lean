import JointQuery.Proofs.Message.Framing
import JointQuery.Proofs.Query.Wire

/-! Messages between parties and events to clients, list by list: what is sent as lines is read from
the lines as it was. Numbers are taken at their word here: a double has to be finite, and has to be
read back from its own text. -/
namespace JointQuery

open Json (Decoder Stage Faithful FaithfulItems FaithfulMembers nesting itemsNesting membersNesting)

attribute [local simp] Json.asRecord Json.uniqueMember Json.Record.required Json.Record.defaulted
  Json.Record.given Json.asString

/-! ## Numbers and identifiers -/

namespace Json

private theorem asUInt64_nat (n : UInt64) (stage : Stage) :
    asUInt64 stage (.nat n.toNat) = some n := by
  have small : (n.toNat : Int) < UInt64.size := Int.ofNat_lt.mpr n.toNat_lt_size
  simp only [asUInt64, Json.nat, Int.natCast_nonneg, small, and_self, if_true, Int.toNat_natCast,
    UInt64.ofNat_toNat]

private theorem faithful_nat (n : UInt64) : Faithful (.nat n.toNat) := by
  have small := n.toNat_lt_size
  refine ⟨?_, ?_⟩
  · omega
  · simp only [Decimal.maxSignificand]
    omega

end Json

namespace QueryId

/-- A digit is encoded as one byte, which is read as the digit's value. -/
theorem digitValue_hexDigit {n : Nat} (small : n < 16) (position : Nat) :
    digitValue (UInt8.ofNat (Text.hexDigit n).toNat) position = .ok (UInt8.ofNat n) := by
  rcases n with _ | _ | _ | _ | _ | _ | _ | _ | _ | _ | _ | _ | _ | _ | _ | _ | n
  all_goals first | rfl | omega

/-- The two bytes of the digits of a byte. -/
def digitBytes (byte : UInt8) : List UInt8 :=
  [UInt8.ofNat (Text.hexDigit (byte.toNat / 16)).toNat,
    UInt8.ofNat (Text.hexDigit (byte.toNat % 16)).toNat]

private theorem ascii_hexDigit (n : Nat) : (Text.hexDigit n).toNat < 0x80 := by
  rw [Json.hexDigit_mod]
  have small : n % 16 < 16 := Nat.mod_lt _ (by decide)
  revert small
  generalize n % 16 = k
  revert k
  decide

private theorem bytes_text (id : QueryId) : Text.bytes id.text =
    id.bytes.toList.flatMap digitBytes := by
  rw [text, Text.bytes_ofList, toChars, List.flatMap_assoc]
  congr 1
  funext byte
  simp only [byteText, List.flatMap_cons, List.flatMap_nil, digitBytes,
    Text.utf8EncodeChar_ascii (ascii_hexDigit _), List.singleton_append,
    ← Json.hexDigit_mod byte.toNat]

private theorem readPairs_digitBytes (bytes : List UInt8) (position : Nat) :
    readPairs position (bytes.flatMap digitBytes) = .ok bytes := by
  induction bytes generalizing position with
  | nil => rfl
  | cons byte rest ih =>
    have small := byte.toNat_lt
    have high := digitValue_hexDigit (n := byte.toNat / 16) (by omega) position
    have low := digitValue_hexDigit (n := byte.toNat % 16) (by omega) (position + 1)
    have joined : UInt8.ofNat (byte.toNat / 16) * 16 + UInt8.ofNat (byte.toNat % 16) = byte := by
      apply UInt8.toNat_inj.mp
      simp
      omega
    simp only [List.flatMap_cons, digitBytes, List.cons_append, List.nil_append, readPairs, high,
      low, ih, bind, Except.bind, pure, Except.pure, joined]

/-- An identifier is read back from its text. -/
theorem parse?_text (id : QueryId) : parse? id.text = some id := by
  have length : (Text.bytes id.text).length = 32 := by
    rw [bytes_text, List.length_flatMap]
    simp [digitBytes, List.map_const']
  have size : id.bytes.toList.toArray.size = 16 := by simp
  have parsed : parse id.text = .ok id := by
    rw [parse]
    simp only [show id.text.toUTF8.toList = Text.bytes id.text from rfl, length]
    rw [if_neg (by decide), if_neg (by decide), bytes_text, readPairs_digitBytes]
    simp only [bind, Except.bind, dif_pos size]
    rfl
  rw [parse?, parsed]
  rfl

private theorem decode_toJson (id : QueryId) (stage : Stage) : decode stage id.toJson = some id :=
  parse?_text id

end QueryId

/-! ## Messages between parties -/

namespace RowProgress

private theorem decode_toJson (progress : RowProgress) (stage : Stage) :
    decode stage progress.toJson = some progress := by
  obtain ⟨db, rowCount, rowDelta⟩ := progress
  cases rowCount with
  | none => simp [decode, toJson, Party.decode_toJson, Json.asUInt64_nat]
  | some rows =>
    have known : Json.asOption Json.asUInt64 stage (.nat rows.toNat) = some (some rows) :=
      Json.asOption_some (by simp [Json.nat]) (Json.asUInt64_nat rows stage)
    simp [decode, toJson, Party.decode_toJson, Json.asUInt64_nat, known]

private theorem faithful_toJson (progress : RowProgress) : progress.toJson.Faithful := by
  obtain ⟨db, rowCount, rowDelta⟩ := progress
  cases rowCount <;>
    simp [toJson, Faithful, FaithfulMembers, Party.toJson, Json.faithful_nat]

private theorem nesting_toJson (progress : RowProgress) : progress.toJson.nesting = 1 := by
  obtain ⟨db, rowCount, rowDelta⟩ := progress
  cases rowCount <;> simp [toJson, nesting, membersNesting, Party.toJson, Json.nat]

end RowProgress

/-- A double that is written as a number and read back from that. -/
def Decimal.Returns (x : Float) : Prop :=
  Decimal.isFinite x = true ∧ Decimal.ReadsBack x

namespace AggregateValue

private theorem decode_toJson (entry : AggregateValue) (stage : Stage) :
    decode stage entry.toJson = some entry := by
  have reads (first second : Json) (position : Json.asUInt64 stage first = some entry.position)
      (value : Json.asFloat stage second = some entry.value) :
      decode stage (.object [("position", first), ("value", second)]) = some entry := by
    simp [decode, position, value]
  exact reads _ _ (Json.asUInt64_nat entry.position stage) rfl

private theorem faithful_toJson {entry : AggregateValue} (returns : Decimal.Returns entry.value) :
    entry.toJson.Faithful := by
  have value : Faithful (.number (.real entry.value)) := returns
  simp only [toJson, Faithful.eq_def, FaithfulMembers] at value ⊢
  exact ⟨Json.faithful_nat _, value, trivial⟩

private theorem nesting_toJson (entry : AggregateValue) : entry.toJson.nesting = 1 := by
  simp [toJson, nesting, membersNesting, Json.nat]

end AggregateValue

namespace PartialResult

private theorem decode_members (result : PartialResult) (stage : Stage) :
    decode stage (.object result.members) = some result := by
  have progress : Json.asList RowProgress.decode stage
      (.array (result.progress.map RowProgress.toJson)) = some result.progress :=
    Json.asList_map fun entry _ => entry.decode_toJson stage
  have values : Json.asList AggregateValue.decode stage
      (.array (result.values.map AggregateValue.toJson)) = some result.values :=
    Json.asList_map fun entry _ => entry.decode_toJson stage
  simp [decode, members, QueryId.decode_toJson, Json.asUInt64_nat, progress, values]

private theorem faithful_members {result : PartialResult}
    (returns : ∀ entry ∈ result.values, Decimal.Returns entry.value) :
    FaithfulMembers result.members := by
  have progress : FaithfulItems (result.progress.map RowProgress.toJson) := by
    refine Json.faithfulItems_iff.mpr fun item member => ?_
    obtain ⟨entry, -, rfl⟩ := List.mem_map.mp member
    exact entry.faithful_toJson
  have values : FaithfulItems (result.values.map AggregateValue.toJson) := by
    refine Json.faithfulItems_iff.mpr fun item member => ?_
    obtain ⟨entry, among, rfl⟩ := List.mem_map.mp member
    exact AggregateValue.faithful_toJson (returns entry among)
  exact ⟨trivial, Json.faithful_nat _, progress, values, trivial⟩

private theorem nesting_members (result : PartialResult) : membersNesting result.members ≤ 2 := by
  have progress : itemsNesting (result.progress.map RowProgress.toJson) ≤ 1 := by
    refine Json.itemsNesting_le_iff.mpr fun item member => ?_
    obtain ⟨entry, -, rfl⟩ := List.mem_map.mp member
    exact Nat.le_of_eq entry.nesting_toJson
  have values : itemsNesting (result.values.map AggregateValue.toJson) ≤ 1 := by
    refine Json.itemsNesting_le_iff.mpr fun item member => ?_
    obtain ⟨entry, -, rfl⟩ := List.mem_map.mp member
    exact Nat.le_of_eq entry.nesting_toJson
  simp only [members, membersNesting, nesting, QueryId.toJson, Json.nat]
  omega

end PartialResult

namespace PartyMessage

/-- The doubles in a message. -/
def floats : PartyMessage → List Float
  | .hello _ | .startQuery _ _ _ => []
  | .partialResult result => result.values.map (·.value)

variable {message : PartyMessage}

theorem exists_members (message : PartyMessage) : ∃ members, message.toJson = .object members := by
  cases message <;> exact ⟨_, rfl⟩

private theorem faithful_toJson (returns : ∀ x ∈ message.floats, Decimal.Returns x) :
    message.toJson.Faithful := by
  cases message with
  | hello party => simp [toJson, Faithful, FaithfulMembers, Party.toJson]
  | startQuery id query clientRef => simp [toJson, Faithful, FaithfulMembers, QueryId.toJson]
  | partialResult result =>
    exact ⟨trivial, PartialResult.faithful_members fun entry among =>
      returns _ (List.mem_map_of_mem among)⟩

private theorem nesting_toJson (message : PartyMessage) :
    message.toJson.nesting ≤ Json.maxDepth := by
  cases message with
  | hello party => simp [toJson, nesting, membersNesting, Party.toJson, Json.maxDepth]
  | startQuery id query clientRef =>
    simp [toJson, nesting, membersNesting, QueryId.toJson, Json.maxDepth]
  | partialResult result =>
    have inner := result.nesting_members
    simp only [toJson, nesting, membersNesting, Json.maxDepth]
    omega

private theorem decode_toJson (returns : ∀ x ∈ message.floats, Decimal.Returns x) :
    decode .direct message.toJson = some message := by
  have faithful := faithful_toJson returns
  unfold decode
  cases message with
  | hello party =>
    have tagged : Json.asTagged "type" tags .direct (toJson (.hello party)) = _ :=
      Json.asTagged_object "type" tags "hello" .direct [("party", party.toJson)] (by decide)
        (by simp) (Json.membersReadable_of_faithful _ faithful.2)
    rw [tagged, Option.bind_eq_bind, Option.bind_some]
    simp [Party.decode_toJson]
  | startQuery id query clientRef =>
    have tagged : Json.asTagged "type" tags .direct (toJson (.startQuery id query clientRef)) = _ :=
      Json.asTagged_object "type" tags "start_query" .direct [("query_id", id.toJson),
        ("query", .string query), ("client_ref", .string clientRef)] (by decide) (by simp)
        (Json.membersReadable_of_faithful _ faithful.2)
    rw [tagged, Option.bind_eq_bind, Option.bind_some]
    simp [QueryId.decode_toJson]
  | partialResult result =>
    have tagged : Json.asTagged "type" tags .direct (toJson (.partialResult result)) = _ :=
      Json.asTagged_object "type" tags "partial_result" .direct result.members (by decide)
        (by simp [PartialResult.members]) (Json.membersReadable_of_faithful _ faithful.2)
    rw [tagged, Option.bind_eq_bind, Option.bind_some]
    simp [PartialResult.decode_members]

/-- A message is read back from its text. -/
theorem ofLine?_render (returns : ∀ x ∈ message.floats, Decimal.Returns x) :
    ofLine? message.toJson.render = some message := by
  obtain ⟨members, object⟩ := exists_members message
  have scanned : Json.readLine message.toJson.render = some message.toJson := by
    rw [object, Json.readLine_render, ← object]
    exact Json.read_render (faithful_toJson returns) message.nesting_toJson
  simp only [ofLine?, scanned, Option.bind_eq_bind, Option.bind_some, decode_toJson returns]

end PartyMessage

/-! ## Events to clients -/

namespace ResultRow

/-- The doubles in a row. -/
def floats (row : ResultRow) : List Float :=
  row.values.filterMap id

variable {row : ResultRow}

private theorem decodeGroup_group (row : ResultRow) (stage : Stage) :
    decodeGroup stage (.array (row.group.map (Json.nullable .string))) = some row.group :=
  decode_groupValues row.group stage

private theorem decodeValues_values (row : ResultRow) (stage : Stage) :
    decodeValues stage (.array (row.values.map (Json.nullable fun x => .number (.real x)))) =
      some row.values :=
  Json.asList_map fun value _ => Json.asOption_nullable value (by simp) fun _ => rfl

private theorem decode_members (row : ResultRow) (stage : Stage) :
    decode stage (.object row.members) = some row := by
  simp [decode, members, decodeGroup_group, decodeValues_values]

private theorem faithful_members (returns : ∀ x ∈ row.floats, Decimal.Returns x) :
    FaithfulMembers row.members := by
  have values : FaithfulItems (row.values.map (Json.nullable fun x => .number (.real x))) := by
    refine Json.faithfulItems_iff.mpr fun item member => ?_
    obtain ⟨value, among, rfl⟩ := List.mem_map.mp member
    cases value with
    | none => trivial
    | some x => exact returns x (List.mem_filterMap.mpr ⟨some x, among, rfl⟩)
  exact ⟨faithful_groupValues row.group, values, trivial⟩

private theorem nesting_members (row : ResultRow) : membersNesting row.members ≤ 1 := by
  have values : itemsNesting (row.values.map (Json.nullable fun x => .number (.real x))) ≤ 0 := by
    refine Json.itemsNesting_le_iff.mpr fun item member => ?_
    obtain ⟨value, -, rfl⟩ := List.mem_map.mp member
    cases value <;> exact Nat.le_refl 0
  have group := nesting_groupValues row.group
  simp only [members, membersNesting, nesting] at group ⊢
  omega

end ResultRow

namespace ResultTable

/-- The doubles in a table. -/
def floats (table : ResultTable) : List Float :=
  table.rows.flatMap ResultRow.floats

variable {table : ResultTable}

private theorem decode_toJson (table : ResultTable) (stage : Stage) :
    decode stage table.toJson = some table := by
  have columns : Json.asList Json.asString stage (.strings table.columns) = some table.columns :=
    Json.asList_map fun _ _ => rfl
  have rows : Json.asList ResultRow.decode stage
      (.array (table.rows.map fun row => .object row.members)) = some table.rows :=
    Json.asList_map fun row _ => row.decode_members stage
  simp [decode, toJson, columns, rows]

private theorem faithful_toJson (returns : ∀ x ∈ table.floats, Decimal.Returns x) :
    table.toJson.Faithful := by
  have columns : Faithful (.strings table.columns) := by
    refine Json.faithfulItems_iff.mpr fun item member => ?_
    obtain ⟨_, -, rfl⟩ := List.mem_map.mp member
    trivial
  have rows : FaithfulItems (table.rows.map fun row => .object row.members) := by
    refine Json.faithfulItems_iff.mpr fun item member => ?_
    obtain ⟨row, among, rfl⟩ := List.mem_map.mp member
    exact ResultRow.faithful_members fun x inside =>
      returns x (List.mem_flatMap.mpr ⟨row, among, inside⟩)
  exact ⟨columns, rows, trivial⟩

private theorem nesting_toJson (table : ResultTable) : table.toJson.nesting ≤ 4 := by
  have columns : itemsNesting (table.columns.map .string) ≤ 0 := by
    refine Json.itemsNesting_le_iff.mpr fun item member => ?_
    obtain ⟨_, -, rfl⟩ := List.mem_map.mp member
    exact Nat.le_refl 0
  have rows : itemsNesting (table.rows.map fun row => .object row.members) ≤ 2 := by
    refine Json.itemsNesting_le_iff.mpr fun item member => ?_
    obtain ⟨row, -, rfl⟩ := List.mem_map.mp member
    have inner := row.nesting_members
    rw [nesting]
    omega
  simp only [toJson, nesting, membersNesting, Json.strings]
  omega

end ResultTable

namespace ClientEvent

/-- The doubles in an event. -/
def floats : ClientEvent → List Float
  | .accepted _ _ | .error _ _ _ => []
  | .tupleProgress _ _ fraction => [fraction]
  | .tupleDone _ _ row => row.floats
  | .allDone _ table => table.floats

variable {event : ClientEvent}

private theorem exists_members (event : ClientEvent) :
    ∃ members, event.toJson = .object members := by
  cases event <;> exact ⟨_, rfl⟩

private theorem faithful_toJson (returns : ∀ x ∈ event.floats, Decimal.Returns x) :
    event.toJson.Faithful := by
  cases event with
  | accepted id tupleCount =>
    simp [toJson, Faithful, FaithfulMembers, QueryId.toJson, Json.faithful_nat]
  | tupleProgress id tuple fraction =>
    have fraction : Faithful (.number (.real fraction)) := returns _ List.mem_cons_self
    simp [toJson, Faithful, FaithfulMembers, QueryId.toJson, Json.faithful_nat] at fraction ⊢
    exact fraction
  | tupleDone id tuple row =>
    have row := ResultRow.faithful_members returns
    simp [toJson, Faithful, FaithfulMembers, QueryId.toJson, Json.faithful_nat, row]
  | allDone id table =>
    have table := ResultTable.faithful_toJson returns
    simp [toJson, Faithful, FaithfulMembers, QueryId.toJson, table]
  | error id kind message =>
    cases id <;> simp [toJson, Faithful, FaithfulMembers, QueryId.toJson]

private theorem nesting_toJson (event : ClientEvent) : event.toJson.nesting ≤ Json.maxDepth := by
  cases event with
  | accepted id tupleCount =>
    simp [toJson, nesting, membersNesting, QueryId.toJson, Json.nat, Json.maxDepth]
  | tupleProgress id tuple fraction =>
    simp [toJson, nesting, membersNesting, QueryId.toJson, Json.nat, Json.maxDepth]
  | tupleDone id tuple row =>
    have inner := row.nesting_members
    simp [toJson, nesting, membersNesting, QueryId.toJson, Json.nat, Json.maxDepth]
    omega
  | allDone id table =>
    have inner := table.nesting_toJson
    simp only [toJson, nesting, membersNesting, QueryId.toJson, Json.maxDepth]
    omega
  | error id kind message =>
    cases id <;> simp [toJson, nesting, membersNesting, QueryId.toJson, Json.maxDepth]

private theorem decode_toJson (returns : ∀ x ∈ event.floats, Decimal.Returns x) :
    decode .direct event.toJson = some event := by
  have faithful := faithful_toJson returns
  unfold decode
  cases event with
  | accepted id tupleCount =>
    have tagged : Json.asTagged "type" tags .direct (toJson (.accepted id tupleCount)) = _ :=
      Json.asTagged_object "type" tags "accepted" .direct [("query_id", id.toJson),
        ("tuple_count", .nat tupleCount.toNat)] (by decide) (by simp)
        (Json.membersReadable_of_faithful _ faithful.2)
    rw [tagged, Option.bind_eq_bind, Option.bind_some]
    simp [QueryId.decode_toJson, Json.asUInt64_nat]
  | tupleProgress id tuple fraction =>
    have tagged : Json.asTagged "type" tags .direct (toJson (.tupleProgress id tuple fraction)) = _ :=
      Json.asTagged_object "type" tags "tuple_progress" .direct [("query_id", id.toJson),
        ("tuple_index", .nat tuple.toNat), ("fraction", .number (.real fraction))] (by decide)
        (by simp) (Json.membersReadable_of_faithful _ faithful.2)
    rw [tagged, Option.bind_eq_bind, Option.bind_some]
    simp [QueryId.decode_toJson, Json.asUInt64_nat, Json.asFloat]
  | tupleDone id tuple row =>
    have tagged : Json.asTagged "type" tags .direct (toJson (.tupleDone id tuple row)) = _ :=
      Json.asTagged_object "type" tags "tuple_done" .direct [("query_id", id.toJson),
        ("tuple_index", .nat tuple.toNat),
        ("group", .array (row.group.map (Json.nullable .string))),
        ("values", .array (row.values.map (Json.nullable fun x => .number (.real x))))] (by decide)
        (by simp) (Json.membersReadable_of_faithful _ faithful.2)
    rw [tagged, Option.bind_eq_bind, Option.bind_some]
    simp [QueryId.decode_toJson, Json.asUInt64_nat, ResultRow.decodeGroup_group,
      ResultRow.decodeValues_values]
  | allDone id table =>
    have tagged : Json.asTagged "type" tags .direct (toJson (.allDone id table)) = _ :=
      Json.asTagged_object "type" tags "all_done" .direct [("query_id", id.toJson),
        ("table", table.toJson)] (by decide) (by simp)
        (Json.membersReadable_of_faithful _ faithful.2)
    rw [tagged, Option.bind_eq_bind, Option.bind_some]
    simp [QueryId.decode_toJson, ResultTable.decode_toJson]
  | error id kind message =>
    cases id with
    | none =>
      have tagged : Json.asTagged "type" tags .direct (toJson (.error none kind message)) = _ :=
        Json.asTagged_object "type" tags "error" .direct [("kind", .string kind),
          ("message", .string message)] (by decide) (by simp)
          (Json.membersReadable_of_faithful _ faithful.2)
      rw [tagged, Option.bind_eq_bind, Option.bind_some]
      simp
    | some id =>
      have tagged : Json.asTagged "type" tags .direct (toJson (.error (some id) kind message)) = _ :=
        Json.asTagged_object "type" tags "error" .direct [("query_id", id.toJson),
          ("kind", .string kind), ("message", .string message)] (by decide) (by simp)
          (Json.membersReadable_of_faithful _ faithful.2)
      have named : Json.asOption QueryId.decode .held id.toJson = some (some id) :=
        Json.asOption_some (by simp [QueryId.toJson]) (id.decode_toJson .held)
      rw [tagged, Option.bind_eq_bind, Option.bind_some]
      simp [named]

/-- An event is read back from its text. -/
theorem ofText?_render (returns : ∀ x ∈ event.floats, Decimal.Returns x) :
    ofText? event.toJson.render = some event := by
  have scanned := Json.read_render (faithful_toJson returns) event.nesting_toJson
  simp only [ofText?, scanned, Option.bind_eq_bind, Option.bind_some, decode_toJson returns]

end ClientEvent

/-- Newline framing is lossless, for the messages between parties and for the events to clients,
whatever texts and numbers they hold. -/
theorem lines_lossless {messages : List PartyMessage} {events : List ClientEvent}
    (sent : ∀ message ∈ messages, ∀ x ∈ message.floats,
      Decimal.isFinite x = true ∧ Decimal.ReadsBack x)
    (told : ∀ event ∈ events, ∀ x ∈ event.floats,
      Decimal.isFinite x = true ∧ Decimal.ReadsBack x) :
    Lossless PartyMessage.line PartyMessage.ofLine? messages ∧
      Lossless ClientEvent.line ClientEvent.ofText? events :=
  ⟨lossless_of_objects PartyMessage.exists_members fun message member =>
      PartyMessage.ofLine?_render (sent message member),
    lossless_of_objects ClientEvent.exists_members fun event member =>
      ClientEvent.ofText?_render (told event member)⟩

/-- A partial result with a value, between messages with texts that have to be escaped. -/
def sentExample : List PartyMessage :=
  [.hello .db1, .startQuery (.numbered 0) "a\nb\"\x01é" "",
    .partialResult ⟨.numbered 0, 3, [⟨.db2, none, 4⟩, ⟨.db1, some 7, 0⟩], [⟨0, 2.5⟩]⟩]

/-- Events with values, some of them missing, and an error about no query. -/
def toldExample : List ClientEvent :=
  [.accepted (.numbered 0) 2, .tupleProgress (.numbered 0) 1 0.5,
    .tupleDone (.numbered 0) 0 ⟨[none, some "\t"], [some 2.5, none]⟩,
    .allDone (.numbered 0) ⟨["t.a"], [⟨[none], [some 2.5]⟩]⟩, .error none "protocol" "bad\r\nline"]

private theorem readsBack_half : Decimal.isFinite 0.5 = true ∧ Decimal.ReadsBack 0.5 := by
  have value : Decimal.realMagnitude ⟨false, [0], some [5], none⟩ = some 0.5 := by decide +kernel
  refine ⟨by decide +kernel, ⟨false, [0], some [5], none⟩, by decide +kernel, ?_⟩
  rw [Decimal.Literal.number?, value]
  rfl

private theorem readsBack_five_halves : Decimal.isFinite 2.5 = true ∧ Decimal.ReadsBack 2.5 := by
  have value : Decimal.realMagnitude ⟨false, [2], some [5], none⟩ = some 2.5 := by decide +kernel
  refine ⟨by decide +kernel, ⟨false, [2], some [5], none⟩, by decide +kernel, ?_⟩
  rw [Decimal.Literal.number?, value]
  rfl

theorem lines_lossless_mixed :
    (∀ message ∈ sentExample, ∀ x ∈ message.floats,
      Decimal.isFinite x = true ∧ Decimal.ReadsBack x) ∧
    (∀ event ∈ toldExample, ∀ x ∈ event.floats,
      Decimal.isFinite x = true ∧ Decimal.ReadsBack x) ∧
    Lossless PartyMessage.line PartyMessage.ofLine? sentExample ∧
    Lossless ClientEvent.line ClientEvent.ofText? toldExample := by
  have sent : ∀ message ∈ sentExample, ∀ x ∈ message.floats,
      Decimal.isFinite x = true ∧ Decimal.ReadsBack x := by
    simp [sentExample, PartyMessage.floats, readsBack_five_halves]
  have told : ∀ event ∈ toldExample, ∀ x ∈ event.floats,
      Decimal.isFinite x = true ∧ Decimal.ReadsBack x := by
    simp [toldExample, ClientEvent.floats, ResultTable.floats, ResultRow.floats,
      readsBack_half, readsBack_five_halves]
  exact ⟨sent, told, lines_lossless sent told⟩

end JointQuery
