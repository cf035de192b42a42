import JointQuery.Message.Wire
import JointQuery.Proofs.Checks
import JointQuery.Proofs.Domain
import JointQuery.Proofs.Json.Records

/-! A query that was read is read again from its own text, so that every party rebuilds the query
that a client has sent, and the same domain. What makes this true of filters of any depth is that
the text of a filter nests no more deeply than the text from which the filter was read. -/
namespace JointQuery

open Json (Decoder Stage Faithful FaithfulItems FaithfulMembers nesting itemsNesting membersNesting)

attribute [local simp] Json.asRecord Json.uniqueMember Json.Record.required Json.Record.defaulted
  Json.Record.given Json.asString

theorem Party.decode_toJson (party : Party) (stage : Stage) :
    decode stage party.toJson = some party := by
  cases party <;> rfl

private theorem ColumnType.decode_toJson (type : ColumnType) (stage : Stage) :
    decode stage type.toJson = some type := by
  cases type
  rfl

private theorem AggregateFunction.decode_toJson (function : AggregateFunction) (stage : Stage) :
    decode stage function.toJson = some function := by
  cases function <;> rfl

private theorem ConditionOperator.decode_toJson (operator : ConditionOperator) (stage : Stage) :
    decode stage operator.toJson = some operator := by
  cases operator <;> rfl

/-! ## Columns and aggregates -/

theorem decode_groupValues (values : List GroupValue) (stage : Stage) :
    Json.asList (Json.asOption Json.asString) stage
      (.array (values.map (Json.nullable .string))) = some values :=
  Json.asList_map fun value _ => Json.asOption_nullable value (by simp) fun _ => rfl

theorem faithful_groupValues (values : List GroupValue) :
    Faithful (.array (values.map (Json.nullable .string))) := by
  refine Json.faithfulItems_iff.mpr fun item member => ?_
  obtain ⟨value, -, rfl⟩ := List.mem_map.mp member
  cases value <;> trivial

theorem nesting_groupValues (values : List GroupValue) :
    nesting (.array (values.map (Json.nullable .string))) = 1 := by
  have flat : itemsNesting (values.map (Json.nullable .string)) ≤ 0 := by
    refine Json.itemsNesting_le_iff.mpr fun item member => ?_
    obtain ⟨value, -, rfl⟩ := List.mem_map.mp member
    cases value <;> exact Nat.le_refl 0
  rw [nesting]
  omega

namespace Column

private theorem decode_toJson (column : Column) (stage : Stage) :
    decode stage column.toJson = some column := by
  obtain ⟨table, name, db, type, domain⟩ := column
  cases domain with
  | none => simp [decode, toJson, Party.decode_toJson, ColumnType.decode_toJson]
  | some values =>
    have declared : Json.asOption (Json.asList (Json.asOption Json.asString)) stage
        (domainJson values) = some (some values) :=
      Json.asOption_some (by simp [domainJson]) (decode_groupValues values stage)
    simp [decode, toJson, Party.decode_toJson, ColumnType.decode_toJson, declared]

private theorem faithful_toJson (column : Column) : column.toJson.Faithful := by
  obtain ⟨table, name, db, type, domain⟩ := column
  cases domain with
  | none => simp [toJson, Faithful, FaithfulMembers, Party.toJson, ColumnType.toJson]
  | some values =>
    have declared : (domainJson values).Faithful := faithful_groupValues values
    simp [toJson, Faithful, FaithfulMembers, Party.toJson, ColumnType.toJson, declared]

private theorem nesting_toJson (column : Column) : column.toJson.nesting ≤ 2 := by
  obtain ⟨table, name, db, type, domain⟩ := column
  cases domain with
  | none => simp [toJson, nesting, membersNesting, Party.toJson, ColumnType.toJson]
  | some values =>
    have declared : (domainJson values).nesting = 1 := nesting_groupValues values
    simp [toJson, nesting, membersNesting, Party.toJson, ColumnType.toJson, declared]

end Column

namespace Aggregate

private theorem decode_toJson (aggregate : Aggregate) (stage : Stage) :
    decode stage aggregate.toJson = some aggregate := by
  simp [decode, toJson, AggregateFunction.decode_toJson, Column.decode_toJson]

private theorem faithful_toJson (aggregate : Aggregate) : aggregate.toJson.Faithful := by
  have column := aggregate.column.faithful_toJson
  simp [toJson, Faithful, FaithfulMembers, AggregateFunction.toJson, column]

private theorem nesting_toJson (aggregate : Aggregate) : aggregate.toJson.nesting ≤ 3 := by
  have column := aggregate.column.nesting_toJson
  simp [toJson, nesting, membersNesting, AggregateFunction.toJson]
  omega

end Aggregate

/-! ## Conditions -/

namespace Condition

private theorem operandsJson_eq (operands : List Condition) :
    operandsJson operands = operands.map toJson := by
  induction operands with
  | nil => rfl
  | cons operand rest ih => rw [operandsJson, ih, List.map_cons]

private theorem maxDepth_le_iff {operands : List Condition} {n : Nat} :
    maxDepth operands ≤ n ↔ ∀ operand ∈ operands, operand.depth ≤ n := by
  induction operands with
  | nil => simp [maxDepth]
  | cons operand rest ih => rw [maxDepth, Nat.max_le, ih, List.forall_mem_cons]

mutual
private theorem faithful_toJson : (condition : Condition) → condition.toJson.Faithful
  | .comparison column relation value => by
    cases value <;> simp [toJson, Faithful, FaithfulMembers]
  | .node operator operands => by
    have each := faithful_operandsJson operands
    simp [toJson, Faithful, FaithfulMembers, ConditionOperator.toJson, each]

private theorem faithful_operandsJson : (operands : List Condition) →
    FaithfulItems (operandsJson operands)
  | [] => trivial
  | operand :: rest => ⟨faithful_toJson operand, faithful_operandsJson rest⟩
end

mutual
/-- The text of a condition has at least its levels. -/
theorem depth_le_height : (condition : Condition) → condition.depth ≤ condition.toJson.height
  | .comparison column relation value => by
    cases value <;> simp [toJson, depth, Json.height, Json.membersHeight]
  | .node operator operands => by
    have each := maxDepth_le_height operands
    simp only [toJson, depth, Json.height, Json.membersHeight]
    omega

theorem maxDepth_le_height : (operands : List Condition) →
    maxDepth operands ≤ Json.itemsHeight (operandsJson operands)
  | [] => Nat.le_refl 0
  | operand :: rest => by
    have first := depth_le_height operand
    have others := maxDepth_le_height rest
    simp only [maxDepth, operandsJson, Json.itemsHeight]
    omega
end

/-- A condition is read back by a reader of enough levels, whatever they are. -/
theorem decodeWithin_toJson (levels : Nat) (condition : Condition)
    (within : condition.depth ≤ levels) (stage : Stage) :
    decodeWithin levels stage condition.toJson = some condition := by
  induction levels generalizing condition stage with
  | zero => cases condition <;> simp [depth] at within
  | succ levels ih =>
    cases condition with
    | comparison column relation value =>
      cases value with
      | none =>
        have tagged := Json.asTagged_object "kind" tags "comparison" stage
          [("column", .string column), ("comparison", .string relation)] (by decide) (by simp) rfl
        simp [decodeWithin, toJson, tagged]
      | some text =>
        have tagged := Json.asTagged_object "kind" tags "comparison" stage
          [("column", .string column), ("comparison", .string relation), ("value", .string text)]
          (by decide) (by simp) rfl
        simp [decodeWithin, toJson, tagged, Json.asOption]
    | node operator operands =>
      have readable : Json.allReadable (operandsJson operands) = true :=
        Json.allReadable_of_faithful _ (faithful_operandsJson operands)
      have tagged := Json.asTagged_object "kind" tags "node" stage [("operator", operator.toJson),
        ("operands", .array (operandsJson operands))] (by decide) (by simp)
        (by simp [Json.membersReadable, Json.isReadable, ConditionOperator.toJson, readable])
      have each : Json.asList (decodeWithin levels) .held (.array (operandsJson operands)) =
          some operands := by
        rw [operandsJson_eq]
        refine Json.asList_map fun operand member => ih operand ?_ .held
        have fewer : maxDepth operands ≤ levels := by
          rw [depth] at within
          omega
        exact maxDepth_le_iff.mp fewer operand member
      simp [decodeWithin, toJson, show Json.asTagged _ _ _ _ = _ from tagged,
        ConditionOperator.decode_toJson, each]

private theorem decode_toJson (condition : Condition) (stage : Stage) :
    decode stage condition.toJson = some condition :=
  decodeWithin_toJson _ condition condition.depth_le_height stage

/-- The text of a condition nests no more deeply than a value from which the condition was read. -/
theorem nesting_le_of_decodeWithin (levels : Nat) {stage : Stage} {value : Json}
    {condition : Condition} (read : decodeWithin levels stage value = some condition) :
    condition.toJson.nesting ≤ value.nesting := by
  induction levels generalizing stage value condition with
  | zero => simp [decodeWithin] at read
  | succ levels ih =>
    simp only [decodeWithin, Option.bind_eq_bind, Option.bind_eq_some_iff] at read
    obtain ⟨⟨tag, body⟩, tagged, read⟩ := read
    have inner := Json.nesting_asTagged tagged
    simp only at read
    split at read
    · simp only [Option.bind_eq_some_iff, Option.pure_def, Option.some.injEq] at read
      obtain ⟨record, recorded, column, -, relation, -, operand, -, rfl⟩ := read
      obtain ⟨container, -⟩ := Json.nesting_given recorded
      have flat : (comparison column relation operand).toJson.nesting = 1 := by
        cases operand <;> simp [toJson, nesting, membersNesting]
      omega
    · simp only [Option.bind_eq_some_iff, Option.pure_def, Option.some.injEq] at read
      obtain ⟨record, recorded, operator, -, operands, listed, rfl⟩ := read
      obtain ⟨-, fields⟩ := Json.nesting_given recorded
      obtain ⟨field, given, decoded⟩ := Json.given_of_required listed
      obtain ⟨list, sources⟩ := Json.exists_of_asList decoded
      have outer := fields _ field given
      have each : itemsNesting (operandsJson operands) ≤ field.nesting - 1 := by
        rw [operandsJson_eq]
        refine Json.itemsNesting_le_iff.mpr fun item member => ?_
        obtain ⟨operand, among, rfl⟩ := List.mem_map.mp member
        obtain ⟨source, gives, inside⟩ := sources operand among
        have less := ih gives
        omega
      simp only [toJson, nesting, membersNesting, ConditionOperator.toJson]
      omega

private theorem nesting_le_of_decode {stage : Stage} {value : Json} {condition : Condition}
    (read : decode stage value = some condition) : condition.toJson.nesting ≤ value.nesting :=
  nesting_le_of_decodeWithin _ read

end Condition

/-! ## Queries -/

namespace Query

private theorem decodePrefilters_toJson (prefilters : PerParty (Option Condition)) (stage : Stage) :
    decodePrefilters stage (prefiltersJson prefilters) = some prefilters := by
  have ph : Party.ofName? "ph" = some .ph := rfl
  have db1 : Party.ofName? "db1" = some .db1 := rfl
  have db2 : Party.ofName? "db2" = some .db2 := rfl
  obtain ⟨first, second, third⟩ := prefilters
  cases first <;> cases second <;> cases third <;>
    simp [decodePrefilters, prefiltersJson, Party.all, PerParty.get, PerParty.set, PerParty.all,
      Party.name, Condition.decode_toJson, ph, db1, db2]

private theorem decode_toJson (query : Query) (stage : Stage) :
    decode stage query.toJson = some query := by
  have aggregates : Json.asList Aggregate.decode stage
      (.array (query.aggregates.map Aggregate.toJson)) = some query.aggregates :=
    Json.asList_map fun aggregate _ => aggregate.decode_toJson stage
  have groupBys : Json.asList Column.decode stage
      (.array (query.groupBys.map Column.toJson)) = some query.groupBys :=
    Json.asList_map fun column _ => column.decode_toJson stage
  simp [decode, toJson, aggregates, groupBys, decodePrefilters_toJson]

/-- The filter of a party is written as a member of the filters. -/
theorem mem_prefiltersJson {prefilters : PerParty (Option Condition)} {member : String × Json} :
    member ∈ Party.all.filterMap (fun party =>
        (prefilters.get party).map fun condition => (party.name, condition.toJson)) ↔
      ∃ party condition, prefilters.get party = some condition ∧
        member = (party.name, condition.toJson) := by
  simp only [List.mem_filterMap, Option.map_eq_some_iff]
  constructor
  · rintro ⟨party, -, condition, given, rfl⟩
    exact ⟨party, condition, given, rfl⟩
  · rintro ⟨party, condition, given, rfl⟩
    exact ⟨party, by cases party <;> simp [Party.all], condition, given, rfl⟩

private theorem faithful_toJson (query : Query) : query.toJson.Faithful := by
  have aggregates : FaithfulItems (query.aggregates.map Aggregate.toJson) := by
    refine Json.faithfulItems_iff.mpr fun item member => ?_
    obtain ⟨aggregate, -, rfl⟩ := List.mem_map.mp member
    exact aggregate.faithful_toJson
  have groupBys : FaithfulItems (query.groupBys.map Column.toJson) := by
    refine Json.faithfulItems_iff.mpr fun item member => ?_
    obtain ⟨column, -, rfl⟩ := List.mem_map.mp member
    exact column.faithful_toJson
  have prefilters : (prefiltersJson query.prefilters).Faithful := by
    refine Json.faithfulMembers_iff.mpr fun member among => ?_
    obtain ⟨party, condition, -, rfl⟩ := mem_prefiltersJson.mp among
    exact condition.faithful_toJson
  simp [toJson, Faithful, FaithfulMembers, aggregates, groupBys, prefilters]

/-- The text of a query nests as deeply as its filters make it, or not very deeply. -/
theorem nesting_toJson_le {query : Query} {n : Nat} (least : 5 ≤ n)
    (filters : ∀ party condition, query.prefilters.get party = some condition →
      condition.toJson.nesting + 2 ≤ n) : query.toJson.nesting ≤ n := by
  have aggregates : itemsNesting (query.aggregates.map Aggregate.toJson) ≤ 3 := by
    refine Json.itemsNesting_le_iff.mpr fun item member => ?_
    obtain ⟨aggregate, -, rfl⟩ := List.mem_map.mp member
    exact aggregate.nesting_toJson
  have groupBys : itemsNesting (query.groupBys.map Column.toJson) ≤ 2 := by
    refine Json.itemsNesting_le_iff.mpr fun item member => ?_
    obtain ⟨column, -, rfl⟩ := List.mem_map.mp member
    exact column.nesting_toJson
  have prefilters : (prefiltersJson query.prefilters).nesting ≤ n - 1 := by
    have each : membersNesting (Party.all.filterMap fun party =>
        (query.prefilters.get party).map fun condition => (party.name, condition.toJson)) ≤
          n - 2 := by
      refine Json.membersNesting_le_iff.mpr fun member among => ?_
      obtain ⟨party, condition, given, rfl⟩ := mem_prefiltersJson.mp among
      have filter := filters party condition given
      simp only
      omega
    rw [prefiltersJson, nesting]
    omega
  simp only [toJson, nesting, membersNesting]
  omega

/-- Each filter was read from a member of the filters. -/
theorem nesting_of_decodePrefilters {stage : Stage} {value : Json}
    {prefilters : PerParty (Option Condition)}
    (read : decodePrefilters stage value = some prefilters) {party : Party} {condition : Condition}
    (given : prefilters.get party = some condition) :
    condition.toJson.nesting + 1 ≤ value.nesting := by
  have fold (members : List (String × Json)) (bound : Nat)
      (each : ∀ member ∈ members, member.2.nesting ≤ bound) (before : PerParty (Option Condition))
      (bounded : ∀ party condition, before.get party = some condition →
        condition.toJson.nesting ≤ bound)
      (folded : members.foldlM (fun prefilters (member : String × Json) => do
        let party ← Party.ofName? member.1
        let condition ← Condition.decode stage member.2
        return prefilters.set party (some condition)) before = some prefilters) :
      condition.toJson.nesting ≤ bound := by
    induction members generalizing before with
    | nil =>
      cases folded
      exact bounded party condition given
    | cons member rest ih =>
      obtain ⟨first, others⟩ := List.forall_mem_cons.mp each
      simp only [List.foldlM_cons, Option.bind_eq_bind, Option.bind_eq_some_iff, Option.pure_def,
        Option.some.injEq] at folded
      obtain ⟨next, ⟨named, -, decoded, reads, rfl⟩, folded⟩ := folded
      refine ih others _ (fun other found here => ?_) folded
      by_cases same : other = named
      · subst same
        rw [PerParty.get_set_self] at here
        cases here
        exact Nat.le_trans (Condition.nesting_le_of_decode reads) first
      · rw [PerParty.get_set_ne _ _ same] at here
        exact bounded other found here
  unfold decodePrefilters at read
  split at read
  · rename_i members
    have nothing (party : Party) (condition : Condition)
        (here : (PerParty.all none : PerParty (Option Condition)).get party = some condition) :
        condition.toJson.nesting ≤ membersNesting members := by
      cases party <;> cases here
    have inside := fold members _ (fun member among => Json.nesting_le_members among) _ nothing read
    rw [nesting]
    omega
  · cases read

/-- The text of a query nests no more deeply than a value from which the query was read, or not very
deeply. -/
theorem nesting_le_of_decode {stage : Stage} {value : Json} {query : Query}
    (read : decode stage value = some query) : query.toJson.nesting ≤ max 5 value.nesting := by
  simp only [decode, Option.bind_eq_bind, Option.bind_eq_some_iff, Option.pure_def,
    Option.some.injEq] at read
  obtain ⟨record, recorded, table, -, aggregates, -, prefilters, defaulted, groupBys, -, rfl⟩ :=
    read
  refine nesting_toJson_le (Nat.le_max_left _ _) fun party condition given => ?_
  rcases Json.given_of_defaulted defaulted with ⟨field, present, decoded⟩ | rfl
  · obtain ⟨-, fields⟩ := Json.nesting_given recorded
    have outer := fields _ field present
    have inner := nesting_of_decodePrefilters decoded given
    omega
  · cases party <;> cases given

/-- A query is read from its own text if that nests no more deeply than a text may. -/
theorem ofWire?_wire {query : Query} (shallow : query.toJson.nesting ≤ Json.maxDepth) :
    ofWire? query.wire = some query := by
  simp only [ofWire?, wire, Json.read_render query.faithful_toJson shallow, Option.bind_eq_bind,
    Option.bind_some, decode_toJson]

private theorem nesting_of_ofWire? {text : String} {query : Query}
    (read : ofWire? text = some query) : query.toJson.nesting ≤ Json.maxDepth := by
  simp only [ofWire?, Option.bind_eq_bind, Option.bind_eq_some_iff] at read
  obtain ⟨value, scanned, decoded⟩ := read
  have deep := Json.nesting_read scanned
  have least := nesting_le_of_decode decoded
  simp only [Json.maxDepth] at *
  omega

end Query

/-- A query that a client submits nests less deeply than the line that holds it. -/
theorem ClientRequest.nesting_of_submit {line : String} {query : Query}
    (read : ofLine? line = some (.submit query)) : query.toJson.nesting ≤ Json.maxDepth := by
  simp only [ofLine?, Option.bind_eq_bind, Option.bind_eq_some_iff, Json.readLine] at read
  obtain ⟨value, scanned, decoded⟩ := read
  have deep := Json.nesting_readChars scanned
  simp only [decode, Option.bind_eq_bind, Option.bind_eq_some_iff] at decoded
  obtain ⟨⟨tag, body⟩, tagged, decoded⟩ := decoded
  have untagged := Json.nesting_asTagged tagged
  simp only at decoded
  split at decoded
  · simp only [Option.bind_eq_some_iff, Option.pure_def, Option.some.injEq, submit.injEq] at decoded
    obtain ⟨record, recorded, found, required, rfl⟩ := decoded
    obtain ⟨-, fields⟩ := Json.nesting_given recorded
    obtain ⟨field, given, queried⟩ := Json.given_of_required required
    have outer := fields _ field given
    have least := Query.nesting_le_of_decode queried
    simp only [Json.maxDepth] at *
    omega
  · simp [Option.bind_eq_some_iff] at decoded

/-! ## The same query and the same domain everywhere -/

namespace Query

/-- Every party rebuilds the same query and the same domain.

A query that was accepted from a client's line, or from a text of its own, is the query of the text
that it is sent as. The two domains are built or refused alike, and they name the same tuples and
the same local values. The data parties hold every value of a tuple of a valid query. -/
theorem rebuilt_alike {text : String} {query : Query}
    (accepted : ClientRequest.ofLine? text = some (.submit query) ∨ ofWire? text = some query) :
    ofWire? query.wire = some query ∧
    (∀ again, ofWire? query.wire = some again →
      ((∃ domain, Domain.ofQuery again = .ok domain) ↔ ∃ domain, Domain.ofQuery query = .ok domain) ∧
      ∀ rebuilt domain, Domain.ofQuery again = .ok rebuilt → Domain.ofQuery query = .ok domain →
        rebuilt.count = domain.count ∧
        ∀ index, rebuilt.tuple index = domain.tuple index ∧
          ∀ party, rebuilt.localValues index party = domain.localValues index party) ∧
    (query.validate = .ok () → ∀ domain, Domain.ofQuery query = .ok domain →
      ∀ index < domain.count, ∃ values first second,
        domain.tuple index = some values ∧
        domain.localValues index .ph = some [] ∧
        domain.localValues index .db1 = some first ∧
        domain.localValues index .db2 = some second ∧
        Domain.merge (query.groupBys.map (·.db)) ⟨[], first, second⟩ = values) := by
  have shallow : query.toJson.nesting ≤ Json.maxDepth := by
    rcases accepted with submitted | read
    · exact ClientRequest.nesting_of_submit submitted
    · exact nesting_of_ofWire? read
  have same := ofWire?_wire shallow
  refine ⟨same, fun again reread => ?_, fun valid domain built index inside => ?_⟩
  · obtain rfl : query = again := Option.some.inj (same.symm.trans reread)
    refine ⟨Iff.rfl, fun rebuilt domain first second => ?_⟩
    obtain rfl : rebuilt = domain := Except.ok.inj (first.symm.trans second)
    exact ⟨rfl, fun index => ⟨rfl, fun party => rfl⟩⟩
  · obtain ⟨values, found⟩ := Domain.exists_tuple inside
    have held := Domain.localValues_eq found
    have hub : Domain.owned (domain.owners values) .ph = [] := by
      refine Domain.owned_eq_nil built (fun column member foreign => ?_) values
      obtain ⟨-, -, -, groups⟩ := validate_ok_iff.mp valid
      obtain ⟨db, -⟩ := groups column member
      rw [foreign] at db
      exact absurd db (by decide)
    refine ⟨values, _, _, found, ?_, held .db1, held .db2, ?_⟩
    · rw [held, hub]
    · have merged := Domain.merge_localValues built found
      rwa [PerParty.ofFn, hub] at merged

/-- A text of a query that groups by a column of each data party: arrays stand for the objects, and
there is a member that means nothing. -/
def groupedText : String :=
  "[\"t\", [[\"count\", [\"t\", \"x\", \"db1\", \"string\"]]], " ++
    "\x7b\"db1\": [\"node\", \"not\", [[\"comparison\", \"x\", \"=\", \"\\u00e9\"]]]\x7d, " ++
    "[[\"t\", \"a\", \"db2\", \"string\", [\"u\", null]], \x7b\"note\": 1.5, \"domain\": [\"v\"], " ++
    "\"table\": \"t\", \"db\": \"db1\", \"column_type\": \"string\", \"name\": \"b\"\x7d]]"

/-- The query of `groupedText`. -/
def grouped : Query where
  table := "t"
  aggregates := [⟨.count, ⟨"t", "x", .db1, .string, none⟩⟩]
  prefilters := ⟨none, some (.node .not [.comparison "x" "=" (some "é")]), none⟩
  groupBys := [⟨"t", "a", .db2, .string, some [some "u", none]⟩,
    ⟨"t", "b", .db1, .string, some [some "v"]⟩]

/-- The domain of `grouped`. -/
def groupedDomain : Domain where
  dimensions := [⟨⟨"t", "a", .db2, .string, some [some "u", none]⟩, [some "u", none]⟩,
    ⟨⟨"t", "b", .db1, .string, some [some "v"]⟩, [some "v"]⟩]
  count := 2

theorem rebuilt_alike_grouped :
    ofWire? groupedText = some grouped ∧ ofWire? grouped.wire = some grouped ∧
    grouped.validate = .ok () ∧ Domain.ofQuery grouped = .ok groupedDomain ∧
    1 < groupedDomain.count ∧
    ∃ values first second, groupedDomain.tuple 1 = some values ∧
      groupedDomain.localValues 1 .ph = some [] ∧ groupedDomain.localValues 1 .db1 = some first ∧
      groupedDomain.localValues 1 .db2 = some second ∧
      Domain.merge [.db2, .db1] ⟨[], first, second⟩ = values := by
  have read : ofWire? groupedText = some grouped := by decide +kernel
  have valid : grouped.validate = .ok () := rfl
  have built : Domain.ofQuery grouped = .ok groupedDomain := rfl
  obtain ⟨same, -, merged⟩ := rebuilt_alike (.inr read)
  exact ⟨read, same, valid, built, by decide, merged valid groupedDomain built 1 (by decide)⟩

end Query

end JointQuery
