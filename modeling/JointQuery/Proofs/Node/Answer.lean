import JointQuery.Proofs.Node.Runs
import JointQuery.Proofs.Session.Answer

/-! The answer that a client is told, over every run of a node. It is made of the partial results
that the session has accepted in the course of the run: nothing else writes its cells, and from its
completion on nothing changes them, however long the answer has to wait for its place in a queue. -/
namespace JointQuery

/-! ## What the cells hold -/

/-- The session at a place holds the values of events; where there is none, there were no events. -/
structure Ledger.Holds (ledger : Ledger) (place : Nat) (events : List PartialResult) : Prop where
  session : ∀ session, ledger.sessions[place]? = some session → session.Holds events
  absent : ledger.sessions[place]? = none → events = []

namespace Ledger

variable {ledger next : Ledger} {place : Nat} {session later : Session}
  {events : List PartialResult} {event : PartialResult}

private theorem holds_of_present (present : ledger.sessions[place]? = some session)
    (holds : session.Holds events) : ledger.Holds place events := by
  constructor
  · intro found held
    cases present.symm.trans held
    exact holds
  · intro absent
    cases present.symm.trans absent

/-- Only what is at the place matters. -/
theorem Holds.of_same (holds : ledger.Holds place events)
    (same : next.sessions[place]? = ledger.sessions[place]?) : next.Holds place events := by
  constructor
  · intro found held
    exact holds.session found (same.symm.trans held)
  · intro absent
    exact holds.absent (same.symm.trans absent)

/-- A session can be replaced by one with the same slots. -/
private theorem Holds.put (holds : ledger.Holds place events)
    (present : ledger.sessions[other]? = some session) (same : later.slots = session.slots) :
    (ledger.put other later).Holds place events := by
  by_cases here : place = other
  · subst here
    have before := holds.session session present
    exact holds_of_present (sessions_put_self present later) (before.of_slots same)
  · exact holds.of_same ((sessions_put present later place).trans (if_neg here))

/-- No move writes a cell. -/
theorem Holds.move (holds : ledger.Holds place events) (move : ledger.Move next) :
    next.Holds place events := by
  cases move with
  | advanced present step early => exact holds.put present (Session.slots_transition ..)
  | seen present => exact holds.put present rfl
  | ended present live final early =>
    exact (holds.put present (Session.slots_finish ..)).of_same rfl

/-- The receipt of a partial result writes the cells of the session that accepts it. -/
theorem Holds.receipt (holds : ledger.Holds place events) (sound : ledger.Sound)
    (receipt : ledger.Receipt event next) : ∃ index session,
    ledger.registry.get? event.queryId = some index ∧ ledger.sessions[index]? = some session ∧
      next.Holds place (if index = place ∧ (session.apply event).2.isOk then events ++ [event]
        else events) := by
  have applied {index : Nat} {session later : Session}
      (present : ledger.sessions[index]? = some session)
      (same : later.slots = (session.apply event).1.slots) : (ledger.put index later).Holds place
      (if index = place ∧ (session.apply event).2.isOk then events ++ [event] else events) := by
    by_cases here : place = index
    · subst here
      have regular := sound.regular_at present
      have before := holds.session session present
      refine holds_of_present (sessions_put_self present later) (Session.Holds.of_slots ?_ same)
      cases outcome : (session.apply event).2 with
      | ok done => simpa [Except.isOk, Except.toBool] using before.accepted regular.sound outcome
      | error violation =>
        simpa [Except.isOk, Except.toBool] using before.refused regular.sound outcome
    · rw [if_neg fun both => here both.1.symm]
      exact holds.of_same ((sessions_put present later place).trans (if_neg here))
  cases receipt with
  | received held present unfinished => exact ⟨_, _, held, present, applied present rfl⟩
  | completed held present finishes =>
    exact ⟨_, _, held, present, (applied present (Session.slots_finish ..)).of_same rfl⟩

private theorem Holds.enter (holds : ledger.Holds place events) (fresh : session.Holds []) :
    (ledger.enter session).Holds place events := by
  have entered := sessions_enter ledger session place
  by_cases last : place = ledger.sessions.length
  · have none := holds.absent (List.getElem?_eq_none_iff.mpr (Nat.le_of_eq last.symm))
    rw [if_pos last] at entered
    exact holds_of_present entered (none ▸ fresh)
  · rw [if_neg last] at entered
    exact holds.of_same entered

end Ledger

private theorem Front.Moves.holds {front last : Front} (moves : Front.Moves front last)
    (holds : front.ledger.Holds place events) : last.ledger.Holds place events := by
  induction moves with
  | refl => exact holds
  | tail _ move ih =>
    rcases move.ledger_cases with same | move | ⟨session, _, _, _, _, _, created, -, same⟩
    · rwa [same]
    · exact ih.move move
    · rw [same]
      exact ih.enter (Session.holds_create created)

/-! ## What a session accepts -/

namespace Node

/-- The session at a place accepts a partial result. -/
def accepts (node : Node) (place : Nat) (event : PartialResult) : Bool :=
  decide (node.registry.get? event.queryId = some place) && (node.receivePartial event).2.isOk

/-- The partial results that the session at a place accepts in the course of a run. -/
def accepted (place : Nat) (node : Node) : List Operation → List PartialResult
  | [] => []
  | operation :: rest =>
    let later := accepted place (node.perform operation) rest
    match operation.partial? with
    | some event => if node.accepts place event then event :: later else later
    | none => later

variable {node : Node} {place : Nat} {events : List PartialResult} {event : PartialResult}

/-- What is received is accepted exactly when the session that it names accepts it. -/
theorem isOk_receivePartial (held : node.ledger.registry.get? event.queryId = some index)
    (present : node.ledger.sessions[index]? = some session) :
    (node.receivePartial event).2.isOk = (session.apply event).2.isOk := by
  simp only [receivePartial, find?_eq_some_iff.mpr ⟨held, present⟩]
  cases outcome : (session.apply event).2 with
  | error violation => rfl
  | ok done => cases done <;> rfl

/-- A partial result adds its values to the session that accepts it. -/
theorem holds_receivePartial (sound : node.ledger.Sound) (holds : node.ledger.Holds place events)
    (event : PartialResult) : (node.receivePartial event).1.ledger.Holds place
      (if node.accepts place event then events ++ [event] else events) := by
  cases sought : node.find? event.queryId with
  | none =>
    have unknown : node.receivePartial event = (node, .error (unknownQuery event.queryId)) := by
      simp [receivePartial, sought]
    simpa [accepts, unknown, Except.isOk, Except.toBool] using holds
  | some entry =>
    obtain ⟨index, session⟩ := entry
    obtain ⟨held, present⟩ := find?_eq_some_iff.mp sought
    obtain ⟨ledger, receipt, received⟩ := receipt_receivePartial sound held present
    obtain ⟨index', session', held', present', later⟩ := holds.receipt sound receipt
    obtain rfl := Option.some.inj (held.symm.trans held')
    obtain rfl := Option.some.inj (present.symm.trans present')
    have registered : node.registry.get? event.queryId = some index := held
    have accepts : node.accepts place event = true ↔
        index = place ∧ (session.apply event).2.isOk = true := by
      simp [Node.accepts, registered, isOk_receivePartial held present]
    have after : (node.receivePartial event).1.ledger = ledger := congrArg Front.ledger received
    rw [after]
    simpa only [accepts] using later

/-- Over a run the values of the accepted partial results are added. -/
theorem holds_performAll (sound : node.ledger.Sound) (holds : node.ledger.Holds place events)
    (operations : List Operation) : (node.performAll operations).ledger.Holds place
      (events ++ accepted place node operations) := by
  induction operations generalizing node events with
  | nil => simpa [performAll, accepted] using holds
  | cons operation rest ih =>
    have sound' := (steps_perform sound operation).sound_ledger sound
    cases received : operation.partial? with
    | none =>
      have moves := node.moves_perform received
      simpa [performAll_cons, accepted, received] using ih sound' (moves.holds holds)
    | some event =>
      obtain rfl := Operation.eq_of_partial? received
      have step := ih sound' (holds_receivePartial sound holds event)
      by_cases accepts : node.accepts place event = true
      · rw [if_pos accepts] at step
        simpa [performAll_cons, accepted, received, accepts] using step
      · rw [if_neg accepts] at step
        simpa [performAll_cons, accepted, received, accepts] using step

theorem holds_start (config : Config) (limits : OutputLimits) (identifiers : Nat → QueryId)
    (place : Nat) (operations : List Operation) :
    ((start config limits identifiers).performAll operations).ledger.Holds place
      (accepted place (start config limits identifiers) operations) := by
  have absent := sessions_start config limits identifiers place
  have nothing : (start config limits identifiers).ledger.Holds place [] :=
    ⟨fun session found => absurd (absent.symm.trans found) (by simp), fun _ => rfl⟩
  exact holds_performAll (sound_start config limits identifiers) nothing operations

/-! ## The answer -/

/-- In every run, the answer that a client is told is the aggregated answer of the session, from the
partial results that it has accepted in the course of the run. Each tuple that was reported as done
was reported with its row of the answer. -/
theorem answer_aggregated (config : Config) (limits : OutputLimits) (identifiers : Nat → QueryId)
    (operations : List Operation) (node : Node)
    (reached : (start config limits identifiers).performAll operations = node)
    (place client : Nat) (before after : List ClientEvent) (id : QueryId) (table : ResultTable)
    (told : node.told place client = before ++ .allDone id table :: after) :
    ∃ session, node.session? place = some session ∧ session.id = id ∧ session.client = client ∧
      session.Aggregates (accepted place (start config limits identifiers) operations)
        config.resultScale.toNat table ∧
      ∀ other index row, .tupleDone other index row ∈ before →
        table.rows[index.toNat]? = some row := by
  have sound := sound_front_performAll config limits identifiers operations
  have scale := scale_performAll config limits identifiers operations
  have holds := holds_start config limits identifiers place operations
  rw [reached] at sound scale holds
  have heard : .allDone id table ∈ node.told place client := by simp [told]
  obtain ⟨session, present, owner, named, completed, answer⟩ := sound.bears heard
  have regular := sound.ledger.regular_at present
  have found : node.session? place = some session := (node.session?_eq place).trans present
  refine ⟨session, found, named.symm, owner, ?_, ?_⟩
  · rw [answer, scale]
    exact regular.aggregates_of_completed completed (holds.session session present) _
  · intro other index row member
    have earlier : .tupleDone other index row ∈ node.told place client := by simp [told, member]
    obtain ⟨same, held, -, -, -, reported⟩ := sound.bears earlier
    obtain rfl := Option.some.inj (present.symm.trans held)
    rw [answer, (regular.built.resultTable_rows node.front.scale).2]
    exact reported

/-- The one value of a count is in the one row of its answer. -/
theorem answer_aggregated_count : ∃ node opened done id table row,
    (start (.ofParty .ph) (Config.ofParty .ph).outputLimits QueryId.numbered).performAll
      [.addClient "front" 8 0 false, .beginQuery 0 Session.oneCount true,
        .receivePartial ⟨QueryId.numbered 0, 0, [⟨.db1, some 0, 0⟩, ⟨.db2, some 0, 0⟩], [⟨0, 1⟩]⟩,
        .run (.reporter 0)] = node ∧
    node.told 0 0 = [opened, done] ++ .allDone id table :: [] ∧ table.rows = [row] ∧
    row.values[0]? = some (some (Decimal.roundToScale 1 6)) := by
  obtain ⟨session, found, -, -, aggregates, -⟩ :=
    answer_aggregated (.ofParty .ph) (Config.ofParty .ph).outputLimits QueryId.numbered
      [.addClient "front" 8 0 false, .beginQuery 0 Session.oneCount true,
        .receivePartial ⟨QueryId.numbered 0, 0, [⟨.db1, some 0, 0⟩, ⟨.db2, some 0, 0⟩], [⟨0, 1⟩]⟩,
        .run (.reporter 0)] _ rfl 0 0 [_, _] [] _ _ rfl
  obtain rfl := Option.some.inj found
  obtain ⟨event, entry, only, brought, value⟩ := (aggregates.rows 0 _ rfl).values 0 Nat.one_pos
  obtain rfl : _ = event := (List.cons.inj only).1
  obtain rfl : _ = entry := (List.cons.inj brought).1
  exact ⟨_, _, _, _, _, _, rfl, rfl, rfl, value⟩

end Node

end JointQuery
