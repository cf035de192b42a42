import JointQuery.Node.Intake
import JointQuery.Proofs.Node.Tasks

/-! Runs of a node. An operation is whatever can happen to a node without a pause in between; tasks
can be run in any order, whether they are ready or not. What a node does when it is left to itself,
and what arrives on its connections, are runs of such operations.

What is assumed, by the form of the operations:

1. **A task is atomic from one point where it waits to the next.** Any other operation can come in
   between, but none comes inside: what two threads could do to each other within one such stretch
   is no run.

2. **A dial takes no time.** A connection is made or refused in the operation that dials, as by
   `MemoryConnector::connect`, which waits for nothing. Only writing waits.

3. **Registries are read in the order of insertion.** Of several sessions that one operation ends,
   the one that was registered first ends first.

4. **Whoever waits is served in the order of coming,** for bytes of a budget as for room in the queue
   of a client.

5. **A reporter for which both a tick and a change are there takes the tick first,** and makes a pass
   of its own for the change.

Time moves and the wall clock is set only by operations of their own, to any reading. Identifiers
are drawn from any sequence, also from one that repeats itself. That a schedule is fair, or that
nothing that can run is left waiting when time moves, is a hypothesis wherever it is needed (`Fair`,
`Prompt`). -/
namespace JointQuery

/-- How a session can end before it is complete. -/
inductive Ending where
  | failed
  | timedOut
  | cancelled

/-- The final state of an ending. -/
def Ending.state : Ending → SessionState
  | .failed => .failed
  | .timedOut => .timedOut
  | .cancelled => .cancelled

theorem Ending.isTerminal_state (ending : Ending) : ending.state.isTerminal = true := by
  cases ending <;> rfl

theorem Ending.state_ne_completed (ending : Ending) : ending.state ≠ .completed := by
  cases ending <;> simp [Ending.state]

/-- Whatever can happen to a node without a pause in between. -/
inductive Operation where
  | addClient (ref : String) (capacity patience : Nat) (attended : Bool)
  | beginQuery (client : Nat) (query : Query) (tellsFaults : Bool)
  | beginCancel (client : Nat) (id : QueryId)
  | beginComplaint (client : Nat)
  | readEvent (client : Nat)
  | closeClient (client : Nat)
  | markDisconnected (client : Nat)
  | addDelivery (client : Nat) (event : ClientEvent)
  | receivePartial (event : PartialResult)
  | cancel (id : QueryId)
  | clientLeft (ref : String)
  /-- It turns out that the client of a session is gone. -/
  | loseClient (place : Nat)
  | expire
  /-- One session is ended by itself. -/
  | terminate (place : Nat) (ending : Ending) (cause : Option QueryError)
  | run (task : TaskId)
  | startSweeper
  | moveTo (time : Nat)
  | setWall (reading : Int64)
  | acquire (party : Party)
  | closeChannel (channel : Nat)
  | invalidate (party : Party)
  | addPost (channel : Nat) (message : PartyMessage)
  | addReservation (party : Party) (length : Nat)
  | releaseReservation (index : Nat)
  | abandonReservation (index : Nat)
  | refuse (party : Party)
  | accept (party : Party)
  | stall (party : Party)
  | resume (party : Party)
  | breakLinks (party : Party)
  | stopListening

/-- The partial result that an operation brings. -/
def Operation.partial? : Operation → Option PartialResult
  | .receivePartial event => some event
  | _ => none

theorem Operation.eq_of_partial? {operation : Operation}
    (received : operation.partial? = some event) : operation = .receivePartial event := by
  cases operation with
  | receivePartial brought => exact congrArg _ (Option.some.inj received)
  | _ => simp [partial?] at received

namespace Node

open Front (Moves Steps)

/-- A node that has done nothing, with any supply of identifiers. -/
def start (config : Config) (limits : OutputLimits) (identifiers : Nat → QueryId) : Node :=
  { withLimits config limits with identifiers := identifiers }

/-- Runs a task, which is then not ready any more unless it says so itself. -/
def runTask (node : Node) (task : TaskId) : Node :=
  poll { node with agenda := { node.agenda with ready := node.agenda.ready.erase task } } task

/-- The node after an operation. -/
def perform (node : Node) : Operation → Node
  | .addClient ref capacity patience attended => (node.addClient ref capacity patience attended).1
  | .beginQuery client query tellsFaults => (node.beginQuery client query tellsFaults).1
  | .beginCancel client id => (node.beginCancel client id).1
  | .beginComplaint client => (node.beginComplaint client).1
  | .readEvent client => (node.readEvent client).1
  | .closeClient client => node.closeClient client
  | .markDisconnected client => node.markDisconnected client
  | .addDelivery client event => (node.addDelivery client event).1
  | .receivePartial event => (node.receivePartial event).1
  | .cancel id => (node.cancel id).1
  | .clientLeft ref => (node.clientLeft ref).1
  | .loseClient place => node.loseClient place
  | .expire => node.expire.1
  | .terminate place ending cause => (node.terminate place ending.state cause).1
  | .run task => node.runTask task
  | .startSweeper => node.startSweeper
  | .moveTo time => node.moveTo time
  | .setWall reading => { node with wall := reading }
  | .acquire party => (node.acquire party).1
  | .closeChannel channel => node.closeChannel channel
  | .invalidate party => node.invalidate party
  | .addPost channel message => (node.addPost channel message).1
  | .addReservation party length => (node.addReservation party length).1
  | .releaseReservation index => node.releaseReservation index
  | .abandonReservation index => node.abandonReservation index
  | .refuse party => node.refuse party
  | .accept party => node.accept party
  | .stall party => node.stall party
  | .resume party => node.resume party
  | .breakLinks party => node.breakLinks party
  | .stopListening => node.stopListening

/-- The node after operations one after another. -/
def performAll (node : Node) (operations : List Operation) : Node :=
  operations.foldl perform node

theorem performAll_cons (node : Node) (operation : Operation) (rest : List Operation) :
    node.performAll (operation :: rest) = (node.perform operation).performAll rest := rfl

theorem performAll_append (node : Node) (earlier later : List Operation) :
    node.performAll (earlier ++ later) = (node.performAll earlier).performAll later :=
  List.foldl_append

/-! ## Moves -/

private theorem moves_runTask (node : Node) (task : TaskId) :
    Moves node.front (node.runTask task).front :=
  moves_poll { node with agenda := { node.agenda with ready := node.agenda.ready.erase task } } task

/-- A new client was told nothing yet. -/
theorem front_addClient (node : Node) (ref : String) (capacity patience : Nat) (attended : Bool) :
    (node.addClient ref capacity patience attended).1.front = node.front := by
  have told : (node.addClient ref capacity patience attended).1.told = node.told := by
    funext place client
    simp only [Node.told, addClient]
    by_cases last : client = node.clients.length
    · rw [last, List.getElem?_concat_length, List.getElem?_eq_none_iff.mpr (Nat.le_refl _)]
      rfl
    · rw [getElem?_concat_of_ne last]
  have desks : (node.addClient ref capacity patience attended).1.desk = node.desk := by
    funext place
    rw [desk, told]
    rfl
  rw [front, desks]
  rfl

/-- Whatever happens but the receipt of a partial result is a series of moves. -/
theorem moves_perform (node : Node) {operation : Operation} (quiet : operation.partial? = none) :
    Moves node.front (node.perform operation).front := by
  cases operation with
  | receivePartial event => simp [Operation.partial?] at quiet
  | beginQuery client query tellsFaults => exact node.moves_beginQuery client query tellsFaults
  | beginCancel client id => exact node.moves_beginCancel client id
  | beginComplaint client => exact node.moves_beginComplaint client
  | cancel id => exact node.moves_cancel id
  | clientLeft ref => exact node.moves_clientLeft ref
  | loseClient place => exact node.moves_loseClient place
  | expire => exact node.moves_expire
  | terminate place ending cause =>
    exact node.moves_terminate place cause ending.isTerminal_state
      ending.state_ne_completed
  | run task => exact node.moves_runTask task
  | addClient ref capacity patience attended =>
    exact Moves.of_eq (node.front_addClient ref capacity patience attended)
  | addDelivery | startSweeper | moveTo | setWall | addPost | addReservation | refuse | accept
  | stall | resume | breakLinks | stopListening => exact .refl
  | readEvent client => exact Moves.of_eq (node.front_readEvent client)
  | closeClient client => exact Moves.of_eq (node.front_closeClient client)
  | markDisconnected client => exact Moves.of_eq (node.front_markDisconnected client)
  | acquire party => exact Moves.of_eq (front_acquire party)
  | closeChannel channel => exact Moves.of_eq (front_closeChannel channel)
  | invalidate party => exact Moves.of_eq (front_invalidate party)
  | releaseReservation index => exact Moves.of_eq (front_releaseReservation index)
  | abandonReservation index => exact Moves.of_eq (front_abandonReservation index)

theorem steps_perform {node : Node} (sound : node.ledger.Sound) (operation : Operation) :
    Steps node.front (node.perform operation).front := by
  cases received : operation.partial? with
  | none => exact (node.moves_perform received).steps
  | some event =>
    obtain rfl := Operation.eq_of_partial? received
    exact steps_receivePartial sound event

/-- A run is a series of moves and receipts. -/
theorem steps_performAll {node : Node} (sound : node.ledger.Sound) (operations : List Operation) :
    Steps node.front (node.performAll operations).front := by
  induction operations generalizing node with
  | nil => exact .refl
  | cons operation rest ih =>
    have first := steps_perform sound operation
    exact first.trans (ih (first.sound_ledger sound))

section

variable (config : Config) (limits : OutputLimits) (identifiers : Nat → QueryId)

theorem sound_start : (start config limits identifiers).ledger.Sound := Ledger.sound_empty

theorem sessions_start (place : Nat) :
    (start config limits identifiers).ledger.sessions[place]? = none := rfl

theorem sound_performAll (operations : List Operation) :
    ((start config limits identifiers).performAll operations).ledger.Sound :=
  have sound := sound_start config limits identifiers
  (steps_performAll sound operations).sound_ledger sound

/-- In every run the front is sound. -/
theorem sound_front_performAll (operations : List Operation) :
    ((start config limits identifiers).performAll operations).front.Sound := by
  have ledger := sound_start config limits identifiers
  have sound : (start config limits identifiers).front.Sound := by
    refine ⟨ledger, fun place session found => ?_, fun place beyond => rfl⟩
    have empty := sessions_start config limits identifiers place
    exact absurd (empty.symm.trans found) (by simp)
  exact (steps_performAll ledger operations).sound sound

theorem scale_performAll (operations : List Operation) :
    ((start config limits identifiers).performAll operations).front.scale =
      config.resultScale.toNat :=
  (steps_performAll (sound_start config limits identifiers) operations).scale_eq

end

/-! ## What runs are made of -/

/-- A node is reached from another by a run. -/
def Reaches (node next : Node) : Prop := ∃ operations, node.performAll operations = next

private theorem Reaches.refl (node : Node) : node.Reaches node := ⟨[], rfl⟩

private theorem Reaches.trans {first second third : Node} (earlier : first.Reaches second)
    (later : second.Reaches third) : first.Reaches third := by
  obtain ⟨before, rfl⟩ := earlier
  obtain ⟨further, rfl⟩ := later
  exact ⟨before ++ further, performAll_append first before further⟩

private theorem reaches_perform (node : Node) (operation : Operation) :
    node.Reaches (node.perform operation) := ⟨[operation], rfl⟩

private theorem reaches_runNext? {node next : Node} (ran : node.runNext? = some next) :
    node.Reaches next := by
  simp only [runNext?] at ran
  split at ran
  · simp at ran
  · rename_i task rest ready
    obtain rfl := Option.some.inj ran
    refine ⟨[.run task], ?_⟩
    simp [performAll, perform, runTask, ready]

private theorem reaches_readEvents (node : Node) (client count : Nat) :
    node.Reaches (readEvents client count node) := by
  induction count generalizing node with
  | zero => exact .refl node
  | succ count ih => exact (node.reaches_perform (.readEvent client)).trans (ih _)

private theorem reaches_serveClients (node : Node) : node.Reaches node.serveClients := by
  simp only [serveClients]
  generalize node.attended = clients
  induction clients generalizing node with
  | nil => exact .refl node
  | cons client rest ih => exact (node.reaches_readEvents client _).trans (ih _)

private theorem reaches_runTurns (node : Node) (turns : Nat) :
    node.Reaches (runTurns turns node) := by
  induction turns generalizing node with
  | zero => exact .refl node
  | succ turns ih =>
    simp only [runTurns]
    split
    · rename_i next ran
      exact (reaches_runNext? ran).trans (ih next)
    · split
      · exact node.reaches_serveClients
      · exact node.reaches_serveClients.trans (ih _)

private theorem reaches_settle (node : Node) : node.Reaches node.settle := node.reaches_runTurns _

private theorem reaches_advanceTo (node : Node) (time jumps : Nat) :
    node.Reaches (advanceTo time jumps node) := by
  induction jumps generalizing node with
  | zero => exact .refl node
  | succ jumps ih =>
    simp only [advanceTo]
    split
    · split
      · exact (node.reaches_perform (.moveTo _)).trans ((reaches_settle _).trans (ih _))
      · exact node.reaches_perform (.moveTo time)
    · exact node.reaches_perform (.moveTo time)

/-- Letting time pass is a run. -/
theorem reaches_advance (node : Node) (ms : Nat) : node.Reaches (node.advance ms) :=
  node.reaches_settle.trans (reaches_advanceTo _ _ _)

theorem reaches_settleRequest (node : Node) (index : Nat) :
    node.Reaches (node.settleRequest index) := by
  have awaits (node : Node) (jumps : Nat) : node.Reaches (awaitRequest index jumps node) := by
    induction jumps generalizing node with
    | zero => exact .refl node
    | succ jumps ih =>
      simp only [awaitRequest]
      split
      · exact (node.reaches_perform (.moveTo _)).trans ((reaches_settle _).trans (ih _))
      · exact .refl node
  exact node.reaches_settle.trans (awaits _ _)

private theorem reaches_hangUp (node : Node) (connection : Connection) :
    node.Reaches (node.hangUp connection) := by
  cases connection with
  | client client =>
    exact (node.reaches_perform (.markDisconnected client)).trans
      (reaches_perform _ (.clientLeft (node.clientRef client)))
  | party party => exact node.reaches_perform (.invalidate party)

/-- What arrives on a connection is one operation, or none. -/
theorem reaches_receive (node : Node) (connection : Connection) (inbound : Inbound) :
    node.Reaches (node.receive connection inbound).1 := by
  cases connection with
  | client client =>
    cases inbound with
    | message message => exact .refl node
    | request request =>
      cases request with
      | submit query => exact node.reaches_perform (.beginQuery client query true)
      | cancel id => exact node.reaches_perform (.beginCancel client id)
  | party party =>
    cases inbound with
    | request request => exact .refl node
    | message message =>
      cases message with
      | hello party => exact .refl node
      | startQuery id query ref => exact .refl node
      | partialResult result => exact node.reaches_perform (.receivePartial result)

private theorem reaches_receiveClientLine (node : Node) (client : Nat) (line : String) :
    node.Reaches (node.receiveClientLine client line).1 := by
  simp only [receiveClientLine]
  split
  · exact .refl node
  · split
    · exact node.reaches_receive _ _
    · exact node.reaches_perform (.beginComplaint client)

private theorem reaches_receivePartyLine (node : Node) (party : Party) (line : String) :
    node.Reaches (node.receivePartyLine party line).1 := by
  simp only [receivePartyLine]
  split
  · exact .refl node
  · split
    · exact node.reaches_receive _ _
    · exact .refl node

private theorem reaches_closeIntake (node : Node) (intake : Intake) :
    node.Reaches (node.closeIntake intake).1 := by
  cases intake with
  | client place => exact node.reaches_hangUp (.client place)
  | opening => exact .refl node
  | party peer => exact node.reaches_hangUp (.party peer)
  | closed => exact .refl node

/-- Taking a line from a connection is a run. -/
theorem reaches_takeLine (node : Node) (intake : Intake) (line : List UInt8) :
    node.Reaches (node.takeLine intake line).1 := by
  simp only [takeLine]
  split
  · exact .refl node
  · exact node.reaches_closeIntake _
  · exact .refl node
  · rename_i text place _
    have received := node.reaches_receiveClientLine place text
    split <;> rename_i after request took <;> rw [took] at received
    · exact received
    · exact Reaches.trans received (after.reaches_hangUp (.client place))
  · rename_i text peer _
    have received := node.reaches_receivePartyLine peer text
    split <;> rename_i after took <;> rw [took] at received
    · exact received
    · exact Reaches.trans received (after.reaches_hangUp (.party peer))

end Node

end JointQuery
