import JointQuery.Proofs.Node.Admission
import JointQuery.Proofs.Node.Dispatching

/-! A node in order stays so, whatever happens to it. Every operation but the run of a writer is a
series of changes; a writer writes all that is pending on its channel, or loses it. -/
namespace JointQuery

/-- The client of a session that the operation ends is told of that, or gone. -/
def Operation.givesCause : Operation → Bool
  | .terminate _ _ none => false
  | _ => true

/-- The operation runs the reporter of the session at a place. -/
def Operation.reports (operation : Operation) (place : Nat) : Prop :=
  operation = .run (.reporter place)

/-- The channel whose writer an operation runs. -/
def Operation.writer? : Operation → Option Nat
  | .run (.writer index) => some index
  | _ => none

theorem Operation.eq_of_writer? {operation : Operation} {index : Nat}
    (writer : operation.writer? = some index) : operation = .run (.writer index) := by
  cases operation with
  | run task =>
    cases task with
    | writer other =>
      obtain rfl := Option.some.inj writer
      rfl
    | _ => simp [writer?] at writer
  | _ => simp [writer?] at writer

namespace Node

/-! ## Writers -/

/-- Writes to a party fail. -/
def fails (node : Node) (party : Party) : Bool := (node.links.get party).broken || !node.listening

/-- The writer of the channel at a place runs, is not held, and every write fails. -/
structure Broken (node : Node) (index : Nat) (channel : Channel) : Prop where
  held : node.channels[index]? = some channel
  running : channel.running = true
  unheld : (node.links.get channel.party).stalled = false
  fails : node.fails channel.party = true

/-- What the run of a writer can do. -/
inductive Writes (node : Node) (index : Nat) : Node → Prop where
  | idle (quiet : ∀ channel, node.Broken index channel → channel.pending = [])
      (same : node.Beside after) : Writes node index after
  | wrote (held : node.channels[index]? = some channel) (running : channel.running = true)
      (works : node.fails channel.party = false)
      (same : Beside
        { node.setChannel index { channel with
            written := channel.written + channel.pending.length } with
          delivered := node.delivered ++ channel.pending.map fun frame => (channel.party, frame) }
        after) : Writes node index after
  | lost (broken : node.Broken index channel)
      (same : (node.setChannel index channel.fail).Beside after) : Writes node index after

variable {told : Bool} {active : Nat → Prop} {node after : Node} {index : Nat} {channel : Channel}

private theorem beside_loseFrames (node : Node) (party : Party) (frames : List Frame) :
    node.Beside (node.loseFrames party frames) := by
  induction frames generalizing node with
  | nil => exact .refl node
  | cons frame rest ih => exact (node.beside_giveBytes party frame.reserved).trans (ih _)

private theorem beside_writeFrames (held : node.channels[index]? = some channel)
    (works : node.fails channel.party = false) (frames : List Frame) :
    Beside
      { node.setChannel index { channel with written := channel.written + frames.length } with
        delivered := node.delivered ++ frames.map fun frame => (channel.party, frame) }
      (node.writeFrames index frames) := by
  induction frames generalizing node channel with
  | nil =>
    have same : node.channels.set index { channel with written := channel.written + 0 } =
        node.channels := by
      obtain ⟨inside, rfl⟩ := List.getElem?_eq_some_iff.mp held
      exact List.set_getElem_self inside
    refine ⟨rfl, by simp [writeFrames], ?_, rfl, rfl, rfl, rfl⟩
    exact same.symm
  | cons frame rest ih =>
    have works' : ((node.links.get channel.party).broken || !node.listening) = false := works
    obtain ⟨inside, -⟩ := List.getElem?_eq_some_iff.mp held
    have written :
        (node.channels.set index { channel with written := channel.written + 1 })[index]? =
        some { channel with written := channel.written + 1 } := by simp [inside]
    simp only [writeFrames, held, works', Bool.false_eq_true, if_false]
    refine Beside.trans ?_ (ih written works)
    refine ⟨rfl, ?_, ?_, rfl, rfl, rfl, rfl⟩
    · simp [setChannel, giveBytes, wakeAll, setBudget]
    · simp [setChannel, giveBytes, wakeAll, setBudget, Nat.add_comm, Nat.add_left_comm]

private theorem writes_pollWriter (node : Node) (index : Nat) :
    Writes node index (node.pollWriter index) := by
  simp only [pollWriter]
  split
  · rename_i absent
    exact .idle (fun _ broken => absurd (absent.symm.trans broken.held) (by simp)) (.refl node)
  · rename_i channel held
    split
    · rename_i ready
      simp only [Bool.and_eq_true, Bool.not_eq_true'] at ready
      obtain ⟨running, unheld⟩ := ready
      cases works : node.fails channel.party with
      | false => exact .wrote held running works (beside_writeFrames held works _)
      | true =>
        have broken : node.Broken index channel := ⟨held, running, unheld, works⟩
        cases pending : channel.pending with
        | nil =>
          refine .idle (fun other again => ?_) (.refl node)
          obtain rfl := Option.some.inj (held.symm.trans again.held)
          exact pending
        | cons frame rest =>
          have fails' : ((node.links.get channel.party).broken || !node.listening) = true := works
          simp only [writeFrames, held, fails', if_true]
          exact .lost broken (beside_loseFrames ..)
    · rename_i unready
      refine .idle (fun other again => ?_) (.refl node)
      obtain rfl := Option.some.inj (held.symm.trans again.held)
      simp [again.running, again.unheld] at unready

private theorem Beside.of_agenda {agenda : Agenda}
    (same : Beside { node with agenda := agenda } after) : node.Beside after :=
  ⟨same.directory, same.delivered, same.channels, same.pooled, same.clients, same.flights,
    same.requests⟩

/-- What is to be done makes no difference to a writer. -/
theorem Writes.of_agenda {agenda : Agenda}
    (writes : Writes { node with agenda := agenda } index after) : Writes node index after := by
  cases writes with
  | idle quiet same =>
    refine .idle (fun channel broken => quiet channel ?_) same.of_agenda
    exact ⟨broken.held, broken.running, broken.unheld, broken.fails⟩
  | wrote held running works same =>
    rename_i channel
    have present : node.channels[index]? = some channel := held
    have working : node.fails channel.party = false := works
    exact .wrote present running working (Beside.of_agenda same)
  | lost broken same =>
    rename_i channel
    have failing : node.Broken index channel :=
      ⟨broken.held, broken.running, broken.unheld, broken.fails⟩
    exact .lost failing (Beside.of_agenda same)

theorem Writes.clients (writes : Writes node index after) :
    after.clients = node.clients ∧ after.desk = node.desk ∧
      ∀ place, after.session? place = node.session? place := by
  cases writes with
  | idle quiet same => exact ⟨same.clients, same.desk, same.session?⟩
  | wrote held running works same => exact ⟨same.clients, same.desk, same.session?⟩
  | lost broken same => exact ⟨same.clients, same.desk, same.session?⟩

/-- A writer replaces no channel but by one to the same party with the same frames. -/
theorem Writes.channels (writes : Writes node index after) : after.channels = node.channels ∨
    ∃ channel next, node.channels[index]? = some channel ∧
      after.channels = (node.setChannel index next).channels ∧ next.party = channel.party ∧
      next.frames = channel.frames := by
  cases writes with
  | idle quiet same => exact .inl same.channels
  | wrote held running works same => exact .inr ⟨_, _, held, same.channels, rfl, rfl⟩
  | lost broken same => exact .inr ⟨_, _, broken.held, same.channels, rfl, rfl⟩

theorem Writes.others (writes : Writes node index after) : after.directory = node.directory ∧
    after.pooled = node.pooled ∧ after.flights = node.flights := by
  cases writes with
  | idle quiet same => exact ⟨same.directory, same.pooled, same.flights⟩
  | wrote held running works same => exact ⟨same.directory, same.pooled, same.flights⟩
  | lost broken same => exact ⟨same.directory, same.pooled, same.flights⟩

private theorem Writes.dispatches (writes : Writes node index after)
    (dispatches : node.Dispatches) : after.Dispatches := by
  obtain ⟨directory, pooled, flights⟩ := writes.others
  rcases writes.channels with same | ⟨channel, next, held, same, toward, frames⟩
  · exact dispatches.of_same directory pooled same flights
  · have kept : (node.setChannel index next).Dispatches :=
      dispatches.setChannel held toward fun _ => congrArg _ frames
    exact kept.of_same directory pooled same flights

/-! ## Operations -/

/-- What holds of a node between operations. -/
structure InOrder (told : Bool) (node : Node) : Prop where
  front : node.front.Sound
  informed : node.Informed told
  dispatches : node.Dispatches

private theorem Beside.inOrder (same : node.Beside after) (front : after.front = node.front)
    (order : node.InOrder told) : after.InOrder told where
  front := front ▸ order.front
  informed := order.informed.of_same (keeps_of_clients same.clients) same.session?
    (by simp [same.desk]) (by simp [same.desk])
  dispatches := order.dispatches.of_same same.directory same.pooled same.channels same.flights

private theorem changes_poll (order : node.InOrder told) {task : TaskId}
    (unwritten : ∀ index, task ≠ .writer index)
    (runs : ∀ place, task = .reporter place → active place) :
    Changes told active node (node.poll task) := by
  obtain ⟨front, informed, dispatches⟩ := order
  cases task with
  | fanOut place => exact changes_pollFanOut informed dispatches.everyone place
  | sender place party => exact changes_pollSender dispatches.pools dispatches.parks place party
  | reporter place => exact changes_pollReporter front informed (runs place rfl)
  | writer index => exact absurd rfl (unwritten index)
  | sweeper => exact changes_pollSweeper informed
  | post index => exact node.changes_pollPost index
  | delivery index => exact node.changes_pollDelivery index
  | reservation index => exact (node.beside_pollReservation index).changes
  | request index => exact changes_pollRequest front informed index

/-- Whatever happens but the run of a writer is a series of changes. -/
theorem changes_perform (order : node.InOrder told) {operation : Operation}
    (unwritten : operation.writer? = none)
    (caused : told = true → operation.givesCause = true) :
    Changes told operation.reports node (node.perform operation) := by
  have beside {after : Node} (same : node.Beside after) :
      Changes told operation.reports node after := same.changes
  obtain ⟨front, informed, dispatches⟩ := order
  cases operation with
  | run task =>
    have same : node.Beside
        { node with agenda := { node.agenda with ready := node.agenda.ready.erase task } } :=
      ⟨rfl, rfl, rfl, rfl, rfl, rfl, rfl⟩
    refine (beside same).trans (changes_poll (same.inOrder rfl ⟨front, informed, dispatches⟩) ?_ ?_)
    · rintro index rfl
      simp [Operation.writer?] at unwritten
    · exact fun place reporter => congrArg _ reporter
  | terminate place ending cause =>
    cases cause with
    | none =>
      refine changes_terminate_none place ending.isTerminal_state fun tells => ?_
      simp [Operation.givesCause] at caused
      simp [caused] at tells
    | some cause => exact changes_terminate informed place ending.isTerminal_state cause
  | addClient => exact node.changes_addClient ..
  | beginQuery => exact changes_beginQuery front ..
  | beginCancel => exact changes_beginCancel informed ..
  | beginComplaint => exact node.changes_beginComplaint _
  | readEvent => exact node.changes_readEvent _
  | closeClient => exact node.changes_closeClient _
  | markDisconnected => exact node.changes_markDisconnected _
  | receivePartial event => exact changes_receivePartial front.ledger event
  | cancel id => exact changes_cancel informed id
  | clientLeft ref => exact changes_clientLeft informed ref
  | loseClient place => exact changes_loseClient informed place
  | expire => exact changes_expire informed
  | acquire => exact node.changes_acquire _
  | closeChannel => exact node.changes_closeChannel _
  | invalidate => exact node.changes_invalidate _
  | releaseReservation index => exact beside (node.beside_releaseReservation index)
  | abandonReservation index => exact beside (node.beside_abandonReservation index)
  | addDelivery | startSweeper | moveTo | setWall | addPost | addReservation | refuse | accept
  | stall | resume | breakLinks | stopListening =>
    exact beside ⟨rfl, rfl, rfl, rfl, rfl, rfl, rfl⟩

/-- The run of a writer writes what is pending, or loses it. -/
theorem writes_perform {operation : Operation} (writer : operation.writer? = some index) :
    Writes node index (node.perform operation) := by
  obtain rfl := Operation.eq_of_writer? writer
  have writes := writes_pollWriter { node with agenda := { node.agenda with
    ready := node.agenda.ready.erase (.writer index) } } index
  exact writes.of_agenda

/-- Every operation keeps a node in order. -/
theorem inOrder_perform (order : node.InOrder told) {operation : Operation}
    (caused : told = true → operation.givesCause = true) :
    (node.perform operation).InOrder told := by
  have front : (node.perform operation).front.Sound :=
    (steps_perform order.front.ledger operation).sound order.front
  cases writer : operation.writer? with
  | none =>
    have changes := changes_perform order writer caused
    exact ⟨front, changes.informed order.informed, changes.dispatches order.dispatches⟩
  | some index =>
    have writes : Writes node index (node.perform operation) := writes_perform writer
    obtain ⟨clients, desk, sessions⟩ := writes.clients
    refine ⟨front, ?_, writes.dispatches order.dispatches⟩
    exact order.informed.of_same (keeps_of_clients clients) sessions (by simp [desk])
      (by simp [desk])

theorem inOrder_performAll (order : node.InOrder told) {operations : List Operation}
    (caused : told = true → ∀ operation ∈ operations, operation.givesCause = true) :
    (node.performAll operations).InOrder told := by
  induction operations generalizing node with
  | nil => exact order
  | cons operation rest ih =>
    refine ih (inOrder_perform order fun tells => caused tells operation List.mem_cons_self) ?_
    exact fun tells later member => caused tells later (List.mem_cons_of_mem _ member)

theorem keeps_perform (order : node.InOrder told) {operation : Operation}
    (caused : told = true → operation.givesCause = true) :
    node.Keeps (node.perform operation) := by
  cases writer : operation.writer? with
  | none => exact (changes_perform order writer caused).keeps
  | some index =>
    have writes : Writes node index _ := writes_perform writer
    exact keeps_of_clients writes.clients.1

/-- A node that has done nothing is in order. -/
theorem inOrder_start (told : Bool) (config : Config) (limits : OutputLimits)
    (identifiers : Nat → QueryId) : (start config limits identifiers).InOrder told where
  front := sound_front_performAll config limits identifiers []
  informed place session present := by
    cases present
  dispatches := by
    refine ⟨fun party => ?_, fun party index shared => ?_, fun place flight held => ?_,
      fun place _ party => rfl⟩
    · have targets : (start config limits identifiers).directory.targets = Party.all := rfl
      rw [targets]
      cases party <;> simp [Party.all]
    · cases party <;> cases shared
    · cases held

end Node

end JointQuery
