import JointQuery.Proofs.Node.Runs

/-! What an operation involves: sessions, tasks and parties. A reach that admits it has room for all
of them, and then whatever the operation does is a series of edits within that reach. -/
namespace JointQuery

/-- The operations that may open a session. -/
def Operation.opens : Operation → Prop
  | .beginQuery _ _ _ => True
  | .run (.request _) => True
  | _ => False

/-- A task with the tasks for which it does something, as whoever waits for the senders of a session
does for all of them. -/
def TaskId.concerns : TaskId → Set TaskId
  | .fanOut place => {task | task = .fanOut place ∨ ∃ party, task = .sender place party}
  | task => {task}

theorem TaskId.mem_concerns (task : TaskId) : task ∈ task.concerns := by
  cases task with
  | fanOut => exact .inl rfl
  | _ => rfl

/-- The tasks that an operation concerns. -/
def Operation.concerns : Operation → Set TaskId
  | .run task => task.concerns
  | _ => ∅

namespace Node

/-- The sessions that an operation involves. -/
def involved (node : Node) : Operation → Set Nat
  | .receivePartial event => {place | ∃ session, node.find? event.queryId = some (place, session)}
  | .cancel id => {place | ∃ session, node.find? id = some (place, session)}
  | .beginCancel client id => {place | ∃ session, node.find? id = some (place, session) ∧
      session.clientRef = node.clientRef client}
  | .clientLeft ref => {place | place ∈ node.registered (·.clientRef == ref)}
  | .expire => {place | place ∈ node.overaged}
  | .run .sweeper => {place | ∃ due, node.sweepDue = some due ∧ due ≤ node.now ∧
      place ∈ node.overaged}
  | .run (.request index) => {place | node.Awaits index place}
  | .loseClient index | .terminate index _ _ | .run (.fanOut index) | .run (.sender index _)
  | .run (.reporter index) => {index}
  | _ => ∅

/-- The parties that an operation involves. -/
def partners (node : Node) : Operation → Set Party
  | .run (.sender index party) => {other | other = party ∨ ∃ flight backoff channel,
      node.flights[index]? = some flight ∧ flight.senders.get party = .parked backoff channel ∧
        node.LeadsTo channel other}
  | .run (.post index) => {party | ∃ post, node.posts[index]? = some post ∧
      node.LeadsTo post.channel party}
  | .run (.reservation index) | .releaseReservation index | .abandonReservation index =>
    {party | ∃ reservation, node.reservations[index]? = some reservation ∧
      reservation.party = party}
  | .run (.writer index) | .closeChannel index => {party | node.LeadsTo index party}
  | .acquire party | .invalidate party | .addReservation party _ | .refuse party | .accept party
  | .stall party | .resume party | .breakLinks party => {party}
  | .stopListening => Set.univ
  | _ => ∅

end Node

/-- There is room in a reach for what an operation involves. -/
structure Reach.Admits (reach : Reach) (node : Node) (operation : Operation) : Prop where
  shown : reach.shows
  opens : operation.opens → reach.opens ∧ node.flights.length ∈ reach.places
  places : node.involved operation ⊆ reach.places
  tasks : operation.concerns ⊆ reach.tasks
  parties : node.partners operation ⊆ reach.parties
  shares : reach.Shares node

namespace Node

variable {reach : Reach} {node : Node}

theorem edits_poll {task : TaskId} (admits : reach.Admits node (.run task)) :
    node.Edits reach (node.poll task) := by
  have shown := admits.shown
  cases task with
  | fanOut index =>
    exact edits_pollFanOut shown (admits.places rfl) (admits.tasks (.inl rfl)) fun party =>
      admits.tasks (.inr ⟨party, rfl⟩)
  | sender index party =>
    exact edits_pollSender ⟨admits.places rfl, admits.tasks rfl, admits.parties (.inl rfl)⟩
      admits.shares fun flight backoff channel held parked other leads =>
        admits.parties (.inr ⟨flight, backoff, channel, held, parked, leads⟩)
  | reporter index => exact edits_pollReporter shown (admits.places rfl)
  | writer index => exact edits_pollWriter fun _ leads => admits.parties leads
  | sweeper =>
    exact edits_pollSweeper shown fun due sweeps reached place member =>
      admits.places ⟨due, sweeps, reached, member⟩
  | post index =>
    exact edits_pollPost fun post held _ leads => admits.parties ⟨post, held, leads⟩
  | delivery index => exact edits_pollDelivery shown
  | reservation index =>
    exact edits_pollReservation fun reservation held => admits.parties ⟨reservation, held, rfl⟩
  | request index =>
    exact edits_pollRequest shown (admits.opens trivial).1 (admits.opens trivial).2
      fun _ awaits => admits.places awaits

/-- Whatever happens is within any reach that admits it, but for time that passes and for a task
that is taken to run it. -/
theorem edits_perform {operation : Operation} (admits : reach.Admits node operation)
    (idle : ∀ task, operation ≠ .run task) (stays : ∀ time, operation ≠ .moveTo time) :
    node.Edits reach (node.perform operation) := by
  have shown := admits.shown
  have linked {party : Party} (deals : party ∈ reach.parties) (f : Link → Link) :
      node.Edits reach (node.modifyLink party f) := .single (.linked deals f)
  cases operation with
  | run task => exact absurd rfl (idle task)
  | moveTo time => exact absurd rfl (stays time)
  | addClient => exact edits_addClient shown
  | beginQuery =>
    exact edits_beginQuery shown (admits.opens trivial).1 (admits.opens trivial).2
  | beginCancel client id =>
    exact edits_beginCancel shown fun place session sought owned =>
      admits.places ⟨session, sought, owned⟩
  | beginComplaint => exact edits_beginComplaint shown
  | readEvent => exact edits_readEvent shown
  | closeClient => exact edits_closeClient shown
  | markDisconnected => exact edits_markDisconnected shown
  | addDelivery => exact edits_addDelivery
  | receivePartial event =>
    exact edits_receivePartial shown fun place session sought => admits.places ⟨session, sought⟩
  | cancel id => exact edits_cancel shown fun place session sought => admits.places ⟨session, sought⟩
  | clientLeft ref => exact edits_clientLeft shown fun place member => admits.places member
  | loseClient place => exact edits_loseClient shown (admits.places rfl)
  | expire => exact edits_expire shown fun place member => admits.places member
  | terminate place ending cause =>
    exact edits_terminate shown (admits.places rfl) ending.isTerminal_state
  | startSweeper => exact .trans (.single (.noted ..)) edits_wake
  | setWall reading => exact .single (.noted ..)
  | acquire party => exact edits_acquire (admits.parties rfl)
  | closeChannel channel => exact edits_closeChannel fun _ leads => admits.parties leads
  | invalidate party => exact edits_invalidate (admits.parties rfl) admits.shares
  | addPost => exact edits_addPost
  | addReservation party length => exact edits_addReservation (admits.parties rfl)
  | releaseReservation index =>
    exact edits_releaseReservation fun reservation held => admits.parties ⟨reservation, held, rfl⟩
  | abandonReservation index =>
    exact edits_abandonReservation fun reservation held => admits.parties ⟨reservation, held, rfl⟩
  | refuse party | accept party | stall party | breakLinks party =>
    exact linked (admits.parties rfl) _
  | resume party => exact (linked (admits.parties rfl) _).trans edits_wakeAll
  | stopListening => exact .single (.silenced fun _ => admits.parties trivial)

end Node

end JointQuery
