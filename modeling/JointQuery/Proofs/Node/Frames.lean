import JointQuery.Node.Run
import JointQuery.Proofs.Node.Front

/-! The front of a node, and what does not touch it: what is to be done, what clients read, and what
they are told on behalf of no session. -/
namespace JointQuery

namespace ClientQueue

variable {τ ε : Type} (queue : ClientQueue τ ε)

theorem events_trySend (event : ε) : (queue.trySend event).1.events =
    if (queue.trySend event).2 then queue.events ++ [event] else queue.events := by
  simp only [trySend]
  split
  · rfl
  · split <;> rfl

private theorem events_offer (task : τ) (event : ε) : (queue.offer task event).1.events =
    if (queue.offer task event).2 = .sent then queue.events ++ [event] else queue.events := by
  simp only [offer]
  split
  · rfl
  · split
    · rfl
    · split
      · split <;> rfl
      · rfl

private theorem events_resume [BEq τ] (task : τ) (event : ε) (timeUp : Bool) :
    (queue.resume task event timeUp).1.events =
      if (queue.resume task event timeUp).2 = .sent then queue.events ++ [event]
      else queue.events := by
  simp only [resume]
  split
  · rfl
  · split
    · rfl
    · split <;> rfl

private theorem events_read : queue.read.1.events = queue.events := by
  simp only [read]
  split <;> rfl

end ClientQueue

/-- How far a reporter has got. -/
def Reporter.phase : Reporter → Phase
  | .unstarted => .idle
  | .watching next _ => .watching next
  | .sending next _ seen event _ => .sending next seen event
  | .over => .finished

/-- A request that waits for no session. -/
def RequestState.isApart : RequestState → Bool
  | .accepting _ _ => false
  | _ => true

/-- The client of a request that waits to say that the session at a place is accepted. -/
def Request.asks? (request : Request) (place : Nat) : Option Nat :=
  match request.state with
  | .accepting session _ => if session = place then some request.client else none
  | _ => none

private theorem Request.asks?_of_apart (request : Request) (apart : request.state.isApart = true)
    (place : Nat) : request.asks? place = none := by
  rw [asks?]
  cases state : request.state with
  | accepting session deadline => simp [RequestState.isApart, state] at apart
  | drawing | answering | ended => rfl

/-- The events on behalf of the session at a place. -/
def Notice.about (place : Nat) (notices : List Notice) : List ClientEvent :=
  (notices.filter (·.session = some place)).map (·.event)

/-- A client is told of what concerns a session at the desk of that session. -/
def Front.hear (front : Front) (client : Nat) : Notice → Front
  | ⟨none, _⟩ => front
  | ⟨some place, event⟩ => front.alter place (·.tell client event)

namespace Node

/-- The sessions of a node and its registry. -/
def ledger (node : Node) : Ledger := ⟨node.flights.map (·.session), node.registry⟩

/-- What a client was told on behalf of the session at a place, whether it has read it or not. -/
def told (node : Node) (place client : Nat) : List ClientEvent :=
  match node.clients[client]? with
  | some queue => Notice.about place queue.events
  | none => []

/-- The desk of the session at a place. -/
def desk (node : Node) (place : Nat) : Desk where
  phase := (node.flights[place]?).elim .idle (·.reporter.phase)
  asks request := (node.requests[request]?).bind (·.asks? place)
  told := node.told place

/-- The front of a node. -/
def front (node : Node) : Front := ⟨node.config.resultScale.toNat, node.ledger, node.desk⟩

variable (node : Node)

theorem session?_eq (index : Nat) : node.session? index = node.ledger.sessions[index]? := by
  simp [session?, ledger]

@[simp] theorem front_wake (task : TaskId) : (node.wake task).front = node.front := rfl

@[simp] theorem front_wakeFirst (task : TaskId) : (node.wakeFirst task).front = node.front := rfl

@[simp] theorem front_wakeAll (tasks : List TaskId) :
    (node.wakeAll tasks).front = node.front := rfl

@[simp] theorem front_cancelTimer (task : TaskId) (kind : TimerKind) :
    (node.cancelTimer task kind).front = node.front := rfl

/-! ## Flights -/

theorem session?_of_front {node : Node} {front : Front} (same : node.front = front) (index : Nat) :
    node.session? index = front.ledger.sessions[index]? :=
  (node.session?_eq index).trans (congrArg (·.ledger.sessions[index]?) same)

theorem session?_of_flight {node : Node} {index : Nat} {flight : Flight}
    (found : node.flights[index]? = some flight) : node.session? index = some flight.session := by
  simp [session?, found]

private theorem enter_phase_of_flight {index : Nat} {flight : Flight}
    (found : node.flights[index]? = some flight) :
    (node.desk index).enter flight.reporter.phase = node.desk index := by
  simp only [desk, found]
  rfl

/-- A change of a flight is, for the front, what it does to the session and to the reporter. -/
theorem front_modifyFlight {index : Nat} {flight : Flight}
    (found : node.flights[index]? = some flight) (f : Flight → Flight) :
    (node.modifyFlight index f).front =
      (node.front.record (node.ledger.put index (f flight).session)).alter index
        (·.enter (f flight).reporter.phase) := by
  have ledger : (node.modifyFlight index f).ledger = node.ledger.put index (f flight).session := by
    obtain ⟨inside, here⟩ := List.getElem?_eq_some_iff.mp found
    have sessions : (node.flights.modify index f).map (·.session) =
        (node.flights.map (·.session)).set index (f flight).session := by
      refine List.ext_getElem? fun place => ?_
      by_cases same : place = index
      · subst same
        simp [inside, here]
      · simp [Ne.symm same]
    rw [Node.ledger, modifyFlight, sessions]
    rfl
  have desks : (node.modifyFlight index f).desk =
      Function.update node.desk index ((node.desk index).enter (f flight).reporter.phase) := by
    funext place
    by_cases same : place = index
    · subst same
      rw [Function.update_self]
      simp only [desk, modifyFlight, List.getElem?_modify_eq, found]
      rfl
    · rw [Function.update_of_ne same]
      simp only [desk, modifyFlight, List.getElem?_modify, if_neg (Ne.symm same)]
      cases node.flights[place]? <;> rfl
  rw [front, ledger, desks]
  rfl

/-- A flight can be changed beside its session and its reporter. -/
theorem front_modifyFlight_of_kept (index : Nat) {f : Flight → Flight}
    (session : ∀ flight, node.flights[index]? = some flight → (f flight).session = flight.session)
    (reporter : ∀ flight, node.flights[index]? = some flight →
      (f flight).reporter = flight.reporter) : (node.modifyFlight index f).front = node.front := by
  cases found : node.flights[index]? with
  | none =>
    rw [modifyFlight, List.modify_eq_self (List.getElem?_eq_none_iff.mp found)]
  | some flight =>
    have present := session?_of_flight found
    rw [session?_eq] at present
    rw [front_modifyFlight node found, session flight found, reporter flight found,
      Ledger.put_self present]
    exact Front.alter_of_same (node.enter_phase_of_flight found)

@[simp] theorem front_setSender (index : Nat) (party : Party) (sender : Sender) :
    (node.setSender index party sender).front = node.front :=
  node.front_modifyFlight_of_kept index (fun _ _ => rfl) fun _ _ => rfl

@[simp] theorem front_setFanOut (index : Nat) (fanOut : FanOut) :
    (node.setFanOut index fanOut).front = node.front :=
  node.front_modifyFlight_of_kept index (fun _ _ => rfl) fun _ _ => rfl

theorem front_setSession {index : Nat} {before : Session}
    (present : node.session? index = some before) (session : Session) :
    (node.setSession index session).front = node.front.record (node.ledger.put index session) := by
  obtain ⟨flight, found, -⟩ := Option.map_eq_some_iff.mp present
  have kept := node.enter_phase_of_flight found
  rw [setSession, front_modifyFlight node found]
  exact Front.alter_of_same kept

theorem front_setReporter {index : Nat} {session : Session}
    (present : node.session? index = some session) (reporter : Reporter) :
    (node.setReporter index reporter).front = node.front.alter index (·.enter reporter.phase) := by
  obtain ⟨flight, found, rfl⟩ := Option.map_eq_some_iff.mp present
  rw [session?_eq] at present
  rw [setReporter, front_modifyFlight node found, Ledger.put_self present]
  rfl

/-! ## Clients -/

private theorem told_setClient {client : Nat} {queue : ClientQueue TaskId Notice}
    (found : node.clients[client]? = some queue) (next : ClientQueue TaskId Notice)
    (place other : Nat) : (node.setClient client next).told place other =
      if other = client then Notice.about place next.events else node.told place other := by
  obtain ⟨inside, -⟩ := List.getElem?_eq_some_iff.mp found
  by_cases same : other = client
  · subst same
    simp [told, setClient, inside]
  · simp [told, setClient, List.getElem?_set_ne (Ne.symm same), same]

/-- A queue can be changed beside its events. -/
theorem front_setClient_of_kept {client : Nat} {queue next : ClientQueue TaskId Notice}
    (found : node.clients[client]? = some queue) (kept : next.events = queue.events) :
    (node.setClient client next).front = node.front := by
  have told : (node.setClient client next).told = node.told := by
    funext place other
    rw [told_setClient node found, kept]
    split
    · rename_i same
      simp [Node.told, same, found]
    · rfl
  have desks : (node.setClient client next).desk = node.desk := by
    funext place
    rw [desk, told]
    rfl
  rw [front, desks]
  rfl

/-- An event that is queued is heard. -/
theorem front_setClient_of_pushed {client : Nat} {queue next : ClientQueue TaskId Notice}
    {notice : Notice} (found : node.clients[client]? = some queue)
    (pushed : next.events = queue.events ++ [notice]) :
    (node.setClient client next).front = node.front.hear client notice := by
  obtain ⟨session, event⟩ := notice
  have told (place : Nat) : (node.setClient client next).told place =
      if session = some place then
        Function.update (node.told place) client (node.told place client ++ [event])
      else node.told place := by
    funext other
    rw [told_setClient node found, pushed]
    by_cases same : other = client
    · subst same
      by_cases named : session = some place <;>
        simp [Notice.about, named, Node.told, found, List.filter_append]
    · by_cases named : session = some place <;> simp [same, named]
  cases session with
  | none =>
    have desks : (node.setClient client next).desk = node.desk := by
      funext place
      rw [desk, told, if_neg (by simp)]
      rfl
    rw [front, desks]
    rfl
  | some named =>
    have desks : (node.setClient client next).desk =
        Function.update node.desk named ((node.desk named).tell client event) := by
      funext place
      by_cases same : place = named
      · subst same
        rw [Function.update_self, desk, told, if_pos rfl]
        rfl
      · rw [Function.update_of_ne same, desk, told, if_neg (by simpa using Ne.symm same)]
        rfl
    rw [front, desks]
    rfl

@[simp] theorem front_markDisconnected (client : Nat) :
    (node.markDisconnected client).front = node.front := by
  simp only [markDisconnected]
  split
  · rename_i queue found
    exact node.front_setClient_of_kept found rfl
  · rfl

/-- An event is heard if it is queued. -/
theorem front_setClient_of_events {client : Nat} {queue next : ClientQueue TaskId Notice}
    {notice : Notice} {sent : Prop} [Decidable sent] (found : node.clients[client]? = some queue)
    (events : next.events = if sent then queue.events ++ [notice] else queue.events) :
    (node.setClient client next).front =
      if sent then node.front.hear client notice else node.front := by
  split
  · rename_i queued
    rw [if_pos queued] at events
    exact node.front_setClient_of_pushed found events
  · rename_i unqueued
    rw [if_neg unqueued] at events
    exact node.front_setClient_of_kept found events

theorem front_trySend (client : Nat) (notice : Notice) :
    (node.trySend client notice).1.front =
      if (node.trySend client notice).2 then node.front.hear client notice else node.front := by
  cases found : node.clients[client]? with
  | none => simp [trySend, found]
  | some queue =>
    simp only [trySend, found]
    exact node.front_setClient_of_events found (queue.events_trySend notice)

theorem front_offer (task : TaskId) (client : Nat) (notice : Notice) :
    (node.offer task client notice).1.front =
      if (node.offer task client notice).2.1 = .sent then node.front.hear client notice
      else node.front := by
  cases found : node.clients[client]? with
  | none => simp [offer, found]
  | some queue =>
    have told := node.front_setClient_of_events found (queue.events_offer task notice)
    simp only [offer, found]
    refine Eq.trans ?_ told
    split <;> rfl

theorem front_resumeOffer (task : TaskId) (client : Nat) (notice : Notice) (deadline : Nat) :
    (node.resumeOffer task client notice deadline).1.front =
      if (node.resumeOffer task client notice deadline).2 = .sent then
        node.front.hear client notice
      else node.front := by
  cases found : node.clients[client]? with
  | none => simp [resumeOffer, found]
  | some queue =>
    have told := node.front_setClient_of_events found
      (queue.events_resume task notice (deadline ≤ node.now))
    simp only [resumeOffer, found]
    refine Eq.trans ?_ told
    split <;> rfl

theorem requests_offer (task : TaskId) (client : Nat) (notice : Notice) :
    (node.offer task client notice).1.requests = node.requests := by
  simp only [offer]
  split
  · rfl
  · dsimp only
    split <;> rfl

theorem requests_resumeOffer (task : TaskId) (client : Nat) (notice : Notice) (deadline : Nat) :
    (node.resumeOffer task client notice deadline).1.requests = node.requests := by
  simp only [resumeOffer]
  split
  · rfl
  · dsimp only
    split <;> rfl

/-- What is queued on behalf of no session is not heard. -/
@[simp] theorem front_offer_none (task : TaskId) (client : Nat) (event : ClientEvent) :
    (node.offer task client ⟨none, event⟩).1.front = node.front := by
  rw [front_offer]
  split <;> rfl

@[simp] theorem front_resumeOffer_none (task : TaskId) (client : Nat) (event : ClientEvent)
    (deadline : Nat) :
    (node.resumeOffer task client ⟨none, event⟩ deadline).1.front = node.front := by
  rw [front_resumeOffer]
  split <;> rfl

@[simp] theorem front_readEvent (client : Nat) :
    (node.readEvent client).1.front = node.front := by
  simp only [readEvent]
  split
  · rfl
  · rename_i queue found
    rw [front_wakeAll]
    exact node.front_setClient_of_kept found queue.events_read

@[simp] theorem front_closeClient (client : Nat) :
    (node.closeClient client).front = node.front := by
  simp only [closeClient]
  split
  · rfl
  · rename_i queue found
    exact node.front_setClient_of_kept found rfl

@[simp] theorem front_settleDelivery (index : Nat) (delivery : Delivery) (offer : Offer)
    (deadline : Nat) :
    (node.settleDelivery index delivery offer deadline).front = node.front := by
  cases offer <;> rfl

@[simp] theorem front_pollDelivery (index : Nat) :
    (node.pollDelivery index).front = node.front := by
  simp only [pollDelivery]
  split
  · rfl
  · split <;> simp

/-! ## Reporters -/

variable {node} {place : Nat} {session : Session}

theorem front_watch (present : node.session? place = some session) (next tick : Nat) :
    (node.watch place next tick).front = node.front.alter place (·.enter (.watching next)) := by
  have entered := node.front_setReporter present (.watching next tick)
  simp only [watch]
  split
  · exact entered
  · exact entered

theorem front_endReporter (present : node.session? place = some session) :
    (node.endReporter place).front = node.front.alter place (·.enter .finished) :=
  node.front_setReporter present .over

theorem front_endPass (present : node.session? place = some session) (next tick : Nat)
    (seen : SessionState) : (node.endPass place next tick seen).front =
      node.front.alter place (·.enter (.afterPass next seen)) := by
  simp only [endPass, Phase.afterPass]
  split
  · exact front_endReporter present
  · exact front_watch present next tick

/-! ## Requests -/

variable {index : Nat} {request : Request}

theorem front_setRequest (found : node.requests[index]? = some request) (state : RequestState) :
    (node.setRequest index state).front =
      node.front.file index ({ request with state := state } : Request).asks? := by
  have desks : (node.setRequest index state).desk =
      (node.front.file index ({ request with state := state } : Request).asks?).desks := by
    funext place
    simp only [desk, setRequest, Front.file, front, Desk.mk.injEq]
    refine ⟨trivial, ?_, rfl⟩
    funext other
    by_cases same : other = index
    · subst same
      simp [found]
    · simp [Ne.symm same, same]
  rw [front, desks]
  rfl

theorem asks_of_apart (found : node.requests[index]? = some request)
    (apart : request.state.isApart = true) (place : Nat) :
    (node.front.desks place).asks index = none := by
  simp only [front, desk, found, Option.bind_some]
  exact request.asks?_of_apart apart place

/-- A request that waits for no session is at no desk. -/
theorem front_setRequest_of_apart (node : Node) (index : Nat) {state : RequestState}
    (apart : state.isApart = true) :
    (node.setRequest index state).front = node.front.withdraw index := by
  cases found : node.requests[index]? with
  | none =>
    rw [setRequest, List.modify_eq_self (List.getElem?_eq_none_iff.mp found)]
    refine (Front.withdraw_of_silent fun place => ?_).symm
    simp [front, desk, found]
  | some request =>
    have nowhere := ({ request with state := state } : Request).asks?_of_apart apart
    rw [front_setRequest found, funext nowhere]
    rfl

theorem front_settleAnswer (node : Node) (index : Nat) (event : ClientEvent) (deadline : Nat)
    (outcome : Except QueryError QueryId) (offer : Offer) :
    (node.settleAnswer index event deadline outcome offer).front = node.front.withdraw index := by
  cases offer <;> exact node.front_setRequest_of_apart index rfl

theorem front_answerFault (node : Node) (index client : Nat) (about : Option QueryId)
    (cause : QueryError) :
    (node.answerFault index client about cause).front = node.front.withdraw index := by
  simp [answerFault, front_settleAnswer]

theorem front_failRequest (node : Node) (index client : Nat) (tellsFaults : Bool)
    (cause : QueryError) :
    (node.failRequest index client tellsFaults cause).front = node.front.withdraw index := by
  simp only [failRequest]
  split
  · exact node.front_answerFault index client none cause
  · exact node.front_setRequest_of_apart index rfl

/-- A request that waits for no session can be added. -/
theorem front_addRequest (node : Node) (client : Nat) (tellsFaults : Bool) {state : RequestState}
    (apart : state.isApart = true) :
    (node.addRequest client tellsFaults state).1.front = node.front := by
  have desks : (node.addRequest client tellsFaults state).1.desk = node.desk := by
    funext place
    simp only [desk, addRequest, Desk.mk.injEq]
    refine ⟨trivial, funext fun index => ?_, rfl⟩
    by_cases last : index = node.requests.length
    · rw [last, List.getElem?_concat_length, List.getElem?_eq_none_iff.mpr (Nat.le_refl _)]
      exact Request.asks?_of_apart _ apart place
    · rw [getElem?_concat_of_ne last]
  rw [front, desks]
  rfl

@[simp] theorem front_markClientGone (node : Node) (index : Nat) :
    (node.markClientGone index).front = node.front := by
  simp only [markClientGone]
  split <;> simp

theorem front_register (node : Node) (session : Session) :
    (node.register session).1.front = node.front.record (node.ledger.enter session) := by
  have ledger : (node.register session).1.ledger = node.ledger.enter session := by
    simp [register, Node.ledger, Ledger.enter, Flight.fresh]
  have desks : (node.register session).1.desk = node.desk := by
    funext place
    simp only [desk, register, Desk.mk.injEq]
    refine ⟨?_, trivial, rfl⟩
    by_cases last : place = node.flights.length
    · rw [last, List.getElem?_concat_length, List.getElem?_eq_none_iff.mpr (Nat.le_refl _)]
      rfl
    · rw [getElem?_concat_of_ne last]
  rw [front, ledger, desks]
  rfl

theorem find?_eq_some_iff {node : Node} {id : QueryId} {index : Nat} {session : Session} :
    node.find? id = some (index, session) ↔
      node.ledger.registry.get? id = some index ∧ node.ledger.sessions[index]? = some session := by
  simp only [find?, session?_eq, bind, Option.bind_eq_some_iff, pure, Option.some.injEq,
    Prod.mk.injEq]
  constructor
  · rintro ⟨place, held, found, present, rfl, rfl⟩
    exact ⟨held, present⟩
  · rintro ⟨held, present⟩
    exact ⟨index, held, session, present, rfl, rfl⟩

end Node

end JointQuery
