import JointQuery.Node.Sessions

/-! Requests of clients. A query that can be executed becomes a session: the client is told that it
is accepted, and then the senders and the reporter start. -/
namespace JointQuery

/-- The event that tells a client that its query is accepted. -/
def Session.acceptedEvent (session : Session) : ClientEvent :=
  .accepted session.id (UInt64.ofNat session.tupleCount)

namespace Node

/-- Notes how far a request has got. -/
def setRequest (node : Node) (index : Nat) (state : RequestState) : Node :=
  { node with
    requests := node.requests.modify index fun request => { request with state := state } }

/-- Goes on with the answer to a failed request. -/
def settleAnswer (node : Node) (index : Nat) (event : ClientEvent) (deadline : Nat)
    (outcome : Except QueryError QueryId) : Offer → Node
  | .waiting => node.setRequest index (.answering event deadline outcome)
  | .sent | .refused => node.setRequest index (.ended outcome)

/-- Tells the client why its request has failed, and ends it. -/
def answerFault (node : Node) (index client : Nat) (about : Option QueryId)
    (cause : QueryError) : Node :=
  let event := ClientEvent.ofError about cause
  let (offered, offer, deadline) := node.offer (.request index) client ⟨none, event⟩
  offered.settleAnswer index event deadline (.error cause) offer

/-- Ends a failed request for a session, and tells the client if it is to be told. -/
def failRequest (node : Node) (index client : Nat) (tellsFaults : Bool) (cause : QueryError) :
    Node :=
  if tellsFaults then node.answerFault index client none cause
  else node.setRequest index (.ended (.error cause))

/-- The end of `QueryDispatcher::dispatch`: starts the work for a session whose client knows that it
is accepted. -/
def launch (node : Node) (session : Nat) : Node :=
  let launched := node.modifyFlight session fun flight =>
    { flight with
      session := (flight.session.transition .created .dispatched).1
      fanOut := .starting
      reporter := .watching 0 node.now }
  launched.wakeAll [.fanOut session, .reporter session]

/-- The answer in `QueryDispatcher::dispatch`: goes on after the client was told that its query is
accepted, or could not be. -/
def settleAccepted (node : Node) (index client : Nat) (tellsFaults : Bool) (session : Nat)
    (id : QueryId) (deadline : Nat) : Offer → Node
  | .waiting => node.setRequest index (.accepting session deadline)
  | .sent => (node.launch session).setRequest index (.ended (.ok id))
  | .refused =>
    (node.terminate session .cancelled none).1.failRequest index client tellsFaults
      (.clientDisconnected id)

/-- Registers a session under an identifier that is not in flight. -/
def register (node : Node) (session : Session) : Node × Nat :=
  let place := node.flights.length
  ({ node with
      flights := node.flights ++ [.fresh session]
      registry := (node.registry.insert session.id place).1 }, place)

/-- The loop in `QueryDispatcher::dispatch`: draws an identifier for a query. If it is not in
flight, the query becomes a session; otherwise another one is drawn. -/
def drawSession (node : Node) (index client : Nat) (tellsFaults : Bool) (query : Query) : Node :=
  let id := node.identifiers node.drawn
  let drawn := { node with drawn := node.drawn + 1 }
  match Session.create id query client (node.clientRef client) node.wall with
  | .error cause => drawn.failRequest index client tellsFaults cause
  | .ok session =>
    if drawn.registry.contains id then
      (drawn.setRequest index (.drawing query)).wakeFirst (.request index)
    else
      let (registered, place) := drawn.register session
      let (offered, offer, deadline) :=
        registered.offer (.request index) client ⟨some place, session.acceptedEvent⟩
      offered.settleAccepted index client tellsFaults place id deadline offer

/-- Adds a request of a client. -/
def addRequest (node : Node) (client : Nat) (tellsFaults : Bool) (state : RequestState) :
    Node × Nat :=
  ({ node with requests := node.requests ++ [⟨client, tellsFaults, state⟩] },
    node.requests.length)

/-- `QueryDispatcher::dispatch`: begins a query of a client. One that cannot be executed fails
before anything else happens. -/
def beginQuery (node : Node) (client : Nat) (query : Query) (tellsFaults : Bool) : Node × Nat :=
  let (added, index) := node.addRequest client tellsFaults (.drawing query)
  match query.validate with
  | .error cause => (added.failRequest index client tellsFaults cause, index)
  | .ok () => (added.drawSession index client tellsFaults query, index)

/-- The check in `ClientStage::on_event`: whether an identifier stands for a query in flight of a
client. -/
def owns (node : Node) (clientRef : String) (id : QueryId) : Bool :=
  match node.find? id with
  | some (_, session) => session.clientRef == clientRef
  | none => false

/-- `ClientStage::on_event`: begins to cancel a query at the request of a client. Only queries of
the client itself can be cancelled; any other identifier is unknown to it. -/
def beginCancel (node : Node) (client : Nat) (id : QueryId) : Node × Nat :=
  let (added, index) := node.addRequest client true (.ended (.ok id))
  if added.owns (added.clientRef client) id then ((added.cancel id).1, index)
  else (added.answerFault index client (some id) (unknownQuery id), index)

/-- Begins to tell a client that its request cannot be read. -/
def beginComplaint (node : Node) (client : Nat) : Node × Nat :=
  let (added, index) := node.addRequest client true (.ended (.error .serialization))
  (added.answerFault index client none .serialization, index)

/-- Runs a request. -/
def pollRequest (node : Node) (index : Nat) : Node :=
  match node.requests[index]? with
  | none => node
  | some request =>
    match request.state with
    | .drawing query => node.drawSession index request.client request.tellsFaults query
    | .accepting place deadline =>
      match node.session? place with
      | none => node
      | some session =>
        let (offered, offer) := node.resumeOffer (.request index) request.client
          ⟨some place, session.acceptedEvent⟩ deadline
        offered.settleAccepted index request.client request.tellsFaults place session.id deadline
          offer
    | .answering event deadline outcome =>
      let (offered, offer) :=
        node.resumeOffer (.request index) request.client ⟨none, event⟩ deadline
      offered.settleAnswer index event deadline outcome offer
    | .ended _ => node

/-- What has come of a request, once it has ended. -/
def outcome? (node : Node) (index : Nat) : Option (Except QueryError QueryId) :=
  match node.requests[index]? with
  | some ⟨_, _, .ended outcome⟩ => some outcome
  | _ => none

end Node

end JointQuery
