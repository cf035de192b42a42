import JointQuery.Proofs.Node.Departure
import JointQuery.Proofs.Query.Executable
import Mathlib.Data.Nat.Find

/-! Which queries are accepted, and what is left of those that are not. A query that cannot be
executed leaves a note of the request and nothing else. One that can be becomes a session; if its
client cannot be told of that, the session ends before anybody works for it, and the registry is as
it was. -/
namespace JointQuery

private theorem Registry.remove_insert {α : Type} {registry : Registry α} {id : QueryId} {entry : α}
    (unknown : registry.contains id = false) :
    ((registry.insert id entry).1.remove id).entries = registry.entries := by
  have absent : id ∉ registry.ids := fun present => by
    simp [Registry.contains_iff.mpr present] at unknown
  have kept : registry.entries.filter (·.1 != id) = registry.entries := by
    refine List.filter_eq_self.mpr fun other member => ?_
    rw [bne_iff_ne]
    rintro rfl
    exact absent (List.mem_map_of_mem member)
  rw [Registry.remove, Registry.insert_eq unknown, List.filter_append, kept]
  simp

namespace Node

variable {node after : Node} {client index place draws : Nat} {query : Query} {session : Session}
  {queue : ClientQueue TaskId Notice} {request : Request} {cause : QueryError}

/-! ## Drawing identifiers -/

/-- A query of a client is dispatched, with so many more draws of an identifier than one. The client
is not told by this if it fails. -/
def dispatch (node : Node) (client : Nat) (query : Query) (draws : Nat) : Node :=
  (node.beginQuery client query false).1.performAll
    (List.replicate draws (.run (.request node.requests.length)))

/-- The identifier that is drawn after so many others. -/
def upcoming (node : Node) (draws : Nat) : QueryId := node.identifiers (node.drawn + draws)

/-- So many identifiers that are drawn next are in flight, and the one after them is not. -/
structure Frees (node : Node) (draws : Nat) : Prop where
  busy : ∀ k < draws, node.registry.contains (node.upcoming k) = true
  free : node.registry.contains (node.upcoming draws) = false

/-- A request that draws goes on drawing. -/
theorem redrawn_eq (asked : node.requests[index]? = some request)
    (drawing : request.state = .drawing query) : ∃ agenda, node.redrawn index query =
      { node with drawn := node.drawn + 1, agenda := agenda } := by
  have same : node.requests.modify index (fun request => { request with state := .drawing query }) =
      node.requests := by
    refine List.ext_getElem? fun other => ?_
    rw [List.getElem?_modify]
    split
    · rename_i here
      subst here
      obtain ⟨asker, tellsFaults, state⟩ := request
      subst drawing
      simp [asked]
    · simp
  refine ⟨(node.redrawn index query).agenda, ?_⟩
  unfold redrawn setRequest wakeFirst
  dsimp only
  rw [same]

/-- Identifiers in flight that are drawn first make no difference. -/
theorem drawSession_replicate {domain : Domain} (asked : node.requests[index]? = some request)
    (drawing : request.state = .drawing query) (fits : Domain.ofQuery query = .ok domain)
    (frees : node.Frees draws) : ∃ agenda,
      (node.drawSession index request.client request.tellsFaults query).performAll
          (List.replicate draws (.run (.request index))) =
        Node.drawSession { node with drawn := node.drawn + draws, agenda := agenda } index
          request.client request.tellsFaults query := by
  induction draws generalizing node with
  | zero => exact ⟨node.agenda, rfl⟩
  | succ draws ih =>
    obtain ⟨session, created⟩ : ∃ session, Session.create (node.identifiers node.drawn) query
        request.client (node.clientRef request.client) node.wall = .ok session := by
      simp only [Session.create, fits]
      exact ⟨_, rfl⟩
    have again := runTask_drawSession asked created (frees.busy 0 (Nat.zero_lt_succ draws))
    obtain ⟨agenda, redrawn⟩ := redrawn_eq asked drawing
    have shifted (k : Nat) : node.drawn + 1 + k = node.drawn + (k + 1) := by omega
    have later : Frees { node with drawn := node.drawn + 1, agenda := agenda } draws := by
      refine ⟨fun k inside => ?_, ?_⟩
      · simp only [upcoming, shifted]
        exact frees.busy (k + 1) (Nat.succ_lt_succ inside)
      · simp only [upcoming, shifted]
        exact frees.free
    obtain ⟨last, others⟩ := @ih { node with drawn := node.drawn + 1, agenda := agenda } asked later
    refine ⟨last, ?_⟩
    rw [List.replicate_succ, performAll_cons, perform, again, redrawn, others, shifted]

/-- The node in which a client has asked for a query, and so many identifiers were drawn. -/
def asking (node : Node) (client : Nat) (query : Query) (draws : Nat) (agenda : Agenda) : Node :=
  { (node.addRequest client false (.drawing query)).1 with
    drawn := node.drawn + draws
    agenda := agenda }

private theorem dispatch_eq (executable : query.Executable) (frees : node.Frees draws)
    (client : Nat) :
    ∃ agenda, node.dispatch client query draws = (node.asking client query draws agenda).drawSession
      node.requests.length client false query := by
  obtain ⟨valid, domain, fits⟩ := Query.fault?_eq_none_iff.mp (Query.executable_iff.mp executable)
  have asked : (node.addRequest client false (.drawing query)).1.requests[node.requests.length]? =
      some ⟨client, false, .drawing query⟩ := List.getElem?_concat_length ..
  have freed : (node.addRequest client false (.drawing query)).1.Frees draws :=
    ⟨frees.busy, frees.free⟩
  obtain ⟨agenda, drawn⟩ := drawSession_replicate asked rfl fits freed
  refine ⟨agenda, ?_⟩
  rw [dispatch, beginQuery, valid]
  exact drawn

/-! ## Queries that cannot be executed -/

/-- Once a request has ended, its task does nothing. -/
theorem performAll_ended {outcome : Except QueryError QueryId}
    (asked : node.requests[index]? = some request) (ended : request.state = .ended outcome)
    (draws : Nat) : ∃ agenda, node.performAll (List.replicate draws (.run (.request index))) =
      { node with agenda := agenda } := by
  induction draws generalizing node with
  | zero => exact ⟨node.agenda, rfl⟩
  | succ draws ih =>
    have idle : node.runTask (.request index) = { node with agenda := { node.agenda with
        ready := node.agenda.ready.erase (.request index) } } := by
      simp only [runTask, poll, pollRequest, asked, ended]
    obtain ⟨agenda, later⟩ := @ih { node with agenda := { node.agenda with
      ready := node.agenda.ready.erase (.request index) } } asked
    refine ⟨agenda, ?_⟩
    rw [List.replicate_succ, performAll_cons, perform, idle, later]

/-- A query that cannot be executed leaves nothing but the note that its request has failed. -/
theorem dispatch_of_fault (wrong : query.fault? = some cause) (node : Node) (client draws : Nat) :
    ∃ agenda drawn, node.dispatch client query draws = { node with
      agenda := agenda
      drawn := drawn
      requests := node.requests ++ [⟨client, false, .ended (.error cause)⟩] } := by
  obtain ⟨drawn, begins⟩ : ∃ drawn, (node.beginQuery client query false).1 = { node with
      drawn := drawn
      requests := node.requests ++ [⟨client, false, .ended (.error cause)⟩] } := by
    have settled (drawn : Nat) : (Node.setRequest { (node.addRequest client false
        (.drawing query)).1 with drawn := drawn } node.requests.length (.ended (.error cause))) =
        { node with
          drawn := drawn
          requests := node.requests ++ [⟨client, false, .ended (.error cause)⟩] } := by
      simp [setRequest, addRequest, List.modify_eq_set_getElem?]
    unfold Query.fault? at wrong
    unfold beginQuery
    cases valid : query.validate with
    | error fault =>
      obtain rfl : fault = cause := by simpa [valid] using wrong
      exact ⟨node.drawn, settled node.drawn⟩
    | ok =>
      cases fits : Domain.ofQuery query with
      | ok domain => simp [valid, fits] at wrong
      | error fault =>
        obtain rfl : fault = cause := by simpa [valid, fits] using wrong
        refine ⟨node.drawn + 1, ?_⟩
        simp only [drawSession, Session.create, fits]
        exact settled (node.drawn + 1)
  have asked : (node.beginQuery client query false).1.requests[node.requests.length]? =
      some ⟨client, false, .ended (.error cause)⟩ := by
    rw [begins]
    exact List.getElem?_concat_length ..
  obtain ⟨agenda, ends⟩ := performAll_ended asked rfl draws
  refine ⟨agenda, drawn, ?_⟩
  rw [dispatch, ends, begins]

/-! ## Queries that can be executed -/

/-- The session that a query of a client becomes. -/
theorem exists_created (executable : query.Executable) (id : QueryId) (client : Nat) (ref : String)
    (now : Int64) : ∃ session, Session.create id query client ref now = .ok session ∧
      session.id = id ∧ session.query = query ∧ session.client = client ∧
      session.state = .created ∧ session.tupleCount = query.cardinalities.prod := by
  obtain ⟨-, domain, fits⟩ := Query.fault?_eq_none_iff.mp (Query.executable_iff.mp executable)
  simp only [Session.create, fits]
  exact ⟨_, rfl, rfl, rfl, rfl, rfl, by
    simp [Session.tupleCount, Domain.count_eq_prod fits]⟩

/-- The session of a query is offered to the client. -/
theorem dispatch_offers (executable : query.Executable) (frees : node.Frees draws) (client : Nat) :
    ∃ session agenda offered fate deadline,
      session.id = node.upcoming draws ∧ session.query = query ∧ session.client = client ∧
      session.state = .created ∧ session.tupleCount = query.cardinalities.prod ∧
      ((node.asking client query draws agenda).opened session).offer (.request node.requests.length)
        client ⟨some node.flights.length, session.acceptedEvent⟩ = (offered, fate, deadline) ∧
      node.dispatch client query draws = offered.settleAccepted node.requests.length client false
        node.flights.length (node.upcoming draws) deadline fate := by
  obtain ⟨agenda, asks⟩ := dispatch_eq executable frees client
  obtain ⟨session, created, id, same, owner, fresh, count⟩ := exists_created executable
    (node.upcoming draws) client ((node.asking client query draws agenda).clientRef client) node.wall
  have free : (node.asking client query draws agenda).registry.contains
      ((node.asking client query draws agenda).identifiers
        (node.asking client query draws agenda).drawn) = false := frees.free
  obtain ⟨offered, fate, deadline, offers, becomes⟩ :=
    drawSession_of_new node.requests.length false created free
  exact ⟨session, agenda, offered, fate, deadline, id, same, owner, fresh, count, offers,
    asks.trans becomes⟩

/-- The client has been told that its query is accepted, and the work for the session begins. -/
structure Accepts (node : Node) (client : Nat) (query : Query) (id : QueryId) (after : Node) :
    Prop where
  outcome : after.outcome? node.requests.length = some (.ok id)
  unknown : node.registry.contains id = false
  registry : after.registry.entries = node.registry.entries ++ [(id, node.flights.length)]
  length : after.flights.length = node.flights.length + 1
  others : ∀ place, place < node.flights.length → after.flights[place]? = node.flights[place]?
  session : ∃ session, after.session? node.flights.length = some session ∧ session.id = id ∧
    session.query = query ∧ session.client = client ∧ session.state = .dispatched
  told : ∃ queue count, node.clients[client]? = some queue ∧
    count.toNat = query.cardinalities.prod ∧ after.clients =
      node.clients.set client (queue.push ⟨some node.flights.length, .accepted id count⟩)

private theorem offer_of_room (held : node.clients[client]? = some queue)
    (connected : queue.isConnected = true) (room : queue.room ≠ 0) (task : TaskId)
    (notice : Notice) : node.offer task client notice =
      (node.setClient client (queue.push notice), .sent, node.now + queue.patience) := by
  simp only [ClientQueue.isConnected, Bool.and_eq_true, Bool.not_eq_true'] at connected
  have offers : queue.offer task notice = (queue.push notice, .sent) := by
    simp [ClientQueue.offer, connected, room]
  simp only [offer, held, offers]
  rfl

/-- A query that can be executed is accepted if its client can be told at once. -/
theorem accepts_dispatch (executable : query.Executable) (frees : node.Frees draws)
    (held : node.clients[client]? = some queue) (connected : queue.isConnected = true)
    (room : queue.room ≠ 0) :
    node.Accepts client query (node.upcoming draws) (node.dispatch client query draws) := by
  obtain ⟨session, agenda, offered, fate, deadline, id, same, owner, fresh, count, offers, ends⟩ :=
    dispatch_offers executable frees client
  have known : ((node.asking client query draws agenda).opened session).clients[client]? =
    some queue := held
  rw [offer_of_room known connected room] at offers
  obtain ⟨rfl, rfl, -⟩ : _ = offered ∧ _ = fate ∧ _ = deadline := by simpa using offers
  have bounded : query.cardinalities.prod < UInt64.size :=
    Nat.lt_of_le_of_lt executable.bounded (by decide)
  rw [ends]
  have flights : (settleAccepted (((node.asking client query draws agenda).opened
      session).setClient client (queue.push ⟨some node.flights.length, session.acceptedEvent⟩))
      node.requests.length client false node.flights.length (node.upcoming draws)
      deadline .sent).flights =
      (node.flights ++ [Flight.fresh session]).modify node.flights.length fun flight =>
        { flight with
          session := (flight.session.transition .created .dispatched).1
          fanOut := .starting
          reporter := .watching 0 agenda.now } := rfl
  have asked : (node.requests ++ [⟨client, false, .drawing query⟩])[node.requests.length]? =
      some ⟨client, false, .drawing query⟩ := List.getElem?_concat_length ..
  refine ⟨?_, frees.free, ?_, ?_, fun place inside => ?_, ?_, ?_⟩
  · exact outcome?_setRequest asked _
  · rw [← id]
    exact Registry.insert_eq (id ▸ frees.free)
  · simp [flights]
  · rw [flights, List.getElem?_modify_ne _ _ (Nat.ne_of_gt inside),
      List.getElem?_append_left inside]
  · refine ⟨(session.transition .created .dispatched).1, ?_, ?_, ?_, ?_, ?_⟩
    · simp [session?, flights, Flight.fresh]
    all_goals simp [Session.transition, fresh, id, same, owner]
  · refine ⟨queue, UInt64.ofNat query.cardinalities.prod, held, ?_, ?_⟩
    · exact UInt64.toNat_ofNat_of_lt bounded
    · simp only [← count, ← id]
      rfl

/-! ## Clients that cannot be told -/

/-- Once nobody pursues an ended session, nothing is ever done for it. -/
theorem forsaken_performAll (order : node.InOrder false) (forsaken : node.Forsaken place)
    (operations : List Operation) : (node.performAll operations).InOrder false ∧
      (node.performAll operations).Forsaken place := by
  induction operations generalizing node with
  | nil => exact ⟨order, forsaken⟩
  | cons operation rest ih =>
    exact ih (inOrder_perform order (by simp)) (forsaken_perform order forsaken operation)

/-- Nothing was ever done for the session at a place toward any party, and nothing will be. -/
def Abandoned (node : Node) (place : Nat) : Prop :=
  node.Ended place ∧ ∀ later flight, (node.performAll later).flights[place]? = some flight →
    ∀ party, flight.senders.get party = .unstarted ∧
      (node.performAll later).starts place party = []

private theorem Forsaken.abandoned (forsaken : node.Forsaken place) (order : node.InOrder false) :
    node.Abandoned place := by
  refine ⟨forsaken.ended, fun later flight held => ?_⟩
  obtain ⟨ordered, still⟩ := forsaken_performAll order forsaken later
  exact still.unsent ordered.dispatches held

/-- Nothing can be queued for a client, now or later. -/
def Unreachable (node : Node) (client : Nat) : Prop :=
  ∀ queue, node.clients[client]? = some queue →
    queue.isConnected = false ∨ queue.room = 0 ∧ queue.patience = 0

private theorem offer_of_unreachable (unreachable : node.Unreachable client) (task : TaskId)
    (notice : Notice) : (node.offer task client notice).2.1 = .refused := by
  cases held : node.clients[client]? with
  | none => simp [offer, held]
  | some queue =>
    rcases unreachable queue held with unconnected | ⟨full, hasty⟩
    · exact offer_of_unconnected (by simpa [Node.isConnected, held] using unconnected) task notice
    · simp only [offer, held, ClientQueue.offer, full, hasty]
      split
      · rfl
      · split <;> rfl

/-- Dispatching a query is no business of any party. -/
theorem uncontacted_dispatch (executable : query.Executable) (frees : node.Frees draws)
    (client : Nat) : node.Uncontacted (node.dispatch client query draws) := by
  obtain ⟨agenda, asks⟩ := dispatch_eq executable frees client
  rw [asks]
  have asked : node.Uncontacted (node.asking client query draws agenda) :=
    fun party => ⟨rfl, fun _ => rfl⟩
  exact asked.trans (uncontacted_drawSession _ node.requests.length client false query)

/-- The query has failed since its client cannot be told. -/
structure Drops (node : Node) (id : QueryId) (after : Node) : Prop where
  outcome : after.outcome? node.requests.length = some (.error (.clientDisconnected id))
  registry : after.registry.entries = node.registry.entries
  others : ∀ place, place < node.flights.length → after.flights[place]? = node.flights[place]?
  uncontacted : node.Uncontacted after
  abandoned : after.Abandoned node.flights.length

private theorem front_asking (node : Node) (client : Nat) (query : Query) (draws : Nat)
    (agenda : Agenda) : (node.asking client query draws agenda).front = node.front := by
  have apart : (RequestState.drawing query).isApart = true := rfl
  exact node.front_addRequest client false apart

/-- A session whose client refuses it leaves the registry as it was. -/
theorem registry_of_refused {offered : Node} {deadline : Nat} (live : session.isTerminal = false)
    (unknown : node.registry.contains session.id = false)
    (offers : (node.opened session).offer (.request index) client
      ⟨some node.flights.length, session.acceptedEvent⟩ = (offered, .refused, deadline))
    (tellsFaults : Bool) (id : QueryId) :
    (offered.settleAccepted index client tellsFaults node.flights.length id deadline
      .refused).registry.entries = node.registry.entries := by
  obtain ⟨heard, present⟩ := front_of_refused offers
  obtain ⟨-, finished⟩ := finish_of_live present live .cancelled
  have front := offered.front_settleAccepted_refused index client tellsFaults node.flights.length id
    deadline
  rw [finished, show offered.ledger = node.ledger.enter session from congrArg Front.ledger heard]
    at front
  have removed : (offered.settleAccepted index client tellsFaults node.flights.length id deadline
      .refused).registry = ((node.registry.insert session.id
        (node.flights.map (·.session)).length).1.remove session.id) :=
    congrArg (·.ledger.registry) front
  rw [removed]
  exact Registry.remove_insert unknown

private theorem outcome?_of_refused {offered : Node} {deadline : Nat}
    (offers : (node.opened session).offer (.request index) client
      ⟨some node.flights.length, session.acceptedEvent⟩ = (offered, .refused, deadline))
    (asked : node.requests[index]? = some request) (id : QueryId) :
    (offered.settleAccepted index client false node.flights.length id deadline .refused).outcome?
      index = some (.error (.clientDisconnected id)) := by
  have requests := (node.opened session).requests_offer (.request index) client
    ⟨some node.flights.length, session.acceptedEvent⟩
  rw [offers] at requests
  have still : (offered.finish node.flights.length .cancelled).1.requests[index]? =
      some request := by
    rw [requests_finish, requests]
    exact asked
  rw [settleAccepted, terminate_none]
  exact outcome?_setRequest still _

private theorem drops_dispatch (order : node.InOrder false) (settled : (node.dispatch client query
      draws).InOrder false) (executable : query.Executable) (frees : node.Frees draws)
    (unreachable : node.Unreachable client) :
    node.Drops (node.upcoming draws) (node.dispatch client query draws) := by
  obtain ⟨session, agenda, offered, fate, deadline, id, -, -, fresh, -, offers, ends⟩ :=
    dispatch_offers executable frees client
  have live : session.isTerminal = false := by
    rw [Session.isTerminal, fresh]
    rfl
  have refused : fate = .refused := by
    have unreached : ((node.asking client query draws agenda).opened session).Unreachable client :=
      unreachable
    have refuses := offer_of_unreachable unreached (.request node.requests.length)
      ⟨some node.flights.length, session.acceptedEvent⟩
    rwa [offers] at refuses
  subst refused
  have begins : (node.asking client query draws agenda).front.Sound :=
    node.front_asking client query draws agenda ▸ order.front
  have unknown : (node.asking client query draws agenda).registry.contains session.id = false :=
    id ▸ frees.free
  have asked : (node.asking client query draws agenda).requests[node.requests.length]? =
      some ⟨client, false, .drawing query⟩ := List.getElem?_concat_length ..
  have offering : ((node.asking client query draws agenda).opened session).Confined
      {node.flights.length} False (((node.asking client query draws agenda).opened session).offer
        (.request node.requests.length) client
        ⟨some node.flights.length, session.acceptedEvent⟩).1 :=
    confined_of_edits (edits_offer trivial)
  rw [offers] at offering
  rw [ends] at settled ⊢
  refine ⟨outcome?_of_refused offers asked _, registry_of_refused live unknown offers .., ?_,
    ends ▸ uncontacted_dispatch executable frees client,
    (forsaken_of_refused begins offers ..).abandoned settled⟩
  intro place inside
  have settling : offered.Confined {node.flights.length} False
      (offered.settleAccepted node.requests.length client false node.flights.length
        (node.upcoming draws) deadline .refused) :=
    confined_of_edits (edits_settleAccepted trivial rfl)
  rw [(offering.trans settling).flights place (Nat.ne_of_lt inside)]
  exact List.getElem?_append_left inside

/-! ## Clients that keep a query waiting -/

/-- The query has become a session, and its request waits for room to say so. -/
structure Suspends (node : Node) (id : QueryId) (after : Node) : Prop where
  awaits : after.Awaits node.requests.length node.flights.length
  registry : after.registry.entries = node.registry.entries ++ [(id, node.flights.length)]
  others : ∀ place, place < node.flights.length → after.flights[place]? = node.flights[place]?
  uncontacted : node.Uncontacted after

private theorem suspends_dispatch (executable : query.Executable) (frees : node.Frees draws)
    (held : node.clients[client]? = some queue) (connected : queue.isConnected = true)
    (full : queue.room = 0) (patient : queue.patience ≠ 0) :
    node.Suspends (node.upcoming draws) (node.dispatch client query draws) := by
  obtain ⟨session, agenda, offered, fate, deadline, id, -, -, -, -, offers, ends⟩ :=
    dispatch_offers executable frees client
  simp only [ClientQueue.isConnected, Bool.and_eq_true, Bool.not_eq_true'] at connected
  have waits : queue.offer (.request node.requests.length)
      ⟨some node.flights.length, session.acceptedEvent⟩ =
      ({ queue with line := queue.line ++ [⟨.request node.requests.length, false⟩] }, .waiting) := by
    simp [ClientQueue.offer, connected, full, patient]
  have known : ((node.asking client query draws agenda).opened session).clients[client]? =
    some queue := held
  simp only [offer, known, waits, if_true, Prod.mk.injEq] at offers
  obtain ⟨rfl, rfl, -⟩ := offers
  refine ⟨?_, ?_, fun place inside => ?_, uncontacted_dispatch executable frees client⟩
  · rw [ends]
    refine ⟨⟨client, false, .accepting node.flights.length deadline⟩, deadline, ?_, rfl⟩
    simp [settleAccepted, setRequest, setTimer, setClient, opened, register, asking, addRequest]
  · rw [ends, ← id]
    exact Registry.insert_eq (id ▸ frees.free)
  · rw [ends]
    exact List.getElem?_append_left inside

/-- The request at a place of the requests has failed. -/
def Fails (node : Node) (index : Nat) : Prop :=
  ∃ cause, node.outcome? index = some (.error cause)

/-- Whoever is registered after a session has ended was registered before, and is another one. -/
theorem registered_without (sound : node.ledger.Sound) (still : after.ledger.Sound)
    (ended : after.Ended place)
    (others : ∀ other, other ≠ place → after.session? other = node.session? other) (id : QueryId)
    (other : Nat) : after.registry.get? id = some other ↔
      node.registry.get? id = some other ∧ other ≠ place := by
  have now : after.registry.get? id = some other ↔ (id, other) ∈ after.ledger.registry.entries :=
    still.distinct.get?_eq_some_iff
  have before : node.registry.get? id = some other ↔ (id, other) ∈ node.ledger.registry.entries :=
    sound.distinct.get?_eq_some_iff
  rw [now, before, still.registered, sound.registered]
  constructor
  · rintro ⟨session, present, named, live⟩
    have differs : other ≠ place := by
      rintro rfl
      simp [ended.isTerminal ((session?_eq ..).trans present)] at live
    rw [← session?_eq, others other differs] at present
    exact ⟨⟨session, (session?_eq ..).symm.trans present, named, live⟩, differs⟩
  · rintro ⟨⟨session, present, named, live⟩, differs⟩
    rw [← session?_eq, ← others other differs] at present
    exact ⟨session, (session?_eq ..).symm.trans present, named, live⟩

/-- A request that waits to say that a session is accepted fails only when its client refuses. -/
theorem refused_of_fails {deadline : Nat} (asked : node.requests[index]? = some request)
    (accepting : request.state = .accepting place deadline)
    (fails : (node.pollRequest index).Fails index) :
    ∃ session, node.session? place = some session ∧
      (node.resumeOffer (.request index) request.client ⟨some place, session.acceptedEvent⟩
        deadline).2 = .refused ∧
      node.pollRequest index = (node.resumeOffer (.request index) request.client
        ⟨some place, session.acceptedEvent⟩ deadline).1.settleAccepted index request.client
          request.tellsFaults place session.id deadline .refused := by
  obtain ⟨cause, failed⟩ := fails
  obtain ⟨asker, tellsFaults, state⟩ := request
  obtain rfl : state = .accepting place deadline := accepting
  cases present : node.session? place with
  | none => simp [pollRequest, asked, present, outcome?] at failed
  | some session =>
    refine ⟨session, rfl, ?_⟩
    have requests := node.requests_resumeOffer (.request index) asker
      ⟨some place, session.acceptedEvent⟩ deadline
    simp only [pollRequest, asked, present] at failed ⊢
    generalize node.resumeOffer (.request index) asker ⟨some place, session.acceptedEvent⟩
      deadline = result at requests failed ⊢
    obtain ⟨offered, fate⟩ := result
    have still : offered.requests[index]? = some _ := requests ▸ asked
    cases fate with
    | refused => exact ⟨rfl, rfl⟩
    | waiting => simp [settleAccepted, setRequest, outcome?, still] at failed
    | sent =>
      have launched : (offered.launch place).requests[index]? = some _ := still
      have succeeds := outcome?_setRequest launched (.ok session.id)
      rw [settleAccepted] at failed
      simp [succeeds] at failed

/-- Its session has then ended, and nobody has begun to pursue it. -/
theorem forsaken_of_fails (front : node.front.Sound) {deadline : Nat}
    (asked : node.requests[index]? = some request)
    (accepting : request.state = .accepting place deadline)
    (fails : (node.pollRequest index).Fails index) : (node.pollRequest index).Forsaken place := by
  obtain ⟨session, present, refuses, settles⟩ := refused_of_fails asked accepting fails
  have heard := node.front_resumeOffer (.request index) request.client
    ⟨some place, session.acceptedEvent⟩ deadline
  rw [refuses, if_neg (by simp)] at heard
  have found := (session?_of_front heard place).trans ((session?_eq ..).symm.trans present)
  have stands := front.desks place session ((session?_eq ..).symm.trans present)
  have asks : (node.desk place).asks index = some request.client := by
    simp [Node.desk, asked, Request.asks?, accepting]
  rw [settles]
  refine ⟨ended_settleAccepted_refused found .., ?_⟩
  rw [desk_settleAccepted_refused, show Node.desk _ place = node.desk place from
    congrFun (congrArg Front.desks heard) place]
  rintro (begun | ⟨other, asking⟩)
  · exact begun (stands.asked index request.client asks).2
  · rw [Desk.asks_withdraw] at asking
    split at asking
    · exact asking rfl
    · rename_i differs
      refine differs (stands.alone other index ?_ ?_)
      · exact Option.isSome_iff_ne_none.mpr asking
      · exact Option.isSome_iff_exists.mpr ⟨_, asks⟩

private theorem confined_of_fails {deadline : Nat} (asked : node.requests[index]? = some request)
    (accepting : request.state = .accepting place deadline)
    (fails : (node.pollRequest index).Fails index) :
    node.Confined {place} False (node.pollRequest index) := by
  obtain ⟨session, -, -, settles⟩ := refused_of_fails asked accepting fails
  rw [settles]
  exact confined_of_edits ((edits_resumeOffer trivial).trans (edits_settleAccepted trivial rfl))

/-- A session is given up before anybody has begun to work for it; nothing else is done to the
registry, to any other session or to a party. -/
structure Forgoes (node : Node) (place : Nat) (after : Node) : Prop where
  abandoned : after.Abandoned place
  registry : ∀ id other, after.registry.get? id = some other ↔
    node.registry.get? id = some other ∧ other ≠ place
  others : ∀ other, other ≠ place → other < node.flights.length →
    after.flights[other]? = node.flights[other]?
  uncontacted : node.Uncontacted after

/-- When a request that waits to say that a session is accepted fails, that session is given up. -/
theorem forgoes_of_fails (order : node.InOrder false) (awaits : node.Awaits index place)
    (fails : (node.perform (.run (.request index))).Fails index) :
    node.Forgoes place (node.perform (.run (.request index))) := by
  obtain ⟨request, deadline, asked, accepting⟩ := awaits
  have after : (node.perform (.run (.request index))).InOrder false :=
    inOrder_perform order (by simp)
  have begun : node.Confined {place} False { node with agenda := { node.agenda with
    ready := node.agenda.ready.erase (.request index) } } := confined_of_same rfl rfl
  have uncontacted : node.Uncontacted (node.perform (.run (.request index))) := fun party =>
    have apart : Apart party { node with agenda := { node.agenda with
        ready := node.agenda.ready.erase (.request index) } }
        (node.perform (.run (.request index))) :=
      apart_of_edits (edits_pollRequest trivial trivial trivial fun _ _ => trivial)
    ⟨apart.link, apart.frames⟩
  have forsaken : (node.perform (.run (.request index))).Forsaken place :=
    forsaken_of_fails order.front asked accepting fails
  have alone : node.Confined {place} False (node.perform (.run (.request index))) :=
    begun.trans (confined_of_fails asked accepting fails)
  have others (other : Nat) (differs : other ≠ place) :
      (node.perform (.run (.request index))).flights[other]? = node.flights[other]? :=
    alone.flights other differs
  refine ⟨forsaken.abandoned after, ?_, fun other differs _ => others other differs, uncontacted⟩
  refine registered_without order.front.ledger after.front.ledger forsaken.ended
    fun other differs => ?_
  rw [session?, session?, others other differs]

/-! ## What is accepted -/

/-- Unless every identifier that is drawn is in flight, there is a first one that is not. -/
theorem exists_frees (free : ∃ k, node.registry.contains (node.upcoming k) = false) :
    ∃ draws, node.Frees draws :=
  ⟨Nat.find free, fun _ inside => by simpa using Nat.find_min free inside, Nat.find_spec free⟩

/-- What dispatching a query of a client comes to. -/
structure Decides (node : Node) (client : Nat) (query : Query) : Prop where
  /-- Unless every identifier that is drawn is in flight, there is a first one that is not. -/
  free : (∃ k, node.registry.contains (node.upcoming k) = false) → ∃ draws, node.Frees draws
  /-- With a client that can be told at once, it succeeds if and only if the query can be executed. -/
  succeeds_iff : ∀ draws queue, node.Frees draws → node.clients[client]? = some queue →
    queue.isConnected = true → queue.room ≠ 0 →
    ((∃ id, (node.dispatch client query draws).outcome? node.requests.length = some (.ok id)) ↔
      query.Executable)
  /-- There is then one new session, under an identifier that was not in flight. -/
  accepts : ∀ draws queue, node.Frees draws → node.clients[client]? = some queue →
    queue.isConnected = true → queue.room ≠ 0 → query.Executable →
    node.Accepts client query (node.upcoming draws) (node.dispatch client query draws)
  /-- Whatever the client, a query that cannot be executed leaves the note of the failed request. -/
  refuses : ¬ query.Executable → ∃ cause, query.fault? = some cause ∧ ∀ draws, ∃ agenda drawn,
    node.dispatch client query draws = { node with
      agenda := agenda
      drawn := drawn
      requests := node.requests ++ [⟨client, false, .ended (.error cause)⟩] }
  /-- If the client cannot be told, the registry is as it was and no party has heard of the query. -/
  drops : ∀ draws, query.Executable → node.Frees draws → node.Unreachable client →
    node.Drops (node.upcoming draws) (node.dispatch client query draws)
  /-- A client without room keeps the query waiting. -/
  suspends : ∀ draws queue, query.Executable → node.Frees draws →
    node.clients[client]? = some queue → queue.isConnected = true → queue.room = 0 →
    queue.patience ≠ 0 →
    node.Suspends (node.upcoming draws) (node.dispatch client query draws)
  /-- If it cannot be told in the end, whatever has happened meanwhile, the session alone goes. -/
  forgoes : ∀ index place, node.Awaits index place →
    (node.perform (.run (.request index))).Fails index →
    node.Forgoes place (node.perform (.run (.request index)))

/-- What dispatching a query comes to, in every run, for every query and every client. It succeeds
if and only if the query can be executed and its client can be told: then there is one new session,
and the client is told the exact number of its tuples. Otherwise the registry is as it was, no party
has heard of the query, and nothing is ever done for its session. -/
theorem dispatch_accepts_iff (config : Config) (limits : OutputLimits)
    (identifiers : Nat → QueryId) (operations : List Operation) (node : Node)
    (reached : (start config limits identifiers).performAll operations = node) (client : Nat)
    (query : Query) : node.Decides client query := by
  have begins := inOrder_start false config limits identifiers
  have order : node.InOrder false := reached ▸ inOrder_performAll begins (by simp)
  have begun : (node.perform (.beginQuery client query false)).InOrder false :=
    inOrder_perform order (by simp)
  have settled (draws : Nat) : (node.dispatch client query draws).InOrder false :=
    inOrder_performAll begun (by simp)
  have faulty (wrong : ¬ query.Executable) : ∃ cause, query.fault? = some cause :=
    Option.ne_none_iff_exists'.mp fun none => wrong (Query.executable_iff.mpr none)
  exact {
    free := exists_frees
    succeeds_iff := fun draws queue frees held connected room => by
      constructor
      · rintro ⟨id, ok⟩
        by_contra wrong
        obtain ⟨cause, fault⟩ := faulty wrong
        obtain ⟨agenda, drawn, same⟩ := dispatch_of_fault fault node client draws
        simp [same, outcome?] at ok
      · intro executable
        exact ⟨_, (accepts_dispatch executable frees held connected room).outcome⟩
    accepts := fun draws queue frees held connected room executable =>
      accepts_dispatch executable frees held connected room
    refuses := fun wrong => by
      obtain ⟨cause, fault⟩ := faulty wrong
      exact ⟨cause, fault, dispatch_of_fault fault node client⟩
    drops := fun draws executable frees unreachable =>
      drops_dispatch order (settled draws) executable frees unreachable
    suspends := fun draws queue executable frees held connected full patient =>
      suspends_dispatch executable frees held connected full patient
    forgoes := fun index place awaits fails => forgoes_of_fails order awaits fails }

/-- A query of a client with room is accepted, and one of a client that has gone is dropped. -/
theorem dispatch_accepts_iff_both : ∃ node,
    (start (.ofParty .ph) (Config.ofParty .ph).outputLimits QueryId.numbered).performAll
      [.addClient "front" 8 0 false, .addClient "back" 8 0 false, .closeClient 1] = node ∧
    Session.oneCount.Executable ∧
    node.Accepts 0 Session.oneCount (QueryId.numbered 0) (node.dispatch 0 Session.oneCount 0) ∧
    node.Drops (QueryId.numbered 0) (node.dispatch 1 Session.oneCount 0) := by
  have executable : Session.oneCount.Executable := Query.executable_iff.mpr rfl
  have decided (client : Nat) := dispatch_accepts_iff (.ofParty .ph)
    (Config.ofParty .ph).outputLimits QueryId.numbered
    [.addClient "front" 8 0 false, .addClient "back" 8 0 false, .closeClient 1] _ rfl client
    Session.oneCount
  have frees : Frees ((start (.ofParty .ph) (Config.ofParty .ph).outputLimits
      QueryId.numbered).performAll [.addClient "front" 8 0 false, .addClient "back" 8 0 false,
        .closeClient 1]) 0 := ⟨by simp, rfl⟩
  refine ⟨_, rfl, executable, (decided 0).accepts 0 _ frees rfl rfl (by decide) executable,
    (decided 1).drops 0 executable frees ?_⟩
  intro queue held
  obtain rfl := Option.some.inj held
  exact .inl rfl

end Node

end JointQuery
