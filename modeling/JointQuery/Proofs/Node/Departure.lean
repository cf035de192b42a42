import JointQuery.Proofs.Node.Apart
import JointQuery.Proofs.Node.Lifecycle
import JointQuery.Proofs.Node.Selection
import JointQuery.Proofs.Node.Starts

/-! A client that has left leaves nothing behind. Its sessions end when it leaves, and whatever is
begun for it later ends before anybody works for it: nobody can be told that it is accepted. -/
namespace JointQuery.Node

variable {told : Bool} {active : Nat → Prop} {places : Set Nat} {node after : Node}
  {place client since index : Nat} {session : Session} {operation : Operation}

/-! ## Sessions that nobody pursues -/

theorem Ended.isTerminal (ended : node.Ended place) (present : node.session? place = some session) :
    session.isTerminal = true := by
  obtain ⟨same, found, final⟩ := ended
  obtain rfl := Option.some.inj (present.symm.trans found)
  exact final

theorem ended_perform (sound : node.ledger.Sound) (ended : node.Ended place)
    (operation : Operation) : (node.perform operation).Ended place := by
  obtain ⟨session, present, final⟩ := ended
  obtain ⟨after, found, follows⟩ := follows_performAll sound present [operation]
  exact ⟨after, found, by rw [Session.isTerminal, (follows.frozen final).1]; exact final⟩

/-- What is live after an operation was live before it. -/
theorem live_before {before : Session} (sound : node.ledger.Sound)
    (found : node.session? place = some before)
    (present : (node.perform operation).session? place = some session)
    (live : session.isTerminal = false) : before.isTerminal = false := by
  by_contra final
  have ended := ended_perform sound ⟨before, found, by simpa using final⟩ operation
  simp [ended.isTerminal present] at live

/-- The session at a place has ended, and nobody works for it nor will. -/
structure Forsaken (node : Node) (place : Nat) : Prop where
  ended : node.Ended place
  unpursued : ¬ (node.desk place).Pursued

/-- Whatever is pursued after a change could be pursued before. -/
theorem Change.mayPursue (change : Change told active node after)
    (pursued : (after.desk place).Pursued) : node.MayPursue place := by
  have of_front (front : after.front = node.front) : node.MayPursue place := by
    have desk : after.desk place = node.desk place :=
      congrFun (congrArg Front.desks front) place
    exact .inl (desk ▸ pursued)
  cases change with
  | beside same => exact .inl (same.desk ▸ pursued)
  | joined ref capacity patience =>
    exact of_front (node.front_addClient ref capacity patience false)
  | queued => exact .inl pursued
  | filed request apart =>
    obtain ⟨client, tellsFaults, state⟩ := request
    exact of_front (node.front_addRequest client tellsFaults apart)
  | settled index may =>
    rcases pursued_setRequest pursued with before | ⟨deadline, accepting⟩
    · exact .inl before
    · exact may place deadline accepting
  | entered session => exact .inl (desk_enter node session ▸ pursued)
  | @flew other flight held f flies =>
    rw [desk_modifyFlight held] at pursued
    by_cases here : place = other
    · subst here
      rw [if_pos rfl] at pursued
      have phase : (node.desk place).phase = flight.reporter.phase := by simp [desk, held]
      have still (same : (f flight).reporter = flight.reporter) : node.MayPursue place := by
        rw [same, ← phase, Desk.enter_phase] at pursued
        exact .inl pursued
      generalize f flight = next at flies still pursued
      cases flies with
      | launched idle may => exact may
      | reported runs begun => exact .inl (.inl (by rwa [phase]))
      | grew | awaited | ended | tried | started | joined => exact still rfl
    · rw [if_neg here] at pursued
      exact .inl pursued
  | opened | unpooled | closed | posted => exact of_front rfl
  | sent => exact of_front (front_setSender ..)

private theorem Change.forsaken (change : Change told active node after)
    (forsaken : node.Forsaken place) : after.Forsaken place := by
  refine ⟨(change.starts place).ended forsaken.ended, fun pursued => ?_⟩
  rcases change.mayPursue pursued with before | ⟨session, queue, present, live, -⟩
  · exact forsaken.unpursued before
  · simp [forsaken.ended.isTerminal present] at live

private theorem Changes.forsaken (changes : Changes told active node after)
    (forsaken : node.Forsaken place) : after.Forsaken place := by
  induction changes with
  | refl => exact forsaken
  | tail _ change ih => exact change.forsaken ih

/-- Once nobody pursues an ended session, nobody ever does. -/
theorem forsaken_perform (order : node.InOrder false) (forsaken : node.Forsaken place)
    (operation : Operation) : (node.perform operation).Forsaken place := by
  cases writer : operation.writer? with
  | none => exact (changes_perform order writer (by simp)).forsaken forsaken
  | some index =>
    have writes : Writes node index _ := writes_perform writer
    obtain ⟨-, desk, sessions⟩ := writes.clients
    obtain ⟨session, found, final⟩ := forsaken.ended
    exact ⟨⟨session, (sessions place).trans found, final⟩, desk ▸ forsaken.unpursued⟩

/-- Nothing was ever sent for a session that nobody pursues, nor has any sender begun. -/
theorem Forsaken.unsent (forsaken : node.Forsaken place) (dispatches : node.Dispatches)
    {flight : Flight} (held : node.flights[place]? = some flight) (party : Party) :
    flight.senders.get party = .unstarted ∧ node.starts place party = [] := by
  have dispatched := dispatches.flights place flight held
  have idle : flight.reporter.phase = .idle := by
    by_contra begun
    exact forsaken.unpursued (.inl (by simpa [desk, held] using begun))
  have unstarted := dispatched.unbegun (.inl (dispatched.idle idle)) party
  refine ⟨unstarted, ?_⟩
  have starts := dispatched.starts party
  simpa [unstarted, Sender.isSent] using starts

/-! ## Sessions that are opened -/

private theorem Confined.asked {opens : Prop} {before : Session}
    (confined : node.Confined places opens after) (found : node.session? place = some before)
    (present : after.session? place = some session) : before.AskedAs session := by
  obtain ⟨flight, held, rfl⟩ := Option.map_eq_some_iff.mp found
  obtain ⟨next, there, asked⟩ := confined.askers place flight held
  obtain rfl := Option.some.inj ((session?_of_flight there).symm.trans present)
  exact asked

private theorem Confined.absent {opens : Prop} (confined : node.Confined places opens after)
    (closed : ¬ opens) (absent : node.session? place = none) : after.session? place = none := by
  rw [session?_eq, List.getElem?_eq_none_iff] at absent ⊢
  simpa [ledger, confined.length closed] using absent

/-- A client that is gone is refused whatever it is offered. -/
theorem offer_of_unconnected (unconnected : node.isConnected client = false) (task : TaskId)
    (notice : Notice) : (node.offer task client notice).2.1 = .refused := by
  simp only [offer]
  split
  · rfl
  · rename_i queue held
    simp only [isConnected, held, ClientQueue.isConnected, Bool.and_eq_false_imp,
      Bool.not_eq_true', Bool.not_eq_false'] at unconnected
    simp only [ClientQueue.offer]
    split
    · rfl
    · rename_i connected
      simp [unconnected (by simpa using connected)]

/-- What an attempt to open a session comes to when its client is gone: the session ends at once,
and the request fails. -/
theorem front_settleAccepted_refused (node : Node) (index client : Nat) (tellsFaults : Bool)
    (place : Nat) (id : QueryId) (deadline : Nat) :
    (node.settleAccepted index client tellsFaults place id deadline .refused).front =
      (node.finish place .cancelled).1.front.withdraw index := by
  simp only [settleAccepted, front_failRequest, terminate_none]

theorem ended_settleAccepted_refused (present : node.session? place = some session)
    (index client : Nat) (tellsFaults : Bool) (id : QueryId) (deadline : Nat) :
    (node.settleAccepted index client tellsFaults place id deadline .refused).Ended place := by
  obtain ⟨ended, found, final⟩ :=
    ended_finish present (rfl : SessionState.cancelled.isTerminal = true)
  have front := node.front_settleAccepted_refused index client tellsFaults place id deadline
  exact ⟨ended, (session?_of_front front place).trans ((session?_eq ..).symm.trans found), final⟩

theorem desk_settleAccepted_refused (node : Node) (index client : Nat) (tellsFaults : Bool)
    (place : Nat) (id : QueryId) (deadline other : Nat) :
    (node.settleAccepted index client tellsFaults place id deadline .refused).desk other =
      (node.desk other).withdraw index := by
  have front := node.front_settleAccepted_refused index client tellsFaults place id deadline
  have kept : (node.finish place .cancelled).1.front.desks = node.front.desks := by
    rcases node.finish_cases place .cancelled with ⟨session, -, -, -, ends⟩ | same
    · rw [ends]
      rfl
    · rw [same]
  have desks := congrFun (congrArg Front.desks front) other
  rw [Front.withdraw, kept] at desks
  exact desks

/-- A node in which a session has been opened under the identifier that was drawn. -/
def opened (node : Node) (session : Session) : Node :=
  (Node.register { node with drawn := node.drawn + 1 } session).1

/-- The session that a drawing opens is offered to its client. -/
theorem drawSession_of_new {query : Query} (index : Nat) (tellsFaults : Bool)
    (created : Session.create (node.identifiers node.drawn) query client (node.clientRef client)
      node.wall = .ok session)
    (unknown : node.registry.contains (node.identifiers node.drawn) = false) :
    ∃ offered fate deadline, (node.opened session).offer (.request index) client
        ⟨some node.flights.length, session.acceptedEvent⟩ = (offered, fate, deadline) ∧
      node.drawSession index client tellsFaults query = offered.settleAccepted index client
        tellsFaults node.flights.length (node.identifiers node.drawn) deadline fate := by
  refine ⟨_, _, _, rfl, ?_⟩
  simp only [drawSession, created, unknown]
  rfl

private theorem front_opened (node : Node) (session : Session) :
    (node.opened session).front = node.front.record (node.ledger.enter session) :=
  front_register ..

/-- A session that is opened for a client that refuses it is there, and nobody has heard of it. -/
theorem front_of_refused {offered : Node} {deadline : Nat}
    (offers : (node.opened session).offer (.request index) client
      ⟨some node.flights.length, session.acceptedEvent⟩ = (offered, .refused, deadline)) :
    offered.front = node.front.record (node.ledger.enter session) ∧
      offered.session? node.flights.length = some session := by
  have heard := front_offer (node.opened session) (.request index) client
    ⟨some node.flights.length, session.acceptedEvent⟩
  rw [offers, if_neg (by simp), front_opened] at heard
  have length : node.ledger.sessions.length = node.flights.length := by simp [ledger]
  have entered : (node.ledger.enter session).sessions[node.flights.length]? = some session := by
    rw [Ledger.sessions_enter, length, if_pos rfl]
  exact ⟨heard, (session?_of_front heard _).trans entered⟩

/-- It ends in the same step, and nobody has begun to pursue it. -/
theorem forsaken_of_refused (front : node.front.Sound) {offered : Node} {deadline : Nat}
    (offers : (node.opened session).offer (.request index) client
      ⟨some node.flights.length, session.acceptedEvent⟩ = (offered, .refused, deadline))
    (tellsFaults : Bool) (id : QueryId) :
    (offered.settleAccepted index client tellsFaults node.flights.length id deadline
      .refused).Forsaken node.flights.length := by
  obtain ⟨heard, present⟩ := front_of_refused offers
  refine ⟨ended_settleAccepted_refused present .., ?_⟩
  have beyond : node.desk node.flights.length = .blank :=
    front.blank _ (by simp [Node.front, ledger])
  have desk : offered.desk node.flights.length = node.desk node.flights.length :=
    congrFun (congrArg Front.desks heard) _
  rw [desk_settleAccepted_refused, desk, beyond]
  simp [Desk.Pursued, Desk.blank, Desk.withdraw]

/-- Whoever asks for a session, it is the session of that client; and if the client is gone nobody
will ever pursue it. -/
theorem newcomer_drawSession (front : node.front.Sound) {query : Query} {tellsFaults : Bool}
    (present : (node.drawSession index client tellsFaults query).session? node.flights.length =
      some session) : session.client = client ∧ session.clientRef = node.clientRef client ∧
      (node.isConnected client = false →
        (node.drawSession index client tellsFaults query).Forsaken node.flights.length) := by
  have absent : node.session? node.flights.length = none := by simp [session?]
  cases created : Session.create (node.identifiers node.drawn) query client (node.clientRef client)
      node.wall with
  | error cause =>
    have kept : node.Confined ∅ False (node.drawSession index client tellsFaults query) := by
      have drawn : node.Confined ∅ False { node with drawn := node.drawn + 1 } :=
        confined_of_same rfl rfl
      simp only [drawSession, created]
      exact drawn.trans (confined_of_edits (edits_failRequest trivial))
    simp [kept.absent id absent] at present
  | ok opening =>
    cases known : node.registry.contains (node.identifiers node.drawn) with
    | true =>
      have kept : node.Confined ∅ False (node.drawSession index client tellsFaults query) := by
        simp only [drawSession, created, known, if_true]
        exact confined_of_same rfl rfl
      simp [kept.absent id absent] at present
    | false =>
      obtain ⟨offered, fate, deadline, offers, draws⟩ :=
        drawSession_of_new index tellsFaults created known
      obtain ⟨domain, -, built⟩ := Session.create_eq created
      have goes : (node.opened opening).Confined Set.univ False
          (node.drawSession index client tellsFaults query) := by
        have offering : (node.opened opening).Confined Set.univ False
            ((node.opened opening).offer (.request index) client
              ⟨some node.flights.length, opening.acceptedEvent⟩).1 :=
          confined_of_edits (edits_offer trivial)
        rw [offers] at offering
        rw [draws]
        exact offering.trans (confined_of_edits (edits_settleAccepted trivial trivial))
      have fresh : (node.opened opening).flights[node.flights.length]? = some (.fresh opening) :=
        List.getElem?_concat_length ..
      have asked := goes.asked (session?_of_flight fresh) present
      refine ⟨asked.client.trans ?_, asked.ref.trans ?_, fun unconnected => ?_⟩
      · rw [built]
        rfl
      · rw [built]
        rfl
      · have unheard : (node.opened opening).isConnected client = false := unconnected
        have refused := offer_of_unconnected unheard (.request index)
          ⟨some node.flights.length, opening.acceptedEvent⟩
        rw [offers] at refused
        subst refused
        rw [draws]
        exact forsaken_of_refused front offers ..

/-- A session that there is after an operation and was not before: it is that of a client, under the
reference of that client, and if the client is gone nobody will ever pursue it. -/
structure Newcomer (node after : Node) (place : Nat) (session : Session) : Prop where
  ref : session.clientRef = node.clientRef session.client
  gone : node.isConnected session.client = false → after.Forsaken place

private theorem newcomer_of_drawSession (front : node.front.Sound) {query : Query}
    {tellsFaults : Bool} (absent : node.session? place = none)
    (present : (node.drawSession index client tellsFaults query).session? place = some session) :
    node.Newcomer (node.drawSession index client tellsFaults query) place session := by
  have alone : node.Confined {node.flights.length} True
      (node.drawSession index client tellsFaults query) :=
    confined_of_edits (edits_drawSession trivial trivial rfl)
  by_cases last : place = node.flights.length
  · subst last
    obtain ⟨rfl, ref, gone⟩ := newcomer_drawSession front present
    exact ⟨ref, gone⟩
  · rw [session?, alone.flights place last] at present
    exact absurd (absent.symm.trans present) (by simp)

private theorem newcomer_beginQuery (front : node.front.Sound) {query : Query} {tellsFaults : Bool}
    (absent : node.session? place = none)
    (present : (node.beginQuery client query tellsFaults).1.session? place = some session) :
    node.Newcomer (node.beginQuery client query tellsFaults).1 place session := by
  have apart : (RequestState.drawing query).isApart = true := rfl
  have same := node.front_addRequest client tellsFaults apart
  have added : node.Confined ∅ False (node.addRequest client tellsFaults (.drawing query)).1 :=
    confined_of_edits (edits_addRequest trivial)
  cases valid : query.validate with
  | error cause =>
    have kept : node.Confined ∅ False (node.beginQuery client query tellsFaults).1 := by
      simp only [beginQuery, valid]
      exact added.trans (confined_of_edits (edits_failRequest trivial))
    exact absurd ((kept.absent id absent).symm.trans present) (by simp)
  | ok =>
    simp only [beginQuery, valid] at present ⊢
    obtain ⟨ref, gone⟩ := newcomer_of_drawSession (same ▸ front) (added.absent id absent) present
    exact ⟨ref, gone⟩

private theorem newcomer_pollRequest (front : node.front.Sound)
    (absent : node.session? place = none)
    (present : (node.pollRequest index).session? place = some session) :
    node.Newcomer (node.pollRequest index) place session := by
  have kept (same : node.Confined Set.univ False (node.pollRequest index)) :
      node.Newcomer (node.pollRequest index) place session :=
    absurd ((same.absent id absent).symm.trans present) (by simp)
  cases asked : node.requests[index]? with
  | none =>
    refine kept ?_
    simp only [pollRequest, asked]
    exact .refl node
  | some request =>
    cases state : request.state with
    | drawing query =>
      simp only [pollRequest, asked, state] at present ⊢
      exact newcomer_of_drawSession front absent present
    | accepting other deadline =>
      refine kept ?_
      simp only [pollRequest, asked, state]
      split
      · exact .refl node
      · exact confined_of_edits ((edits_resumeOffer trivial).trans
          (edits_settleAccepted trivial trivial))
    | answering event deadline outcome =>
      refine kept ?_
      simp only [pollRequest, asked, state]
      exact confined_of_edits ((edits_resumeOffer trivial).trans (edits_settleAnswer trivial))
    | ended outcome =>
      refine kept ?_
      simp only [pollRequest, asked, state]
      exact .refl node

/-- Whatever opens a session opens it for a client. -/
theorem newcomer_perform (front : node.front.Sound) (absent : node.session? place = none)
    (present : (node.perform operation).session? place = some session) :
    node.Newcomer (node.perform operation) place session := by
  have kept (closed : ¬ operation.opens) :
      node.Newcomer (node.perform operation) place session := by
    have same := (confined_perform front.ledger operation).absent closed absent
    exact absurd (same.symm.trans present) (by simp)
  cases operation with
  | beginQuery client query tellsFaults => exact newcomer_beginQuery front absent present
  | run task =>
    cases task with
    | request index =>
      obtain ⟨ref, gone⟩ : Newcomer { node with agenda := { node.agenda with
          ready := node.agenda.ready.erase (.request index) } }
          (node.perform (.run (.request index))) place session := by
        refine newcomer_pollRequest ?_ ?_ ?_
        · exact front
        · exact absent
        · exact present
      exact ⟨ref, gone⟩
    | _ => exact kept id
  | _ => exact kept id

/-! ## Whose sessions they are -/

/-- Live sessions are those of clients that are there, each under the reference of its client. -/
def Attributed (node : Node) : Prop :=
  ∀ place session, node.session? place = some session → session.isTerminal = false →
    ∃ queue, node.clients[session.client]? = some queue ∧ queue.ref = session.clientRef

private theorem attributed_perform (order : node.InOrder told) (attributed : node.Attributed)
    (operation : Operation) : (node.perform operation).Attributed := by
  have sound := order.front.ledger
  have confined := confined_perform sound operation
  intro place session present live
  cases before : node.session? place with
  | some earlier =>
    have asked := confined.asked before present
    have alive := live_before sound before present live
    obtain ⟨queue, known, ref⟩ := attributed place _ before alive
    obtain ⟨later, still, same⟩ := confined.refs _ queue known
    exact ⟨later, by rw [asked.client, still], by rw [same, ref, asked.ref]⟩
  | none =>
    obtain ⟨ref, gone⟩ := newcomer_perform order.front before present
    cases known : node.clients[session.client]? with
    | none =>
      have forsaken := gone (by simp [isConnected, known])
      simp [forsaken.ended.isTerminal present] at live
    | some queue =>
      obtain ⟨later, still, same⟩ := confined.refs _ queue known
      exact ⟨later, still, by rw [same, ref, clientRef, known]⟩

private theorem attributed_performAll (order : node.InOrder false) (attributed : node.Attributed)
    (operations : List Operation) : (node.performAll operations).Attributed := by
  induction operations generalizing node with
  | nil => exact attributed
  | cons operation rest ih =>
    exact ih (inOrder_perform order (by simp)) (attributed_perform order attributed operation)

/-! ## Clients that have left -/

/-- A client has left. Its sessions have ended, and nobody pursues those that were opened at `since`
or after. -/
structure Departed (client since : Nat) (node : Node) : Prop where
  lost : node.Lost client
  ended : ∀ place session, node.session? place = some session → session.client = client →
    session.isTerminal = true
  forsaken : ∀ place session, node.session? place = some session → session.client = client →
    since ≤ place → node.Forsaken place

private theorem Lost.isConnected (lost : node.Lost client) : node.isConnected client = false := by
  obtain ⟨queue, held, gone⟩ := lost
  simpa [Node.isConnected, held] using gone

/-- Whatever happens, a client that has left leaves no session behind. A session of the client was
there before, or nobody will ever pursue it. -/
theorem departed_perform (order : node.InOrder false) (departed : node.Departed client since)
    (operation : Operation) : (node.perform operation).Departed client since := by
  have sound := order.front.ledger
  have confined := confined_perform sound operation
  have cases (place : Nat) (session : Session)
      (present : (node.perform operation).session? place = some session)
      (own : session.client = client) : (∃ before, node.session? place = some before ∧
        before.client = client) ∨ (node.perform operation).Forsaken place := by
    cases before : node.session? place with
    | some earlier =>
      exact .inl ⟨earlier, rfl, (confined.asked before present).client.symm.trans own⟩
    | none =>
      have newcomer := newcomer_perform order.front before present
      exact .inr (newcomer.gone (own ▸ departed.lost.isConnected))
  refine ⟨(keeps_perform order (by simp)).lost departed.lost, fun place session present own => ?_,
    fun place session present own late => ?_⟩
  · rcases cases place session present own with ⟨before, found, same⟩ | forsaken
    · have ended := departed.ended place before found same
      exact (ended_perform sound ⟨before, found, ended⟩ operation).isTerminal present
    · exact forsaken.ended.isTerminal present
  · rcases cases place session present own with ⟨before, found, same⟩ | forsaken
    · exact forsaken_perform order (departed.forsaken place before found same late) operation
    · exact forsaken

private theorem departed_performAll (order : node.InOrder false)
    (departed : node.Departed client since)
    (operations : List Operation) : (node.performAll operations).Departed client since := by
  induction operations generalizing node with
  | nil => exact departed
  | cons operation rest ih =>
    exact ih (inOrder_perform order (by simp)) (departed_perform order departed operation)

private theorem hangUp_client (node : Node) (client : Nat) : node.hangUp (.client client) =
    (node.perform (.markDisconnected client)).perform (.clientLeft (node.clientRef client)) := rfl

/-- When the connection of a client closes, the sessions of the client end. -/
theorem departed_hangUp {queue : ClientQueue TaskId Notice} (order : node.InOrder false)
    (attributed : node.Attributed) (held : node.clients[client]? = some queue) :
    (node.hangUp (.client client)).Departed client node.flights.length := by
  rw [hangUp_client]
  have first := confined_perform order.front.ledger (.markDisconnected client)
  obtain ⟨next, known, ref⟩ := first.refs client queue held
  have lost := lost_of_unconnected ⟨next, known⟩ (node.isConnected_markDisconnected client)
  have length := first.length id
  have gone : (node.perform (.markDisconnected client)).InOrder false :=
    inOrder_perform order (by simp)
  have asked : (node.perform (.markDisconnected client)).Attributed :=
    attributed_perform order attributed _
  have named : node.clientRef client = next.ref := by simp [clientRef, held, ref]
  generalize node.perform (.markDisconnected client) = marked at lost gone asked known length ⊢
  rw [named, ← length]
  have sound := gone.front.ledger
  have confined := confined_perform sound (.clientLeft next.ref)
  obtain ⟨places, -, selected, -, ends⟩ := retires_clientLeft sound next.ref
  refine ⟨(keeps_perform gone (by simp)).lost lost, fun place session present own => ?_,
    fun place session present own late => ?_⟩
  · cases before : marked.session? place with
    | none => exact absurd ((confined.absent id before).symm.trans present) (by simp)
    | some earlier =>
      have same := confined.asked before present
      by_contra live
      have alive := live_before sound before present (by simpa using live)
      obtain ⟨asker, held, mine⟩ := asked place _ before alive
      rw [same.client.symm.trans own] at held
      obtain rfl := Option.some.inj (held.symm.trans known)
      have registered := (sound.get?_eq_some_iff ((marked.session?_eq place).symm.trans before)).mpr
        alive
      have member := (selected place).mpr ⟨_, before, registered, mine.symm⟩
      have cancelled := Option.some.inj (present.symm.trans (ends place member _ before).1)
      exact live (by rw [cancelled]; rfl)
  · have inside := (List.getElem?_eq_some_iff.mp ((session?_eq ..).symm.trans present)).1
    rw [ledger, List.length_map, confined.length id] at inside
    exact absurd inside (Nat.not_lt.mpr late)

/-! ## Queries of clients that have left -/

theorem outcome?_setRequest {request : Request} (asked : node.requests[index]? = some request)
    (outcome : Except QueryError QueryId) :
    (node.setRequest index (.ended outcome)).outcome? index = some outcome := by
  simp [outcome?, setRequest, asked]

/-- A request of a client that is gone ends with what has made it fail. -/
theorem outcome?_failRequest {request : Request} (asked : node.requests[index]? = some request)
    (unconnected : node.isConnected client = false) (tellsFaults : Bool) (cause : QueryError) :
    (node.failRequest index client tellsFaults cause).outcome? index = some (.error cause) := by
  unfold failRequest
  split
  · have refused := offer_of_unconnected unconnected (.request index) ⟨none, .ofError none cause⟩
    have requests := node.requests_offer (.request index) client ⟨none, .ofError none cause⟩
    unfold answerFault
    dsimp only
    rw [refused]
    exact outcome?_setRequest (requests ▸ asked) _
  · exact outcome?_setRequest asked _

theorem requests_finish (node : Node) (place : Nat) (target : SessionState) :
    (node.finish place target).1.requests = node.requests := by
  unfold finish
  split
  · rfl
  · split <;> rfl

/-- A query of a client that is gone fails as soon as there is an identifier for it. -/
theorem outcome?_drawSession_new {request : Request} {query : Query} (lost : node.Lost client)
    (asked : node.requests[index]? = some request)
    (created : Session.create (node.identifiers node.drawn) query client (node.clientRef client)
      node.wall = .ok session)
    (unknown : node.registry.contains (node.identifiers node.drawn) = false) (tellsFaults : Bool) :
    (node.drawSession index client tellsFaults query).outcome? index =
      some (.error (.clientDisconnected (node.identifiers node.drawn))) := by
  obtain ⟨offered, fate, deadline, offers, draws⟩ :=
    drawSession_of_new index tellsFaults created unknown
  have unconnected : (node.opened session).isConnected client = false := lost.isConnected
  have refused := offer_of_unconnected unconnected (.request index)
    ⟨some node.flights.length, session.acceptedEvent⟩
  have requests := (node.opened session).requests_offer (.request index) client
    ⟨some node.flights.length, session.acceptedEvent⟩
  have changes : Changes false (fun _ => False) (node.opened session) _ :=
    (node.opened session).changes_offer (.request index) client
      ⟨some node.flights.length, session.acceptedEvent⟩
  have gone := changes.keeps.lost (lost : (node.opened session).Lost client)
  rw [offers] at refused requests gone
  subst refused
  have still : (offered.finish node.flights.length .cancelled).1.isConnected client = false := by
    rw [isConnected, (offered.clients_finish ..).1]
    exact gone.isConnected
  have waits :
      (offered.finish node.flights.length .cancelled).1.requests[index]? = some request := by
    rw [requests_finish, requests]
    exact asked
  rw [draws, settleAccepted, terminate_none]
  exact outcome?_failRequest waits still ..

/-- No party was dialed, and nothing was put on a channel to one. -/
def Uncontacted (node after : Node) : Prop :=
  ∀ party, after.links.get party = node.links.get party ∧
    ∀ part, after.framesTo party part = node.framesTo party part

theorem Uncontacted.trans {middle : Node} (earlier : node.Uncontacted middle)
    (later : middle.Uncontacted after) : node.Uncontacted after := fun party =>
  ⟨(later party).1.trans (earlier party).1, fun part =>
    ((later party).2 part).trans ((earlier party).2 part)⟩

/-- Drawing an identifier for a query is no business of any party. -/
theorem uncontacted_drawSession (node : Node) (index client : Nat) (tellsFaults : Bool)
    (query : Query) : node.Uncontacted (node.drawSession index client tellsFaults query) :=
  fun party =>
    have apart : node.Apart party (node.drawSession index client tellsFaults query) :=
      apart_of_edits (edits_drawSession trivial trivial trivial)
    ⟨apart.link, apart.frames⟩

/-- The node when a request is drawing once more, after an identifier that is in flight. -/
def redrawn (node : Node) (index : Nat) (query : Query) : Node :=
  let counted := { node with drawn := node.drawn + 1 }
  let drawn := (counted.setRequest index (.drawing query)).wakeFirst (.request index)
  { drawn with agenda := { drawn.agenda with ready := drawn.agenda.ready.erase (.request index) } }

/-- An identifier that is in flight is passed over. -/
theorem runTask_drawSession {request : Request} {query : Query}
    (asked : node.requests[index]? = some request)
    (created : Session.create (node.identifiers node.drawn) query request.client
      (node.clientRef request.client) node.wall = .ok session)
    (busy : node.registry.contains (node.identifiers node.drawn) = true) :
    (node.drawSession index request.client request.tellsFaults query).runTask (.request index) =
      (node.redrawn index query).drawSession index request.client request.tellsFaults query := by
  have draws : node.drawSession index request.client request.tellsFaults query =
      (Node.setRequest { node with drawn := node.drawn + 1 } index (.drawing query)).wakeFirst
        (.request index) := by simp only [drawSession, created, busy, if_true]
  have again : (node.redrawn index query).requests[index]? =
      some { request with state := .drawing query } := by
    simp [redrawn, setRequest, wakeFirst, asked]
  rw [draws, runTask]
  show (node.redrawn index query).pollRequest index = _
  simp only [pollRequest, again]

/-- A query of a client that is gone fails, however many identifiers in flight are drawn before, and
no party hears of it. -/
theorem outcome?_drawSession {request : Request} {query : Query} {domain : Domain}
    (lost : node.Lost request.client) (asked : node.requests[index]? = some request)
    (fits : Domain.ofQuery query = .ok domain) (tries : Nat)
    (busy : ∀ k < tries, node.registry.contains (node.identifiers (node.drawn + k)) = true)
    (free : node.registry.contains (node.identifiers (node.drawn + tries)) = false) :
    ((node.drawSession index request.client request.tellsFaults query).performAll
      (List.replicate tries (.run (.request index)))).outcome? index =
        some (.error (.clientDisconnected (node.identifiers (node.drawn + tries)))) ∧
    node.Uncontacted ((node.drawSession index request.client request.tellsFaults query).performAll
      (List.replicate tries (.run (.request index)))) := by
  have creates (node : Node) : ∃ session, Session.create (node.identifiers node.drawn) query
      request.client (node.clientRef request.client) node.wall = .ok session := by
    simp only [Session.create, fits]
    exact ⟨_, rfl⟩
  induction tries generalizing node request with
  | zero =>
    obtain ⟨session, created⟩ := creates node
    exact ⟨outcome?_drawSession_new lost asked created free _,
      node.uncontacted_drawSession index request.client request.tellsFaults query⟩
  | succ tries ih =>
    obtain ⟨session, created⟩ := creates node
    have again : (node.redrawn index query).requests[index]? =
        some { request with state := .drawing query } := by
      simp [redrawn, setRequest, wakeFirst, asked]
    have draws := runTask_drawSession asked created (busy 0 (Nat.zero_lt_succ tries))
    have shifted (k : Nat) : node.drawn + 1 + k = node.drawn + (k + 1) := by omega
    have taken : ∀ k < tries, node.registry.contains (node.identifiers (node.drawn + 1 + k)) =
        true := fun k inside => by
      rw [shifted]
      exact busy (k + 1) (Nat.succ_lt_succ inside)
    rw [← shifted] at free ⊢
    obtain ⟨ends, apart⟩ :=
      @ih (node.redrawn index query) { request with state := .drawing query } lost again taken free
        creates
    rw [List.replicate_succ, performAll_cons, perform, draws]
    have still : node.Uncontacted (node.redrawn index query) := fun party => ⟨rfl, fun _ => rfl⟩
    exact ⟨ends, still.trans apart⟩

/-- A client that has left leaves nothing behind, in every run. Whatever happens afterwards, no
session in flight is one of its own. For those that were opened after it had left nothing was ever
sent. And a query that it begins then fails, because it is gone, with the first identifier drawn
that is not in flight, and no party hears of it. -/
theorem leaves_nothing (config : Config) (limits : OutputLimits) (identifiers : Nat → QueryId)
    (earlier later : List Operation) (node after : Node)
    (reached : (start config limits identifiers).performAll earlier = node)
    (client : Nat) (queue : ClientQueue TaskId Notice)
    (held : node.clients[client]? = some queue)
    (left : (node.hangUp (.client client)).performAll later = after) :
    (∀ id place session, after.find? id = some (place, session) → session.client ≠ client) ∧
    (∀ place flight, after.flights[place]? = some flight → flight.session.client = client →
      node.flights.length ≤ place → ∀ party,
        flight.senders.get party = .unstarted ∧ after.starts place party = []) ∧
    ∀ query tellsFaults domain tries, query.validate = .ok () → Domain.ofQuery query = .ok domain →
      (∀ k < tries, after.registry.contains (after.identifiers (after.drawn + k)) = true) →
      after.registry.contains (after.identifiers (after.drawn + tries)) = false →
      ∀ begun index final, after.beginQuery client query tellsFaults = (begun, index) →
        begun.performAll (List.replicate tries (.run (.request index))) = final →
        final.outcome? index =
          some (.error (.clientDisconnected (after.identifiers (after.drawn + tries)))) ∧
        after.Uncontacted final := by
  have started := inOrder_start false config limits identifiers
  have order : node.InOrder false := reached ▸ inOrder_performAll started (by simp)
  have attributed : node.Attributed := by
    rw [← reached]
    exact attributed_performAll started (fun place session present => by cases present) earlier
  have gone : (node.hangUp (.client client)).InOrder false := by
    rw [hangUp_client]
    exact inOrder_perform (inOrder_perform order (by simp)) (by simp)
  have departed : after.Departed client node.flights.length :=
    left ▸ departed_performAll gone (departed_hangUp order attributed held) later
  have settled : after.InOrder false := left ▸ inOrder_performAll gone (by simp)
  refine ⟨fun id place session found own => ?_, fun place flight there own late => ?_, ?_⟩
  · obtain ⟨registered, present⟩ := find?_eq_some_iff.mp found
    have live := (settled.front.ledger.live_of_held registered present).2
    have ended := departed.ended place session ((session?_eq ..).trans present) own
    simp [ended] at live
  · have forsaken := departed.forsaken place _ (session?_of_flight there) own late
    exact forsaken.unsent settled.dispatches there
  · rintro query tellsFaults domain tries valid fits busy free begun index final begins rfl
    simp only [beginQuery, valid, Prod.mk.injEq] at begins
    obtain ⟨rfl, rfl⟩ := begins
    have asked : (after.addRequest client tellsFaults (.drawing query)).1.requests[
        after.requests.length]? = some ⟨client, tellsFaults, .drawing query⟩ := by
      simp [addRequest]
    refine outcome?_drawSession ?_ asked fits tries busy free
    exact departed.lost

/-- A client leaves while its query is in flight, and begins another one afterwards. -/
theorem leaves_nothing_query : ∃ node,
    (start (.ofParty .ph) (Config.ofParty .ph).outputLimits QueryId.numbered).performAll
      [.addClient "front" 8 0 false, .beginQuery 0 Session.oneCount true] = node ∧
    node.registry.get? (QueryId.numbered 0) = some 0 ∧
    ((node.hangUp (.client 0)).beginQuery 0 Session.oneCount true).1.outcome? 1 =
      some (.error (.clientDisconnected (QueryId.numbered 1))) := by
  obtain ⟨-, -, fails⟩ := leaves_nothing (.ofParty .ph) (Config.ofParty .ph).outputLimits
    QueryId.numbered [.addClient "front" 8 0 false, .beginQuery 0 Session.oneCount true] [] _ _ rfl
    0 _ rfl rfl
  exact ⟨_, rfl, rfl, (fails Session.oneCount true _ 0 rfl rfl (by simp) rfl _ _ _ rfl rfl).1⟩

end JointQuery.Node
