import JointQuery.Proofs.Node.Reporting

/-! The changes that make up a request of a client. A session whose client cannot be told that it is
accepted is given up before anybody pursues it, or with its client gone. -/
namespace JointQuery.Node

variable {told : Bool} {active : Nat → Prop} {node offered : Node} {index place client : Nat}
  {session : Session}
  {request : Request}

private theorem changes_setRequest (node : Node) (index : Nat) {state : RequestState}
    (apart : state.isApart = true) : Changes told active node (node.setRequest index state) := by
  refine .single (.settled index fun place deadline accepting => ?_)
  simp [accepting, RequestState.isApart] at apart

private theorem changes_settleAnswer (node : Node) (index : Nat) (event : ClientEvent)
    (deadline : Nat) (outcome : Except QueryError QueryId) (offer : Offer) :
    Changes told active node (node.settleAnswer index event deadline outcome offer) := by
  cases offer <;> exact node.changes_setRequest index rfl

private theorem changes_answerFault (node : Node) (index client : Nat) (about : Option QueryId)
    (cause : QueryError) : Changes told active node (node.answerFault index client about cause) :=
  (node.changes_offer ..).trans (changes_settleAnswer ..)

private theorem changes_failRequest (node : Node) (index client : Nat) (tellsFaults : Bool)
    (cause : QueryError) :
    Changes told active node (node.failRequest index client tellsFaults cause) := by
  simp only [failRequest]
  split
  · exact node.changes_answerFault ..
  · exact node.changes_setRequest index rfl

private theorem changes_addRequest (node : Node) (client : Nat) (tellsFaults : Bool)
    {state : RequestState} (apart : state.isApart = true) :
    Changes told active node (node.addRequest client tellsFaults state).1 :=
  .single (.filed _ apart)

private theorem changes_launch (present : node.session? place = some session)
    (idle : (node.desk place).phase = .idle) (may : node.MayPursue place) :
    Changes told active node (node.launch place) := by
  obtain ⟨flight, held, rfl⟩ := Option.map_eq_some_iff.mp present
  have idle' : flight.reporter.phase = .idle := by simpa [desk, held] using idle
  have launched : Change told active node (node.modifyFlight place fun flight =>
      { flight with
        session := (flight.session.transition .created .dispatched).1
        fanOut := .starting
        reporter := .watching 0 node.now }) := .flew held (.launched idle' may node.now)
  exact launched.upTo ⟨rfl, rfl, rfl, rfl, rfl, rfl, rfl⟩

/-- What becomes of a request once its session has been offered to the client. -/
theorem changes_settleAccepted (present : node.session? place = some session)
    (idle : (node.desk place).phase = .idle) {fate : Offer}
    (may : fate ≠ .refused → node.MayPursue place)
    (refused : fate = .refused → (node.desk place).Pursued → node.Lost session.client)
    (index client : Nat) (tellsFaults : Bool) (id : QueryId) (deadline : Nat) :
    Changes told active node
      (node.settleAccepted index client tellsFaults place id deadline fate) := by
  cases fate with
  | waiting =>
    refine .single (.settled index fun other due accepting => ?_)
    obtain ⟨rfl, -⟩ := RequestState.accepting.inj accepting
    exact may (by simp)
  | sent => exact (changes_launch present idle (may (by simp))).trans (changes_setRequest _ _ rfl)
  | refused =>
    refine (changes_terminate_none place rfl fun _ other same pursued => ?_).trans
      (changes_failRequest ..)
    obtain rfl := Option.some.inj (present.symm.trans same)
    exact refused rfl pursued

/-- An event cannot be offered to a client that is not there. -/
theorem refused_offer (absent : node.clients[client]? = none) (task : TaskId) (notice : Notice) :
    (node.offer task client notice).2.1 = .refused := by
  simp only [offer, absent]

/-- A new session is offered to its client. -/
theorem changes_offerAccepted (present : node.session? place = some session)
    (live : session.isTerminal = false) (blank : node.desk place = .blank) (index : Nat)
    (tellsFaults : Bool) (id : QueryId) {fate : Offer} {deadline : Nat}
    (offers : node.offer (.request index) session.client ⟨some place, session.acceptedEvent⟩ =
      (offered, fate, deadline)) :
    Changes told active node
      (offered.settleAccepted index session.client tellsFaults place id deadline fate) := by
  have changes : Changes told active node (node.offer (.request index) session.client
    ⟨some place, session.acceptedEvent⟩).1 := node.changes_offer ..
  obtain ⟨agenda, clients, same⟩ := node.offer_eq (.request index) session.client
    ⟨some place, session.acceptedEvent⟩
  have refused (absent : node.clients[session.client]? = none) :=
    refused_offer absent (.request index) ⟨some place, session.acceptedEvent⟩
  have idle : (node.desk place).phase = .idle := congrArg Desk.phase blank
  have unsought : ¬ (node.desk place).Pursued := by simp [blank, Desk.Pursued, Desk.blank]
  simp only [offers] at changes same refused
  have still : offered.session? place = some session := by
    rw [same]
    exact present
  refine changes.trans (changes_settleAccepted still ?_ (fun welcome => ?_) (fun _ sought => ?_)
    index session.client tellsFaults id deadline)
  · rw [same]
    exact idle
  · cases held : node.clients[session.client]? with
    | none => exact absurd (refused held) welcome
    | some queue =>
      obtain ⟨next, found⟩ := changes.keeps.known ⟨queue, held⟩
      exact .inr ⟨session, next, still, live, found⟩
  · rw [same] at sought
    exact absurd sought unsought

/-- A new session finds its desk blank. -/
theorem changes_drawSession (blank : node.desk node.flights.length = .blank) (index client : Nat)
    (tellsFaults : Bool) (query : Query) :
    Changes told active node (node.drawSession index client tellsFaults query) := by
  have drawn : Changes told active node { node with drawn := node.drawn + 1 } :=
    Beside.changes ⟨rfl, rfl, rfl, rfl, rfl, rfl, rfl⟩
  simp only [drawSession]
  split
  · exact drawn.trans (changes_failRequest ..)
  · rename_i session created
    split
    · have drawing : Changes told active node
          (({ node with drawn := node.drawn + 1 } : Node).setRequest
          index (.drawing query)) := drawn.trans (changes_setRequest _ index rfl)
      exact drawing.beside ⟨rfl, rfl, rfl, rfl, rfl, rfl, rfl⟩
    · obtain ⟨domain, -, built⟩ := Session.create_eq created
      have asker : session.client = client := by rw [built]
      have fresh : session.state = .created := by rw [built]
      have live : session.isTerminal = false := by
        rw [Session.isTerminal, fresh]
        rfl
      have entered : Changes told active node
          (({ node with drawn := node.drawn + 1 } : Node).register session).1 :=
        (Change.entered session fresh blank).upTo ⟨rfl, rfl, rfl, rfl, rfl, rfl, rfl⟩
      have present : (({ node with drawn := node.drawn + 1 } : Node).register session).1.session?
          node.flights.length = some session := by
        simp [register, session?, Flight.fresh]
      have desk : (({ node with drawn := node.drawn + 1 } : Node).register session).1.desk
          node.flights.length = .blank :=
        (congrFun (desk_enter node session) node.flights.length).trans blank
      subst asker
      exact entered.trans (changes_offerAccepted present live desk index tellsFaults _ rfl)

theorem changes_beginQuery (sound : node.front.Sound) (client : Nat) (query : Query)
    (tellsFaults : Bool) :
    Changes told active node (node.beginQuery client query tellsFaults).1 := by
  have added : Changes told active node (node.addRequest client tellsFaults (.drawing query)).1 :=
    node.changes_addRequest client tellsFaults rfl
  have front : (node.addRequest client tellsFaults (.drawing query)).1.front = node.front :=
    node.front_addRequest client tellsFaults rfl
  simp only [beginQuery]
  split
  · exact added.trans (changes_failRequest ..)
  · have blank : node.desk node.flights.length = .blank :=
      sound.blank _ (by simp [Node.front, ledger])
    have desk : (node.addRequest client tellsFaults (.drawing query)).1.desk = node.desk :=
      congrArg Front.desks front
    exact added.trans (changes_drawSession ((congrFun desk _).trans blank) _ _ _ _)

theorem changes_beginCancel (informed : node.Informed told) (client : Nat) (id : QueryId) :
    Changes told active node (node.beginCancel client id).1 := by
  have added : Changes told active node (node.addRequest client true (.ended (.ok id))).1 :=
    node.changes_addRequest client true rfl
  simp only [beginCancel]
  split
  · exact added.trans (changes_cancel (added.informed informed) id)
  · exact added.trans (changes_answerFault ..)

theorem changes_beginComplaint (node : Node) (client : Nat) :
    Changes told active node (node.beginComplaint client).1 :=
  (node.changes_addRequest client true rfl).trans (changes_answerFault ..)

theorem changes_pollRequest (sound : node.front.Sound) (informed : node.Informed told)
    (index : Nat) : Changes told active node (node.pollRequest index) := by
  simp only [pollRequest]
  split
  · exact .refl
  · rename_i request requested
    split
    · have blank : node.desk node.flights.length = .blank :=
        sound.blank _ (by simp [Node.front, ledger])
      exact changes_drawSession blank ..
    · rename_i place deadline accepting
      split
      · exact .refl
      · rename_i session present
        have asks : (node.desk place).asks index = some request.client := by
          simp [desk, requested, Request.asks?, accepting]
        have desk := sound.desks place session ((node.session?_eq place).symm.trans present)
        obtain ⟨client, idle⟩ := desk.asked index request.client asks
        have sought : (node.desk place).Pursued := .inr ⟨index, by simp [asks]⟩
        obtain ⟨queue, held⟩ := (informed place session present).known sought
        rw [← client] at held
        have changes : Changes told active node (node.resumeOffer (.request index) request.client
          ⟨some place, session.acceptedEvent⟩ deadline).1 := node.changes_resumeOffer ..
        obtain ⟨agenda, clients, same⟩ := node.resumeOffer_eq (.request index) request.client
          ⟨some place, session.acceptedEvent⟩ deadline
        have still : (node.resumeOffer (.request index) request.client
            ⟨some place, session.acceptedEvent⟩ deadline).1.session? place = some session := by
          rw [same]
          exact present
        refine changes.trans (changes_settleAccepted still ?_ (fun _ => .inl ?_)
          (fun refused _ => client ▸ lost_resumeOffer held _ _ _ refused) ..)
        · rw [same]
          exact idle
        · rw [same]
          exact sought
    · exact (changes_resumeOffer ..).trans (changes_settleAnswer ..)
    · exact .refl

theorem changes_pollSweeper (informed : node.Informed told) :
    Changes told active node node.pollSweeper := by
  simp only [pollSweeper]
  split
  · exact .refl
  · split
    · have swept : Changes told active node node.expire.1 := changes_expire informed
      split
      · exact swept.beside ⟨rfl, rfl, rfl, rfl, rfl, rfl, rfl⟩
      · refine swept.beside ⟨rfl, rfl, rfl, rfl, rfl, rfl, rfl⟩
    · exact .refl

end JointQuery.Node
