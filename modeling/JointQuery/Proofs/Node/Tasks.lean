import JointQuery.Proofs.Node.Ends

/-! How the tasks of a node and the requests of its clients move its front. A pass of a reporter is
one task but many moves: while it lasts, the desk is taken to be in the phase that the reporter has
got to. -/
namespace JointQuery.Node

open Front (Move Moves)

/-! ## Reporters -/

section

variable {node reported : Node} {index next : Nat} {session : Session} {changed : Bool}
  {seen : SessionState} {event : ClientEvent} {fate : Offer}

/-- Losing the client ends the session if it is live. -/
theorem front_loseClient (node : Node) (index : Nat) :
    (∃ ledger, node.ledger.Move ledger ∧
      (node.loseClient index).front = node.front.record ledger) ∨
    (node.loseClient index).front = node.front := by
  have kept := node.front_markClientGone index
  have ends := (node.markClientGone index).front_finish index
    (rfl : SessionState.cancelled.isTerminal = true) (by decide)
  have ledger : (node.markClientGone index).ledger = node.ledger := congrArg Front.ledger kept
  rw [kept, ledger] at ends
  simpa only [loseClient, terminate_none] using ends

private theorem moves_refuseReport (found : node.session? index = some session) {phase : Phase}
    (begun : phase ≠ .idle) (event : ClientEvent) :
    Moves (node.front.alter index (·.enter phase)) (node.refuseReport index event).front := by
  have present := found
  rw [session?_eq] at present
  have ceased : Moves (node.front.alter index (·.enter phase)) (node.endReporter index).front := by
    rw [front_endReporter found]
    exact .single (Front.move_enter present (.ceased begun))
  simp only [refuseReport]
  split
  · exact ceased
  · rcases node.front_loseClient index with ⟨ledger, move, ends⟩ | same
    · obtain ⟨after, held, -⟩ := move.grows present
      have still : (node.loseClient index).session? index = some after :=
        (session?_of_front ends index).trans held
      have ended : Move (node.front.alter index (·.enter phase))
          ((node.front.record ledger).alter index (·.enter phase)) := .moved move
      rw [front_endReporter still, ends]
      exact .head ended (.single (Front.move_enter held (.ceased begun)))
    · have still := (session?_of_front same index).trans present
      rw [front_endReporter still, same, ← front_endReporter found]
      exact ceased

/-- A report that is news is queued, or the pass stops. -/
theorem moves_offerReport (found : node.session? index = some { session with changed := changed })
    (news : session.News node.front.scale next seen event) (tick : Nat)
    (offered : node.offerReport index session next tick seen event = (reported, fate)) :
    (fate = .sent → reported.front = node.front.alter index (·.tell session.client event)) ∧
    (fate ≠ .sent →
      Moves (node.front.alter index (·.enter (.passing next seen))) reported.front) := by
  have told := node.front_offer (.reporter index) session.client ⟨some index, event⟩
  have present := found
  rw [session?_eq] at present
  simp only [offerReport] at offered
  split at offered <;> rename_i queued <;> rw [queued] at told <;> obtain ⟨rfl, rfl⟩ := offered
  · exact ⟨fun _ => told, fun unsent => absurd rfl unsent⟩
  · rename_i refused deadline
    have still := (session?_of_front told index).trans present
    have begun : Phase.passing next seen ≠ .idle := by simp
    have moves := moves_refuseReport still begun event
    rw [told] at moves
    exact ⟨by simp, fun _ => moves⟩
  · rename_i waiting deadline
    have still := (session?_of_front told index).trans present
    rw [front_setReporter waiting still, told]
    exact ⟨by simp, fun _ => .single (Front.move_enter present (.offered rfl news))⟩

/-- What matters to a reporter is not whether the session has changed since it last looked. -/
private theorem moves_told
    (present : node.front.ledger.sessions[index]? = some { session with changed := changed })
    (news : session.News node.front.scale next seen event) :
    Moves (node.front.alter index (·.enter (.passing next seen)))
      ((node.front.alter index (·.tell session.client event)).alter index
        (·.enter (.afterEvent next seen event))) := by
  have same : ({ session with changed := changed } : Session).News node.front.scale next seen
      event := news
  have moves := Front.moves_told present same
  exact moves

private theorem moves_closePass
    (found : node.session? index = some { session with changed := changed })
    (undone : session.tupleDone? next node.front.scale = none) (tick : Nat) (seen : SessionState) :
    Moves (node.front.alter index (·.enter (.passing next seen)))
      (node.closePass index session next tick seen).front := by
  have present := found
  rw [session?_eq] at present
  simp only [closePass]
  split
  · rw [front_endPass found]
    exact .single (Front.move_enter present (.closed rfl))
  · rename_i event closing
    have news : session.News node.front.scale next seen event := .inr ⟨undone, closing⟩
    split
    · rename_i offered
      have told := (moves_offerReport found news tick offered).1 rfl
      have still := (session?_of_front told index).trans present
      have closes : Phase.afterEvent next seen event = .afterPass next seen := by
        rcases Session.eq_of_closingEvent? closing with ⟨-, rfl⟩ | ⟨-, fraction, rfl⟩ <;> rfl
      rw [front_endPass still, told, ← closes]
      exact moves_told present news
    · rename_i unsent offered
      exact (moves_offerReport found news tick offered).2 unsent

/-- Each tuple that is reported is told, and so is what closes the pass. -/
theorem moves_reportTuples (found : node.session? index = some { session with changed := changed })
    (tick : Nat) (seen : SessionState) (count next : Nat)
    (enough : session.tupleCount ≤ next + count) :
    Moves (node.front.alter index (·.enter (.passing next seen)))
      (reportTuples index session tick seen count next node).front := by
  induction count generalizing next node with
  | zero =>
    have undone : session.tupleDone? next node.front.scale = none := by
      have outside : session.slot? next = none := List.getElem?_eq_none_iff.mpr enough
      simp [Session.tupleDone?, Session.isTupleComplete, outside]
    exact moves_closePass found undone tick seen
  | succ count ih =>
    simp only [reportTuples]
    split
    · rename_i undone
      exact moves_closePass found undone tick seen
    · rename_i event done
      have news : session.News node.front.scale next seen event := .inl done
      split
      · rename_i offered
        have told := (moves_offerReport found news tick offered).1 rfl
        have present := found
        rw [session?_eq] at present
        have still := (session?_of_front told index).trans present
        have goes : Phase.afterEvent next seen event = .passing (next + 1) seen := by
          obtain ⟨row, rfl, -⟩ := Session.eq_of_tupleDone? done
          rfl
        have later := ih still (next + 1) (by omega)
        rw [told, ← goes] at later
        exact (moves_told present news).trans later
      · rename_i unsent offered
        exact (moves_offerReport found news tick offered).2 unsent

private theorem moves_pass (found : node.session? index = some { session with changed := changed })
    (next tick : Nat) (seen : SessionState) :
    Moves (node.front.alter index (·.enter (.passing next seen)))
      (node.pass index session next tick seen).front :=
  moves_reportTuples found tick seen _ next (by omega)

private theorem moves_lookAtSession (found : node.session? index = some session)
    (watching : (node.front.desks index).phase = .watching next) (tick : Nat) :
    Moves node.front (node.lookAtSession index session next tick).front := by
  have present := found
  rw [session?_eq] at present
  have begun : Move node.front (node.front.alter index (·.enter (.passing next session.state))) :=
    .worked present (.begun watching)
  simp only [lookAtSession]
  split
  · have still : (node.cancelTimer (.reporter index) .tick).session? index =
        some { session with changed := session.changed } := found
    have moves := moves_pass still next
      (nextTick tick node.config.resultUpdateCooldownMs.toNat node.now) session.state
    rw [front_cancelTimer] at moves
    exact .head begun moves
  · split
    · have set := node.front_setSession found { session with changed := false }
      have still : (node.setSession index { session with changed := false }).session? index =
          some { session with changed := false } := by
        rw [session?_of_front set]
        exact Ledger.sessions_put_self present _
      have looked := still
      rw [session?_eq] at looked
      have seen : Move node.front
          (node.setSession index { session with changed := false }).front := by
        rw [set]
        exact .moved (.seen present)
      have begun' : Move (node.setSession index { session with changed := false }).front
          ((node.setSession index { session with changed := false }).front.alter index
            (·.enter (.passing next session.state))) := by
        refine .worked looked (.begun ?_)
        rw [set]
        exact watching
      exact .head seen (.head begun' (moves_pass still next tick session.state))
    · have same : (node.front.desks index).enter (.watching next) = node.front.desks index := by
        rw [← watching, Desk.enter_phase]
      rw [front_watch found, Front.alter_of_same same]

private theorem moves_resumePass (found : node.session? index = some session)
    (next tick : Nat) (seen : SessionState) (event : ClientEvent) :
    Moves (node.front.alter index (·.enter (.afterEvent next seen event)))
      (node.resumePass index session next tick seen event).front := by
  have still : node.session? index = some { session with changed := session.changed } := found
  cases event with
  | tupleDone id tuple row => exact moves_pass still (next + 1) tick seen
  | accepted | tupleProgress | allDone | error =>
    exact Moves.of_eq (front_endPass found next tick seen)

private theorem moves_pollReporter (node : Node) (index : Nat) :
    Moves node.front (node.pollReporter index).front := by
  simp only [pollReporter]
  split
  · exact .refl
  · rename_i flight held
    have found := session?_of_flight held
    have phase : (node.front.desks index).phase = flight.reporter.phase := by
      simp [front, desk, held]
    split
    · exact .refl
    · exact .refl
    · rename_i next tick reporter
      rw [reporter] at phase
      exact moves_lookAtSession found phase tick
    · rename_i next tick seen event deadline reporter
      rw [reporter] at phase
      have told := node.front_resumeOffer (.reporter index) flight.session.client
        ⟨some index, event⟩ deadline
      have present := found
      rw [session?_eq] at present
      split <;> rename_i queued <;> rw [queued] at told
      · exact Moves.of_eq told
      · rename_i sent
        have heard : sent.front =
            node.front.alter index (·.tell flight.session.client event) := told
        have still := (session?_of_front heard index).trans present
        have moves := moves_resumePass still next tick seen event
        rw [heard, Front.alter_alter] at moves
        exact .head (.worked present (.told phase)) moves
      · rename_i refused
        have kept : refused.front = node.front := told
        have still := (session?_of_front kept index).trans present
        have begun : Phase.sending next seen event ≠ .idle := by simp
        have same : (node.front.desks index).enter (.sending next seen event) =
            node.front.desks index := by
          rw [← Reporter.phase, ← phase, Desk.enter_phase]
        have moves := moves_refuseReport still begun event
        rwa [kept, Front.alter_of_same same] at moves

end

/-! ## Waiting for senders -/

private theorem moves_join {node : Node} {index : Nat} {flight : Flight}
    (present : node.flights[index]? = some flight) (ended : List Party) :
    Moves node.front (node.join index flight ended).front := by
  simp only [join]
  split
  · rename_i cause _
    have moves := (node.setFanOut index .over).moves_terminate index (some cause)
      (rfl : SessionState.failed.isTerminal = true) (by decide)
    rwa [front_setFanOut] at moves
  · split
    · have found := session?_of_flight present
      rw [session?_eq] at found
      have kept := node.front_setFanOut index .over
      have ledger : (node.setFanOut index .over).ledger = node.ledger := congrArg Front.ledger kept
      rw [front_setSession _ ((session?_of_front kept index).trans found), kept, ledger]
      exact .single (.moved (.advanced found .awaited rfl))
    · rw [front_setFanOut]

private theorem moves_pollFanOut (node : Node) (index : Nat) :
    Moves node.front (node.pollFanOut index).front := by
  simp only [pollFanOut]
  split
  · exact .refl
  · rename_i flight present
    split
    · exact .refl
    · exact .refl
    · rw [front_startSenders]
    · exact moves_join present _

/-! ## Requests -/

section

variable {node offered : Node} {index place : Nat} {session : Session} {request : Request}
  {fate : Offer}

private theorem front_launch (found : node.session? place = some session) :
    (node.launch place).front =
      (node.front.record
        (node.ledger.put place (session.transition .created .dispatched).1)).alter place
        (·.enter (.watching 0)) := by
  obtain ⟨flight, held, rfl⟩ := Option.map_eq_some_iff.mp found
  simp only [launch, front_wakeAll]
  rw [front_modifyFlight node held]
  rfl

/-- The client is told that its query is accepted: the request that waited to say so ends, and the
work for the session starts. -/
theorem moves_accepted (found : node.session? place = some session)
    (requested : node.requests[index]? = some request)
    (heard : offered.front = node.front.alter place (·.tell request.client session.acceptedEvent))
    (id : QueryId) (deadline : Nat) :
    Moves (node.setRequest index (.accepting place deadline)).front
      ((offered.launch place).setRequest index (.ended (.ok id))).front := by
  have waits := front_setRequest requested (.accepting place deadline)
  rw [session?_eq] at found
  have still := (session?_of_front heard place).trans found
  have ledger : offered.ledger = node.ledger := congrArg Front.ledger heard
  have asks : ((node.setRequest index (.accepting place deadline)).front.desks place).asks index =
      some request.client := by
    rw [waits]
    simp [Front.file, Request.asks?]
  have opened : Move (node.setRequest index (.accepting place deadline)).front
      (((node.setRequest index (.accepting place deadline)).front.withdraw index).alter place
        fun desk => (desk.tell request.client session.acceptedEvent).enter (.watching 0)) :=
    .opened found asks
  have advanced : node.ledger.Move _ := .advanced found .dispatched rfl
  refine .head opened ?_
  rw [front_setRequest_of_apart _ index (rfl : (RequestState.ended (.ok id)).isApart = true),
    front_launch still, heard, ledger, waits, Front.file_withdraw,
    Front.alter_withdraw fun _ => rfl, Front.withdraw_record, Front.alter_withdraw fun _ => rfl,
    Front.alter_record, Front.alter_alter]
  exact .single (.moved advanced)

/-- The client cannot be told: the session is cancelled, and the request fails. -/
theorem moves_unaccepted (requested : node.requests[index]? = some request)
    (unsent : offered.front = node.front) (client : Nat) (tellsFaults : Bool) (cause : QueryError)
    (deadline : Nat) :
    Moves (node.setRequest index (.accepting place deadline)).front
      ((offered.terminate place .cancelled none).1.failRequest index client tellsFaults
        cause).front := by
  have withdrawn : Move (node.setRequest index (.accepting place deadline)).front
      (node.front.withdraw index) := by
    rw [front_setRequest requested, ← Front.file_withdraw]
    exact .withdrawn index
  have ledger : offered.ledger = node.ledger := congrArg Front.ledger unsent
  have ends := offered.front_finish place
    (rfl : SessionState.cancelled.isTerminal = true) (by decide)
  rw [unsent, ledger] at ends
  rw [front_failRequest, terminate_none]
  rcases ends with ⟨next, move, ended⟩ | same
  · have moved : Move (node.front.withdraw index) ((node.front.record next).withdraw index) :=
      .moved move
    rw [ended]
    exact .head withdrawn (.single moved)
  · rw [same]
    exact .single withdrawn

/-- What becomes of a request once its session has been offered to the client. The request is taken
to wait until then. -/
theorem moves_settleAccepted (found : node.session? place = some session)
    (requested : node.requests[index]? = some request) (kept : offered.requests = node.requests)
    (told : offered.front = if fate = .sent then
      node.front.hear request.client ⟨some place, session.acceptedEvent⟩ else node.front)
    (client : Nat) (tellsFaults : Bool) (id : QueryId) (deadline : Nat) :
    Moves (node.setRequest index (.accepting place deadline)).front
      (offered.settleAccepted index client tellsFaults place id deadline fate).front := by
  cases fate with
  | waiting =>
    have unsent : offered.front = node.front := told
    have requested' : offered.requests[index]? = some request := kept ▸ requested
    have same := front_setRequest requested' (.accepting place deadline)
    rw [unsent, ← front_setRequest requested] at same
    exact Moves.of_eq same
  | sent => exact moves_accepted found requested told id deadline
  | refused => exact moves_unaccepted requested told client tellsFaults _ deadline

/-- A session is entered, and its request waits to say that it is accepted. -/
theorem move_register {id : QueryId} {now : Int64}
    (requested : node.requests[index]? = some request) (apart : request.state.isApart = true)
    (created : Session.create id query request.client ref now = .ok session)
    (unknown : node.registry.contains session.id = false) (deadline : Nat) :
    Move node.front ((node.register session).1.setRequest index
      (.accepting node.flights.length deadline)).front := by
  obtain ⟨domain, -, same⟩ := Session.create_eq created
  have asked : request.client = session.client := by rw [same]
  have last : node.flights.length = node.front.ledger.sessions.length := by simp [front, ledger]
  have silent : ∀ place, ((node.front.record (node.ledger.enter session)).desks place).asks index =
      none := asks_of_apart requested apart
  have kept : (node.register session).1.requests[index]? = some request := requested
  rw [front_setRequest kept, front_register]
  have waits : (node.front.record (node.ledger.enter session)).file index
      ({ request with state := .accepting node.flights.length deadline } : Request).asks? =
      (node.front.record (node.ledger.enter session)).alter node.front.ledger.sessions.length
        (·.ask index session.client) := by
    rw [← last, ← asked, ← Front.file_of_silent silent]
    refine congrArg _ (funext fun place => ?_)
    simp [Request.asks?, eq_comm]
  rw [waits]
  exact .entered created unknown index

private theorem moves_drawSession (requested : node.requests[index]? = some request)
    (apart : request.state.isApart = true) (tellsFaults : Bool) (query : Query) :
    Moves node.front (node.drawSession index request.client tellsFaults query).front := by
  simp only [drawSession]
  split
  · rw [front_failRequest]
    exact .single (.withdrawn index)
  · rename_i session created
    split
    · rw [front_wakeFirst, front_setRequest_of_apart _ _ rfl]
      exact .single (.withdrawn index)
    · rename_i unknown
      have drawn : ({ node with drawn := node.drawn + 1 } : Node).requests[index]? = some request :=
        requested
      obtain ⟨domain, -, same⟩ := Session.create_eq created
      have fresh : node.registry.contains session.id = false := by
        rw [same]
        simpa using unknown
      have entered := move_register drawn apart created fresh
      have found : (({ node with drawn := node.drawn + 1 } : Node).register session).1.session?
          node.flights.length = some session := by
        simp [register, session?, Flight.fresh]
      have kept : (({ node with drawn := node.drawn + 1 } : Node).register session).1.requests[
          index]? = some request := requested
      exact .head (entered _) (moves_settleAccepted found kept (requests_offer ..) (front_offer ..)
        request.client tellsFaults _ _)

theorem moves_beginQuery (node : Node) (client : Nat) (query : Query) (tellsFaults : Bool) :
    Moves node.front (node.beginQuery client query tellsFaults).1.front := by
  have added : (node.addRequest client tellsFaults (.drawing query)).1.front = node.front :=
    node.front_addRequest client tellsFaults rfl
  simp only [beginQuery]
  split
  · rw [front_failRequest, added]
    exact .single (.withdrawn _)
  · have requested : (node.addRequest client tellsFaults (.drawing query)).1.requests[
        node.requests.length]? = some ⟨client, tellsFaults, .drawing query⟩ :=
      List.getElem?_concat_length ..
    rw [← added]
    exact moves_drawSession requested rfl tellsFaults query

theorem moves_beginCancel (node : Node) (client : Nat) (id : QueryId) :
    Moves node.front (node.beginCancel client id).1.front := by
  have added : (node.addRequest client true (.ended (.ok id))).1.front = node.front :=
    node.front_addRequest client true rfl
  simp only [beginCancel]
  rw [← added]
  split
  · exact moves_cancel (node.addRequest client true (.ended (.ok id))).1 id
  · rw [front_answerFault]
    exact .single (.withdrawn _)

theorem moves_beginComplaint (node : Node) (client : Nat) :
    Moves node.front (node.beginComplaint client).1.front := by
  simp only [beginComplaint]
  rw [front_answerFault, front_addRequest node client true rfl]
  exact .single (.withdrawn _)

private theorem moves_pollRequest (node : Node) (index : Nat) :
    Moves node.front (node.pollRequest index).front := by
  simp only [pollRequest]
  split
  · exact .refl
  · rename_i request requested
    split
    · rename_i query drawing
      exact moves_drawSession requested (by rw [drawing]; rfl) request.tellsFaults query
    · rename_i place deadline accepting
      split
      · exact .refl
      · rename_i session found
        have told := node.front_resumeOffer (.request index) request.client
          ⟨some place, session.acceptedEvent⟩ deadline
        have kept := node.requests_resumeOffer (.request index) request.client
          ⟨some place, session.acceptedEvent⟩ deadline
        have moves := moves_settleAccepted found requested kept told request.client
          request.tellsFaults session.id deadline
        have waits : (node.setRequest index (.accepting place deadline)).front = node.front := by
          rw [front_setRequest requested]
          refine Front.file_of_same fun other => ?_
          simp [front, desk, requested, Request.asks?, accepting]
        rwa [waits] at moves
    · rw [front_settleAnswer, front_resumeOffer_none]
      exact .single (.withdrawn index)
    · exact .refl

end

/-! ## Running tasks -/

private theorem moves_pollSweeper (node : Node) : Moves node.front node.pollSweeper.front := by
  simp only [pollSweeper]
  split
  · exact .refl
  · split
    · split
      · exact node.moves_expire
      · exact node.moves_expire
    · exact .refl

theorem moves_poll (node : Node) (task : TaskId) :
    Moves node.front (node.poll task).front := by
  cases task with
  | fanOut session => exact node.moves_pollFanOut session
  | sender session party => exact Moves.of_eq (front_pollSender session party)
  | reporter session => exact node.moves_pollReporter session
  | writer channel => exact Moves.of_eq (front_pollWriter channel)
  | sweeper => exact node.moves_pollSweeper
  | post index => exact Moves.of_eq (front_pollPost index)
  | delivery index => exact Moves.of_eq (node.front_pollDelivery index)
  | reservation index => exact Moves.of_eq (front_pollReservation index)
  | request index => exact node.moves_pollRequest index

end JointQuery.Node
