import JointQuery.Proofs.Node.Edits

/-! What each function of a node changes, as a series of edits. The reach is any that has room for
it: the places it works at, the senders it drives, the parties that it deals with. -/
namespace JointQuery

/-! ## References -/

namespace ClientQueue

variable {τ ε : Type} (queue : ClientQueue τ ε)

theorem ref_trySend (event : ε) : (queue.trySend event).1.ref = queue.ref := by
  unfold trySend
  split
  · rfl
  · split <;> rfl

theorem ref_offer (task : τ) (event : ε) : (queue.offer task event).1.ref = queue.ref := by
  unfold offer
  split
  · rfl
  · split
    · rfl
    · split
      · split <;> rfl
      · rfl

private theorem ref_resume [BEq τ] (task : τ) (event : ε) (timeUp : Bool) :
    (queue.resume task event timeUp).1.ref = queue.ref := by
  unfold resume
  split
  · rfl
  · split
    · rfl
    · split <;> rfl

private theorem ref_read : queue.read.1.ref = queue.ref := by
  unfold read
  split <;> rfl

end ClientQueue

/-! ## Tuples -/

namespace Session

/-- Claiming a tuple changes nothing of a session but what is known of its tuples. -/
theorem exists_claim (session : Session) (tuple : Nat) : ∃ slots remaining changed,
    (session.claim tuple).1 =
      { session with slots := slots, remaining := remaining, changed := changed } := by
  have marked : ∃ slots remaining changed, (session.markTupleComplete tuple).1 =
      { session with slots := slots, remaining := remaining, changed := changed } := by
    unfold markTupleComplete
    split
    · exact ⟨_, _, _, rfl⟩
    · split <;> exact ⟨_, _, _, rfl⟩
  unfold claim
  split <;> rename_i result <;> rw [result] at marked <;> exact marked

/-- Nor does a partial result. -/
theorem exists_apply (session : Session) (event : PartialResult) : ∃ slots remaining changed,
    (session.apply event).1 =
      { session with slots := slots, remaining := remaining, changed := changed } := by
  unfold apply
  dsimp only
  split
  · exact ⟨_, _, _, rfl⟩
  · split
    · exact ⟨_, _, _, rfl⟩
    · split
      · exact ⟨_, _, _, rfl⟩
      · rename_i written _
        exact (session.setSlot event.tupleIndex.toNat written).exists_claim event.tupleIndex.toNat

end Session

theorem Directory.party_of_find? {directory : Directory} {party : Party} {endpoint : Endpoint}
    (found : directory.find? party = some endpoint) : endpoint.party = party := by
  have same := List.find?_some found
  revert same
  cases endpoint.party <;> cases party <;> simp +decide

namespace Node

variable {reach : Reach} {node after : Node} {index place client next tick deadline : Nat}
  {party : Party} {task : TaskId} {id : QueryId} {session : Session} {event : ClientEvent}
  {message : PartyMessage}

/-! ## What is to be done -/

theorem edits_wake : node.Edits reach (node.wake task) :=
  .single (.scheduled (node.agenda.extends_wake task) (node.agenda.retains_wake task))

theorem edits_wakeAll {tasks : List TaskId} : node.Edits reach (node.wakeAll tasks) :=
  .single (.scheduled (node.agenda.extends_wakeAll tasks) (node.agenda.retains_wakeAll tasks))

private theorem edits_wakeFirst : node.Edits reach (node.wakeFirst task) :=
  .single (.scheduled (node.agenda.extends_wakeFirst task) (node.agenda.retains_wakeFirst task))

/-- Only a sender sets a timer for another try. -/
theorem edits_setTimer {kind : TimerKind} {due : Nat} (own : kind = .retry → task ∈ reach.tasks) :
    node.Edits reach (node.setTimer task kind due) :=
  .single (.scheduled (node.agenda.extends_setTimer task kind due)
    (node.agenda.retains_setTimer own due))

private theorem edits_cancelTimer {kind : TimerKind} (own : kind = .retry → task ∈ reach.tasks) :
    node.Edits reach (node.cancelTimer task kind) :=
  .single (.scheduled (node.agenda.extends_cancelTimer task kind)
    (node.agenda.retains_cancelTimer own))

/-! ## Clients -/

section

variable {queue changed : ClientQueue TaskId Notice} {notice : Notice}

private theorem edits_setClient (shown : reach.shows) (held : node.clients[client]? = some queue)
    (ref : changed.ref = queue.ref) : node.Edits reach (node.setClient client changed) := by
  refine .single (.heard shown (fun other before found => ?_) node.attended)
  by_cases same : client = other
  · subst same
    obtain rfl := Option.some.inj (held.symm.trans found)
    obtain ⟨inside, -⟩ := List.getElem?_eq_some_iff.mp held
    exact ⟨changed, by simp [inside], ref⟩
  · exact ⟨before, by rw [List.getElem?_set_ne same, found], rfl⟩

theorem edits_addClient {ref : String} {capacity patience : Nat} {attended : Bool}
    (shown : reach.shows) :
    node.Edits reach (node.addClient ref capacity patience attended).1 :=
  .single (.heard shown (fun _ queue held =>
    ⟨queue, (List.getElem?_append_left (List.getElem?_eq_some_iff.mp held).1).trans held, rfl⟩) _)

theorem edits_markDisconnected (shown : reach.shows) :
    node.Edits reach (node.markDisconnected client) := by
  unfold markDisconnected
  split
  · rename_i queue held
    exact edits_setClient shown held rfl
  · exact .refl

private theorem edits_trySend (shown : reach.shows) :
    node.Edits reach (node.trySend client notice).1 := by
  unfold trySend
  split
  · rename_i queue held
    exact edits_setClient shown held (queue.ref_trySend notice)
  · exact .refl

theorem edits_offer (shown : reach.shows) :
    node.Edits reach (node.offer task client notice).1 := by
  unfold offer
  split
  · exact .refl
  · rename_i queue held
    have offered : node.Edits reach (node.setClient client (queue.offer task notice).1) :=
      edits_setClient shown held (queue.ref_offer task notice)
    dsimp only
    split
    · exact offered.trans (edits_setTimer (by simp))
    · exact offered

theorem edits_resumeOffer (shown : reach.shows) :
    node.Edits reach (node.resumeOffer task client notice deadline).1 := by
  unfold resumeOffer
  split
  · exact .refl
  · rename_i queue held
    have resumed : node.Edits reach
        (node.setClient client (queue.resume task notice (deadline ≤ node.now)).1) :=
      edits_setClient shown held (queue.ref_resume ..)
    dsimp only
    split
    · exact resumed
    · exact resumed.trans (edits_cancelTimer (by simp))

theorem edits_readEvent (shown : reach.shows) :
    node.Edits reach (node.readEvent client).1 := by
  unfold readEvent
  split
  · exact .refl
  · rename_i queue held
    exact (edits_setClient shown held queue.ref_read).trans edits_wakeAll

theorem edits_closeClient (shown : reach.shows) :
    node.Edits reach (node.closeClient client) := by
  unfold closeClient
  split
  · exact .refl
  · rename_i queue held
    exact (edits_setClient shown held (rfl : queue.close.1.ref = queue.ref)).trans edits_wakeAll

theorem edits_addDelivery : node.Edits reach (node.addDelivery client event).1 :=
  .trans (.single (.noted ..)) edits_wake

private theorem edits_settleDelivery {delivery : Delivery} {offer : Offer} :
    node.Edits reach (node.settleDelivery index delivery offer deadline) := by
  cases offer <;> exact .single (.noted ..)

theorem edits_pollDelivery (shown : reach.shows) :
    node.Edits reach (node.pollDelivery index) := by
  unfold pollDelivery
  split
  · exact .refl
  · split
    · exact .refl
    · exact (edits_offer shown).trans edits_settleDelivery
    · exact (edits_resumeOffer shown).trans edits_settleDelivery

end

/-! ## Sessions -/

section

variable {target : SessionState} {result : PartialResult}

private theorem edits_finish (shown : reach.shows) (chosen : index ∈ reach.places)
    (final : target.isTerminal = true) : node.Edits reach (node.finish index target).1 := by
  unfold finish
  split
  · exact .refl
  · rename_i session present
    split
    · exact .refl
    · rename_i ended finished
      have live : session.isTerminal = false := by
        cases live : session.isTerminal with
        | false => rfl
        | true => simp [Session.finish_of_terminal live] at finished
      obtain ⟨rfl, -⟩ := Prod.mk.inj ((Session.finish_of_live live target).symm.trans finished)
      exact .single (.ended shown chosen present final
        (fun _ target => List.mem_cons_of_mem _ (List.mem_map_of_mem target)) _)

private theorem edits_tellEnd {cause : QueryError} (shown : reach.shows) :
    node.Edits reach (node.tellEnd index cause) := by
  unfold tellEnd
  split
  · exact .refl
  · split
    · exact edits_trySend shown
    · exact .refl

theorem edits_terminate {cause : Option QueryError} (shown : reach.shows)
    (chosen : index ∈ reach.places) (final : target.isTerminal = true) :
    node.Edits reach (node.terminate index target cause).1 := by
  have ends : node.Edits reach (node.finish index target).1 := edits_finish shown chosen final
  unfold terminate
  split
  · rename_i finished
    rw [finished] at ends
    exact ends.trans (edits_tellEnd shown)
  · rename_i finished _
    rw [finished] at ends
    exact ends

theorem edits_terminateAll {cause : Nat → Option QueryError} {indices : List Nat}
    (shown : reach.shows) (chosen : ∀ index ∈ indices, index ∈ reach.places)
    (final : target.isTerminal = true) :
    node.Edits reach (node.terminateAll target cause indices).1 := by
  induction indices generalizing node with
  | nil => exact .refl
  | cons index rest ih =>
    have first : node.Edits reach (node.terminate index target (cause index)).1 :=
      edits_terminate shown (chosen index List.mem_cons_self) final
    exact first.trans (ih fun other member => chosen other (List.mem_cons_of_mem _ member))

/-- A partial result concerns the session that is found under its identifier. -/
theorem edits_receivePartial (shown : reach.shows)
    (chosen : ∀ place session, node.find? result.queryId = some (place, session) →
      place ∈ reach.places) : node.Edits reach (node.receivePartial result).1 := by
  unfold receivePartial
  split
  · exact .refl
  · rename_i place session sought
    have here := chosen place session sought
    have applied : node.Edits reach (node.setSession place (session.apply result).1) := by
      refine .single (.flew here fun flight held => ?_)
      have present := (node.session?_eq place).trans (find?_eq_some_iff.mp sought).2
      obtain rfl := Option.some.inj ((session?_of_flight held).symm.trans present)
      obtain ⟨slots, remaining, changed, same⟩ := flight.session.exists_apply result
      rw [same]
      exact .recorded shown slots remaining changed
    dsimp only
    split
    · exact applied
    · exact applied
    · exact applied.trans edits_wake
    · exact (applied.trans edits_wake).trans (edits_finish shown here rfl)

theorem edits_cancel (shown : reach.shows)
    (chosen : ∀ place session, node.find? id = some (place, session) → place ∈ reach.places) :
    node.Edits reach (node.cancel id).1 := by
  unfold cancel
  split
  · exact .refl
  · rename_i place session sought
    exact edits_terminate shown (chosen place session sought) rfl

private theorem edits_markClientGone (shown : reach.shows) :
    node.Edits reach (node.markClientGone index) := by
  unfold markClientGone
  split
  · exact edits_markDisconnected shown
  · exact .refl

theorem edits_loseClient (shown : reach.shows) (chosen : index ∈ reach.places) :
    node.Edits reach (node.loseClient index) :=
  (edits_markClientGone shown).trans (edits_terminate shown chosen rfl)

theorem edits_clientLeft {ref : String} (shown : reach.shows)
    (chosen : ∀ index ∈ node.registered (·.clientRef == ref), index ∈ reach.places) :
    node.Edits reach (node.clientLeft ref).1 := by
  have marked (indices : List Nat) (node : Node) :
      node.Edits reach (indices.foldl markClientGone node) := by
    induction indices generalizing node with
    | nil => exact .refl
    | cons index rest ih => exact (edits_markClientGone shown).trans (ih _)
  exact (marked _ node).trans (edits_terminateAll shown chosen rfl)

/-- The places of the sessions that are older than sessions get. -/
def overaged (node : Node) : List Nat :=
  node.registered fun session =>
    isExpired node.wall (lifetimeMs node.config.maxSessionLifetimeSecs) session.createdAt

theorem edits_expire (shown : reach.shows)
    (chosen : ∀ index ∈ node.overaged, index ∈ reach.places) : node.Edits reach node.expire.1 :=
  edits_terminateAll shown chosen rfl

theorem edits_pollSweeper (shown : reach.shows) (chosen : ∀ due, node.sweepDue = some due →
    due ≤ node.now → ∀ index ∈ node.overaged, index ∈ reach.places) :
    node.Edits reach node.pollSweeper := by
  unfold pollSweeper
  split
  · exact .refl
  · rename_i due sweeps
    split
    · rename_i reached
      have swept (next : Nat) : node.Edits reach { node.expire.1 with sweepDue := some next } :=
        (edits_expire shown (chosen due sweeps reached)).tail (.noted ..)
      dsimp only
      split
      · exact (swept _).trans edits_wakeFirst
      · exact (swept _).trans (edits_setTimer (by simp))
    · exact .refl

end

/-! ## Reports -/

section

variable {seen : SessionState}

private theorem edits_setReporter {reporter : Reporter} (shown : reach.shows)
    (chosen : index ∈ reach.places) : node.Edits reach (node.setReporter index reporter) :=
  .single (.flew chosen fun _ _ => .reported shown reporter)

private theorem edits_watch (shown : reach.shows) (chosen : index ∈ reach.places) :
    node.Edits reach (node.watch index next tick) := by
  unfold watch
  dsimp only
  split
  · exact (edits_setReporter shown chosen).trans edits_wakeFirst
  · exact (edits_setReporter shown chosen).trans (edits_setTimer (by simp))

private theorem edits_endReporter (shown : reach.shows) (chosen : index ∈ reach.places) :
    node.Edits reach (node.endReporter index) :=
  (edits_setReporter shown chosen).trans (edits_cancelTimer (by simp))

private theorem edits_endPass (shown : reach.shows) (chosen : index ∈ reach.places) :
    node.Edits reach (node.endPass index next tick seen) := by
  unfold endPass
  split
  · exact edits_endReporter shown chosen
  · exact edits_watch shown chosen

private theorem edits_refuseReport (shown : reach.shows) (chosen : index ∈ reach.places) :
    node.Edits reach (node.refuseReport index event) := by
  unfold refuseReport
  split
  · exact edits_endReporter shown chosen
  · exact (edits_loseClient shown chosen).trans (edits_endReporter shown chosen)

private theorem edits_offerReport (shown : reach.shows) (chosen : index ∈ reach.places) :
    node.Edits reach (node.offerReport index session next tick seen event).1 := by
  have offered : node.Edits reach
      (node.offer (.reporter index) session.client ⟨some index, event⟩).1 := edits_offer shown
  unfold offerReport
  split <;> rename_i result <;> rw [result] at offered
  · exact offered
  · exact offered.trans (edits_refuseReport shown chosen)
  · exact offered.trans (edits_setReporter shown chosen)

private theorem edits_closePass (shown : reach.shows) (chosen : index ∈ reach.places) :
    node.Edits reach (node.closePass index session next tick seen) := by
  unfold closePass
  split
  · exact edits_endPass shown chosen
  · rename_i event _
    have offered : node.Edits reach (node.offerReport index session next tick seen event).1 :=
      edits_offerReport shown chosen
    split <;> rename_i result <;> rw [result] at offered
    · exact offered.trans (edits_endPass shown chosen)
    · exact offered

private theorem edits_reportTuples {count : Nat} (shown : reach.shows)
    (chosen : index ∈ reach.places) :
    node.Edits reach (reportTuples index session tick seen count next node) := by
  induction count generalizing next node with
  | zero => exact edits_closePass shown chosen
  | succ count ih =>
    unfold reportTuples
    split
    · exact edits_closePass shown chosen
    · rename_i event _
      have offered : node.Edits reach (node.offerReport index session next tick seen event).1 :=
        edits_offerReport shown chosen
      split <;> rename_i result <;> rw [result] at offered
      · exact offered.trans ih
      · exact offered

private theorem edits_pass (shown : reach.shows) (chosen : index ∈ reach.places) :
    node.Edits reach (node.pass index session next tick seen) :=
  edits_reportTuples shown chosen

private theorem edits_lookAtSession (shown : reach.shows) (chosen : index ∈ reach.places)
    (present : node.session? index = some session) :
    node.Edits reach (node.lookAtSession index session next tick) := by
  unfold lookAtSession
  split
  · exact (edits_cancelTimer (by simp)).trans (edits_pass shown chosen)
  · split
    · have seen : node.Edits reach (node.setSession index { session with changed := false }) := by
        refine .single (.flew chosen fun flight held => ?_)
        obtain rfl := Option.some.inj ((session?_of_flight held).symm.trans present)
        exact .recorded shown _ _ false
      exact seen.trans (edits_pass shown chosen)
    · exact edits_watch shown chosen

private theorem edits_resumePass (shown : reach.shows) (chosen : index ∈ reach.places) :
    node.Edits reach (node.resumePass index session next tick seen event) := by
  unfold resumePass
  split
  · exact edits_pass shown chosen
  · exact edits_endPass shown chosen

theorem edits_pollReporter (shown : reach.shows) (chosen : index ∈ reach.places) :
    node.Edits reach (node.pollReporter index) := by
  unfold pollReporter
  split
  · exact .refl
  · rename_i flight held
    dsimp only
    split
    · exact .refl
    · exact .refl
    · exact edits_lookAtSession shown chosen (session?_of_flight held)
    · rename_i next tick seen event deadline _
      have offered : node.Edits reach (node.resumeOffer (.reporter index) flight.session.client
          ⟨some index, event⟩ deadline).1 := edits_resumeOffer shown
      split <;> rename_i result <;> rw [result] at offered
      · exact offered
      · exact offered.trans (edits_resumePass shown chosen)
      · exact offered.trans (edits_refuseReport shown chosen)

end

/-! ## Requests -/

section

variable {state : RequestState} {tellsFaults : Bool} {query : Query} {cause : QueryError}
  {offer : Offer}

private theorem edits_setRequest (shown : reach.shows) :
    node.Edits reach (node.setRequest index state) := .single (.asked shown _)

theorem edits_addRequest (shown : reach.shows) :
    node.Edits reach (node.addRequest client tellsFaults state).1 := .single (.asked shown _)

theorem edits_settleAnswer {outcome : Except QueryError QueryId} (shown : reach.shows) :
    node.Edits reach (node.settleAnswer index event deadline outcome offer) := by
  cases offer <;> exact edits_setRequest shown

private theorem edits_answerFault {about : Option QueryId} (shown : reach.shows) :
    node.Edits reach (node.answerFault index client about cause) :=
  (edits_offer shown).trans (edits_settleAnswer shown)

theorem edits_failRequest (shown : reach.shows) :
    node.Edits reach (node.failRequest index client tellsFaults cause) := by
  unfold failRequest
  split
  · exact edits_answerFault shown
  · exact edits_setRequest shown

private theorem edits_launch (shown : reach.shows) (chosen : place ∈ reach.places) :
    node.Edits reach (node.launch place) :=
  .single (.launched shown chosen List.mem_cons_self _)

theorem edits_settleAccepted (shown : reach.shows) (chosen : place ∈ reach.places) :
    node.Edits reach (node.settleAccepted index client tellsFaults place id deadline offer) := by
  cases offer with
  | waiting => exact edits_setRequest shown
  | sent => exact (edits_launch shown chosen).trans (edits_setRequest shown)
  | refused => exact (edits_terminate shown chosen rfl).trans (edits_failRequest shown)

/-- A new session takes the next place. -/
theorem edits_register (shown : reach.shows) (opens : reach.opens)
    (last : node.flights.length ∈ reach.places) (fresh : session.state = .created) :
    node.Edits reach (node.register session).1 := .single (.entered shown opens last fresh _)

theorem edits_drawSession (shown : reach.shows) (opens : reach.opens)
    (last : node.flights.length ∈ reach.places) :
    node.Edits reach (node.drawSession index client tellsFaults query) := by
  have drawn : node.Edits reach { node with drawn := node.drawn + 1 } := .single (.noted ..)
  unfold drawSession
  dsimp only
  split
  · exact drawn.trans (edits_failRequest shown)
  · rename_i session created
    split
    · exact (drawn.trans (edits_setRequest shown)).trans edits_wakeFirst
    · have fresh : session.state = .created := by
        obtain ⟨domain, -, rfl⟩ := Session.create_eq created
        rfl
      have registered := drawn.trans (edits_register shown opens last fresh)
      exact (registered.trans (edits_offer shown)).trans (edits_settleAccepted shown last)

theorem edits_beginQuery (shown : reach.shows) (opens : reach.opens)
    (last : node.flights.length ∈ reach.places) :
    node.Edits reach (node.beginQuery client query tellsFaults).1 := by
  have added : node.Edits reach (node.addRequest client tellsFaults (.drawing query)).1 :=
    edits_addRequest shown
  unfold beginQuery
  dsimp only
  split
  · exact added.trans (edits_failRequest shown)
  · exact added.trans (edits_drawSession shown opens last)

theorem edits_beginCancel (shown : reach.shows)
    (chosen : ∀ place session, node.find? id = some (place, session) →
      session.clientRef = node.clientRef client → place ∈ reach.places) :
    node.Edits reach (node.beginCancel client id).1 := by
  have added : node.Edits reach (node.addRequest client true (.ended (.ok id))).1 :=
    edits_addRequest shown
  unfold beginCancel
  dsimp only
  split
  · rename_i owned
    refine added.trans (edits_cancel shown fun place session sought => ?_)
    rw [owns, sought] at owned
    exact chosen place session sought (beq_iff_eq.mp owned)
  · exact added.trans (edits_answerFault shown)

theorem edits_beginComplaint (shown : reach.shows) :
    node.Edits reach (node.beginComplaint client).1 :=
  (edits_addRequest shown).trans (edits_answerFault shown)

/-- A request waits to say that the session at a place is accepted. -/
def Awaits (node : Node) (index place : Nat) : Prop :=
  ∃ request deadline, node.requests[index]? = some request ∧
    request.state = .accepting place deadline

theorem edits_pollRequest (shown : reach.shows) (opens : reach.opens)
    (last : node.flights.length ∈ reach.places)
    (chosen : ∀ place, node.Awaits index place → place ∈ reach.places) :
    node.Edits reach (node.pollRequest index) := by
  unfold pollRequest
  split
  · exact .refl
  · rename_i request asked
    split
    · exact edits_drawSession shown opens last
    · rename_i place deadline accepting
      split
      · exact .refl
      · exact (edits_resumeOffer shown).trans
          (edits_settleAccepted shown (chosen place ⟨request, deadline, asked, accepting⟩))
    · exact (edits_resumeOffer shown).trans (edits_settleAnswer shown)
    · exact .refl

end

/-! ## Channels -/

section

variable {channel : Channel} {endpoint : Endpoint} {bytes : Nat} {frames : List Frame}

private theorem edits_setChannel {changed : Channel} (held : node.channels[index]? = some channel)
    (deals : channel.party ∈ reach.parties) (same : changed.party = channel.party) :
    node.Edits reach (node.setChannel index changed) := .single (.rerouted held deals same)

private theorem edits_dial (deals : endpoint.party ∈ reach.parties) :
    node.Edits reach (node.dial endpoint).1 := by
  have dialed (node : Node) (f : Link → Link) :
      node.Edits reach (node.modifyLink endpoint.party f) := .single (.linked deals f)
  have joined (node : Node) : node.Edits reach { node with
      channels := node.channels ++ [.fresh endpoint.party]
      pooled := node.pooled.set endpoint.party (some node.channels.length) } := by
    refine .tail (.single (.opened deals)) (.pooled deals fun index shared => ?_)
    obtain rfl := Option.some.inj shared
    rintro party ⟨channel, held, rfl⟩
    obtain rfl := Option.some.inj ((List.getElem?_concat_length ..).symm.trans held)
    exact deals
  unfold dial
  dsimp only
  split
  · exact (dialed node _).tail (.pooled deals (by simp))
  · exact (((dialed node _).trans (dialed _ _)).trans (joined _)).trans edits_wake

theorem edits_acquire (deals : party ∈ reach.parties) :
    node.Edits reach (node.acquire party).1 := by
  unfold acquire
  split
  · exact .refl
  · rename_i endpoint found
    split
    · exact .refl
    · exact edits_dial ((Directory.party_of_find? found).symm ▸ deals)

theorem edits_closeChannel (covers : reach.Covers node index) :
    node.Edits reach (node.closeChannel index) := by
  unfold closeChannel
  split
  · rename_i channel held
    exact edits_setChannel held (covers _ ⟨channel, held, rfl⟩) rfl
  · exact .refl

theorem edits_invalidate (deals : party ∈ reach.parties) (shares : reach.Shares node) :
    node.Edits reach (node.invalidate party) := by
  unfold invalidate
  split
  · rename_i index shared
    have same : (node.closeChannel index).pooled = node.pooled := by
      unfold closeChannel
      split <;> rfl
    rw [← same]
    exact (edits_closeChannel (shares party deals index shared)).tail (.pooled deals (by simp))
  · exact .refl

/-! ## Bytes -/

private theorem edits_setBudget {budget : Budget TaskId} (deals : party ∈ reach.parties) :
    node.Edits reach (node.setBudget party budget) := .single (.budgeted deals budget)

private theorem edits_giveBytes (deals : party ∈ reach.parties) :
    node.Edits reach (node.giveBytes party bytes) :=
  (edits_setBudget deals).trans edits_wakeAll

private theorem edits_reserveBytes (deals : party ∈ reach.parties) :
    node.Edits reach (node.reserveBytes task party bytes).1 := edits_setBudget deals

theorem edits_abandonBytes (deals : party ∈ reach.parties) :
    node.Edits reach (node.abandonBytes task party) :=
  (edits_setBudget deals).trans edits_wakeAll

/-! ## Messages -/

private theorem edits_putFrame (held : node.channels[index]? = some channel)
    (deals : channel.party ∈ reach.parties) :
    node.Edits reach (node.putFrame task index channel message).1 := by
  have pushed (frame : Frame) : node.Edits reach (node.setChannel index (channel.push frame)) :=
    edits_setChannel held deals rfl
  have closed : node.Edits reach (node.setChannel index { channel with closed := true }) :=
    edits_setChannel held deals rfl
  unfold putFrame
  dsimp only
  split
  · exact (pushed _).trans edits_wake
  · exact closed.trans (edits_giveBytes deals)

theorem edits_send (covers : reach.Covers node index) :
    node.Edits reach (node.send task index message).1 := by
  unfold send
  split
  · exact .refl
  · rename_i channel held
    have deals := covers _ ⟨channel, held, rfl⟩
    have reserves : node.Edits reach (node.reserveBytes task channel.party
        (node.messageBytes channel.party message)).1 := edits_reserveBytes deals
    split
    · split <;> rename_i reserving <;> rw [reserving] at reserves
      · have still := congrArg (fun result => result.1.channels[index]?) reserving
        exact reserves.trans (edits_putFrame (still.symm.trans held) deals)
      · exact reserves
    · exact .refl

theorem edits_resumeSend (covers : reach.Covers node index) :
    node.Edits reach (node.resumeSend task index message).1 := by
  unfold resumeSend
  split
  · exact .refl
  · rename_i channel held
    have deals := covers _ ⟨channel, held, rfl⟩
    dsimp only
    split
    · refine (edits_setBudget deals).trans (edits_putFrame ?_ deals)
      exact held
    · exact .refl

/-! ## Writers -/

private theorem edits_loseFrames (deals : party ∈ reach.parties) :
    node.Edits reach (node.loseFrames party frames) := by
  unfold loseFrames
  induction frames generalizing node with
  | nil => exact .refl
  | cons frame rest ih => exact (edits_giveBytes deals).trans ih

private theorem edits_writeFrames (covers : reach.Covers node index) :
    node.Edits reach (node.writeFrames index frames) := by
  induction frames generalizing node with
  | nil => exact .refl
  | cons frame rest ih =>
    unfold writeFrames
    split
    · exact .refl
    · rename_i channel held
      have deals := covers _ ⟨channel, held, rfl⟩
      dsimp only
      split
      · exact (edits_setChannel held deals (rfl : channel.fail.party = _)).trans
          (edits_loseFrames deals)
      · have written : node.Edits reach
            (node.setChannel index { channel with written := channel.written + 1 }) :=
          edits_setChannel held deals rfl
        have noted : node.Edits reach { node.setChannel index
            { channel with written := channel.written + 1 } with
            delivered := node.delivered ++ [(channel.party, frame)] } := written.tail (.noted ..)
        have given : node.Edits reach (giveBytes _ channel.party frame.reserved) :=
          noted.trans (edits_giveBytes deals)
        exact given.trans (ih (Edits.covers given covers))

theorem edits_pollWriter (covers : reach.Covers node index) :
    node.Edits reach (node.pollWriter index) := by
  unfold pollWriter
  split
  · exact .refl
  · split
    · exact edits_writeFrames covers
    · exact .refl

end

/-! ## Tasks of their own -/

section

variable {channel length : Nat} {post : Post} {reservation : Reservation}

theorem edits_addPost : node.Edits reach (node.addPost channel message).1 := by
  refine .trans (.single (.posted fun index post held => .inl ?_)) edits_wake
  exact (List.getElem?_append_left (List.getElem?_eq_some_iff.mp held).1).trans held

private theorem edits_settlePost {sending : Sending} (held : node.posts[index]? = some post)
    (covers : reach.Covers node post.channel) :
    node.Edits reach (node.settlePost index post sending) := by
  have replaced (next : Post) :
      node.Edits reach { node with posts := node.posts.set index next } := by
    refine .single (.posted fun other found present => ?_)
    by_cases same : index = other
    · subst same
      obtain rfl := Option.some.inj (held.symm.trans present)
      exact .inr covers
    · exact .inl ((List.getElem?_set_ne same).trans present)
  cases sending with
  | parked => exact replaced _
  | sent | failed => exact (replaced _).tail (.noted ..)

private theorem posts_putFrame (node : Node) (task : TaskId) (index : Nat) (channel : Channel)
    (message : PartyMessage) : (node.putFrame task index channel message).1.posts = node.posts := by
  unfold putFrame
  dsimp only
  split <;> rfl

theorem posts_send (node : Node) (task : TaskId) (index : Nat) (message : PartyMessage) :
    (node.send task index message).1.posts = node.posts := by
  unfold send
  split
  · rfl
  · split
    · split <;> rename_i reserving
      · have same := congrArg (fun result => result.1.posts) reserving
        exact (posts_putFrame ..).trans same.symm
      · exact (congrArg (fun result => result.1.posts) reserving).symm
    · rfl

theorem posts_resumeSend (node : Node) (task : TaskId) (index : Nat) (message : PartyMessage) :
    (node.resumeSend task index message).1.posts = node.posts := by
  unfold resumeSend
  split
  · rfl
  · dsimp only
    split
    · exact posts_putFrame ..
    · rfl

theorem edits_pollPost (covers : ∀ post, node.posts[index]? = some post →
    reach.Covers node post.channel) : node.Edits reach (node.pollPost index) := by
  unfold pollPost
  split
  · exact .refl
  · rename_i post held
    have within := covers post held
    split
    · exact .refl
    · dsimp only
      split
      · have sent : node.Edits reach
            (node.resumeSend (.post index) post.channel post.message).1 := edits_resumeSend within
        exact sent.trans (edits_settlePost
          ((congrArg (·[index]?) (posts_resumeSend ..)).trans held) (Edits.covers sent within))
      · have sent : node.Edits reach (node.send (.post index) post.channel post.message).1 :=
          edits_send within
        exact sent.trans (edits_settlePost
          ((congrArg (·[index]?) (posts_send ..)).trans held) (Edits.covers sent within))

theorem edits_addReservation (deals : party ∈ reach.parties) :
    node.Edits reach (node.addReservation party length).1 :=
  .trans (.single (.claimed deals)) edits_wake

private theorem edits_setReservation {state : ReservationState}
    (held : node.reservations[index]? = some reservation)
    (deals : reservation.party ∈ reach.parties) :
    node.Edits reach (node.setReservation index { reservation with state := state }) :=
  .single (.settled held deals rfl)

private theorem edits_grant (held : node.reservations[index]? = some reservation)
    (deals : reservation.party ∈ reach.parties) :
    node.Edits reach (node.grant index reservation) :=
  (edits_setReservation held deals).tail (.noted ..)

theorem edits_pollReservation (deals : ∀ reservation,
    node.reservations[index]? = some reservation → reservation.party ∈ reach.parties) :
    node.Edits reach (node.pollReservation index) := by
  unfold pollReservation
  split
  · exact .refl
  · rename_i reservation held
    have within := deals reservation held
    dsimp only
    split
    · have reserves : node.Edits reach (node.reserveBytes (.reservation index) reservation.party
          reservation.bytes).1 := edits_reserveBytes within
      split <;> rename_i reserving <;> rw [reserving] at reserves
      · have still := congrArg (fun result => result.1.reservations[index]?) reserving
        exact reserves.trans (edits_grant (still.symm.trans held) within)
      · have still := congrArg (fun result => result.1.reservations[index]?) reserving
        exact reserves.trans (edits_setReservation (still.symm.trans held) within)
    · split
      · refine (edits_setBudget within).trans (edits_grant ?_ within)
        exact held
      · exact .refl
    · exact .refl
    · exact .refl

theorem edits_releaseReservation (deals : ∀ reservation,
    node.reservations[index]? = some reservation → reservation.party ∈ reach.parties) :
    node.Edits reach (node.releaseReservation index) := by
  unfold releaseReservation
  split
  · rename_i reservation held
    split
    · exact (edits_setReservation held (deals reservation held)).trans
        (edits_giveBytes (deals reservation held))
    · exact .refl
  · exact .refl

theorem edits_abandonReservation (deals : ∀ reservation,
    node.reservations[index]? = some reservation → reservation.party ∈ reach.parties) :
    node.Edits reach (node.abandonReservation index) := by
  unfold abandonReservation
  split
  · rename_i reservation held
    split
    · exact (edits_setReservation held (deals reservation held)).trans
        (edits_abandonBytes (deals reservation held))
    · exact .refl
  · exact .refl

end

/-! ## Senders -/

end Node

/-- There is room in a reach for what the sender of the session at a place to a party does. -/
structure Reach.Drives (reach : Reach) (place : Nat) (party : Party) : Prop where
  chosen : place ∈ reach.places
  own : .sender place party ∈ reach.tasks
  deals : party ∈ reach.parties

namespace Node

variable {reach : Reach} {node after : Node} {place channel : Nat} {party : Party}
  {message : PartyMessage} {backoff : Backoff} {cause : QueryError} {flight : Flight}

private theorem edits_setSender {sender : Sender} (drives : reach.Drives place party) :
    node.Edits reach (node.setSender place party sender) :=
  .single (.flew drives.chosen fun _ _ => .sent drives.own sender)

theorem edits_endSender {result : Except QueryError Unit}
    (drives : reach.Drives place party) : node.Edits reach (node.endSender place party result) := by
  refine (((edits_setSender drives).trans (.single (.flew drives.chosen fun flight _ => ?_))).trans
    (edits_cancelTimer fun _ => drives.own)).trans edits_wake
  split
  · rename_i others joining
    exact .joined (.inr ⟨party, drives.own⟩) (by rw [joining]; rfl) rfl
  · exact .rested

theorem edits_forgetChannel (deals : party ∈ reach.parties) (shares : reach.Shares node) :
    node.Edits reach (node.forgetChannel party cause) := by
  unfold forgetChannel
  split
  · exact edits_invalidate deals shares
  · exact .refl

private theorem edits_retrySender (drives : reach.Drives place party) (shares : reach.Shares node) :
    node.Edits reach (node.retrySender place party backoff cause) := by
  have forgotten : node.Edits reach (node.forgetChannel party cause) :=
    edits_forgetChannel drives.deals shares
  unfold retrySender
  dsimp only
  split
  · exact forgotten.trans (edits_endSender drives)
  · split
    · exact (forgotten.trans (edits_setSender drives)).trans edits_wakeFirst
    · exact (forgotten.trans (edits_setSender drives)).trans (edits_setTimer fun _ => drives.own)

private theorem edits_settleSender {sending : Sending} (drives : reach.Drives place party)
    (shares : reach.Shares node) :
    node.Edits reach (node.settleSender place party backoff channel sending) := by
  cases sending with
  | sent => exact edits_endSender drives
  | parked => exact edits_setSender drives
  | failed cause => exact edits_retrySender drives shares

/-- A channel that was acquired toward a party within reach leads within reach. -/
theorem covers_acquire (deals : party ∈ reach.parties) (shares : reach.Shares node)
    (acquired : (node.acquire party).2 = .ok channel) :
    reach.Covers (node.acquire party).1 channel := by
  unfold acquire at acquired ⊢
  split at acquired
  · cases acquired
  · rename_i endpoint found
    split at acquired
    · rename_i shared opened
      obtain rfl := Except.ok.inj acquired
      exact shares party deals shared (Option.filter_eq_some_iff.mp opened).1
    · by_cases refused : (node.links.get endpoint.party).refused = true
      · simp only [dial, if_pos refused] at acquired
        cases acquired
      · simp only [dial, if_neg refused] at acquired ⊢
        obtain rfl := Except.ok.inj acquired
        rintro other ⟨joined, held, rfl⟩
        obtain rfl := Option.some.inj ((List.getElem?_concat_length ..).symm.trans held)
        exact (Directory.party_of_find? found).symm ▸ deals

private theorem edits_attempt (drives : reach.Drives place party) (shares : reach.Shares node) :
    node.Edits reach (node.attempt place party backoff message) := by
  have acquires : node.Edits reach (node.acquire party).1 := edits_acquire drives.deals
  have covers (channel : Nat) : (node.acquire party).2 = .ok channel →
      reach.Covers (node.acquire party).1 channel := covers_acquire drives.deals shares
  unfold attempt
  split <;> rename_i acquired <;> rw [acquired] at acquires covers
  · exact acquires.trans (edits_retrySender drives (Edits.shares acquires shares))
  · rename_i joined channel
    have sent : node.Edits reach (joined.send (.sender place party) channel message).1 :=
      acquires.trans (edits_send (covers _ rfl))
    exact sent.trans (edits_settleSender drives (Edits.shares sent shares))

theorem edits_pollSender (drives : reach.Drives place party) (shares : reach.Shares node)
    (parked : ∀ flight backoff channel, node.flights[place]? = some flight →
      flight.senders.get party = .parked backoff channel → reach.Covers node channel) :
    node.Edits reach (node.pollSender place party) := by
  unfold pollSender
  split
  · exact .refl
  · rename_i flight held
    dsimp only
    split
    · exact .refl
    · exact .refl
    · split
      · exact edits_endSender drives
      · split
        · exact edits_attempt drives shares
        · exact .refl
    · rename_i backoff channel waits
      split
      · exact (edits_abandonBytes drives.deals).trans (edits_endSender drives)
      · have sent : node.Edits reach (node.resumeSend (.sender place party) channel
            flight.session.startMessage).1 :=
          edits_resumeSend (parked flight backoff channel held waits)
        exact sent.trans (edits_settleSender drives (Edits.shares sent shares))

/-! ## Waiting for the senders -/

private theorem edits_startSenders {parties : List Party} (chosen : place ∈ reach.places)
    (own : ∀ party, .sender place party ∈ reach.tasks) :
    node.Edits reach (node.startSenders place parties) := by
  have started (parties : List Party) (node : Node) : node.Edits reach
      (parties.foldl (fun node party =>
        (node.setSender place party (.pausing node.config.senderBackoff node.now)).wake
          (.sender place party)) node) := by
    induction parties generalizing node with
    | nil => exact .refl
    | cons party rest ih =>
      have paused : node.Edits reach (node.setSender place party
          (.pausing node.config.senderBackoff node.now)) :=
        .single (.flew chosen fun _ _ => .sent (own party) _)
      exact (paused.trans edits_wake).trans (ih _)
  exact (started parties node).tail (.flew chosen fun _ _ => .started own _ _)

theorem edits_join {ended : List Party} (shown : reach.shows) (chosen : place ∈ reach.places)
    (own : .fanOut place ∈ reach.tasks) (held : node.flights[place]? = some flight)
    (joining : flight.fanOut = .joining ended) :
    node.Edits reach (node.join place flight ended) := by
  have joined (fanOut : FanOut) (still : fanOut.isBegun = true) :
      node.Edits reach (node.setFanOut place fanOut) := by
    refine .single (.flew chosen fun found present => .joined (.inl own) ?_ still)
    obtain rfl := Option.some.inj (held.symm.trans present)
    rw [joining]
    rfl
  unfold join
  dsimp only
  split
  · exact ((joined .over rfl).trans (edits_terminate shown chosen rfl)).trans edits_wakeAll
  · split
    · refine (joined .over rfl).tail (.flew chosen fun found present => ?_)
      have still : (node.setFanOut place .over).flights[place]? =
          some { flight with fanOut := .over } := by simp [setFanOut, modifyFlight, held]
      obtain rfl := Option.some.inj (still.symm.trans present)
      exact .awaited shown rfl
    · exact joined (.joining []) rfl

theorem edits_pollFanOut (shown : reach.shows) (chosen : place ∈ reach.places)
    (own : .fanOut place ∈ reach.tasks) (all : ∀ party, .sender place party ∈ reach.tasks) :
    node.Edits reach (node.pollFanOut place) := by
  unfold pollFanOut
  split
  · exact .refl
  · rename_i flight held
    split
    · exact .refl
    · exact .refl
    · exact edits_startSenders chosen all
    · rename_i ended joining
      exact edits_join shown chosen own held joining

/-! ## The front -/

/-- The reach of whatever does not show. -/
def quietly : Reach := { Reach.whole with shows := False }

private theorem front_of_quietly (edits : node.Edits quietly after) : after.front = node.front :=
  Edits.front_eq edits id

theorem front_startSenders (place : Nat) (parties : List Party) :
    (node.startSenders place parties).front = node.front :=
  front_of_quietly (edits_startSenders trivial fun _ => trivial)

theorem front_pollSender (place : Nat) (party : Party) :
    (node.pollSender place party).front = node.front :=
  front_of_quietly (edits_pollSender ⟨trivial, trivial, trivial⟩
    (fun _ _ _ _ _ _ => trivial) fun _ _ _ _ _ _ _ => trivial)

theorem front_acquire (party : Party) : (node.acquire party).1.front = node.front :=
  front_of_quietly (edits_acquire trivial)

theorem front_closeChannel (index : Nat) : (node.closeChannel index).front = node.front :=
  front_of_quietly (edits_closeChannel fun _ _ => trivial)

theorem front_invalidate (party : Party) : (node.invalidate party).front = node.front :=
  front_of_quietly (edits_invalidate trivial fun _ _ _ _ _ _ => trivial)

theorem front_pollWriter (index : Nat) : (node.pollWriter index).front = node.front :=
  front_of_quietly (edits_pollWriter fun _ _ => trivial)

theorem front_pollPost (index : Nat) : (node.pollPost index).front = node.front :=
  front_of_quietly (edits_pollPost fun _ _ _ _ => trivial)

theorem front_pollReservation (index : Nat) : (node.pollReservation index).front = node.front :=
  front_of_quietly (edits_pollReservation fun _ _ => trivial)

theorem front_releaseReservation (index : Nat) :
    (node.releaseReservation index).front = node.front :=
  front_of_quietly (edits_releaseReservation fun _ _ => trivial)

theorem front_abandonReservation (index : Nat) :
    (node.abandonReservation index).front = node.front :=
  front_of_quietly (edits_abandonReservation fun _ _ => trivial)

end Node

end JointQuery
