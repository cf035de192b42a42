import JointQuery.Proofs.Node.Informed

/-! The changes that make up what a node does for its clients: queueing events, ending sessions,
telling of their progress and carrying out requests. Whoever finds that a client is gone, or tells
it of an end, does so before the session ends. -/
namespace JointQuery

open ClientEvent

/-! ## Queues -/

namespace ClientQueue

variable {τ ε : Type} (queue : ClientQueue τ ε)

private theorem fades_markDisconnected : queue.Fades queue.markDisconnected :=
  ⟨List.prefix_refl _, by simp [markDisconnected, isConnected]⟩

private theorem fades_push (event : ε) : queue.Fades (queue.push event) :=
  ⟨List.prefix_append .., id⟩

private theorem fades_trySend (event : ε) : queue.Fades (queue.trySend event).1 := by
  simp only [trySend]
  split
  · exact .refl queue
  · split
    · exact queue.fades_markDisconnected
    · exact queue.fades_push event

private theorem fades_offer (task : τ) (event : ε) : queue.Fades (queue.offer task event).1 := by
  simp only [offer]
  split
  · exact .refl queue
  · split
    · exact queue.fades_markDisconnected
    · split
      · split
        · exact queue.fades_markDisconnected
        · exact ⟨List.prefix_refl _, id⟩
      · exact queue.fades_push event

private theorem fades_leave [BEq τ] (task : τ) :
    queue.Fades (queue.leave task) := ⟨List.prefix_refl _, id⟩

private theorem fades_resume [BEq τ] (task : τ) (event : ε) (timeUp : Bool) :
    queue.Fades (queue.resume task event timeUp).1 := by
  have left := queue.fades_leave task
  simp only [resume]
  split
  · exact left.trans (fades_markDisconnected _)
  · split
    · exact left.trans (fades_push _ event)
    · split
      · exact left.trans (fades_markDisconnected _)
      · exact .refl queue

private theorem fades_read : queue.Fades queue.read.1 := by
  simp only [read]
  split
  · exact ⟨List.prefix_refl _, id⟩
  · exact .refl queue

private theorem fades_close : queue.Fades queue.close.1 :=
  ⟨List.prefix_refl _, by simp [close, isConnected]⟩

private theorem isConnected_trySend {event : ε} (unsent : (queue.trySend event).2 = false) :
    (queue.trySend event).1.isConnected = false := by
  simp only [trySend] at unsent ⊢
  split
  · simp_all [isConnected]
  · split
    · simp [markDisconnected, isConnected]
    · simp_all

private theorem isConnected_offer {task : τ} {event : ε}
    (refused : (queue.offer task event).2 = .refused) :
    (queue.offer task event).1.isConnected = false := by
  simp only [offer] at refused ⊢
  split
  · simp_all [isConnected]
  · split
    · simp [markDisconnected, isConnected]
    · split
      · split
        · simp [markDisconnected, isConnected]
        · simp_all
      · simp_all

private theorem isConnected_resume [BEq τ] {task : τ} {event : ε} {timeUp : Bool}
    (refused : (queue.resume task event timeUp).2 = .refused) :
    (queue.resume task event timeUp).1.isConnected = false := by
  simp only [resume] at refused ⊢
  split
  · simp [markDisconnected, isConnected]
  · split
    · simp_all
    · split
      · simp [markDisconnected, isConnected]
      · simp_all

end ClientQueue

/-- A partial result leaves a session in its state. -/
theorem Session.continues_apply {session : Session} (sound : session.Sound)
    (live : session.isTerminal = false) (event : PartialResult) :
    session.Continues (session.apply event).1 := by
  have frame := (Session.apply_applied sound.slots event).frame
  exact ⟨Session.grows_apply sound live event, by rw [frame], by
    rw [frame]
    rfl⟩

namespace Node

variable {told : Bool} {active : Nat → Prop} {node : Node} {place client : Nat} {session : Session}
  {queue : ClientQueue TaskId Notice}

private theorem lost_setClient (held : node.clients[client]? = some queue)
    {next : ClientQueue TaskId Notice} (gone : next.isConnected = false) :
    (node.setClient client next).Lost client := by
  obtain ⟨inside, -⟩ := List.getElem?_eq_some_iff.mp held
  exact ⟨next, by simp [setClient, inside], gone⟩

/-- A client that is not connected is gone, if it is known. -/
theorem lost_of_unconnected (known : ∃ queue, node.clients[client]? = some queue)
    (unconnected : node.isConnected client = false) : node.Lost client := by
  obtain ⟨queue, held⟩ := known
  exact ⟨queue, held, by simpa [isConnected, held] using unconnected⟩

/-- What is heard is told. -/
theorem told_of_hear {after : Node} {event : ClientEvent}
    (heard : after.front = node.front.hear client ⟨some place, event⟩) :
    after.told place client = node.told place client ++ [event] := by
  have altered : after.front = node.front.alter place (·.tell client event) := heard
  have desk : after.desk place = (node.desk place).tell client event :=
    (congrFun (congrArg Front.desks altered) place).trans (Front.desks_alter_self ..)
  exact (congrFun (congrArg Desk.told desk) client).trans (Desk.told_tell_self ..)

theorem changes_addClient (node : Node) (ref : String) (capacity patience : Nat)
    (attended : Bool) :
    Changes told active node (node.addClient ref capacity patience attended).1 :=
  (Change.joined ref capacity patience).upTo ⟨rfl, rfl, rfl, rfl, rfl, rfl, rfl⟩

theorem changes_markDisconnected (node : Node) (client : Nat) :
    Changes told active node (node.markDisconnected client) := by
  simp only [markDisconnected]
  split
  · rename_i queue held
    exact .single (.queued held queue.fades_markDisconnected)
  · exact .refl

private theorem changes_trySend (node : Node) (client : Nat) (notice : Notice) :
    Changes told active node (node.trySend client notice).1 := by
  simp only [trySend]
  split
  · rename_i queue held
    exact .single (.queued held (queue.fades_trySend notice))
  · exact .refl

theorem changes_offer (node : Node) (task : TaskId) (client : Nat) (notice : Notice) :
    Changes told active node (node.offer task client notice).1 := by
  simp only [offer]
  split
  · exact .refl
  · rename_i queue held
    refine (Change.queued held (queue.fades_offer task notice)).upTo ?_
    dsimp only
    split <;> exact ⟨rfl, rfl, rfl, rfl, rfl, rfl, rfl⟩

theorem lost_offer (held : node.clients[client]? = some queue) (task : TaskId) (notice : Notice)
    (refused : (node.offer task client notice).2.1 = .refused) :
    (node.offer task client notice).1.Lost client := by
  simp only [offer, held] at refused ⊢
  have lost := lost_setClient held (queue.isConnected_offer refused)
  split
  · exact lost
  · exact lost

theorem changes_resumeOffer (node : Node) (task : TaskId) (client : Nat) (notice : Notice)
    (deadline : Nat) :
    Changes told active node (node.resumeOffer task client notice deadline).1 := by
  simp only [resumeOffer]
  split
  · exact .refl
  · rename_i queue held
    refine (Change.queued held (queue.fades_resume task notice (deadline ≤ node.now))).upTo ?_
    dsimp only
    split <;> exact ⟨rfl, rfl, rfl, rfl, rfl, rfl, rfl⟩

theorem lost_resumeOffer (held : node.clients[client]? = some queue) (task : TaskId)
    (notice : Notice) (deadline : Nat)
    (refused : (node.resumeOffer task client notice deadline).2 = .refused) :
    (node.resumeOffer task client notice deadline).1.Lost client := by
  simp only [resumeOffer, held] at refused ⊢
  have lost := lost_setClient held (queue.isConnected_resume refused)
  split
  · exact lost
  · exact lost

theorem changes_readEvent (node : Node) (client : Nat) :
    Changes told active node (node.readEvent client).1 := by
  simp only [readEvent]
  split
  · exact .refl
  · rename_i queue held
    exact (Change.queued held queue.fades_read).upTo ⟨rfl, rfl, rfl, rfl, rfl, rfl, rfl⟩

theorem changes_closeClient (node : Node) (client : Nat) :
    Changes told active node (node.closeClient client) := by
  simp only [closeClient]
  split
  · exact .refl
  · rename_i queue held
    exact (Change.queued held queue.fades_close).upTo ⟨rfl, rfl, rfl, rfl, rfl, rfl, rfl⟩

private theorem beside_settleDelivery (node : Node) (index : Nat) (delivery : Delivery)
    (offer : Offer)
    (deadline : Nat) : node.Beside (node.settleDelivery index delivery offer deadline) := by
  cases offer <;> exact ⟨rfl, rfl, rfl, rfl, rfl, rfl, rfl⟩

theorem changes_pollDelivery (node : Node) (index : Nat) :
    Changes told active node (node.pollDelivery index) := by
  simp only [pollDelivery]
  split
  · exact .refl
  · split
    · exact .refl
    · exact (node.changes_offer ..).beside (beside_settleDelivery ..)
    · exact (node.changes_resumeOffer ..).beside (beside_settleDelivery ..)

/-! ## Ends -/

section

variable {target : SessionState}

/-- Ending a live session sets it, beside what is to be done and what is registered. -/
theorem finish_eq (present : node.session? place = some session)
    (live : session.isTerminal = false) (target : SessionState) :
    ∃ agenda registry, node.finish place target =
      ({ node.setSession place (session.finish target).1 with
        agenda := agenda, registry := registry }, true) := by
  simp only [finish, present]
  rw [Session.finish_of_live live]
  exact ⟨_, _, rfl⟩

/-- Ending a live session, of which its client has heard before. -/
theorem changes_finish (present : node.session? place = some session)
    (live : session.isTerminal = false) (final : target.isTerminal = true)
    (heard : told = true → target ≠ .completed → (node.desk place).Pursued →
      node.Heard place session.client) : Changes told active node (node.finish place target).1 := by
  obtain ⟨agenda, registry, finished⟩ := finish_eq present live target
  obtain ⟨flight, held, rfl⟩ := Option.map_eq_some_iff.mp present
  have ended : Change told active node (node.setSession place (flight.session.finish target).1) :=
    .flew held (.ended live final heard)
  rw [finished]
  exact ended.upTo ⟨rfl, rfl, rfl, rfl, rfl, rfl, rfl⟩

private theorem changes_tellEnd (node : Node) (place : Nat) (cause : QueryError) :
    Changes told active node (node.tellEnd place cause) := by
  simp only [tellEnd]
  split
  · exact .refl
  · split
    · exact node.changes_trySend ..
    · exact .refl

/-- Telling the client of a session of its end concerns nothing but the clients. -/
theorem tellEnd_eq (node : Node) (place : Nat) (cause : QueryError) :
    ∃ clients, node.tellEnd place cause = { node with clients := clients } := by
  simp only [tellEnd]
  split
  · exact ⟨_, rfl⟩
  · split
    · simp only [trySend]
      split
      · exact ⟨_, rfl⟩
      · exact ⟨_, rfl⟩
    · exact ⟨_, rfl⟩

/-- A client that is told of the end of its session has heard of it. -/
theorem heard_tellEnd (present : node.session? place = some session)
    (known : ∃ queue, node.clients[session.client]? = some queue) (cause : QueryError) :
    (node.tellEnd place cause).Heard place session.client := by
  obtain ⟨queue, held⟩ := known
  simp only [tellEnd, present]
  split
  · have front := node.front_trySend session.client
      ⟨some place, .ofError (some session.id) cause⟩
    generalize offered : node.trySend session.client
      ⟨some place, .ofError (some session.id) cause⟩ = result at front ⊢
    obtain ⟨after, sent⟩ := result
    cases sent with
    | true =>
      refine .inr ?_
      rw [told_of_hear front]
      simp [ClientEvent.ofError, isError]
    | false =>
      simp only [trySend, held, Prod.mk.injEq] at offered
      obtain ⟨rfl, unsent⟩ := offered
      exact .inl (lost_setClient held (queue.isConnected_trySend unsent))
  · rename_i gone
    exact .inl (lost_of_unconnected ⟨queue, held⟩ (by simpa using gone))

/-- Telling of an end depends on the clients, and on which of them the session is for. -/
theorem clients_tellEnd {after : Node} (clients : after.clients = node.clients)
    (present : node.session? place = some session) {later : Session}
    (found : after.session? place = some later) (id : later.id = session.id)
    (client : later.client = session.client) (cause : QueryError) :
    (after.tellEnd place cause).clients = (node.tellEnd place cause).clients := by
  have alike : after.clients[session.client]? = node.clients[session.client]? := by rw [clients]
  cases held : node.clients[session.client]? with
  | none =>
    rw [held] at alike
    simpa [tellEnd, present, found, isConnected, client, held, alike] using clients
  | some queue =>
    rw [held] at alike
    simp only [tellEnd, present, found, isConnected, trySend, id, client, held, alike]
    split
    · simp only [setClient, clients]
    · exact clients

/-- It makes no difference whether the client is told before the session ends or after. -/
theorem beside_terminate (present : node.session? place = some session)
    (live : session.isTerminal = false) (target : SessionState) (cause : QueryError) :
    ((node.tellEnd place cause).finish place target).1.Beside
      (node.terminate place target (some cause)).1 := by
  obtain ⟨agenda, registry, finished⟩ := finish_eq present live target
  have ended : (node.finish place target).1.session? place =
      some { session with state := target, changed := true } := by
    obtain ⟨flight, held, rfl⟩ := Option.map_eq_some_iff.mp present
    rw [finished, Session.finish_of_live live]
    exact (session?_modifyFlight held _ place).trans (if_pos rfl)
  have alike : (node.finish place target).1.clients = node.clients := by rw [finished]; rfl
  have told := clients_tellEnd alike present ended rfl rfl cause
  have terminated : (node.terminate place target (some cause)).1 =
      (node.finish place target).1.tellEnd place cause := by simp only [terminate, finished]
  obtain ⟨clients, before⟩ := node.tellEnd_eq place cause
  obtain ⟨clients', after⟩ := (node.finish place target).1.tellEnd_eq place cause
  have still : (node.tellEnd place cause).session? place = some session := by
    rw [before]
    exact present
  obtain ⟨agenda', registry', finished'⟩ := finish_eq still live target
  rw [terminated, after, finished', before, finished]
  rw [after, before] at told
  exact ⟨rfl, rfl, rfl, rfl, told, rfl, rfl⟩

/-- Ending a session for a cause. -/
theorem changes_terminate (informed : node.Informed told) (place : Nat)
    (final : target.isTerminal = true) (cause : QueryError) :
    Changes told active node (node.terminate place target (some cause)).1 := by
  by_cases ended : ∀ session, node.session? place = some session → session.isTerminal = true
  · rw [terminate_of_ended ended]
  · simp only [not_forall, Bool.not_eq_true] at ended
    obtain ⟨session, present, live⟩ := ended
    refine Changes.beside ?_ (beside_terminate present live target cause)
    refine (node.changes_tellEnd place cause).trans ?_
    obtain ⟨clients, same⟩ := node.tellEnd_eq place cause
    have still : (node.tellEnd place cause).session? place = some session := by rwa [same]
    refine changes_finish still live final fun _ _ pursued => ?_
    have before : (node.desk place).Pursued := by
      rw [same] at pursued
      exact pursued
    exact heard_tellEnd present ((informed place session present).known before) cause

/-- Ending a session without a word, once its client is gone. -/
theorem changes_terminate_none (place : Nat) (final : target.isTerminal = true)
    (gone : told = true → ∀ session, node.session? place = some session →
      (node.desk place).Pursued → node.Lost session.client) :
    Changes told active node (node.terminate place target none).1 := by
  rw [terminate_none]
  by_cases ended : ∀ session, node.session? place = some session → session.isTerminal = true
  · rw [finish_of_ended ended]
  · simp only [not_forall, Bool.not_eq_true] at ended
    obtain ⟨session, present, live⟩ := ended
    exact changes_finish present live final fun tells _ pursued =>
      .inl (gone tells session present pursued)

/-- Ending several sessions, each for a cause. -/
theorem changes_terminateAll (informed : node.Informed told) (final : target.isTerminal = true)
    {cause : Nat → Option QueryError} (places : List Nat)
    (caused : ∀ place ∈ places, (cause place).isSome = true) :
    Changes told active node (node.terminateAll target cause places).1 := by
  induction places generalizing node with
  | nil => exact .refl
  | cons place rest ih =>
    obtain ⟨reason, given⟩ := Option.isSome_iff_exists.mp (caused place List.mem_cons_self)
    have first : Changes told active node (node.terminate place target (some reason)).1 :=
      changes_terminate informed place final reason
    have later := ih (first.informed informed) fun other member =>
      caused other (List.mem_cons_of_mem _ member)
    simp only [terminateAll, given]
    exact first.trans later

/-- Ending a session without a word leaves the clients, and whose they are. -/
theorem clients_finish (node : Node) (place : Nat) (target : SessionState) :
    (node.finish place target).1.clients = node.clients ∧
      ∀ other later, (node.finish place target).1.session? other = some later →
        ∃ before, node.session? other = some before ∧ before.client = later.client := by
  by_cases ended : ∀ session, node.session? place = some session → session.isTerminal = true
  · rw [finish_of_ended ended]
    exact ⟨rfl, fun _ later present => ⟨later, present, rfl⟩⟩
  · simp only [not_forall, Bool.not_eq_true] at ended
    obtain ⟨session, present, live⟩ := ended
    obtain ⟨agenda, registry, finished⟩ := finish_eq present live target
    obtain ⟨flight, held, rfl⟩ := Option.map_eq_some_iff.mp present
    rw [finished]
    refine ⟨rfl, fun other later found => ?_⟩
    have here := (session?_modifyFlight held (fun flight' =>
      { flight' with session := (flight.session.finish target).1 }) other).symm.trans found
    by_cases same : other = place
    · rw [if_pos same] at here
      refine ⟨flight.session, same ▸ present, ?_⟩
      rw [← Option.some.inj here, Session.finish_of_live live]
    · rw [if_neg same] at here
      exact ⟨later, here, rfl⟩

/-- Ending several sessions without a word, once their clients are gone. -/
theorem changes_terminateAll_none (informed : node.Informed told) (final : target.isTerminal = true)
    (places : List Nat) (gone : ∀ place ∈ places, ∀ session, node.session? place = some session →
      node.isConnected session.client = false) :
    Changes told active node (node.terminateAll target (fun _ => none) places).1 := by
  induction places generalizing node with
  | nil => exact .refl
  | cons place rest ih =>
    have first : Changes told active node (node.terminate place target none).1 := by
      refine changes_terminate_none place final fun _ session present pursued => ?_
      exact lost_of_unconnected ((informed place session present).known pursued)
        (gone place List.mem_cons_self session present)
    obtain ⟨clients, sessions⟩ := node.clients_finish place target
    rw [← terminate_none] at clients sessions
    have later := ih (first.informed informed) fun other member session present => by
      obtain ⟨before, found, same⟩ := sessions other session present
      have unconnected := gone other (List.mem_cons_of_mem _ member) before found
      simpa only [isConnected, clients, ← same] using unconnected
    simp only [terminateAll]
    exact first.trans later

theorem changes_cancel (informed : node.Informed told) (id : QueryId) :
    Changes told active node (node.cancel id).1 := by
  simp only [cancel]
  split
  · exact .refl
  · exact changes_terminate informed _ rfl _

private theorem changes_markClientGone (node : Node) (place : Nat) :
    Changes told active node (node.markClientGone place) := by
  simp only [markClientGone]
  split
  · exact node.changes_markDisconnected _
  · exact .refl

theorem session?_markClientGone (node : Node) (place other : Nat) :
    (node.markClientGone place).session? other = node.session? other := by
  rw [session?_of_front (node.front_markClientGone place), session?_eq]
  rfl

/-- A client that is marked is not connected. -/
theorem isConnected_markDisconnected (node : Node) (client : Nat) :
    (node.markDisconnected client).isConnected client = false := by
  cases held : node.clients[client]? with
  | none => simp [markDisconnected, isConnected, held]
  | some queue =>
    obtain ⟨inside, -⟩ := List.getElem?_eq_some_iff.mp held
    simp [markDisconnected, isConnected, setClient, inside, ClientQueue.markDisconnected,
      ClientQueue.isConnected]

private theorem isConnected_markClientGone (present : node.session? place = some session) :
    (node.markClientGone place).isConnected session.client = false := by
  simp only [markClientGone, present]
  exact node.isConnected_markDisconnected session.client

theorem changes_loseClient (informed : node.Informed told) (place : Nat) :
    Changes told active node (node.loseClient place) := by
  have marked : Changes told active node (node.markClientGone place) :=
    node.changes_markClientGone place
  have still := marked.informed informed
  refine marked.trans (changes_terminate_none place rfl fun _ session present pursued => ?_)
  refine lost_of_unconnected ((still place session present).known pursued) ?_
  rw [session?_markClientGone] at present
  exact isConnected_markClientGone present

private theorem isConnected_markClientGone_of {place : Nat}
    (unconnected : node.isConnected client = false) :
    (node.markClientGone place).isConnected client = false := by
  simp only [markClientGone]
  split
  · rename_i session present
    by_cases same : client = session.client
    · rw [same]
      exact node.isConnected_markDisconnected session.client
    · simp only [markDisconnected]
      split
      · simpa [isConnected, setClient, List.getElem?_set_ne (Ne.symm same)] using unconnected
      · exact unconnected
  · exact unconnected

/-- Marking the clients of several sessions marks each of them, and changes no session. -/
theorem changes_markClientsGone (told : Bool) (node : Node) (places : List Nat) :
    Changes told active node (places.foldl markClientGone node) ∧
    (∀ other, (places.foldl markClientGone node).session? other = node.session? other) ∧
    (∀ client, node.isConnected client = false →
      (places.foldl markClientGone node).isConnected client = false) ∧
    ∀ place ∈ places, ∀ session, node.session? place = some session →
      (places.foldl markClientGone node).isConnected session.client = false := by
  induction places generalizing node with
  | nil => exact ⟨.refl, fun _ => rfl, fun _ => id, by simp⟩
  | cons first rest ih =>
    obtain ⟨changes, sessions, stay, gone⟩ := ih (node.markClientGone first)
    simp only [session?_markClientGone] at sessions gone
    refine ⟨(node.changes_markClientGone first).trans changes, sessions,
      fun client unconnected => stay client (isConnected_markClientGone_of unconnected), ?_⟩
    intro place member session present
    rcases List.mem_cons.mp member with rfl | later
    · exact stay _ (isConnected_markClientGone present)
    · exact gone place later session present

theorem changes_clientLeft (informed : node.Informed told) (ref : String) :
    Changes told active node (node.clientLeft ref).1 := by
  obtain ⟨changes, sessions, -, gone⟩ := changes_markClientsGone told node
    (node.registered (·.clientRef == ref))
  refine changes.trans (changes_terminateAll_none (changes.informed informed) rfl _ ?_)
  intro place member session present
  rw [sessions] at present
  exact gone place member session present

theorem changes_expire (informed : node.Informed told) :
    Changes told active node node.expire.1 := by
  refine changes_terminateAll informed rfl _ fun place member => ?_
  simp only [registered, Registry.select, List.mem_filter] at member
  cases present : node.session? place with
  | none => simp [present] at member
  | some session => simp [expiryCause, present]

/-! ## Partial results -/

theorem changes_receivePartial (sound : node.ledger.Sound) (event : PartialResult) :
    Changes told active node (node.receivePartial event).1 := by
  simp only [receivePartial]
  split
  · exact .refl
  · rename_i place session sought
    obtain ⟨held, present⟩ := find?_eq_some_iff.mp sought
    obtain ⟨-, live⟩ := sound.live_of_held held present
    rw [← session?_eq] at present
    have regular := (sound.regular_at ((node.session?_eq place).symm.trans present)).sound
    have continues := Session.continues_apply regular live event
    obtain ⟨flight, inFlight, rfl⟩ := Option.map_eq_some_iff.mp present
    have applied : Changes told active node
        (node.setSession place (flight.session.apply event).1) :=
      .single (.flew inFlight (.grew continues))
    split
    · exact applied
    · exact applied
    · exact applied.beside ⟨rfl, rfl, rfl, rfl, rfl, rfl, rfl⟩
    · have woken : Changes told active node
          ((node.setSession place (flight.session.apply event).1).wake
          (.reporter place)) := applied.beside ⟨rfl, rfl, rfl, rfl, rfl, rfl, rfl⟩
      have still : ((node.setSession place (flight.session.apply event).1).wake
          (.reporter place)).session? place = some (flight.session.apply event).1 :=
        (session?_modifyFlight inFlight _ place).trans (if_pos rfl)
      have unended := (congrArg SessionState.isTerminal continues.state).trans live
      exact woken.trans (changes_finish still unended rfl fun _ early => absurd rfl early)

end

end Node

end JointQuery
