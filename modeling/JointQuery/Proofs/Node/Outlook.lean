import JointQuery.Node.Connection
import JointQuery.Proofs.Node.Selection

/-! What a client can see of a node: its queue, its own sessions, and the answers that wait for room
in its queue. What comes of its request to cancel a query can be told from these alone, so that no
client learns from such a request whether somebody else has a query in flight. -/
namespace JointQuery

namespace ClientQueue

variable {τ σ ε δ : Type}

/-- A queue with other names for the tasks and for the events. -/
def map (queue : ClientQueue τ ε) (f : τ → σ) (g : ε → δ) : ClientQueue σ δ where
  ref := queue.ref
  capacity := queue.capacity
  patience := queue.patience
  events := queue.events.map g
  taken := queue.taken
  line := queue.line.map fun place => ⟨f place.task, place.kept⟩
  closed := queue.closed
  disconnected := queue.disconnected

variable (queue : ClientQueue τ ε) (f : τ → σ) (g : ε → δ)

@[simp] theorem disconnected_map : (queue.map f g).disconnected = queue.disconnected := rfl

@[simp] theorem closed_map : (queue.map f g).closed = queue.closed := rfl

@[simp] theorem patience_map : (queue.map f g).patience = queue.patience := rfl

@[simp] theorem room_map : (queue.map f g).room = queue.room := by
  have kept : ((queue.line.map fun place => (⟨f place.task, place.kept⟩ : Place σ)).filter
      (·.kept)).length = (queue.line.filter (·.kept)).length := by
    simp [List.filter_map, Function.comp_def]
  simp only [room, map, List.length_map, kept]

private theorem push_map (event : ε) : (queue.map f g).push (g event) =
    (queue.push event).map f g := by
  simp [push, map]

/-- A queue does not look at what it holds. -/
theorem trySend_map (event : ε) : (queue.map f g).trySend (g event) =
    ((queue.trySend event).1.map f g, (queue.trySend event).2) := by
  simp only [trySend, disconnected_map, closed_map, room_map, push_map]
  by_cases gone : queue.disconnected = true
  · simp only [gone, if_true]
  · by_cases full : (queue.closed || queue.room == 0) = true
    · simp only [gone, full, if_true]
      rfl
    · simp only [gone, full]
      rfl

private theorem offer_map (task : τ) (event : ε) : (queue.map f g).offer (f task) (g event) =
    ((queue.offer task event).1.map f g, (queue.offer task event).2) := by
  simp only [offer, disconnected_map, closed_map, room_map, patience_map, push_map]
  by_cases gone : queue.disconnected = true
  · simp only [gone, if_true]
  · by_cases closed : queue.closed = true
    · simp only [gone, closed, if_true]
      rfl
    · by_cases full : (queue.room == 0) = true
      · by_cases hasty : queue.patience = 0
        · simp only [gone, closed, full, hasty, if_true]
          rfl
        · simp [gone, closed, full, hasty, map]
      · simp only [gone, closed, full]
        rfl

end ClientQueue

/-- What a client can see of a node. -/
structure Outlook where
  /-- The queue of the client, whoever waits for room there. -/
  queue : ClientQueue Unit ClientEvent
  /-- The sessions of the client, in the order in which they were accepted. -/
  sessions : List Session
  /-- What the client is to be told once there is room for it. -/
  answers : List ClientEvent

namespace Outlook

/-- The session of the client that is in flight under an identifier. -/
def inFlight? (outlook : Outlook) (id : QueryId) : Option Session :=
  outlook.sessions.find? fun session => session.id == id && !session.isTerminal

/-- Tells the client something, as soon as there is room for it. -/
def answer (outlook : Outlook) (event : ClientEvent) : Outlook where
  queue := (outlook.queue.offer () event).1
  sessions := outlook.sessions
  answers :=
    if (outlook.queue.offer () event).2 = .waiting then outlook.answers ++ [event]
    else outlook.answers

/-- Tells a client that its session was cancelled, if it can be reached. -/
def notify (outlook : Outlook) (id : QueryId) : ClientQueue Unit ClientEvent :=
  if outlook.queue.isConnected then
    (outlook.queue.trySend (.ofError (some id) (.cancelled id))).1
  else outlook.queue

/-- What is seen by a client, given by its place, when it asks to cancel a query. -/
def cancel (outlook : Outlook) (client : Nat) (id : QueryId) : Outlook :=
  match outlook.inFlight? id with
  | none => outlook.answer (.ofError (some id) (Node.unknownQuery id))
  | some session => {
      queue := if session.client = client then outlook.notify id else outlook.queue
      sessions := outlook.sessions.map fun other =>
        if other.id = id then (other.finish .cancelled).1 else other
      answers := outlook.answers }

end Outlook

/-- The answer that a request keeps for a client until there is room for it. -/
def Request.answer? (request : Request) (client : Nat) : Option ClientEvent :=
  if request.client = client then
    match request.state with
    | .answering event _ _ => some event
    | _ => none
  else none

namespace Node

/-- The sessions of a client reference. -/
def owned (node : Node) (ref : String) : List Session :=
  node.ledger.sessions.filter (·.clientRef == ref)

/-- What a client can see of a node. -/
def outlook (node : Node) (client : Nat) : Option Outlook :=
  node.clients[client]?.map fun queue => {
    queue := queue.map (fun _ => ()) (·.event)
    sessions := node.owned queue.ref
    answers := node.requests.filterMap (·.answer? client) }

variable {node after : Node} {client place : Nat} {queue : ClientQueue TaskId Notice}
  {session : Session} {id : QueryId}

/-! ## Whose session it is -/

private theorem mem_owned_iff {ref : String} : session ∈ node.owned ref ↔
    (∃ place : Nat, node.ledger.sessions[place]? = some session) ∧ session.clientRef = ref := by
  rw [owned, List.mem_filter, List.mem_iff_getElem?, beq_iff_eq]

/-- Among the sessions of a reference, the one in flight under an identifier is the one that is
registered under it. -/
theorem find?_owned (sound : node.ledger.Sound) (ref : String) (id : QueryId) :
    (node.owned ref).find? (fun session => session.id == id && !session.isTerminal) =
      ((node.find? id).map (·.2)).filter (·.clientRef == ref) := by
  have sought (found : Session) (member : found ∈ node.owned ref) (named : found.id = id)
      (alive : found.isTerminal = false) : ∃ place, node.find? id = some (place, found) := by
    obtain ⟨⟨place, there⟩, -⟩ := mem_owned_iff.mp member
    exact ⟨place, find?_eq_some_iff.mpr ⟨named ▸ (sound.get?_eq_some_iff there).mpr alive, there⟩⟩
  cases first : (node.owned ref).find? fun session => session.id == id && !session.isTerminal with
  | some found =>
    have fits := List.find?_some first
    simp only [Bool.and_eq_true, beq_iff_eq, Bool.not_eq_true'] at fits
    have member := List.mem_of_find?_eq_some first
    obtain ⟨place, registered⟩ := sought found member fits.1 fits.2
    simp [registered, (mem_owned_iff.mp member).2, Option.filter]
  | none =>
    cases registered : node.find? id with
    | none => rfl
    | some entry =>
      obtain ⟨place, session⟩ := entry
      obtain ⟨held, present⟩ := find?_eq_some_iff.mp registered
      obtain ⟨named, live⟩ := sound.live_of_held held present
      have foreign : session.clientRef ≠ ref := by
        intro own
        have member : session ∈ node.owned ref := mem_owned_iff.mpr ⟨⟨place, present⟩, own⟩
        simpa [named, live] using List.find?_eq_none.mp first session member
      simp [foreign, Option.filter]

/-- Ending the session that is registered under an identifier ends, of all sessions, what is live
under it. -/
theorem sessions_put_finish (sound : node.ledger.Sound)
    (present : node.ledger.sessions[place]? = some session) (live : session.isTerminal = false)
    (target : SessionState) :
    (node.ledger.put place (session.finish target).1).sessions = node.ledger.sessions.map
      fun other => if other.id = session.id then (other.finish target).1 else other := by
  refine List.ext_getElem? fun other => ?_
  rw [Ledger.sessions_put present, List.getElem?_map]
  by_cases here : other = place
  · subst here
    simp [present]
  · rw [if_neg here]
    cases there : node.ledger.sessions[other]? with
    | none => rfl
    | some found =>
      by_cases same : found.id = session.id
      · have ended : found.isTerminal = true := by
          by_contra alive
          have held := (sound.registered session.id other).mpr
            ⟨found, there, same, by simpa using alive⟩
          exact here (sound.distinct.eq_of_mem held
            ((sound.registered session.id place).mpr ⟨session, present, rfl, live⟩))
        simp [same, Session.finish_of_terminal ended]
      · simp [same]

private theorem filter_clientRef_map (sessions : List Session) (ref : String)
    {f : Session → Session} (asked : ∀ session : Session, session.AskedAs (f session)) :
    (sessions.map f).filter (·.clientRef == ref) =
      (sessions.filter (·.clientRef == ref)).map f := by
  rw [List.filter_map]
  simp only [Function.comp_def, (asked _).ref]

/-! ## Requests to cancel -/

/-- What ending a session for a cause does to a node. -/
theorem terminate_told (present : node.session? place = some session)
    (live : session.isTerminal = false) (target : SessionState) (cause : QueryError) :
    (node.terminate place target (some cause)).1.clients = (node.tellEnd place cause).clients ∧
    (node.terminate place target (some cause)).1.requests = node.requests ∧
    (node.terminate place target (some cause)).1.ledger =
      (node.ledger.put place (session.finish target).1).forget session.id := by
  have same := beside_terminate present live target cause
  obtain ⟨clients, told⟩ := node.tellEnd_eq place cause
  have still : (node.tellEnd place cause).session? place = some session := by
    rw [told]
    exact present
  obtain ⟨agenda, registry, finished⟩ := finish_eq still live target
  obtain ⟨-, ends⟩ := finish_of_live present live target
  refine ⟨?_, ?_, ?_⟩
  · rw [same.clients, finished]
    rfl
  · rw [same.requests, finished, told]
    rfl
  · rw [terminate_fst]
    exact congrArg Front.ledger ends

/-- The client of a session is told of its end, if it can be reached; nobody else is told. -/
theorem clients_tellEnd_at (held : node.clients[client]? = some queue)
    (present : node.session? place = some session) (cause : QueryError) :
    (node.tellEnd place cause).clients[client]? = some
      (if session.client = client then
        if queue.isConnected then
          (queue.trySend ⟨some place, .ofError (some session.id) cause⟩).1
        else queue
      else queue) := by
  obtain ⟨inside, -⟩ := List.getElem?_eq_some_iff.mp held
  by_cases own : session.client = client
  · subst own
    by_cases connected : queue.isConnected = true
    · simp only [tellEnd, present, isConnected, trySend, held, connected, setClient, if_true]
      exact List.getElem?_set_self inside
    · simp [tellEnd, present, isConnected, held, connected]
  · simp only [tellEnd, present, own, if_false]
    split
    · simp only [trySend]
      split
      · exact (List.getElem?_set_ne own).trans held
      · exact held
    · exact held

private theorem outlook_eq (held : node.clients[client]? = some queue) :
    node.outlook client = some {
      queue := queue.map (fun _ => ()) (·.event)
      sessions := node.owned queue.ref
      answers := node.requests.filterMap (·.answer? client) } := by
  rw [outlook, held]
  rfl

/-- What a client sees when its own session is cancelled. -/
theorem outlook_cancel (held : node.clients[client]? = some queue) (sound : node.ledger.Sound)
    (sought : node.find? id = some (place, session)) (own : session.clientRef = queue.ref) :
    (node.cancel id).1.outlook client = (node.outlook client).map (·.cancel client id) := by
  obtain ⟨registered, there⟩ := find?_eq_some_iff.mp sought
  obtain ⟨named, live⟩ := sound.live_of_held registered there
  have present := (node.session?_eq place).trans there
  obtain ⟨clients, requests, ledger⟩ := terminate_told present live .cancelled (.cancelled id)
  have told := clients_tellEnd_at held present (.cancelled id)
  have found : (node.owned queue.ref).find? (fun session =>
      session.id == id && !session.isTerminal) = some session := by
    rw [find?_owned sound, sought]
    simp [own, Option.filter]
  have ref : (if session.client = client then
      if queue.isConnected then
        (queue.trySend ⟨some place, .ofError (some session.id) (.cancelled id)⟩).1
      else queue
    else queue).ref = queue.ref := by
    split
    · split
      · exact queue.ref_trySend _
      · rfl
    · rfl
  have cancelled : (node.cancel id).1 =
      (node.terminate place .cancelled (some (.cancelled id))).1 := by rw [cancel, sought]
  rw [cancelled, outlook_eq (clients ▸ told), outlook_eq held, ref]
  simp only [Option.map_some, Outlook.cancel, Outlook.inFlight?, found, requests]
  congr 2
  · split
    · have alike : (queue.map (fun _ => ()) Notice.event).isConnected = queue.isConnected := rfl
      simp only [Outlook.notify, alike]
      split
      · rw [named]
        exact congrArg Prod.fst (queue.trySend_map (fun _ => ()) Notice.event
          ⟨some place, .ofError (some id) (.cancelled id)⟩).symm
      · rfl
    · rfl
  · have ended := sessions_put_finish sound there live .cancelled
    rw [named] at ended
    rw [owned, ledger, Ledger.forget, ended]
    refine filter_clientRef_map _ _ fun other => ?_
    split
    · exact other.askedAs_finish .cancelled
    · exact .refl other

/-- A fault of which a client is told changes nothing but its queue and the request, which keeps the
event as long as there is no room for it. -/
theorem answerFault_eq (held : node.clients[client]? = some queue) (index : Nat)
    (about : Option QueryId) (cause : QueryError) :
    ∃ state, (node.answerFault index client about cause).clients =
        node.clients.set client (queue.offer (.request index) ⟨none, .ofError about cause⟩).1 ∧
      (node.answerFault index client about cause).flights = node.flights ∧
      (node.answerFault index client about cause).registry = node.registry ∧
      (node.answerFault index client about cause).requests =
        (node.setRequest index state).requests ∧
      (⟨client, true, state⟩ : Request).answer? client =
        if (queue.offer (.request index) ⟨none, .ofError about cause⟩).2 = .waiting then
          some (.ofError about cause)
        else none := by
  simp only [answerFault, offer, held]
  cases (queue.offer (.request index) ⟨none, .ofError about cause⟩).2 with
  | waiting => exact ⟨_, rfl, rfl, rfl, rfl, by simp [Request.answer?]⟩
  | sent => exact ⟨_, rfl, rfl, rfl, rfl, by simp [Request.answer?]⟩
  | refused => exact ⟨_, rfl, rfl, rfl, rfl, by simp [Request.answer?]⟩

private theorem modify_concat {α : Type} (entries : List α) (last : α) (f : α → α) :
    (entries ++ [last]).modify entries.length f = entries ++ [f last] := by
  induction entries with
  | nil => rfl
  | cons entry rest ih => simp [ih]

/-- What a client sees when it is told of the fault of a request that it has just made. -/
theorem outlook_answerFault (held : node.clients[client]? = some queue) (state : RequestState)
    (about : Option QueryId) (cause : QueryError) :
    ((node.addRequest client true state).1.answerFault node.requests.length client about
      cause).outlook client = (node.outlook client).map (·.answer (.ofError about cause)) := by
  have present : (node.addRequest client true state).1.clients[client]? = some queue := held
  obtain ⟨next, clients, flights, registry, requests, keeps⟩ :=
    answerFault_eq present node.requests.length about cause
  obtain ⟨inside, -⟩ := List.getElem?_eq_some_iff.mp held
  have told := (congrArg (·[client]?) clients).trans (List.getElem?_set_self inside)
  have sessions (ref : String) : ((node.addRequest client true state).1.answerFault
      node.requests.length client about cause).owned ref = node.owned ref := by
    rw [owned, ledger, flights]
    rfl
  have offered := queue.offer_map (fun _ => ()) Notice.event (.request node.requests.length)
    ⟨none, .ofError about cause⟩
  have answers : (((node.addRequest client true state).1.setRequest node.requests.length
      next).requests).filterMap (·.answer? client) = node.requests.filterMap (·.answer? client) ++
        ((⟨client, true, next⟩ : Request).answer? client).toList := by
    simp only [setRequest, addRequest, modify_concat, List.filterMap_append, List.filterMap_cons,
      List.filterMap_nil]
    cases (⟨client, true, next⟩ : Request).answer? client <;> rfl
  rw [outlook_eq told, outlook_eq held, ClientQueue.ref_offer, sessions, requests, answers, keeps]
  simp only [Option.map_some, Outlook.answer]
  rw [offered]
  split <;> simp

/-- A client asks to cancel a query that is in flight for it. -/
def Cancels (node : Node) (ref : String) (id : QueryId) (place : Nat) : Prop :=
  node.InFlight place fun session => session.id = id ∧ session.clientRef = ref

private theorem find?_of_cancels {ref : String} (own : node.Cancels ref id place) :
    ∃ session, node.find? id = some (place, session) ∧ session.clientRef = ref := by
  obtain ⟨session, present, held, rfl, same⟩ := own
  refine ⟨session, find?_eq_some_iff.mpr ⟨held, ?_⟩, same⟩
  exact (node.session?_eq place).symm.trans present

private theorem beginCancel_of_own (held : node.clients[client]? = some queue)
    (sought : node.find? id = some (place, session)) (own : session.clientRef = queue.ref) :
    (node.beginCancel client id).1 =
      ((node.addRequest client true (.ended (.ok id))).1.cancel id).1 := by
  have found : (node.addRequest client true (.ended (.ok id))).1.find? id =
    some (place, session) := sought
  have ref : (node.addRequest client true (.ended (.ok id))).1.clientRef client = queue.ref := by
    simp [clientRef, addRequest, held]
  simp only [beginCancel, owns, found, ref, own, beq_self_eq_true, if_true]

private theorem beginCancel_of_foreign (sound : node.ledger.Sound)
    (held : node.clients[client]? = some queue)
    (foreign : ∀ place, ¬ node.Cancels queue.ref id place) :
    (node.beginCancel client id).1 = (node.addRequest client true (.ended (.ok id))).1.answerFault
      node.requests.length client (some id) (unknownQuery id) := by
  have ref : (node.addRequest client true (.ended (.ok id))).1.clientRef client = queue.ref := by
    simp [clientRef, addRequest, held]
  have unowned : (node.addRequest client true (.ended (.ok id))).1.owns queue.ref id = false := by
    rw [owns]
    split
    · rename_i place session sought
      exact beq_false_of_ne fun own =>
        foreign place (inFlight_of_find? sound sought fun named => ⟨named, own⟩)
    · rfl
  simp only [beginCancel, ref, unowned]
  rfl

/-- What a client sees of its request to cancel a query follows from what it has seen before. -/
theorem outlook_beginCancel (sound : node.ledger.Sound) (held : node.clients[client]? = some queue)
    (id : QueryId) : (node.beginCancel client id).1.outlook client =
      (node.outlook client).map (·.cancel client id) := by
  by_cases foreign : ∀ place, ¬ node.Cancels queue.ref id place
  · have nothing : (node.owned queue.ref).find? (fun session =>
        session.id == id && !session.isTerminal) = none := by
      rw [find?_owned sound, Option.filter_eq_none_iff]
      rintro session found
      obtain ⟨⟨place, _⟩, sought, rfl⟩ := Option.map_eq_some_iff.mp found
      exact fun own => foreign place
        (inFlight_of_find? sound sought fun named => ⟨named, beq_iff_eq.mp own⟩)
    rw [beginCancel_of_foreign sound held foreign, outlook_answerFault held, outlook_eq held]
    simp only [Option.map_some, Outlook.cancel, Outlook.inFlight?, nothing]
  · simp only [not_forall, not_not] at foreign
    obtain ⟨place, own⟩ := foreign
    obtain ⟨session, sought, ref⟩ := find?_of_cancels own
    have present : (node.addRequest client true (.ended (.ok id))).1.clients[client]? =
      some queue := held
    have added : (node.addRequest client true (.ended (.ok id))).1.outlook client =
        node.outlook client := by
      rw [outlook_eq present, outlook_eq held]
      simp [addRequest, owned, ledger, Request.answer?]
    have found : (node.addRequest client true (.ended (.ok id))).1.find? id =
      some (place, session) := sought
    rw [beginCancel_of_own held sought ref, outlook_cancel present sound found ref, added]

/-- The session at a place has been cancelled, and nothing else. -/
structure CancelsOnly (node : Node) (id : QueryId) (place : Nat) (after : Node) : Prop where
  session : ∀ session, node.session? place = some session →
    after.session? place = some { session with state := .cancelled, changed := true }
  unknown : after.registry.contains id = false
  others : ∀ other, other ≠ place → after.flights[other]? = node.flights[other]?
  registered : ∀ other, other ≠ place → ∀ named,
    after.registry.get? named = some other ↔ node.registry.get? named = some other

/-- Nothing has been done to any session, and the client was told that the identifier is unknown,
whatever it stands for. -/
structure KeepsAll (node : Node) (client : Nat) (queue : ClientQueue TaskId Notice) (id : QueryId)
    (after : Node) : Prop where
  flights : after.flights = node.flights
  registry : after.registry = node.registry
  others : ∀ other, other ≠ client → after.clients[other]? = node.clients[other]?
  told : after.clients[client]? = some (queue.offer (.request node.requests.length)
    ⟨none, .error (some id) "protocol_violation"
      ("Protocol violation: unknown query id " ++ id.text)⟩).1

/-- What the request of a client to cancel a query comes to. -/
structure CancelsOwn (node : Node) (client : Nat) (queue : ClientQueue TaskId Notice) (id : QueryId)
    (after : Node) (flow : Flow) : Prop where
  /-- The connection stays open. -/
  proceeds : flow = .proceed
  foreign : (∀ place, ¬ node.Cancels queue.ref id place) → node.KeepsAll client queue id after
  own : ∀ place, node.Cancels queue.ref id place → node.CancelsOnly id place after
  /-- In any run after which the client sees the same, it sees the same of such a request. -/
  alike : ∀ config limits identifiers operations another,
    (start config limits identifiers).performAll operations = another →
    another.outlook client = node.outlook client →
    (another.receive (.client client) (.request (.cancel id))).1.outlook client =
      after.outlook client

/-- The session that a client asks to cancel ends, and no other. -/
theorem cancelsOnly_beginCancel (sound : node.ledger.Sound)
    (held : node.clients[client]? = some queue) (own : node.Cancels queue.ref id place) :
    node.CancelsOnly id place (node.beginCancel client id).1 := by
  obtain ⟨session, sought, ref⟩ := find?_of_cancels own
  obtain ⟨registered, there⟩ := find?_eq_some_iff.mp sought
  obtain ⟨rfl, live⟩ := sound.live_of_held registered there
  have present : (node.addRequest client true (.ended (.ok session.id))).1.session? place =
    some session := (node.session?_eq place).trans there
  have found : (node.addRequest client true (.ended (.ok session.id))).1.find? session.id =
    some (place, session) := sought
  have ended : (node.beginCancel client session.id).1.ledger =
      (node.ledger.put place (session.finish .cancelled).1).forget session.id := by
    rw [beginCancel_of_own held sought ref, cancel, found]
    exact (terminate_told present live .cancelled (.cancelled session.id)).2.2
  have alone : node.Confined {place} False (node.beginCancel client session.id).1 := by
    refine confined_of_edits (edits_beginCancel trivial fun other found again _ => ?_)
    exact (Prod.mk.inj (Option.some.inj (again.symm.trans sought))).1
  refine ⟨fun before found => ?_, ?_, fun other differs => alone.flights other differs,
    fun other differs => ?_⟩
  · obtain rfl := Option.some.inj (present.symm.trans found)
    rw [session?_eq, ended, Session.finish_of_live live]
    exact Ledger.sessions_put_self there _
  · have gone := congrArg (·.registry.contains session.id) ended
    refine gone.trans ?_
    rw [← Bool.not_eq_true, Registry.contains_iff]
    simp [Ledger.forget, Registry.ids, Registry.remove]
  · have still := (steps_perform sound (.beginCancel client session.id)).sound_ledger sound
    exact registered_alike sound still (alone.flights other differs)

/-- To cancel what is not one's own in flight does nothing but to be told so. -/
theorem keepsAll_beginCancel (sound : node.ledger.Sound)
    (held : node.clients[client]? = some queue)
    (foreign : ∀ place, ¬ node.Cancels queue.ref id place) :
    node.KeepsAll client queue id (node.beginCancel client id).1 := by
  have present : (node.addRequest client true (.ended (.ok id))).1.clients[client]? =
    some queue := held
  obtain ⟨state, clients, flights, registry, -⟩ :=
    answerFault_eq present node.requests.length (some id) (unknownQuery id)
  obtain ⟨inside, -⟩ := List.getElem?_eq_some_iff.mp held
  rw [beginCancel_of_foreign sound held foreign]
  refine ⟨flights, registry, fun other differs => ?_, ?_⟩ <;> rw [clients]
  · exact List.getElem?_set_ne (Ne.symm differs)
  · exact List.getElem?_set_self inside

/-- A client can cancel its own queries and nothing else, and it learns nothing of those of others,
in every run. A request to cancel anything but its own query in flight changes no session and
nothing that is registered, and the client is told the same whatever the identifier stands for.
Otherwise its query ends, and no other. And what the client sees afterwards follows from what it has
seen before: in any two runs after which it sees the same, it sees the same afterwards. -/
theorem cancels_own_only (config : Config) (limits : OutputLimits) (identifiers : Nat → QueryId)
    (earlier : List Operation) (node : Node)
    (reached : (start config limits identifiers).performAll earlier = node)
    (client : Nat) (queue : ClientQueue TaskId Notice)
    (held : node.clients[client]? = some queue) (id : QueryId) (after : Node) (flow : Flow)
    (number : Option Nat)
    (taken : node.receive (.client client) (.request (.cancel id)) = (after, flow, number)) :
    node.CancelsOwn client queue id after flow := by
  have sound : node.ledger.Sound := reached ▸ sound_performAll config limits identifiers earlier
  simp only [receive, receiveRequest, Prod.mk.injEq] at taken
  obtain ⟨rfl, rfl, -⟩ := taken
  refine ⟨rfl, keepsAll_beginCancel sound held, fun place => cancelsOnly_beginCancel sound held, ?_⟩
  rintro config limits identifiers operations another reached alike
  have known : another.ledger.Sound :=
    reached ▸ sound_performAll config limits identifiers operations
  have seen := alike.trans (outlook_eq held)
  obtain ⟨view, present, -⟩ := Option.map_eq_some_iff.mp seen
  simp only [receive, receiveRequest]
  rw [outlook_beginCancel known present, outlook_beginCancel sound held, alike]

/-- A client asks to cancel the query of another. It does nothing, and the client cannot tell that
from a request about a query that there never was. -/
theorem cancels_own_only_foreign : ∃ node another,
    (start (.ofParty .ph) (Config.ofParty .ph).outputLimits QueryId.numbered).performAll
      [.addClient "front" 8 0 false, .addClient "back" 8 0 false,
        .beginQuery 1 Session.oneCount true] = node ∧
    (start (.ofParty .ph) (Config.ofParty .ph).outputLimits QueryId.numbered).performAll
      [.addClient "front" 8 0 false, .addClient "back" 8 0 false] = another ∧
    (node.receive (.client 0) (.request (.cancel (QueryId.numbered 0)))).1.flights = node.flights ∧
    (another.receive (.client 0) (.request (.cancel (QueryId.numbered 0)))).1.outlook 0 =
      (node.receive (.client 0) (.request (.cancel (QueryId.numbered 0)))).1.outlook 0 := by
  have cancels := cancels_own_only (.ofParty .ph) (Config.ofParty .ph).outputLimits
    QueryId.numbered [.addClient "front" 8 0 false, .addClient "back" 8 0 false,
      .beginQuery 1 Session.oneCount true] _ rfl 0 _ rfl (QueryId.numbered 0) _ _ _ rfl
  refine ⟨_, _, rfl, rfl, (cancels.foreign fun place own => ?_).flights,
    cancels.alike _ _ _ _ _ rfl rfl⟩
  obtain ⟨session, present, -, -, own⟩ := own
  cases place with
  | zero =>
    cases present
    exact absurd own (by decide)
  | succ => cases present

end Node

end JointQuery
