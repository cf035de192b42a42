import JointQuery.Proofs.Node.Changes
import JointQuery.Proofs.Node.Runs

/-! What clients learn of the end of their sessions, kept by every change. The client of a session
that is pursued is known; it hears of the end of the session or is gone; and a reporter does not end
before that. -/
namespace JointQuery

open ClientEvent

namespace ClientQueue.Fades

variable {τ ε : Type} {queue middle next : ClientQueue τ ε}

theorem refl (queue : ClientQueue τ ε) : queue.Fades queue := ⟨List.prefix_refl _, id⟩

theorem trans (earlier : queue.Fades middle) (later : middle.Fades next) : queue.Fades next :=
  ⟨earlier.events.trans later.events, earlier.connected ∘ later.connected⟩

end ClientQueue.Fades

/-- A step between live states changes neither the client nor whether the session has ended. -/
theorem Session.transition_live (session : Session) {source target : SessionState}
    (early : source.isTerminal = false) (later : target.isTerminal = false) :
    (session.transition source target).1.client = session.client ∧
      (session.transition source target).1.isTerminal = session.isTerminal ∧
      (session.isTerminal = true → (session.transition source target).1.state = session.state) := by
  simp only [transition]
  split
  · rename_i reached
    have live : session.isTerminal = false := by rw [isTerminal, reached, early]
    exact ⟨rfl, later.trans live.symm, fun final => by simp [live] at final⟩
  · exact ⟨rfl, rfl, fun _ => rfl⟩

namespace Node

variable {told : Bool} {active : Nat → Prop} {node after : Node} {place client : Nat}
  {session next : Session}

/-! ## What clients keep -/

/-- Clients stay, with what was queued for them, and do not come back. -/
def Keeps (node after : Node) : Prop :=
  ∀ (client : Nat) (queue : ClientQueue TaskId Notice), node.clients[client]? = some queue →
    ∃ next, after.clients[client]? = some next ∧ queue.Fades next

theorem keeps_of_clients (same : after.clients = node.clients) : node.Keeps after :=
  fun _ queue held => ⟨queue, by rw [same, held], .refl queue⟩

theorem Keeps.trans {middle : Node} (earlier : node.Keeps middle) (later : middle.Keeps after) :
    node.Keeps after := by
  intro client queue held
  obtain ⟨between, found, fades⟩ := earlier client queue held
  obtain ⟨next, present, further⟩ := later client between found
  exact ⟨next, present, fades.trans further⟩

theorem Keeps.lost (keeps : node.Keeps after) (lost : node.Lost client) : after.Lost client := by
  obtain ⟨queue, held, gone⟩ := lost
  obtain ⟨next, found, fades⟩ := keeps client queue held
  refine ⟨next, found, ?_⟩
  cases connected : next.isConnected with
  | false => rfl
  | true => exact absurd (fades.connected connected) (by simp [gone])

theorem Keeps.events (keeps : node.Keeps after) (place client : Nat) :
    node.told place client <+: after.told place client := by
  cases held : node.clients[client]? with
  | none => simp [Node.told, held]
  | some queue =>
    obtain ⟨next, found, fades⟩ := keeps client queue held
    simp only [Node.told, held, found, Notice.about]
    exact (fades.events.filter _).map _

theorem Keeps.tells (keeps : node.Keeps after) (tells : Tells (node.told place client) kind) :
    Tells (after.told place client) kind := by
  obtain ⟨event, member, isKind⟩ := tells
  exact ⟨event, (keeps.events place client).subset member, isKind⟩

private theorem Keeps.heard (keeps : node.Keeps after) (heard : node.Heard place client) :
    after.Heard place client := heard.imp keeps.lost keeps.tells

theorem Keeps.agrees (keeps : node.Keeps after) {phase : Phase}
    (agrees : node.Agrees place session phase) (client : next.client = session.client)
    (frozen : session.isTerminal = true → next.state = session.state) :
    after.Agrees place next phase := by
  cases phase with
  | idle => exact agrees
  | watching | passing => trivial
  | sending reported seen event =>
    refine ⟨fun final => ?_, agrees.2⟩
    have same := agrees.1 final
    exact (frozen (by rw [Session.isTerminal, same, final])).trans same
  | finished =>
    obtain ⟨final, answered⟩ := agrees
    have same := frozen final
    refine ⟨by rw [Session.isTerminal, same]; exact final, fun completed => ?_⟩
    rw [client]
    exact (answered (same ▸ completed)).imp keeps.lost keeps.tells

/-- What a change does to the clients. -/
theorem Change.keeps (change : Change told active node after) : node.Keeps after := by
  cases change with
  | beside same => exact keeps_of_clients same.clients
  | joined ref capacity patience =>
    intro client queue held
    have inside : client < node.clients.length := (List.getElem?_eq_some_iff.mp held).1
    exact ⟨queue, (List.getElem?_append_left inside).trans held, .refl queue⟩
  | @queued client queue next held fades =>
    intro other before found
    by_cases same : other = client
    · subst same
      obtain rfl := Option.some.inj (held.symm.trans found)
      obtain ⟨inside, -⟩ := List.getElem?_eq_some_iff.mp held
      exact ⟨next, by simp [setClient, inside], fades⟩
    · refine ⟨before, ?_, .refl before⟩
      rw [setClient, List.getElem?_set_ne (Ne.symm same), found]
  | filed | settled | entered | flew | opened | unpooled | closed | posted | sent =>
    exact keeps_of_clients rfl

/-! ## Desks -/

theorem Beside.desk (same : node.Beside after) : after.desk = node.desk := by
  funext place
  simp only [Node.desk, same.flights, same.requests, Desk.mk.injEq, true_and]
  funext client
  simp only [Node.told, same.clients]

theorem Beside.session? (same : node.Beside after) (place : Nat) :
    after.session? place = node.session? place := by
  simp only [Node.session?, same.flights]

/-- A change of a flight is, at the desks, what it does to the reporter. -/
theorem desk_modifyFlight {flight : Flight} (held : node.flights[place]? = some flight)
    (f : Flight → Flight) (other : Nat) : (node.modifyFlight place f).desk other =
      if other = place then (node.desk place).enter (f flight).reporter.phase
      else node.desk other := by
  have desks := congrArg Front.desks (front_modifyFlight node held f)
  have here : (node.modifyFlight place f).desk other = _ := congrFun desks other
  rw [here]
  exact Function.update_apply ..

theorem session?_modifyFlight {flight : Flight} (held : node.flights[place]? = some flight)
    (f : Flight → Flight) (other : Nat) : (node.modifyFlight place f).session? other =
      if other = place then some (f flight).session else node.session? other := by
  rw [session?, flights_modifyFlight held]
  split
  · rfl
  · rfl

/-- A session that is entered changes no desk. -/
theorem desk_enter (node : Node) (session : Session) :
    Node.desk { node with flights := node.flights ++ [.fresh session] } = node.desk := by
  have registered := congrArg Front.desks (node.front_register session)
  exact registered

/-! ## The invariant -/

/-- What holds of a session, its reporter and its client between operations. If `told`, the client
of a session that has ended early is told of that, or gone. -/
structure Informs (told : Bool) (node : Node) (place : Nat) (session : Session) : Prop where
  known : (node.desk place).Pursued → ∃ queue, node.clients[session.client]? = some queue
  agrees : (node.desk place).phase ≠ .idle → node.Agrees place session (node.desk place).phase
  heard : told = true → session.isTerminal = true → session.state ≠ .completed →
    (node.desk place).Pursued → node.Heard place session.client

/-- Every session of a node and its client are informed of each other. -/
def Informed (told : Bool) (node : Node) : Prop :=
  ∀ place session, node.session? place = some session → node.Informs told place session

theorem Keeps.known (keeps : node.Keeps after)
    (known : ∃ queue, node.clients[client]? = some queue) :
    ∃ queue, after.clients[client]? = some queue := by
  obtain ⟨queue, held⟩ := known
  obtain ⟨next, found, -⟩ := keeps client queue held
  exact ⟨next, found⟩

/-- A session that goes on as live or as ended as it was stays informed, as long as nobody begins to
pursue it. -/
theorem Informs.of_keeps (informs : node.Informs told place session) (keeps : node.Keeps after)
    (client : next.client = session.client) (alike : next.isTerminal = session.isTerminal)
    (frozen : session.isTerminal = true → next.state = session.state)
    (phase : (after.desk place).phase = (node.desk place).phase)
    (pursued : (after.desk place).Pursued → (node.desk place).Pursued) :
    after.Informs told place next where
  known sought := client ▸ keeps.known (informs.known (pursued sought))
  agrees begun := by
    rw [phase] at begun ⊢
    exact keeps.agrees (informs.agrees begun) client frozen
  heard tells final early sought := by
    rw [alike] at final
    rw [frozen final] at early
    exact client ▸ keeps.heard (informs.heard tells final early (pursued sought))

/-- Somebody begins to pursue a session of which that may be. -/
theorem Informs.pursue (informs : node.Informs told place session) (keeps : node.Keeps after)
    (present : node.session? place = some session) (may : node.MayPursue place)
    (client : next.client = session.client) (alike : next.isTerminal = session.isTerminal)
    (frozen : session.isTerminal = true → next.state = session.state)
    (agrees : (after.desk place).phase ≠ .idle →
      after.Agrees place next (after.desk place).phase) :
    after.Informs told place next where
  known _ := by
    rcases may with sought | ⟨other, queue, same, live, held⟩
    · exact client ▸ keeps.known (informs.known sought)
    · obtain rfl := Option.some.inj (present.symm.trans same)
      exact client ▸ keeps.known ⟨queue, held⟩
  agrees := agrees
  heard tells final early _ := by
    rw [alike] at final
    rcases may with sought | ⟨other, queue, same, live, held⟩
    · rw [frozen final] at early
      exact client ▸ keeps.heard (informs.heard tells final early sought)
    · obtain rfl := Option.some.inj (present.symm.trans same)
      simp [live] at final

/-- Where neither the sessions nor the desks change, informed sessions stay so. -/
theorem Informed.of_same (informed : node.Informed told) (keeps : node.Keeps after)
    (sessions : ∀ place, after.session? place = node.session? place)
    (phases : ∀ place, (after.desk place).phase = (node.desk place).phase)
    (pursued : ∀ place, (after.desk place).Pursued → (node.desk place).Pursued) :
    after.Informed told := by
  intro place session present
  rw [sessions] at present
  exact (informed place session present).of_keeps keeps rfl rfl (fun _ => rfl) (phases place)
    (pursued place)

private theorem Informed.of_front (informed : node.Informed told) (keeps : node.Keeps after)
    (front : after.front = node.front) : after.Informed told := by
  have desks (place : Nat) : after.desk place = node.desk place :=
    congrFun (congrArg Front.desks front) place
  refine informed.of_same keeps (fun place => ?_) (fun place => ?_) fun place => ?_
  · rw [session?_of_front front, session?_eq]
    rfl
  · rw [desks]
  · rw [desks]
    exact id

/-! ## Changes keep it -/

/-- Only a request that waits for a session makes it pursued. -/
theorem pursued_setRequest {index : Nat} {state : RequestState}
    (pursued : ((node.setRequest index state).desk place).Pursued) :
    (node.desk place).Pursued ∨ ∃ deadline, state = .accepting place deadline := by
  rcases pursued with begun | ⟨request, asks⟩
  · exact .inl (.inl begun)
  · cases held : node.requests[request]? with
    | none => simp [Node.desk, setRequest, List.getElem?_modify, held] at asks
    | some before =>
      by_cases same : index = request
      · simp only [Node.desk, setRequest, same, List.getElem?_modify_eq, held, Option.map_eq_map,
          Option.map_some, Option.bind_some, Request.asks?] at asks
        cases state with
        | accepting session deadline =>
          by_cases here : session = place
          · exact .inr ⟨deadline, here ▸ rfl⟩
          · simp [here] at asks
        | drawing | answering | ended => exact absurd rfl asks
      · simp only [Node.desk, setRequest, List.getElem?_modify_ne _ _ same] at asks
        exact .inl (.inr ⟨request, asks⟩)

private theorem Informed.settled (informed : node.Informed told) {index : Nat}
    {state : RequestState}
    (may : ∀ place deadline, state = .accepting place deadline → node.MayPursue place) :
    (node.setRequest index state).Informed told := by
  intro place session present
  have informs := informed place session present
  have keeps : node.Keeps (node.setRequest index state) := keeps_of_clients rfl
  by_cases waits : ∃ deadline, state = .accepting place deadline
  · obtain ⟨deadline, accepting⟩ := waits
    exact informs.pursue keeps present (may place deadline accepting) rfl rfl (fun _ => rfl)
      fun begun => keeps.agrees (informs.agrees begun) rfl fun _ => rfl
  · exact informs.of_keeps keeps rfl rfl (fun _ => rfl) rfl fun pursued =>
      (pursued_setRequest pursued).resolve_right waits

private theorem Informed.entered (informed : node.Informed told) (fresh : session.state = .created)
    (blank : node.desk node.flights.length = .blank) :
    Informed told { node with flights := node.flights ++ [.fresh session] } := by
  have desks := desk_enter node session
  intro place found present
  by_cases last : place = node.flights.length
  · subst last
    have idle : ¬ Desk.Pursued .blank := by simp [Desk.Pursued, Desk.blank]
    have live : session.isTerminal = false := by
      rw [Session.isTerminal, fresh]
      rfl
    simp only [session?, List.getElem?_concat_length, Option.map_some, Option.some.injEq] at present
    subst present
    refine ⟨?_, ?_, ?_⟩
    · rw [desks, blank]
      exact fun pursued => absurd pursued idle
    · rw [desks, blank]
      exact fun begun => absurd rfl begun
    · intro _ final
      simp [Flight.fresh, live] at final
  · have same : node.session? place = some found := by
      rwa [session?, getElem?_concat_of_ne last] at present
    exact (informed place found same).of_keeps (keeps_of_clients rfl) rfl rfl (fun _ => rfl)
      (by rw [desks]) (by rw [desks]; exact id)

/-- What can happen to a session and the work done for it keeps it informed. -/
theorem Informs.flies {flight : Flight} (informs : node.Informs told place flight.session)
    (held : node.flights[place]? = some flight) {f : Flight → Flight}
    (flies : Flies told active node place flight (f flight)) :
    (node.modifyFlight place f).Informs told place (f flight).session := by
  have keeps : node.Keeps (node.modifyFlight place f) := keeps_of_clients rfl
  have present := session?_of_flight held
  have phase : (node.desk place).phase = flight.reporter.phase := by simp [desk, held]
  have desk : (node.modifyFlight place f).desk place =
      (node.desk place).enter (f flight).reporter.phase := by
    rw [desk_modifyFlight held, if_pos rfl]
  have still (same : (f flight).reporter = flight.reporter) :
      (node.modifyFlight place f).desk place = node.desk place := by
    rw [desk, same, ← phase, Desk.enter_phase]
  generalize f flight = next at flies desk still ⊢
  generalize node.modifyFlight place f = later at keeps desk still ⊢
  cases flies with
  | @grew next continues =>
    have desk := still rfl
    exact informs.of_keeps keeps continues.client
      (congrArg SessionState.isTerminal continues.state) (fun _ => continues.state) (by rw [desk])
      (by rw [desk]; exact id)
  | awaited sent =>
    have desk := still rfl
    have kept := flight.session.transition_live
      (rfl : SessionState.dispatched.isTerminal = false)
      (rfl : SessionState.awaitingResults.isTerminal = false)
    exact informs.of_keeps keeps kept.1 kept.2.1 kept.2.2 (by rw [desk]) (by rw [desk]; exact id)
  | ended live final heard =>
    have desk := still rfl
    rw [Session.finish_of_live live]
    refine ⟨?_, ?_, ?_⟩
    · rw [desk]
      exact fun pursued => keeps.known (informs.known pursued)
    · rw [desk]
      exact fun begun => keeps.agrees (informs.agrees begun) rfl fun ended => by
        simp [live] at ended
    · rw [desk]
      exact fun tells _ early pursued => keeps.heard (heard tells early pursued)
  | launched idle may now =>
    have kept := flight.session.transition_live
      (rfl : SessionState.created.isTerminal = false)
      (rfl : SessionState.dispatched.isTerminal = false)
    refine informs.pursue keeps present may kept.1 kept.2.1 kept.2.2 fun _ => ?_
    rw [desk]
    trivial
  | reported runs begun agrees =>
    have pursued : (node.desk place).Pursued := .inl (by rwa [phase])
    refine informs.pursue keeps present (.inl pursued) rfl rfl (fun _ => rfl) fun _ => ?_
    rw [desk]
    exact keeps.agrees agrees rfl fun _ => rfl
  | tried | started | joined =>
    have desk := still rfl
    exact informs.of_keeps keeps rfl rfl (fun _ => rfl) (by rw [desk]) (by rw [desk]; exact id)

private theorem Informed.flew {flight : Flight} (informed : node.Informed told)
    (held : node.flights[place]? = some flight) {f : Flight → Flight}
    (flies : Flies told active node place flight (f flight)) :
    (node.modifyFlight place f).Informed told := by
  intro other session found
  rw [session?_modifyFlight held] at found
  by_cases same : other = place
  · subst same
    rw [if_pos rfl] at found
    obtain rfl := Option.some.inj found
    exact (informed other _ (session?_of_flight held)).flies held flies
  · rw [if_neg same] at found
    have desk : (node.modifyFlight place f).desk other = node.desk other := by
      rw [desk_modifyFlight held, if_neg same]
    exact (informed other session found).of_keeps (keeps_of_clients rfl) rfl rfl (fun _ => rfl)
      (by rw [desk]) (by rw [desk]; exact id)

/-- Every change keeps sessions and clients informed. -/
theorem Change.informed (change : Change told active node after) (informed : node.Informed told) :
    after.Informed told := by
  have keeps := change.keeps
  cases change with
  | beside same =>
    exact informed.of_same keeps same.session? (by simp [same.desk]) (by simp [same.desk])
  | joined ref capacity patience =>
    exact informed.of_front keeps (node.front_addClient ref capacity patience false)
  | queued held fades =>
    exact informed.of_same keeps (fun _ => rfl) (fun _ => rfl) fun _ => id
  | filed request apart =>
    obtain ⟨client, tellsFaults, state⟩ := request
    exact informed.of_front keeps (node.front_addRequest client tellsFaults apart)
  | settled index may => exact informed.settled may
  | entered session fresh blank => exact informed.entered fresh blank
  | flew held flies => exact informed.flew held flies
  | opened | unpooled | closed | posted => exact informed.of_front keeps rfl
  | sent => exact informed.of_front keeps (front_setSender ..)

theorem Changes.keeps (changes : Changes told active node after) : node.Keeps after := by
  induction changes with
  | refl => exact keeps_of_clients rfl
  | tail _ change ih => exact ih.trans change.keeps

theorem Changes.informed (changes : Changes told active node after)
    (informed : node.Informed told) : after.Informed told := by
  induction changes with
  | refl => exact informed
  | tail _ change ih => exact change.informed ih

end Node

end JointQuery
