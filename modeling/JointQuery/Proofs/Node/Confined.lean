import JointQuery.Proofs.Node.Involved

/-! What is done to some sessions leaves all others alone, with the work that is done for them.
Meanwhile no client changes its reference, and no session is handed to another client. -/
namespace JointQuery

/-- A session is still that of the client that has asked for it. -/
structure Session.AskedAs (before next : Session) : Prop where
  client : next.client = before.client
  ref : next.clientRef = before.clientRef

namespace Session.AskedAs

variable {before middle next : Session}

theorem refl (session : Session) : session.AskedAs session := ⟨rfl, rfl⟩

private theorem trans (earlier : before.AskedAs middle) (later : middle.AskedAs next) :
    before.AskedAs next :=
  ⟨later.client.trans earlier.client, later.ref.trans earlier.ref⟩

end Session.AskedAs

theorem Session.askedAs_finish (session : Session) (target : SessionState) :
    session.AskedAs (session.finish target).1 := by
  unfold finish
  split <;> exact ⟨rfl, rfl⟩

private theorem Session.askedAs_transition (session : Session) (source target : SessionState) :
    session.AskedAs (session.transition source target).1 := by
  unfold transition
  split <;> exact ⟨rfl, rfl⟩

namespace Node

/-- A node later on. Outside some places nothing was done to any session, nor for it, and there is
a new one only if sessions are opened; every client is there under its reference, and every session
is that of its client. -/
structure Confined (places : Set Nat) (opens : Prop) (node after : Node) : Prop where
  length : ¬ opens → after.flights.length = node.flights.length
  flights : ∀ place, place ∉ places → after.flights[place]? = node.flights[place]?
  refs : ∀ (client : Nat) (queue : ClientQueue TaskId Notice), node.clients[client]? = some queue →
    ∃ next, after.clients[client]? = some next ∧ next.ref = queue.ref
  askers : ∀ (place : Nat) (flight : Flight), node.flights[place]? = some flight →
    ∃ next, after.flights[place]? = some next ∧ flight.session.AskedAs next.session

variable {places : Set Nat} {opens : Prop} {node middle after : Node} {index : Nat}

theorem confined_of_same (flights : after.flights = node.flights)
    (clients : after.clients = node.clients) : node.Confined places opens after where
  length _ := by rw [flights]
  flights _ _ := by rw [flights]
  refs _ queue held := ⟨queue, by rw [clients, held], rfl⟩
  askers _ flight held := ⟨flight, by rw [flights, held], .refl _⟩

theorem Confined.refl (node : Node) : node.Confined places opens node := confined_of_same rfl rfl

theorem Confined.trans (earlier : node.Confined places opens middle)
    (later : middle.Confined places opens after) : node.Confined places opens after where
  length closed := (later.length closed).trans (earlier.length closed)
  flights place outside := (later.flights place outside).trans (earlier.flights place outside)
  refs client queue held := by
    obtain ⟨between, found, same⟩ := earlier.refs client queue held
    obtain ⟨next, present, still⟩ := later.refs client between found
    exact ⟨next, present, still.trans same⟩
  askers place flight held := by
    obtain ⟨between, found, asked⟩ := earlier.askers place flight held
    obtain ⟨next, present, still⟩ := later.askers place between found
    exact ⟨next, present, asked.trans still⟩

/-- A change of the flight at one of the places. -/
theorem confined_modifyFlight (chosen : index ∈ places) {f : Flight → Flight}
    (asked : ∀ flight, node.flights[index]? = some flight →
      flight.session.AskedAs (f flight).session) :
    node.Confined places opens (node.modifyFlight index f) where
  length _ := List.length_modify ..
  flights place outside := by
    have differs : index ≠ place := by
      rintro rfl
      exact outside chosen
    exact List.getElem?_modify_ne _ _ differs
  refs _ queue held := ⟨queue, held, rfl⟩
  askers place flight held := by
    by_cases same : index = place
    · subst same
      exact ⟨f flight, by simp [modifyFlight, held], asked flight held⟩
    · exact ⟨flight, by simp [modifyFlight, same, held], .refl _⟩

/-! ## Edits -/

/-- The reach of what is done to some sessions. -/
def amid (places : Set Nat) (opens : Prop) : Reach :=
  { Reach.whole with places := places, opens := opens }

variable {reach : Reach}

private theorem Edit.confined (edit : Edit reach node after) :
    node.Confined reach.places reach.opens after := by
  cases edit with
  | heard shown refs =>
    exact ⟨fun _ => rfl, fun _ _ => rfl, refs, fun _ flight held => ⟨flight, held, .refl _⟩⟩
  | entered shown opens last fresh =>
    refine ⟨fun closed => absurd opens closed, fun place outside => ?_,
      fun _ queue held => ⟨queue, held, rfl⟩, fun place flight held => ⟨flight, ?_, .refl _⟩⟩
    · refine getElem?_concat_of_ne ?_
      rintro rfl
      exact outside last
    · exact (List.getElem?_append_left (List.getElem?_eq_some_iff.mp held).1).trans held
  | @flew place chosen f works =>
    refine confined_modifyFlight chosen fun flight held => ?_
    have work := works flight held
    generalize f flight = next at work
    cases work with
    | awaited => exact flight.session.askedAs_transition ..
    | recorded => exact ⟨rfl, rfl⟩
    | rested | reported | sent | started | joined => exact .refl _
  | @ended place session target tasks shown chosen present final roused registry =>
    refine (confined_modifyFlight chosen fun flight held => ?_).trans (confined_of_same rfl rfl)
    obtain rfl := Option.some.inj ((session?_of_flight held).symm.trans present)
    exact ⟨rfl, rfl⟩
  | launched shown chosen roused reporter =>
    exact (confined_modifyFlight chosen fun flight _ =>
      flight.session.askedAs_transition ..).trans (confined_of_same rfl rfl)
  | _ => exact confined_of_same rfl rfl

private theorem Edits.confined (edits : node.Edits reach after) :
    node.Confined reach.places reach.opens after := by
  induction edits with
  | refl => exact .refl node
  | tail _ edit ih => exact ih.trans edit.confined

theorem confined_of_edits (edits : node.Edits (amid places opens) after) :
    node.Confined places opens after := Edits.confined edits

end Node

end JointQuery
