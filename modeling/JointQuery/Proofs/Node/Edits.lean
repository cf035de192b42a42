import JointQuery.Proofs.Node.Agenda
import JointQuery.Proofs.Node.Frames

/-! The smallest things that a node changes. A reach says which sessions, tasks and parties may be
involved, an edit is one change within a reach, and whatever a node does is a series of edits. What
a reach leaves out can then be read off the edits, without looking at what the node does.

An edit says where something happens, and needs nothing to hold of the node. What has to hold before
something happens is said by `Node.Change`, and what clients are told of it by `Node.front`. -/
namespace JointQuery

/-- What may be changed of a node. -/
structure Reach where
  /-- The sessions, each with the work done for it. -/
  places : Set Nat
  /-- Sessions may be opened. -/
  opens : Prop
  /-- More may change than the work toward the parties. -/
  shows : Prop
  /-- The senders, and the waits for senders, that may get on. -/
  tasks : Set TaskId
  /-- The parties toward which something may be done. -/
  parties : Set Party

/-- Everything. -/
def Reach.whole : Reach := ⟨Set.univ, True, True, Set.univ, Set.univ⟩

/-- The senders of a session have been started. -/
def FanOut.isBegun : FanOut → Bool
  | .joining _ | .over => true
  | .unstarted | .starting => false

/-- What can be done to a session and to the work for it, within a reach. -/
inductive Flight.Works (reach : Reach) (place : Nat) (flight : Flight) : Flight → Prop where
  | rested : Works reach place flight flight
  /-- More is known of the tuples, or what is known has been seen. -/
  | recorded (shown : reach.shows) (slots : List TupleSlot) (remaining : Nat) (changed : Bool) :
      Works reach place flight { flight with session := { flight.session with
        slots := slots, remaining := remaining, changed := changed } }
  | reported (shown : reach.shows) (reporter : Reporter) :
      Works reach place flight { flight with reporter := reporter }
  | sent (own : .sender place party ∈ reach.tasks) (sender : Sender) :
      Works reach place flight { flight with senders := flight.senders.set party sender }
  | started (own : ∀ party, .sender place party ∈ reach.tasks) (senders : PerParty Sender)
      (fanOut : FanOut) : Works reach place flight { flight with senders := senders, fanOut := fanOut }
  | joined {fanOut : FanOut}
      (own : .fanOut place ∈ reach.tasks ∨ ∃ party, .sender place party ∈ reach.tasks)
      (begun : flight.fanOut.isBegun = true) (still : fanOut.isBegun = true) :
      Works reach place flight { flight with fanOut := fanOut }
  | awaited (shown : reach.shows) (begun : flight.fanOut.isBegun = true) :
      Works reach place flight
        { flight with session := (flight.session.transition .dispatched .awaitingResults).1 }

namespace Flight.Works

variable {reach : Reach} {place : Nat} {flight next : Flight}

theorem senders (works : flight.Works reach place next) {party : Party}
    (outside : .sender place party ∉ reach.tasks) :
    next.senders.get party = flight.senders.get party := by
  cases works with
  | sent own => exact PerParty.get_set_ne _ _ fun same => outside (same ▸ own)
  | started own => exact absurd (own party) outside
  | rested | recorded | reported | joined | awaited => rfl

theorem fanOut (works : flight.Works reach place next)
    (outside : .fanOut place ∉ reach.tasks) (apart : ∀ party, .sender place party ∉ reach.tasks) :
    next.fanOut = flight.fanOut := by
  cases works with
  | started own => exact absurd (own .ph) (apart .ph)
  | joined own => exact absurd own (not_or.mpr ⟨outside, not_exists.mpr apart⟩)
  | rested | recorded | reported | sent | awaited => rfl

theorem isTerminal (works : flight.Works reach place next) :
    next.session.isTerminal = flight.session.isTerminal := by
  cases works with
  | awaited =>
    unfold Session.transition
    split
    · rename_i dispatched
      rw [Session.isTerminal, Session.isTerminal, dispatched]
      rfl
    · rfl
  | rested | recorded | reported | sent | started | joined => rfl

theorem startMessage (works : flight.Works reach place next) :
    next.session.startMessage = flight.session.startMessage := by
  cases works with
  | awaited =>
    unfold Session.transition
    split <;> rfl
  | rested | recorded | reported | sent | started | joined => rfl

end Flight.Works

namespace Node

/-- The channel at a place is to a party. -/
def LeadsTo (node : Node) (index : Nat) (party : Party) : Prop :=
  ∃ channel, node.channels[index]? = some channel ∧ channel.party = party

end Node

namespace Reach

/-- The channel at a place leads to no party outside a reach. -/
def Covers (reach : Reach) (node : Node) (index : Nat) : Prop :=
  ∀ party, node.LeadsTo index party → party ∈ reach.parties

/-- Nor do the channels that senders to its parties share. -/
def Shares (reach : Reach) (node : Node) : Prop :=
  ∀ party ∈ reach.parties, ∀ index, node.pooled.get party = some index → reach.Covers node index

end Reach

namespace Node

/-- One change of a node within a reach. -/
inductive Edit (reach : Reach) (node : Node) : Node → Prop where
  /-- More is to be done. -/
  | scheduled {agenda : Agenda} (grows : node.agenda.Extends agenda)
      (retains : node.agenda.Retains reach.tasks agenda) :
      Edit reach node { node with agenda := agenda }
  /-- What the node keeps for itself. -/
  | noted (wall : Int64) (drawn : Nat) (sweepDue : Option Nat) (delivered : List (Party × Frame))
      (deliveries : List Delivery) (deliveredEvents posted grantedOrder : List Nat) :
      Edit reach node { node with
        wall := wall, drawn := drawn, sweepDue := sweepDue, delivered := delivered
        deliveries := deliveries, deliveredEvents := deliveredEvents, posted := posted
        grantedOrder := grantedOrder }
  /-- Clients keep their references. -/
  | heard (shown : reach.shows) {clients : List (ClientQueue TaskId Notice)}
      (refs : ∀ (client : Nat) (queue : ClientQueue TaskId Notice),
        node.clients[client]? = some queue →
          ∃ next, clients[client]? = some next ∧ next.ref = queue.ref) (attended : List Nat) :
      Edit reach node { node with clients := clients, attended := attended }
  | asked (shown : reach.shows) (requests : List Request) :
      Edit reach node { node with requests := requests }
  | entered (shown : reach.shows) (opens : reach.opens) (last : node.flights.length ∈ reach.places)
      (fresh : session.state = .created) (registry : Registry Nat) :
      Edit reach node { node with
        flights := node.flights ++ [.fresh session], registry := registry }
  | flew (chosen : place ∈ reach.places) {f : Flight → Flight}
      (works : ∀ flight, node.flights[place]? = some flight → flight.Works reach place (f flight)) :
      Edit reach node (node.modifyFlight place f)
  /-- A session ends, and its senders are roused. -/
  | ended (shown : reach.shows) (chosen : place ∈ reach.places)
      (present : node.session? place = some session) (final : target.isTerminal = true)
      (roused : ∀ party ∈ node.directory.targets, .sender place party ∈ tasks)
      (registry : Registry Nat) :
      Edit reach node { (node.setSession place
        { session with state := target, changed := true }).wakeAll tasks with registry := registry }
  /-- The work for a session begins with whoever starts its senders. -/
  | launched (shown : reach.shows) (chosen : place ∈ reach.places)
      (roused : .fanOut place ∈ tasks) (reporter : Reporter) :
      Edit reach node ((node.modifyFlight place fun flight =>
        { flight with
          session := (flight.session.transition .created .dispatched).1
          fanOut := .starting
          reporter := reporter }).wakeAll tasks)
  | linked (deals : party ∈ reach.parties) (f : Link → Link) :
      Edit reach node (node.modifyLink party f)
  | silenced (all : ∀ party, party ∈ reach.parties) : Edit reach node { node with listening := false }
  | budgeted (deals : party ∈ reach.parties) (budget : Budget TaskId) :
      Edit reach node (node.setBudget party budget)
  | pooled (deals : party ∈ reach.parties)
      (covers : ∀ index, shared = some index → reach.Covers node index) :
      Edit reach node { node with pooled := node.pooled.set party shared }
  | opened (deals : party ∈ reach.parties) :
      Edit reach node { node with channels := node.channels ++ [.fresh party] }
  | rerouted (held : node.channels[index]? = some channel) (deals : channel.party ∈ reach.parties)
      (same : next.party = channel.party) : Edit reach node (node.setChannel index next)
  | posted {posts : List Post}
      (kept : ∀ (index : Nat) (post : Post), node.posts[index]? = some post →
        posts[index]? = some post ∨ reach.Covers node post.channel) :
      Edit reach node { node with posts := posts }
  | claimed (deals : reservation.party ∈ reach.parties) :
      Edit reach node { node with reservations := node.reservations ++ [reservation] }
  | settled (held : node.reservations[index]? = some reservation)
      (deals : reservation.party ∈ reach.parties) (same : next.party = reservation.party) :
      Edit reach node (node.setReservation index next)

/-- A series of changes within a reach. -/
abbrev Edits (reach : Reach) : Node → Node → Prop := Relation.ReflTransGen (Edit reach)

variable {reach : Reach} {node after : Node} {index place : Nat} {party : Party}

/-! ## Channels -/

private theorem leadsTo_setChannel_iff {channel next : Channel}
    (held : node.channels[index]? = some channel) (same : next.party = channel.party)
    (other : Nat) (party : Party) :
    (node.setChannel index next).LeadsTo other party ↔ node.LeadsTo other party := by
  obtain ⟨inside, here⟩ := List.getElem?_eq_some_iff.mp held
  by_cases equal : index = other
  · subst equal
    simp [LeadsTo, setChannel, inside, here, same]
  · simp [LeadsTo, setChannel, equal]

/-- A channel leads where it did, and a new one to a party within reach. -/
theorem Edit.covers (edit : Edit reach node after) (covers : reach.Covers node index) :
    reach.Covers after index := by
  cases edit with
  | opened deals =>
    rintro party ⟨channel, held, rfl⟩
    by_cases last : index = node.channels.length
    · rw [last, List.getElem?_concat_length] at held
      obtain rfl := Option.some.inj held
      exact deals
    · rw [getElem?_concat_of_ne last] at held
      exact covers _ ⟨channel, held, rfl⟩
  | rerouted held deals same =>
    intro party leads
    exact covers party ((leadsTo_setChannel_iff held same index party).mp leads)
  | _ => exact covers

private theorem Edit.shares (edit : Edit reach node after) (shares : reach.Shares node) :
    reach.Shares after := by
  have kept (pooled : after.pooled = node.pooled) : reach.Shares after :=
    fun party deals index held => edit.covers (shares party deals index (pooled ▸ held))
  cases edit with
  | @pooled party shared deals covers =>
    intro other within index held
    by_cases same : other = party
    · subst same
      rw [PerParty.get_set_self] at held
      exact covers index held
    · rw [PerParty.get_set_ne _ _ same] at held
      exact shares other within index held
  | _ => exact kept rfl

theorem Edits.covers (edits : node.Edits reach after) (covers : reach.Covers node index) :
    reach.Covers after index := by
  induction edits with
  | refl => exact covers
  | tail _ edit ih => exact edit.covers ih

theorem Edits.shares (edits : node.Edits reach after) (shares : reach.Shares node) :
    reach.Shares after := by
  induction edits with
  | refl => exact shares
  | tail _ edit ih => exact edit.shares ih

/-! ## The front -/

/-- The work toward the parties does not show. -/
theorem Edit.front_eq (edit : Edit reach node after) (hidden : ¬ reach.shows) :
    after.front = node.front := by
  cases edit with
  | heard shown | asked shown | entered shown | ended shown | launched shown =>
    exact absurd shown hidden
  | @flew place chosen f works =>
    have kept (flight : Flight) (held : node.flights[place]? = some flight) :
        (f flight).session = flight.session ∧ (f flight).reporter = flight.reporter := by
      have work := works flight held
      generalize f flight = next at work
      cases work with
      | recorded shown | reported shown | awaited shown => exact absurd shown hidden
      | rested | sent | started | joined => exact ⟨rfl, rfl⟩
    exact node.front_modifyFlight_of_kept place (fun flight held => (kept flight held).1)
      fun flight held => (kept flight held).2
  | _ => rfl

theorem Edits.front_eq (edits : node.Edits reach after) (hidden : ¬ reach.shows) :
    after.front = node.front := by
  induction edits with
  | refl => rfl
  | tail _ edit ih => exact (edit.front_eq hidden).trans ih

end Node

end JointQuery
