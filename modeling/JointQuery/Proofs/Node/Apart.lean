import JointQuery.Proofs.Node.Dispatching
import JointQuery.Proofs.Node.Involved
import Mathlib.Algebra.Ring.Nat

/-! What leaves a party alone: nothing is taken from its bytes, sent to it or dialed, and its senders
do not move. A session may begin or end meanwhile, and more may have to be done, but nothing less.
The parties share neither channels nor bytes, so that what is done toward one is apart from every
other; only the start of its senders touches all parties of a session at once. -/
namespace JointQuery

private theorem flatMap_set_of_same {α β : Type} {entries : List α} {index : Nat} {before next : α}
    {f : α → List β} (held : entries[index]? = some before) (same : f next = f before) :
    (entries.set index next).flatMap f = entries.flatMap f := by
  obtain ⟨inside, here⟩ := List.getElem?_eq_some_iff.mp held
  have split : entries = entries.take index ++ before :: entries.drop (index + 1) := by
    rw [← here, List.getElem_cons_drop, List.take_append_drop]
  rw [List.set_eq_take_append_cons_drop, if_pos inside]
  conv => rhs; rw [split]
  simp only [List.flatMap_append, List.flatMap_cons, same]

theorem sum_map_set {α : Type} {entries : List α} {index : Nat} {before : α} (f : α → Nat)
    (held : entries[index]? = some before) (next : α) :
    ((entries.set index next).map f).sum + f before = (entries.map f).sum + f next := by
  obtain ⟨inside, here⟩ := List.getElem?_eq_some_iff.mp held
  have split : entries = entries.take index ++ before :: entries.drop (index + 1) := by
    rw [← here, List.getElem_cons_drop, List.take_append_drop]
  rw [List.set_eq_take_append_cons_drop, if_pos inside]
  conv => rhs; rw [split]
  simp only [List.map_append, List.map_cons, List.sum_append, List.sum_cons]
  omega

private theorem getElem?_set_elsewhere {α : Type} {entries : List α} {index place : Nat}
    {before next other : α} (held : entries[index]? = some before) (old : other ≠ before)
    (new : other ≠ next) : (entries.set index next)[place]? = some other ↔
      entries[place]? = some other := by
  obtain ⟨inside, here⟩ := List.getElem?_eq_some_iff.mp held
  rw [List.getElem?_set]
  split
  · rename_i same
    subst same
    simp [inside, here, old.symm, new.symm]
  · rfl

/-- A session and the work done for it later on, as far as one party is concerned. Its sender to the
party has not moved. The senders are started if the task that does so can run. -/
structure Flight.GoesOn (party : Party) (ready : List TaskId) (place : Nat) (flight next : Flight) :
    Prop where
  sender : next.senders.get party = flight.senders.get party
  message : next.session.startMessage = flight.session.startMessage
  ended : flight.session.isTerminal = true → next.session.isTerminal = true
  fanOut : (next.fanOut = flight.fanOut ∧
      (next.session.state = flight.session.state ∨ next.session.isTerminal = true)) ∨
    (next.fanOut = .starting ∧ .fanOut place ∈ ready) ∨
    (flight.fanOut.isBegun = true ∧ next.fanOut.isBegun = true)

namespace Flight.GoesOn

variable {party : Party} {ready : List TaskId} {place : Nat} {flight middle next : Flight}

theorem refl (flight : Flight) : flight.GoesOn party ready place flight :=
  ⟨rfl, rfl, id, .inl ⟨rfl, .inl rfl⟩⟩

private theorem mono {more : List TaskId} (goes : flight.GoesOn party ready place next)
    (grows : ∀ task ∈ ready, task ∈ more) : flight.GoesOn party more place next :=
  ⟨goes.sender, goes.message, goes.ended,
    goes.fanOut.imp_right (.imp_left fun ⟨starting, ready⟩ => ⟨starting, grows _ ready⟩)⟩

private theorem trans (earlier : flight.GoesOn party ready place middle)
    (later : middle.GoesOn party ready place next) : flight.GoesOn party ready place next where
  sender := later.sender.trans earlier.sender
  message := later.message.trans earlier.message
  ended := later.ended ∘ earlier.ended
  fanOut := by
    rcases later.fanOut with ⟨same, state⟩ | starting | ⟨before, begun⟩
    · rcases earlier.fanOut with ⟨still, was⟩ | ⟨starts, ready⟩ | ⟨began, begun⟩
      · refine .inl ⟨same.trans still, ?_⟩
        rcases state with kept | final
        · rcases was with unmoved | final
          · exact .inl (kept.trans unmoved)
          · exact .inr (later.ended final)
        · exact .inr final
      · exact .inr (.inl ⟨same.trans starts, ready⟩)
      · exact .inr (.inr ⟨began, same ▸ begun⟩)
    · exact .inr (.inl starting)
    · rcases earlier.fanOut with ⟨still, -⟩ | ⟨starts, -⟩ | ⟨began, -⟩
      · exact .inr (.inr ⟨still ▸ before, begun⟩)
      · rw [starts] at before
        cases before
      · exact .inr (.inr ⟨began, begun⟩)

end Flight.GoesOn

namespace Node

/-- What of a node is turned toward the parties. -/
structure Ports where
  directory : Directory
  links : PerParty Link
  listening : Bool
  budgets : PerParty (Budget TaskId)
  channels : List Channel
  pooled : PerParty (Option Nat)
  posts : List Post
  reservations : List Reservation

/-- What a node has turned toward the parties. -/
def ports (node : Node) : Ports :=
  ⟨node.directory, node.links, node.listening, node.budgets, node.channels, node.pooled, node.posts,
    node.reservations⟩

/-- The bytes toward a party that reservations keep. -/
def keptBytes (node : Node) (party : Party) : Nat :=
  ((node.reservations.filter fun reservation =>
    reservation.party = party ∧ reservation.state = .granted).map (·.bytes)).sum

/-- A node later on, with nothing done toward one party. -/
structure Apart (party : Party) (node after : Node) : Prop where
  directory : after.directory = node.directory
  link : after.links.get party = node.links.get party
  listening : after.listening = node.listening
  budget : after.budgets.get party = node.budgets.get party
  pooled : after.pooled.get party = node.pooled.get party
  channels : ∀ (index : Nat) (channel : Channel), channel.party = party →
    (after.channels[index]? = some channel ↔ node.channels[index]? = some channel)
  frames : ∀ part, after.framesTo party part = node.framesTo party part
  posts : ∀ (index : Nat) (post : Post), node.posts[index]? = some post →
    node.LeadsTo post.channel party → after.posts[index]? = some post
  reservations : ∀ (index : Nat) (reservation : Reservation), reservation.party = party →
    (after.reservations[index]? = some reservation ↔ node.reservations[index]? = some reservation)
  kept : after.keptBytes party = node.keptBytes party
  agenda : node.agenda.Extends after.agenda
  flights : ∀ (place : Nat) (flight : Flight), node.flights[place]? = some flight →
    ∃ next, after.flights[place]? = some next ∧
      flight.GoesOn party after.agenda.ready place next
  entered : ∀ (place : Nat) (next : Flight), node.flights[place]? = none →
    after.flights[place]? = some next → ∃ session : Session, session.state = .created ∧
      (Flight.fresh session).GoesOn party after.agenda.ready place next

variable {party : Party} {node middle after : Node} {index place : Nat}

theorem Apart.leadsTo_iff (apart : node.Apart party after) :
    after.LeadsTo index party ↔ node.LeadsTo index party := by
  constructor
  · rintro ⟨channel, held, toward⟩
    exact ⟨channel, (apart.channels index channel toward).mp held, toward⟩
  · rintro ⟨channel, held, toward⟩
    exact ⟨channel, (apart.channels index channel toward).mpr held, toward⟩

private theorem Apart.trans (earlier : node.Apart party middle) (later : middle.Apart party after) :
    node.Apart party after where
  directory := later.directory.trans earlier.directory
  link := later.link.trans earlier.link
  listening := later.listening.trans earlier.listening
  budget := later.budget.trans earlier.budget
  pooled := later.pooled.trans earlier.pooled
  channels index channel toward :=
    (later.channels index channel toward).trans (earlier.channels index channel toward)
  frames part := (later.frames part).trans (earlier.frames part)
  posts index post held leads :=
    later.posts index post (earlier.posts index post held leads) (earlier.leadsTo_iff.mpr leads)
  reservations index reservation toward :=
    (later.reservations index reservation toward).trans
      (earlier.reservations index reservation toward)
  kept := later.kept.trans earlier.kept
  agenda := earlier.agenda.trans later.agenda
  flights place flight held := by
    obtain ⟨next, present, goes⟩ := earlier.flights place flight held
    obtain ⟨last, found, further⟩ := later.flights place next present
    exact ⟨last, found, (goes.mono later.agenda.ready).trans further⟩
  entered place last absent found := by
    cases present : middle.flights[place]? with
    | none => exact later.entered place last present found
    | some next =>
      obtain ⟨session, created, goes⟩ := earlier.entered place next absent present
      obtain ⟨other, same, further⟩ := later.flights place next present
      obtain rfl := Option.some.inj (same.symm.trans found)
      exact ⟨session, created, (goes.mono later.agenda.ready).trans further⟩

/-- A flight later on was there before, or has just been entered. -/
theorem Apart.grown (apart : node.Apart party after) {next : Flight}
    (found : after.flights[place]? = some next) :
    (∃ flight, node.flights[place]? = some flight ∧
      flight.GoesOn party after.agenda.ready place next) ∨
    ∃ session : Session, session.state = .created ∧
      (Flight.fresh session).GoesOn party after.agenda.ready place next := by
  cases held : node.flights[place]? with
  | none => exact .inr (apart.entered place next held found)
  | some flight =>
    obtain ⟨last, present, goes⟩ := apart.flights place flight held
    obtain rfl := Option.some.inj (present.symm.trans found)
    exact .inl ⟨flight, rfl, goes⟩

/-- Only the flights have changed, one by one, and what is to be done. -/
theorem apart_of_flights (same : after.ports = node.ports)
    (agenda : node.agenda.Extends after.agenda)
    (flights : ∀ (place : Nat) (flight : Flight), node.flights[place]? = some flight →
      ∃ next, after.flights[place]? = some next ∧
        flight.GoesOn party after.agenda.ready place next)
    (entered : ∀ (place : Nat) (next : Flight), node.flights[place]? = none →
      after.flights[place]? = some next → ∃ session : Session, session.state = .created ∧
        (Flight.fresh session).GoesOn party after.agenda.ready place next) :
    node.Apart party after := by
  simp only [ports, Ports.mk.injEq] at same
  obtain ⟨directory, links, listening, budgets, channels, pooled, posts, reservations⟩ := same
  exact {
    directory := directory
    link := congrArg (·.get party) links
    listening := listening
    budget := congrArg (·.get party) budgets
    pooled := congrArg (·.get party) pooled
    channels := fun index channel _ => by rw [channels]
    frames := fun part => by simp only [framesTo, channels]
    posts := fun index post held _ => posts ▸ held
    reservations := fun index reservation _ => by rw [reservations]
    kept := by simp only [keptBytes, reservations]
    agenda := agenda
    flights := flights
    entered := entered }

private theorem apart_of_same (same : after.ports = node.ports)
    (flights : after.flights = node.flights)
    (agenda : node.agenda.Extends after.agenda) : node.Apart party after :=
  apart_of_flights same agenda (fun _ flight held => ⟨flight, flights ▸ held, .refl flight⟩)
    fun _ _ absent found => absurd ((flights ▸ absent).symm.trans found) (by simp)

theorem Apart.refl (node : Node) : node.Apart party node :=
  apart_of_same rfl rfl (.refl node.agenda)

private theorem apart_modify {f : Flight → Flight} (same : after.ports = node.ports)
    (flights : after.flights = node.flights.modify place f)
    (agenda : node.agenda.Extends after.agenda)
    (goes : ∀ flight, node.flights[place]? = some flight →
      flight.GoesOn party after.agenda.ready place (f flight)) : node.Apart party after := by
  have modified (other : Nat) : after.flights[other]? =
      if place = other then node.flights[other]?.map f else node.flights[other]? := by
    rw [flights, List.getElem?_modify]
    split
    · rfl
    · exact Option.map_id' ..
  refine apart_of_flights same agenda (fun other flight held => ?_) fun other next absent found => ?_
  · rw [modified, held]
    split
    · rename_i here
      subst here
      exact ⟨f flight, rfl, goes flight held⟩
    · exact ⟨flight, rfl, .refl flight⟩
  · rw [modified, absent] at found
    split at found <;> cases found

private theorem apart_modifyFlight {f : Flight → Flight}
    (goes : ∀ flight, node.flights[place]? = some flight →
      flight.GoesOn party node.agenda.ready place (f flight)) :
    node.Apart party (node.modifyFlight place f) :=
  apart_modify rfl rfl (.refl node.agenda) goes

theorem keptBytes_eq (node : Node) (party : Party) :
    node.keptBytes party = (node.reservations.map fun reservation =>
      if reservation.party = party ∧ reservation.state = .granted then reservation.bytes
      else 0).sum := by
  unfold keptBytes
  induction node.reservations with
  | nil => rfl
  | cons reservation rest ih =>
    simp only [List.filter_cons, List.map_cons, List.sum_cons, ← ih]
    by_cases kept : reservation.party = party ∧ reservation.state = .granted <;> simp [kept]

theorem keptBytes_setReservation {reservation : Reservation}
    (held : node.reservations[index]? = some reservation) (next : Reservation) (party : Party) :
    (node.setReservation index next).keptBytes party +
        (if reservation.party = party ∧ reservation.state = .granted then reservation.bytes
          else 0) =
      node.keptBytes party +
        if next.party = party ∧ next.state = .granted then next.bytes else 0 := by
  rw [keptBytes_eq, keptBytes_eq]
  exact sum_map_set _ held next

/-! ## Edits -/

/-- The reach of what leaves a party alone. -/
def besides (party : Party) : Reach :=
  { Reach.whole with
    parties := {other | other ≠ party}, tasks := {task | ∀ place, task ≠ .sender place party} }

private theorem Flight.goesOn_of_works {ready : List TaskId} {flight next : Flight}
    (works : flight.Works (besides party) place next) : flight.GoesOn party ready place next where
  sender := works.senders fun own => own place rfl
  message := works.startMessage
  ended final := works.isTerminal.trans final
  fanOut := by
    cases works with
    | rested | recorded | reported | sent => exact .inl ⟨rfl, .inl rfl⟩
    | started own => exact absurd rfl (own party place)
    | joined own begun still => exact .inr (.inr ⟨begun, still⟩)
    | awaited shown begun => exact .inr (.inr ⟨begun, begun⟩)

private theorem Edit.apart (edit : Edit (besides party) node after) : node.Apart party after := by
  cases edit with
  | scheduled grows => exact apart_of_same rfl rfl grows
  | noted | heard | asked => exact apart_of_same rfl rfl (.refl node.agenda)
  | @entered session shown opens last created registry =>
    refine apart_of_flights rfl (.refl node.agenda) (fun place flight held => ?_)
      fun place next absent found => ?_
    · have inside := (List.getElem?_eq_some_iff.mp held).1
      exact ⟨flight, (List.getElem?_append_left inside).trans held, .refl flight⟩
    · have last : place = node.flights.length := by
        have least := List.getElem?_eq_none_iff.mp absent
        have most := (List.getElem?_eq_some_iff.mp found).1
        simp only [List.length_append, List.length_singleton] at most
        omega
      subst last
      have new : next = .fresh session := by simpa using found.symm
      exact ⟨session, created, new ▸ .refl _⟩
  | flew chosen works =>
    exact apart_modifyFlight fun flight held => Flight.goesOn_of_works (works flight held)
  | ended shown chosen present final roused registry =>
    refine apart_modify rfl rfl (node.agenda.extends_wakeAll _) fun flight held => ?_
    obtain rfl := Option.some.inj ((session?_of_flight held).symm.trans present)
    exact ⟨rfl, rfl, fun _ => final, .inl ⟨rfl, .inr final⟩⟩
  | launched shown chosen roused reporter =>
    refine apart_modify rfl rfl (node.agenda.extends_wakeAll _) fun flight held => ?_
    refine ⟨rfl, Session.startMessage_transition .., fun final => ?_, .inr (.inl ⟨rfl, ?_⟩)⟩
    · exact (flight.session.transition_live rfl rfl).2.1.trans final
    · exact Agenda.mem_wakeAll _ roused
  | linked deals f => exact { Apart.refl node with link := PerParty.get_set_ne _ _ (Ne.symm deals) }
  | silenced all => exact absurd rfl (all party)
  | budgeted deals budget =>
    exact { Apart.refl node with budget := PerParty.get_set_ne _ _ (Ne.symm deals) }
  | pooled deals => exact { Apart.refl node with pooled := PerParty.get_set_ne _ _ (Ne.symm deals) }
  | @opened other deals =>
    exact { Apart.refl node with
      channels := fun place found toward => by
        by_cases last : place = node.channels.length
        · subst last
          simp only [List.getElem?_concat_length, Option.some.injEq,
            List.getElem?_eq_none_iff.mpr (Nat.le_refl _), reduceCtorEq, iff_false]
          rintro rfl
          exact deals toward
        · simp only [getElem?_concat_of_ne last]
      frames := fun part => by
        simp only [framesTo, List.flatMap_append, List.flatMap_singleton, Channel.fresh,
          if_neg (id deals), List.append_nil] }
  | @rerouted index channel next held deals same =>
    exact { Apart.refl node with
      channels := fun place found toward => by
        simp only [setChannel]
        exact getElem?_set_elsewhere held (fun here => deals (here ▸ toward)) fun here =>
          deals (same.symm.trans (here ▸ toward))
      frames := fun part => flatMap_set_of_same held (by simp only [same, if_neg (id deals)]) }
  | posted kept =>
    exact { Apart.refl node with
      posts := fun index post held leads =>
        (kept index post held).resolve_right fun covers => covers party leads rfl }
  | @claimed reservation deals =>
    exact { Apart.refl node with
      reservations := fun place found toward => by
        by_cases last : place = node.reservations.length
        · subst last
          simp only [List.getElem?_concat_length, Option.some.injEq,
            List.getElem?_eq_none_iff.mpr (Nat.le_refl _), reduceCtorEq, iff_false]
          rintro rfl
          exact deals toward
        · simp only [getElem?_concat_of_ne last]
      kept := by simp [keptBytes_eq, show reservation.party ≠ party from deals] }
  | @settled index reservation next held deals same =>
    exact { Apart.refl node with
      reservations := fun place found toward => by
        simp only [setReservation]
        exact getElem?_set_elsewhere held (fun here => deals (here ▸ toward)) fun here =>
          deals (same.symm.trans (here ▸ toward))
      kept := by
        have bytes := keptBytes_setReservation held next party
        rw [if_neg (by simp [show reservation.party ≠ party from deals]),
          if_neg (by simp [same, show reservation.party ≠ party from deals])] at bytes
        exact bytes }

theorem apart_of_edits (edits : node.Edits (besides party) after) : node.Apart party after := by
  induction edits with
  | refl => exact .refl node
  | tail _ edit ih => exact ih.trans edit.apart

/-- Whoever waits for the senders of a session sends nothing. -/
theorem apart_join {flight : Flight} {ended : List Party} (held : node.flights[place]? = some flight)
    (joining : flight.fanOut = .joining ended) : node.Apart party (node.join place flight ended) :=
  apart_of_edits (edits_join trivial trivial (fun _ => by simp) held joining)

/-! ## Operations -/

/-- A sender deals with its own party: if it waits for bytes it does so on a channel to it. -/
theorem mem_partners_sender_iff (dispatches : node.Dispatches) {other : Party} :
    party ∈ node.partners (.run (.sender place other)) ↔ party = other := by
  refine ⟨?_, .inl⟩
  rintro (same | ⟨flight, backoff, index, held, parked, channel, present, rfl⟩)
  · exact same
  · obtain ⟨found, there, toward⟩ := dispatches.parks place flight other backoff index held parked
    obtain rfl := Option.some.inj (present.symm.trans there)
    exact toward

/-- Parties share no channel. -/
theorem besides_shares (pools : node.Pools) (party : Party) : (besides party).Shares node := by
  rintro other differs index shared named ⟨channel, held, rfl⟩ rfl
  obtain ⟨found, present, toward⟩ := pools other index shared
  obtain rfl := Option.some.inj (held.symm.trans present)
  exact differs toward.symm

private theorem besides_admits (pools : node.Pools) {operation : Operation}
    (aside : party ∉ node.partners operation)
    (starts : ∀ place, operation ≠ .run (.fanOut place)) :
    (besides party).Admits node operation where
  shown := trivial
  opens _ := ⟨trivial, trivial⟩
  places _ _ := trivial
  tasks task concerned place same := by
    subst same
    cases operation with
    | run other =>
      cases other with
      | fanOut index => exact starts index rfl
      | sender index named =>
        obtain ⟨rfl, rfl⟩ := TaskId.sender.inj concerned
        exact aside (.inl rfl)
      | _ => cases concerned
    | _ => exact concerned
  parties _ member same := aside (same ▸ member)
  shares := besides_shares pools party

/-- A task that does not deal with a party leaves it alone, unless it starts senders. -/
theorem apart_poll (pools : node.Pools) {task : TaskId} (aside : party ∉ node.partners (.run task))
    (starts : ∀ place, task ≠ .fanOut place) : node.Apart party (node.poll task) :=
  apart_of_edits (edits_poll (besides_admits pools aside (by simpa using starts)))

/-- So does any other operation that does not deal with it. -/
theorem apart_perform (pools : node.Pools) {operation : Operation}
    (aside : party ∉ node.partners operation) (idle : ∀ task, operation ≠ .run task)
    (stays : ∀ time, operation ≠ .moveTo time) : node.Apart party (node.perform operation) :=
  apart_of_edits (edits_perform (besides_admits pools aside fun _ => idle _) idle stays)

end Node

end JointQuery
