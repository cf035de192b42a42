import JointQuery.Proofs.Node.Involved
import JointQuery.Proofs.Node.Starts

/-! What a step leaves as it is: the configuration, the time, what could run, and, but for a few
tasks that are exempt, how far the senders are, when they try again, and who waits for them. Only the
senders themselves and whoever starts them are ever exempt. A session that ends rouses its senders. -/
namespace JointQuery.Node

/-- How far the sender of the session at a place to a party is. -/
def sender (node : Node) (place : Nat) (party : Party) : Sender :=
  (node.flights[place]?.map (·.senders.get party)).getD .unstarted

/-- Who waits for the senders of the session at a place. -/
def fanOut (node : Node) (place : Nat) : FanOut :=
  (node.flights[place]?.map (·.fanOut)).getD .unstarted

/-- A node later on. But for what is exempt, no sender has moved. Nor has whoever waits for the
senders of a session, unless that begins, or one of them is exempt. The senders of a session that ends
can run. -/
structure Steady (exempt : Set TaskId) (node after : Node) : Prop where
  config : after.config = node.config
  directory : after.directory = node.directory
  agenda : node.agenda.Retains exempt after.agenda
  senders : ∀ place party, .sender place party ∉ exempt →
    after.sender place party = node.sender place party
  fanOuts : ∀ place, .fanOut place ∉ exempt → (∀ party, .sender place party ∉ exempt) →
    after.fanOut place = node.fanOut place ∨ after.fanOut place = .starting
  ends : ∀ place, after.Ended place → node.Ended place ∨ ∀ party ∈ node.directory.targets,
    .sender place party ∉ exempt → .sender place party ∈ after.agenda.ready

variable {exempt : Set TaskId} {node middle after : Node} {index place : Nat} {party : Party}
  {flight : Flight}

theorem sender_of_flight (held : node.flights[place]? = some flight) :
    node.sender place party = flight.senders.get party := by
  simp [sender, held]

theorem fanOut_of_flight (held : node.flights[place]? = some flight) :
    node.fanOut place = flight.fanOut := by
  simp [fanOut, held]

theorem Steady.trans (earlier : node.Steady exempt middle) (later : middle.Steady exempt after) :
    node.Steady exempt after where
  config := later.config.trans earlier.config
  directory := later.directory.trans earlier.directory
  agenda := earlier.agenda.trans later.agenda
  senders place party outside :=
    (later.senders place party outside).trans (earlier.senders place party outside)
  fanOuts place outside apart := by
    rcases later.fanOuts place outside apart with same | starting
    · rw [same]
      exact earlier.fanOuts place outside apart
    · exact .inr starting
  ends place ended := by
    rcases later.ends place ended with before | roused
    · refine (earlier.ends place before).imp_right fun roused party target outside => ?_
      exact later.agenda.ready _ (roused party target outside) outside
    · exact .inr (earlier.directory ▸ roused)

private theorem steady_of_same (config : after.config = node.config)
    (directory : after.directory = node.directory) (flights : after.flights = node.flights)
    (agenda : node.agenda.Retains exempt after.agenda) : node.Steady exempt after where
  config := config
  directory := directory
  agenda := agenda
  senders place party _ := by rw [sender, flights, sender]
  fanOuts place _ _ := .inl (by rw [fanOut, flights, fanOut])
  ends place ended := .inl (by rwa [Ended, session?, flights] at ended)

private theorem Steady.refl (node : Node) : node.Steady exempt node :=
  steady_of_same rfl rfl rfl (.refl node.agenda)

/-- Nothing but the agenda has changed. -/
theorem steady_agenda {agenda : Agenda} (retains : node.agenda.Retains exempt agenda) :
    node.Steady exempt { node with agenda := agenda } :=
  steady_of_same rfl rfl rfl retains

private theorem steady_modify {f : Flight → Flight} (config : after.config = node.config)
    (directory : after.directory = node.directory)
    (agenda : node.agenda.Retains exempt after.agenda)
    (flights : after.flights = node.flights.modify index f)
    (senders : ∀ flight party, node.flights[index]? = some flight →
      .sender index party ∉ exempt → (f flight).senders.get party = flight.senders.get party)
    (fanOut : ∀ flight, node.flights[index]? = some flight → .fanOut index ∉ exempt →
      (∀ party, .sender index party ∉ exempt) →
        (f flight).fanOut = flight.fanOut ∨ (f flight).fanOut = .starting)
    (ends : ∀ flight, node.flights[index]? = some flight →
      (f flight).session.isTerminal = true → flight.session.isTerminal = true ∨
        ∀ party ∈ node.directory.targets, .sender index party ∉ exempt →
          .sender index party ∈ after.agenda.ready) :
    node.Steady exempt after := by
  have modified (place : Nat) : after.flights[place]? =
      if index = place then node.flights[place]?.map f else node.flights[place]? := by
    rw [flights, List.getElem?_modify]
    split
    · rfl
    · exact Option.map_id' ..
  refine ⟨config, directory, agenda, fun place party outside => ?_, fun place outside apart => ?_,
    fun place ended => ?_⟩
  · simp only [sender, modified]
    split
    · rename_i here
      subst here
      cases held : node.flights[index]? with
      | none => rfl
      | some flight => exact senders flight party held outside
    · rfl
  · simp only [Node.fanOut, modified]
    split
    · rename_i here
      subst here
      cases held : node.flights[index]? with
      | none => exact .inl rfl
      | some flight => exact fanOut flight held outside apart
    · exact .inl rfl
  · obtain ⟨session, present, final⟩ := ended
    rw [session?, modified] at present
    split at present
    · rename_i here
      subst here
      cases held : node.flights[index]? with
      | none => simp [held] at present
      | some flight =>
        obtain rfl : (f flight).session = session := by simpa [held] using present
        exact (ends flight held final).imp_left fun before => ⟨_, session?_of_flight held, before⟩
    · exact .inl ⟨session, present, final⟩

/-- Nobody works for a session that has only just been registered. -/
theorem steady_entered {session : Session} {registry : Registry Nat}
    (live : session.isTerminal = false) : node.Steady exempt
      { node with flights := node.flights ++ [.fresh session], registry := registry } := by
  have new : (node.flights ++ [.fresh session])[node.flights.length]? = some (.fresh session) :=
    List.getElem?_concat_length ..
  refine ⟨rfl, rfl, .refl _, fun place party _ => ?_, fun place _ _ => .inl ?_,
    fun place ⟨found, present, final⟩ => .inl ?_⟩ <;> by_cases last : place = node.flights.length
  · subst last
    simp only [sender, new, List.getElem?_eq_none (Nat.le_refl _)]
    cases party <;> rfl
  · simp only [sender, getElem?_concat_of_ne last]
  · subst last
    simp only [fanOut, new, List.getElem?_eq_none (Nat.le_refl _)]
    rfl
  · simp only [fanOut, getElem?_concat_of_ne last]
  · subst last
    simp only [session?, new, Option.map_some, Option.some.injEq] at present
    subst present
    exact absurd (live.symm.trans final) (by simp)
  · simp only [session?, getElem?_concat_of_ne last] at present
    exact ⟨found, present, final⟩

/-! ## Edits -/

/-- The reach of what moves some tasks. -/
def moving (tasks : Set TaskId) : Reach := { Reach.whole with tasks := tasks }

private theorem Edit.steady (edit : Edit (moving exempt) node after) :
    node.Steady exempt after := by
  cases edit with
  | scheduled grows retains => exact steady_agenda retains
  | entered shown opens last fresh => exact steady_entered (by rw [Session.isTerminal, fresh]; rfl)
  | flew chosen works =>
    refine steady_modify rfl rfl (.refl _) rfl
      (fun flight _ held outside => (works flight held).senders outside)
      (fun flight held outside apart => .inl ((works flight held).fanOut outside apart))
      fun flight held final => .inl ?_
    rwa [(works flight held).isTerminal] at final
  | ended shown chosen present final roused registry =>
    exact steady_modify rfl rfl (node.agenda.retains_wakeAll _) rfl (fun _ _ _ _ => rfl)
      (fun _ _ _ _ => .inl rfl) fun _ _ _ => .inr fun party target _ =>
        node.agenda.mem_wakeAll (roused party target)
  | launched shown chosen roused reporter =>
    refine steady_modify rfl rfl (node.agenda.retains_wakeAll _) rfl (fun _ _ _ _ => rfl)
      (fun _ _ _ _ => .inr rfl) fun flight _ ended => .inl ?_
    rwa [(flight.session.transition_live rfl rfl).2.1] at ended
  | _ => exact steady_of_same rfl rfl rfl (.refl _)

theorem steady_of_edits (edits : node.Edits (moving exempt) after) : node.Steady exempt after := by
  induction edits with
  | refl => exact .refl node
  | tail _ edit ih => exact ih.trans edit.steady

/-! ## Operations -/

private theorem moving_admits (node : Node) (operation : Operation) :
    (moving operation.concerns).Admits node operation where
  shown := trivial
  opens _ := ⟨trivial, trivial⟩
  places _ _ := trivial
  tasks _ := id
  parties _ _ := trivial
  shares _ _ _ _ _ _ := trivial

private theorem steady_poll (node : Node) (task : TaskId) :
    node.Steady task.concerns (node.poll task) :=
  steady_of_edits (edits_poll (node.moving_admits (.run task)))

theorem steady_runTask (node : Node) (task : TaskId) :
    node.Steady task.concerns (node.runTask task) := by
  have taken : node.agenda.Retains task.concerns
      { node.agenda with ready := node.agenda.ready.erase task } := by
    refine ⟨rfl, fun other member outside => ?_, id, fun _ _ _ => .rfl⟩
    refine (List.mem_erase_of_ne ?_).mpr member
    rintro rfl
    exact outside other.mem_concerns
  exact (steady_agenda taken).trans (steady_poll _ task)

/-- Whatever happens but the passing of time is steady. -/
theorem steady_perform (node : Node) {operation : Operation}
    (stays : ∀ time, operation ≠ .moveTo time) :
    node.Steady operation.concerns (node.perform operation) := by
  cases operation with
  | run task => exact node.steady_runTask task
  | moveTo time => exact absurd rfl (stays time)
  | _ => exact steady_of_edits (edits_perform (node.moving_admits _) (by simp) (by simp))

/-- The configuration of a node stays, and so does what it says about the parties. -/
theorem config_perform (node : Node) (operation : Operation) :
    (node.perform operation).config = node.config ∧
      (node.perform operation).directory = node.directory := by
  by_cases moves : ∃ time, operation = .moveTo time
  · obtain ⟨time, rfl⟩ := moves
    exact ⟨rfl, rfl⟩
  · have steady := node.steady_perform (not_exists.mp moves)
    exact ⟨steady.config, steady.directory⟩

theorem config_performAll (node : Node) (operations : List Operation) :
    (node.performAll operations).config = node.config ∧
      (node.performAll operations).directory = node.directory := by
  induction operations generalizing node with
  | nil => exact ⟨rfl, rfl⟩
  | cons operation rest ih =>
    obtain ⟨config, directory⟩ := node.config_perform operation
    obtain ⟨later, still⟩ := ih (node.perform operation)
    exact ⟨later.trans config, still.trans directory⟩

end JointQuery.Node
