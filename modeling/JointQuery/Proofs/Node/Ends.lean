import JointQuery.Proofs.Node.Footprints

/-! How sessions end, and what partial results do, at the front of a node. Only a live session can
be ended, and the same step takes it out of the registry and tells its client of the cause;
everything else that happens to a session is a step of its own. -/
namespace JointQuery.Node

open Front (Move Moves Steps)

/-! ## Ends -/

/-- Ending a live session succeeds, and takes it out of the registry. -/
theorem finish_of_live {node : Node} {index : Nat} {session : Session}
    (found : node.session? index = some session) (live : session.isTerminal = false)
    (target : SessionState) : (node.finish index target).2 = true ∧
      (node.finish index target).1.front = node.front.record
        ((node.ledger.put index (session.finish target).1).forget session.id) := by
  have set := node.front_setSession found (session.finish target).1
  simp only [finish, found]
  rw [Session.finish_of_live live] at set ⊢
  refine ⟨rfl, ?_⟩
  exact congrArg (fun front : Front => front.record (front.ledger.forget session.id)) set

/-- Ending a session that has ended already has no effect. -/
theorem finish_of_ended {node : Node} {index : Nat}
    (ended : ∀ session, node.session? index = some session → session.isTerminal = true)
    (target : SessionState) : node.finish index target = (node, false) := by
  simp only [finish]
  cases found : node.session? index with
  | none => rfl
  | some session => simp only [Session.finish_of_terminal (ended session found)]

/-- The two ways in which an attempt to end a session can go. -/
theorem finish_cases (node : Node) (index : Nat) (target : SessionState) :
    (∃ session, node.session? index = some session ∧ session.isTerminal = false ∧
      (node.finish index target).2 = true ∧
      (node.finish index target).1.front = node.front.record
        ((node.ledger.put index (session.finish target).1).forget session.id)) ∨
    node.finish index target = (node, false) := by
  by_cases ended : ∀ session, node.session? index = some session → session.isTerminal = true
  · exact .inr (finish_of_ended ended target)
  · simp only [not_forall, Bool.not_eq_true] at ended
    obtain ⟨session, found, live⟩ := ended
    exact .inl ⟨session, found, live, finish_of_live found live target⟩

/-- An attempt to end a session moves the ledger, or has no effect. -/
theorem front_finish (node : Node) (index : Nat) {target : SessionState}
    (final : target.isTerminal = true) (early : target ≠ .completed) :
    (∃ ledger, node.ledger.Move ledger ∧
      (node.finish index target).1.front = node.front.record ledger) ∨
    (node.finish index target).1.front = node.front := by
  rcases node.finish_cases index target with ⟨session, found, live, -, ends⟩ | same
  · rw [session?_eq] at found
    exact .inl ⟨_, .ended found live final early, ends⟩
  · rw [same]
    exact .inr rfl

/-- The client of a session is told of the cause, or not. -/
theorem front_tellEnd {node : Node} {index : Nat} {session : Session}
    (found : node.session? index = some session) (cause : QueryError) :
    (node.tellEnd index cause).front = node.front ∨ (node.tellEnd index cause).front =
      node.front.alter index (·.tell session.client (.ofError (some session.id) cause)) := by
  simp only [tellEnd, found]
  split
  · rw [front_trySend]
    split
    · exact .inr rfl
    · exact .inl rfl
  · exact .inl rfl

theorem terminate_fst (node : Node) (index : Nat) (target : SessionState)
    (cause : Option QueryError) :
    (node.terminate index target cause).1.ledger = (node.finish index target).1.ledger := by
  simp only [terminate]
  split
  · rename_i ended cause finished
    cases found : ended.session? index with
    | none => simp [tellEnd, found, finished]
    | some session =>
      rw [finished]
      rcases front_tellEnd found cause with same | told
      · exact congrArg Front.ledger same
      · exact congrArg Front.ledger told
  · simp_all

theorem terminate_snd (node : Node) (index : Nat) (target : SessionState)
    (cause : Option QueryError) :
    (node.terminate index target cause).2 = (node.finish index target).2 := by
  simp only [terminate]
  split <;> simp_all

/-- Without a cause nobody is told. -/
theorem terminate_none (node : Node) (index : Nat) (target : SessionState) :
    node.terminate index target none = node.finish index target := by
  cases finished : node.finish index target with
  | mk ended done => cases done <;> simp [terminate, finished]

theorem terminate_of_ended {node : Node} {index : Nat}
    (ended : ∀ session, node.session? index = some session → session.isTerminal = true)
    (target : SessionState) (cause : Option QueryError) :
    node.terminate index target cause = (node, false) := by
  simp [terminate, finish_of_ended ended target]

theorem moves_terminate (node : Node) (index : Nat) {target : SessionState}
    (cause : Option QueryError) (final : target.isTerminal = true) (early : target ≠ .completed) :
    Moves node.front (node.terminate index target cause).1.front := by
  rcases node.finish_cases index target with ⟨session, found, live, wins, ends⟩ | same
  · have present := found
    rw [session?_eq] at present
    have ended : (node.finish index target).1.session? index = some (session.finish target).1 := by
      rw [session?_of_front ends]
      exact Ledger.sessions_put_self present _
    generalize finished : node.finish index target = after at wins ends ended
    obtain ⟨after, done⟩ := after
    subst wins
    cases cause with
    | none =>
      simp only [terminate, finished, ends]
      exact .single (.moved (.ended present live final early))
    | some cause =>
      simp only [terminate, finished]
      have grows := Session.grows_finish live final
      rcases front_tellEnd ended cause with same | told
      · rw [same, ends]
        exact .single (.moved (.ended present live final early))
      · rw [told, ends, grows.client, grows.id]
        exact .single (.failed present live final early cause)
  · simp only [terminate, same]
    exact .refl

theorem moves_terminateAll (node : Node) {target : SessionState} (cause : Nat → Option QueryError)
    (indices : List Nat) (final : target.isTerminal = true) (early : target ≠ .completed) :
    Moves node.front (node.terminateAll target cause indices).1.front := by
  induction indices generalizing node with
  | nil => exact .refl
  | cons index rest ih =>
    have first := node.moves_terminate index (cause index) final early
    exact first.trans (ih (node.terminate index target (cause index)).1)

theorem moves_loseClient (node : Node) (index : Nat) :
    Moves node.front (node.loseClient index).front := by
  have moves := (node.markClientGone index).moves_terminate index none
    (rfl : SessionState.cancelled.isTerminal = true) (by decide)
  rwa [front_markClientGone] at moves

theorem moves_cancel (node : Node) (id : QueryId) :
    Moves node.front (node.cancel id).1.front := by
  simp only [cancel]
  split
  · exact .refl
  · exact node.moves_terminate _ _ rfl (by decide)

theorem front_markClientsGone (node : Node) (indices : List Nat) :
    (indices.foldl markClientGone node).front = node.front := by
  induction indices generalizing node with
  | nil => rfl
  | cons index rest ih => simp [ih]

theorem moves_clientLeft (node : Node) (ref : String) :
    Moves node.front (node.clientLeft ref).1.front := by
  have moves (node : Node) (indices : List Nat) := node.moves_terminateAll (fun _ => none) indices
    (rfl : SessionState.cancelled.isTerminal = true) (by decide)
  simpa only [clientLeft, front_markClientsGone] using moves (List.foldl markClientGone node _) _

theorem moves_expire (node : Node) : Moves node.front node.expire.1.front :=
  node.moves_terminateAll _ _ rfl (by decide)

/-! ## Partial results -/

section

variable {node : Node} {event : PartialResult} {index : Nat} {session : Session}

/-- The event that completes a session ends it in the same step. -/
theorem receivePartial_of_completed (sound : node.ledger.Sound)
    (held : node.ledger.registry.get? event.queryId = some index)
    (present : node.ledger.sessions[index]? = some session)
    (finishes : (session.apply event).2 = .ok .sessionCompleted) :
    (node.receivePartial event).2 = .ok .sessionCompleted ∧
      (node.receivePartial event).1.front = node.front.record
        ((node.ledger.put index ((session.apply event).1.finish .completed).1).forget
          session.id) := by
  obtain ⟨-, live⟩ := sound.live_of_held held present
  have regular := sound.regular session (List.mem_of_getElem? present)
  have still := (Session.isTerminal_apply regular.sound event).trans live
  have found : node.session? index = some session := (node.session?_eq index).trans present
  have updated := node.front_setSession found (session.apply event).1
  have ledger : ((node.setSession index (session.apply event).1).wake (.reporter index)).ledger =
      node.ledger.put index (session.apply event).1 := congrArg Front.ledger updated
  have stays : ((node.setSession index (session.apply event).1).wake
      (.reporter index)).session? index = some (session.apply event).1 :=
    (session?_of_front updated index).trans (Ledger.sessions_put_self present _)
  obtain ⟨-, ends⟩ := finish_of_live stays still .completed
  simp only [receivePartial, find?_eq_some_iff.mpr ⟨held, present⟩, finishes]
  refine ⟨trivial, ends.trans ?_⟩
  rw [ledger, Ledger.put_put, (Session.grows_apply regular.sound live event).id, front_wake,
    updated]
  rfl

/-- An event for a session that is in flight is received. -/
theorem receipt_receivePartial (sound : node.ledger.Sound)
    (held : node.ledger.registry.get? event.queryId = some index)
    (present : node.ledger.sessions[index]? = some session) :
    ∃ ledger, node.ledger.Receipt event ledger ∧
      (node.receivePartial event).1.front = node.front.record ledger := by
  by_cases finishes : (session.apply event).2 = .ok .sessionCompleted
  · exact ⟨_, .completed held present finishes,
      (receivePartial_of_completed sound held present finishes).2⟩
  · refine ⟨_, .received held present finishes, ?_⟩
    have found : node.session? index = some session := (node.session?_eq index).trans present
    rw [← node.front_setSession found]
    simp only [receivePartial, find?_eq_some_iff.mpr ⟨held, present⟩]
    cases outcome : (session.apply event).2 with
    | error violation => rfl
    | ok done =>
      cases done with
      | applied => rfl
      | tupleCompleted tuple => rfl
      | sessionCompleted => exact absurd outcome finishes

theorem steps_receivePartial (sound : node.ledger.Sound) (event : PartialResult) :
    Steps node.front (node.receivePartial event).1.front := by
  cases sought : node.find? event.queryId with
  | none =>
    simp only [receivePartial, sought]
    exact .refl
  | some entry =>
    obtain ⟨index, session⟩ := entry
    obtain ⟨held, present⟩ := find?_eq_some_iff.mp sought
    obtain ⟨ledger, receipt, received⟩ := receipt_receivePartial sound held present
    rw [received]
    exact .single (.received receipt)

end

end JointQuery.Node
