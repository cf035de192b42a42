import JointQuery.Proofs.Node.Runs

/-! Lifecycle and registry over every run of a node, whatever the order of its operations. -/
namespace JointQuery.Node

variable {place : Nat} {session : Session}

/-- However the node goes on, an attempt to end the session at a place has no effect. -/
def Closed (node : Node) (place : Nat) : Prop :=
  ∀ (operations : List Operation) (target : SessionState) (cause : Option QueryError),
    (node.performAll operations).finish place target = (node.performAll operations, false) ∧
    (node.performAll operations).terminate place target cause = (node.performAll operations, false)

/-- What a run makes of a session. -/
theorem follows_performAll {node : Node} (sound : node.ledger.Sound)
    (found : node.session? place = some session) (operations : List Operation) :
    ∃ after, (node.performAll operations).session? place = some after ∧ session.Follows after := by
  simp only [session?_eq] at found ⊢
  obtain ⟨after, present, grows⟩ := (steps_performAll sound operations).grows sound found
  exact ⟨after, present, grows.toFollows⟩

/-- A session that has ended is closed. -/
theorem closed_of_ended {node : Node} (sound : node.ledger.Sound)
    (found : node.session? place = some session) (final : session.isTerminal = true) :
    node.Closed place := by
  intro operations target cause
  obtain ⟨after, present, follows⟩ := follows_performAll sound found operations
  have ended : ∀ other, (node.performAll operations).session? place = some other →
      other.isTerminal = true := by
    intro other same
    obtain rfl := Option.some.inj (present.symm.trans same)
    rw [Session.isTerminal, (follows.frozen final).1]
    exact final
  exact ⟨finish_of_ended ended target, terminate_of_ended ended target cause⟩

/-- The first attempt to end a live session succeeds, and closes it. -/
theorem closed_terminate {node : Node} (sound : node.ledger.Sound)
    (found : node.session? place = some session) (live : session.isTerminal = false)
    (ending : Ending) (cause : Option QueryError) :
    (node.terminate place ending.state cause).2 = true ∧
      (node.terminate place ending.state cause).1.Closed place := by
  obtain ⟨wins, ends⟩ := finish_of_live found live ending.state
  refine ⟨(node.terminate_snd place ending.state cause).trans wins, ?_⟩
  have after : (node.terminate place ending.state cause).1.session? place =
      some (session.finish ending.state).1 := by
    rw [session?_eq, terminate_fst, ← session?_eq, session?_of_front ends]
    rw [session?_eq] at found
    exact Ledger.sessions_put_self found _
  have steps := steps_perform sound (.terminate place ending cause)
  refine closed_of_ended (steps.sound_ledger sound) after ?_
  rw [Session.finish_of_live live]
  exact ending.isTerminal_state

/-- The event that completes a live session closes it. -/
theorem closed_receivePartial {node : Node} {event : PartialResult} (sound : node.ledger.Sound)
    (found : node.session? place = some session) (live : session.isTerminal = false)
    (named : event.queryId = session.id)
    (finishes : (session.apply event).2 = .ok .sessionCompleted) :
    (node.receivePartial event).2 = .ok .sessionCompleted ∧
      (∃ after, (node.receivePartial event).1.session? place = some after ∧
        after.state = .completed) ∧
      (node.receivePartial event).1.Closed place := by
  have present := found
  rw [session?_eq] at present
  have held : node.ledger.registry.get? event.queryId = some place := by
    rw [named]
    exact (sound.get?_eq_some_iff present).mpr live
  obtain ⟨wins, ends⟩ := receivePartial_of_completed sound held present finishes
  have regular := sound.regular session (List.mem_of_getElem? present)
  have still := (Session.isTerminal_apply regular.sound event).trans live
  have after : (node.receivePartial event).1.session? place =
      some { (session.apply event).1 with state := .completed, changed := true } := by
    rw [session?_of_front ends, Session.finish_of_live still]
    exact Ledger.sessions_put_self present _
  have steps := steps_perform sound (.receivePartial event)
  exact ⟨wins, ⟨_, after, rfl⟩, closed_of_ended (steps.sound_ledger sound) after rfl⟩

/-- The life of a session that the node has created. -/
structure Lives (node : Node) (place : Nat) (session : Session) : Prop where
  /-- It is registered as long as it is live. -/
  registered : node.registry.get? session.id = some place ↔ session.isTerminal = false
  /-- It is completed exactly when nothing remains. -/
  completed : session.state = .completed ↔ session.remaining = 0
  /-- Its state has come step by step from the first one. -/
  path : Relation.ReflTransGen SessionState.Next .created session.state
  /-- It goes on so; and once it has ended, its state, its slots and what remains stay. -/
  follows : ∀ later, ∃ after,
    (node.performAll later).session? place = some after ∧ session.Follows after
  /-- Once it has ended, no attempt to end it has any effect. -/
  closed : session.isTerminal = true → node.Closed place
  /-- As long as it is live, the first attempt succeeds. -/
  ends : session.isTerminal = false → ∀ (ending : Ending) (cause : Option QueryError),
    (node.terminate place ending.state cause).2 = true ∧
      (node.terminate place ending.state cause).1.Closed place
  /-- So does the event that completes it. -/
  completes : session.isTerminal = false → ∀ event : PartialResult, event.queryId = session.id →
    (session.apply event).2 = .ok .sessionCompleted →
      (node.receivePartial event).2 = .ok .sessionCompleted ∧
      (∃ after, (node.receivePartial event).1.session? place = some after ∧
        after.state = .completed) ∧
      (node.receivePartial event).1.Closed place

/-- The life of every session that a node has created, in every run. -/
theorem lifecycle (config : Config) (limits : OutputLimits) (identifiers : Nat → QueryId)
    (earlier : List Operation) (node : Node)
    (reached : (start config limits identifiers).performAll earlier = node) (place : Nat)
    (session : Session) (found : node.session? place = some session) :
    node.Lives place session := by
  have sound : node.ledger.Sound := reached ▸ sound_performAll config limits identifiers earlier
  have present := found
  rw [session?_eq] at present
  have regular := sound.regular session (List.mem_of_getElem? present)
  exact {
    registered := sound.get?_eq_some_iff present
    completed := regular.settled
    path := regular.path
    follows := follows_performAll sound found
    closed := closed_of_ended sound found
    ends := closed_terminate sound found
    completes := fun live _ => closed_receivePartial sound found live }

/-- A query that has been accepted is registered, and cancelling it closes it. -/
theorem lifecycle_accepted : ∃ node session,
    (start (.ofParty .ph) (Config.ofParty .ph).outputLimits QueryId.numbered).performAll
      [.addClient "front" 8 0 false, .beginQuery 0 Session.oneCount true] = node ∧
    node.session? 0 = some session ∧ session.state = .dispatched ∧
    node.registry.get? session.id = some 0 ∧ (node.terminate 0 .cancelled none).1.Closed 0 := by
  have lives := lifecycle (.ofParty .ph) (Config.ofParty .ph).outputLimits QueryId.numbered
    [.addClient "front" 8 0 false, .beginQuery 0 Session.oneCount true] _ rfl 0 _ rfl
  exact ⟨_, _, rfl, rfl, rfl, lives.registered.mpr rfl, (lives.ends rfl .cancelled none).2⟩

end JointQuery.Node
