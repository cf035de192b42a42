import JointQuery.Proofs.Node.Telling

/-! The changes that make up a pass of a reporter and a request of a client. A pass carries the
session and the state that it has read at its start; what was read stays true, however the offers
of the pass go. -/
namespace JointQuery.Node

open ClientEvent

variable {told : Bool} {active : Nat → Prop} {node after : Node} {place next tick : Nat}
  {session : Session} {seen : SessionState} {event : ClientEvent}

/-! ## Offers -/

/-- An offer concerns nothing but the clients and what is to be done. -/
theorem offer_eq (node : Node) (task : TaskId) (client : Nat) (notice : Notice) :
    ∃ agenda clients, (node.offer task client notice).1 =
      { node with agenda := agenda, clients := clients } := by
  simp only [offer]
  split
  · exact ⟨_, _, rfl⟩
  · dsimp only
    split
    · exact ⟨_, _, rfl⟩
    · exact ⟨_, _, rfl⟩

theorem resumeOffer_eq (node : Node) (task : TaskId) (client : Nat) (notice : Notice)
    (deadline : Nat) : ∃ agenda clients, (node.resumeOffer task client notice deadline).1 =
      { node with agenda := agenda, clients := clients } := by
  simp only [resumeOffer]
  split
  · exact ⟨_, _, rfl⟩
  · dsimp only
    split
    · exact ⟨_, _, rfl⟩
    · exact ⟨_, _, rfl⟩

/-! ## Passes -/

/-- The reporter of a session is in a pass at whose start the state was `seen`. -/
structure InPass (node : Node) (place : Nat) (session : Session) (seen : SessionState) : Prop where
  present : ∃ changed, node.session? place = some { session with changed := changed }
  begun : (node.desk place).phase ≠ .idle
  known : ∃ queue, node.clients[session.client]? = some queue
  reached : seen.isTerminal = true → session.state = seen

/-- A pass goes on whatever becomes of the clients. -/
theorem InPass.of_clients (pass : node.InPass place session seen) (keeps : node.Keeps after)
    (same : ∃ agenda clients, after = { node with agenda := agenda, clients := clients }) :
    after.InPass place session seen := by
  have known := keeps.known pass.known
  obtain ⟨agenda, clients, rfl⟩ := same
  exact ⟨pass.present, pass.begun, known, pass.reached⟩

private theorem changes_setReporter (pass : node.InPass place session seen) (runs : active place)
    {reporter : Reporter} (agrees : node.Agrees place session reporter.phase) :
    Changes told active node (node.setReporter place reporter) := by
  obtain ⟨changed, present⟩ := pass.present
  obtain ⟨flight, held, same⟩ := Option.map_eq_some_iff.mp present
  have begun : flight.reporter.phase ≠ .idle := by simpa [desk, held] using pass.begun
  refine .single (.flew held (.reported runs begun ?_))
  rw [same]
  exact (keeps_of_clients rfl).agrees agrees rfl fun _ => rfl

private theorem changes_watch (pass : node.InPass place session seen) (runs : active place)
    (next tick : Nat) : Changes told active node (node.watch place next tick) := by
  have watching : Changes told active node (node.setReporter place (.watching next tick)) :=
    changes_setReporter pass runs trivial
  simp only [watch]
  split
  · exact watching.beside ⟨rfl, rfl, rfl, rfl, rfl, rfl, rfl⟩
  · exact watching.beside ⟨rfl, rfl, rfl, rfl, rfl, rfl, rfl⟩

/-- The reporter of a session that has ended ends, once its client was told or is gone. -/
theorem changes_endReporter (pass : node.InPass place session seen) (runs : active place)
    (final : session.isTerminal = true) (answered : session.state = .completed →
      node.Lost session.client ∨ Tells (node.told place session.client) isAllDone) :
    Changes told active node (node.endReporter place) := by
  have ceased : Changes told active node (node.setReporter place .over) :=
    changes_setReporter pass runs ⟨final, answered⟩
  exact ceased.beside ⟨rfl, rfl, rfl, rfl, rfl, rfl, rfl⟩

private theorem changes_endPass (pass : node.InPass place session seen) (runs : active place)
    (next tick : Nat) (answered : seen = .completed →
      node.Lost session.client ∨ Tells (node.told place session.client) isAllDone) :
    Changes told active node (node.endPass place next tick seen) := by
  simp only [endPass]
  split
  · rename_i final
    have same := pass.reached final
    have ended : session.isTerminal = true := by rw [Session.isTerminal, same, final]
    exact changes_endReporter pass runs ended fun completed => answered (same ▸ completed)
  · exact changes_watch pass runs next tick

/-! ## Refusals -/

theorem session?_loseClient (present : node.session? place = some session) :
    ∃ ended, (node.loseClient place).session? place = some ended ∧ ended.isTerminal = true ∧
      ended.client = session.client := by
  have marked : (node.markClientGone place).session? place = some session := by
    rwa [session?_markClientGone]
  simp only [loseClient, terminate_none]
  by_cases final : session.isTerminal = true
  · refine ⟨session, ?_, final, rfl⟩
    rw [finish_of_ended]
    · exact marked
    · intro other same
      rwa [← Option.some.inj (marked.symm.trans same)]
  · have live : session.isTerminal = false := by simpa using final
    have ends := (finish_of_live marked live .cancelled).2
    refine ⟨(session.finish .cancelled).1, ?_, ?_, ?_⟩
    · rw [session?_of_front ends]
      rw [session?_eq] at marked
      exact Ledger.sessions_put_self marked _
    · rw [Session.finish_of_live live]
      rfl
    · rw [Session.finish_of_live live]

private theorem desk_loseClient (node : Node) (place : Nat) :
    (node.loseClient place).desk = node.desk := by
  rcases node.front_loseClient place with ⟨ledger, -, ended⟩ | same
  · exact congrArg Front.desks ended
  · exact congrArg Front.desks same

/-- An event that is refused ends the reporter, and the session if it is live. -/
theorem changes_refuseReport (informed : node.Informed told)
    (pass : node.InPass place session seen) (runs : active place) (lost : node.Lost session.client)
    (final : event.isAllDone = true → session.isTerminal = true) :
    Changes told active node (node.refuseReport place event) := by
  simp only [refuseReport]
  split
  · exact changes_endReporter pass runs (final rfl) fun _ => .inl lost
  · have loses : Changes told active node (node.loseClient place) :=
      changes_loseClient informed place
    obtain ⟨changed, present⟩ := pass.present
    obtain ⟨ended, held, final, client⟩ := session?_loseClient present
    have gone : (node.loseClient place).Lost ended.client := client ▸ loses.keeps.lost lost
    obtain ⟨queue, known, unconnected⟩ := gone
    have still : (node.loseClient place).InPass place ended ended.state := by
      refine ⟨⟨ended.changed, held⟩, ?_, ⟨queue, known⟩, fun _ => rfl⟩
      rw [desk_loseClient]
      exact pass.begun
    exact loses.trans (changes_endReporter still runs final fun _ =>
      .inl ⟨queue, known, unconnected⟩)

/-! ## Reports -/

/-- An event that is offered in a pass is queued, and the pass goes on, or the pass stops. -/
theorem changes_offerReport (informed : node.Informed told)
    (pass : node.InPass place session seen) (runs : active place)
    (answer : event.isAllDone = true → seen.isTerminal = true)
    (suits : seen = .completed → event.isAllDone = true ∨ event.doneTuple?.isSome = true)
    (next tick : Nat) {reported : Node} {fate : Offer}
    (offered : node.offerReport place session next tick seen event = (reported, fate)) :
    Changes told active node reported ∧ (fate = .sent → reported.InPass place session seen ∧
      event ∈ reported.told place session.client) := by
  have changes : Changes told active node
      (node.offer (.reporter place) session.client ⟨some place, event⟩).1 := node.changes_offer ..
  have goes := pass.of_clients changes.keeps (node.offer_eq ..)
  have front := node.front_offer (.reporter place) session.client ⟨some place, event⟩
  obtain ⟨queue, held⟩ := pass.known
  have lost := lost_offer held (.reporter place) ⟨some place, event⟩
  simp only [offerReport] at offered
  split at offered <;> rename_i queued <;> rw [queued] at changes goes front lost <;>
    obtain ⟨rfl, rfl⟩ := offered
  · refine ⟨changes, fun _ => ⟨goes, ?_⟩⟩
    rw [told_of_hear front]
    exact List.mem_append_right _ List.mem_cons_self
  · refine ⟨?_, by simp⟩
    refine changes.trans (changes_refuseReport (changes.informed informed) goes runs (lost rfl) ?_)
    intro final
    rw [Session.isTerminal, pass.reached (answer final), answer final]
  · refine ⟨changes.trans (changes_setReporter goes runs ?_), by simp⟩
    exact ⟨pass.reached, suits⟩

private theorem changes_closePass (informed : node.Informed told)
    (pass : node.InPass place session seen) (runs : active place) (next tick : Nat) :
    Changes told active node (node.closePass place session next tick seen) := by
  simp only [closePass]
  split
  · rename_i nothing
    refine changes_endPass pass runs next tick fun completed => ?_
    rw [Session.closingEvent?, if_pos completed] at nothing
    cases nothing
  · rename_i event closing
    have answer : event.isAllDone = true → seen.isTerminal = true := by
      rcases Session.eq_of_closingEvent? closing with ⟨rfl, -⟩ | ⟨-, fraction, rfl⟩
      · exact fun _ => rfl
      · simp [isAllDone]
    have suits (completed : seen = .completed) : event.isAllDone = true := by
      rw [Session.closingEvent?, if_pos completed] at closing
      rw [← Option.some.inj closing]
      rfl
    split
    · rename_i sent offered
      obtain ⟨changes, sent⟩ := changes_offerReport informed pass runs answer
        (fun completed => .inl (suits completed)) next tick offered
      obtain ⟨goes, heard⟩ := sent rfl
      exact changes.trans (changes_endPass goes runs next tick fun completed =>
        .inr ⟨event, heard, suits completed⟩)
    · rename_i offered
      exact (changes_offerReport informed pass runs answer (fun completed => .inl (suits completed))
        next tick offered).1

private theorem changes_reportTuples (informed : node.Informed told)
    (pass : node.InPass place session seen) (runs : active place) (tick count next : Nat) :
    Changes told active node (reportTuples place session tick seen count next node) := by
  induction count generalizing next node with
  | zero => exact changes_closePass informed pass runs next tick
  | succ count ih =>
    simp only [reportTuples]
    split
    · exact changes_closePass informed pass runs next tick
    · rename_i event done
      obtain ⟨row, rfl, -⟩ := Session.eq_of_tupleDone? done
      split
      · rename_i offered
        obtain ⟨changes, sent⟩ := changes_offerReport informed pass runs (by simp [isAllDone])
          (fun _ => .inr rfl) next tick offered
        exact changes.trans (ih (changes.informed informed) (sent rfl).1 (next + 1))
      · rename_i offered
        exact (changes_offerReport informed pass runs (by simp [isAllDone]) (fun _ => .inr rfl)
          next tick offered).1

private theorem changes_lookAtSession (informed : node.Informed told)
    (present : node.session? place = some session) (begun : (node.desk place).phase ≠ .idle)
    (runs : active place) (next tick : Nat) :
    Changes told active node (node.lookAtSession place session next tick) := by
  have known := (informed place session present).known (.inl begun)
  have pass : node.InPass place session session.state :=
    ⟨⟨session.changed, present⟩, begun, known, fun _ => rfl⟩
  simp only [lookAtSession]
  split
  · have same : Changes told active node (node.cancelTimer (.reporter place) .tick) :=
      Beside.changes ⟨rfl, rfl, rfl, rfl, rfl, rfl, rfl⟩
    have goes : (node.cancelTimer (.reporter place) .tick).InPass place session session.state :=
      pass.of_clients (keeps_of_clients rfl) ⟨_, _, rfl⟩
    exact same.trans (changes_reportTuples (same.informed informed) goes runs _ _ _)
  · split
    · obtain ⟨flight, held, rfl⟩ := Option.map_eq_some_iff.mp present
      have noted : Changes told active node
          (node.setSession place { flight.session with changed := false }) :=
        .single (.flew held (.grew ⟨Session.Follows.grows ⟨rfl, .refl, fun _ => ⟨rfl, rfl, rfl⟩⟩,
          rfl, rfl⟩))
      have goes : (node.setSession place { flight.session with changed := false }).InPass place
          flight.session flight.session.state := by
        refine ⟨⟨false, (session?_modifyFlight held _ place).trans (if_pos rfl)⟩, ?_, known,
          fun _ => rfl⟩
        rw [setSession, desk_modifyFlight held, if_pos rfl]
        simpa [desk, held, Desk.enter] using begun
      exact noted.trans (changes_reportTuples (noted.informed informed) goes runs _ _ _)
    · exact changes_watch pass runs next tick

private theorem changes_resumePass (informed : node.Informed told)
    (pass : node.InPass place session seen) (runs : active place)
    (heard : event ∈ node.told place session.client)
    (suits : seen = .completed → event.isAllDone = true ∨ event.doneTuple?.isSome = true)
    (next tick : Nat) :
    Changes told active node (node.resumePass place session next tick seen event) := by
  have ends (other : event.doneTuple? = none) :
      Changes told active node (node.endPass place next tick seen) := by
    refine changes_endPass pass runs next tick fun completed => .inr ⟨event, heard, ?_⟩
    exact (suits completed).resolve_right (by simp [other])
  cases event with
  | tupleDone id tuple row => exact changes_reportTuples informed pass runs tick _ _
  | accepted | tupleProgress | allDone | error => exact ends rfl

theorem changes_pollReporter (sound : node.front.Sound) (informed : node.Informed told)
    (runs : active place) : Changes told active node (node.pollReporter place) := by
  simp only [pollReporter]
  split
  · exact .refl
  · rename_i flight held
    have present := session?_of_flight held
    have phase : (node.desk place).phase = flight.reporter.phase := by simp [desk, held]
    split
    · exact .refl
    · exact .refl
    · rename_i next tick reporter
      refine changes_lookAtSession informed present ?_ runs next tick
      rw [phase, reporter]
      simp [Reporter.phase]
    · rename_i next tick seen event deadline reporter
      rw [reporter] at phase
      have begun : (node.desk place).phase ≠ .idle := by simp [phase, Reporter.phase]
      have informs := informed place flight.session present
      obtain ⟨queue, known⟩ := informs.known (.inl begun)
      have agrees := informs.agrees begun
      rw [phase] at agrees
      obtain ⟨reached, suits⟩ := agrees
      have pass : node.InPass place flight.session seen :=
        ⟨⟨flight.session.changed, present⟩, begun, ⟨queue, known⟩, reached⟩
      have changes : Changes told active node (node.resumeOffer (.reporter place)
        flight.session.client ⟨some place, event⟩ deadline).1 := node.changes_resumeOffer ..
      have goes := pass.of_clients changes.keeps (node.resumeOffer_eq ..)
      have front := node.front_resumeOffer (.reporter place) flight.session.client
        ⟨some place, event⟩ deadline
      have lost := lost_resumeOffer known (.reporter place) ⟨some place, event⟩ deadline
      have stands := (sound.desks place flight.session
        ((node.session?_eq place).symm.trans present)).stands
      have standing : (node.front.desks place).phase = .sending next seen event := phase
      rw [standing] at stands
      have answer := stands.2.2.final
      split <;> rename_i queued <;> rw [queued] at changes goes front lost
      · exact changes
      · rename_i sent
        have heard : event ∈ sent.told place flight.session.client := by
          rw [told_of_hear front]
          exact List.mem_append_right _ List.mem_cons_self
        exact changes.trans
          (changes_resumePass (changes.informed informed) goes runs heard suits _ _)
      · refine changes.trans
          (changes_refuseReport (changes.informed informed) goes runs (lost rfl) fun final => ?_)
        rw [Session.isTerminal, reached (answer final), answer final]

end JointQuery.Node
