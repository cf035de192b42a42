import JointQuery.Proofs.Session.Completion
import Mathlib.Logic.Relation

/-! The life of a session. Its state takes the steps of `Next` only, and once a final state is
reached nothing that the client is told of changes any more. -/
namespace JointQuery

/-- The steps of a state: forward one by one, or from any live state to a final one. -/
inductive SessionState.Next : SessionState → SessionState → Prop where
  | dispatched : Next .created .dispatched
  | awaited : Next .dispatched .awaitingResults
  | ended (live : source.isTerminal = false) (final : target.isTerminal = true) : Next source target

private theorem SessionState.Next.live {source target : SessionState} (next : Next source target) :
    source.isTerminal = false := by
  cases next with
  | dispatched => rfl
  | awaited => rfl
  | ended live => exact live

namespace Session

/-- The domain is that of the query, and there is a slot for each of its tuples. -/
structure Built (session : Session) : Prop where
  domain : Domain.ofQuery session.query = .ok session.domain
  tupleCount : session.tupleCount = session.domain.count

/-- What holds of a session between operations: it is built from its query and sound, it is
completed exactly when nothing remains, and it has come to its state step by step. -/
structure Regular (session : Session) : Prop where
  built : session.Built
  sound : session.Sound
  settled : session.state = .completed ↔ session.remaining = 0
  path : Relation.ReflTransGen SessionState.Next .created session.state

/-- How a session may have changed after some time. -/
structure Follows (before next : Session) : Prop where
  id : next.id = before.id
  path : Relation.ReflTransGen SessionState.Next before.state next.state
  frozen : before.isTerminal = true → next.state = before.state ∧ next.slots = before.slots ∧
    next.remaining = before.remaining

private theorem Follows.refl (session : Session) : session.Follows session :=
  ⟨rfl, .refl, fun _ => ⟨rfl, rfl, rfl⟩⟩

private theorem Follows.trans {first second third : Session} (earlier : first.Follows second)
    (later : second.Follows third) : first.Follows third := by
  refine ⟨later.id.trans earlier.id, earlier.path.trans later.path, fun final => ?_⟩
  obtain ⟨state, slots, remaining⟩ := earlier.frozen final
  have still : second.isTerminal = true := by rw [isTerminal, state]; exact final
  obtain ⟨state', slots', remaining'⟩ := later.frozen still
  exact ⟨state'.trans state, slots'.trans slots, remaining'.trans remaining⟩

/-- How a session may have changed, with what it is about: that stays, and so does the slot of every
tuple that is complete. -/
structure Grows (before next : Session) : Prop extends before.Follows next where
  query : next.query = before.query
  domain : next.domain = before.domain
  client : next.client = before.client
  tupleCount : next.tupleCount = before.tupleCount
  kept : ∀ tuple slot, before.slot? tuple = some slot → slot.complete = true →
    next.slot? tuple = some slot

theorem Grows.refl (session : Session) : session.Grows session :=
  ⟨.refl session, rfl, rfl, rfl, rfl, fun _ _ found _ => found⟩

theorem Grows.trans {first second third : Session} (earlier : first.Grows second)
    (later : second.Grows third) : first.Grows third where
  toFollows := earlier.toFollows.trans later.toFollows
  query := later.query.trans earlier.query
  domain := later.domain.trans earlier.domain
  client := later.client.trans earlier.client
  tupleCount := later.tupleCount.trans earlier.tupleCount
  kept tuple slot found complete :=
    later.kept tuple slot (earlier.kept tuple slot found complete) complete

/-- A session grows when it changes its state only. -/
theorem Follows.grows {session : Session} {state : SessionState} {changed : Bool}
    (follows : session.Follows { session with state := state, changed := changed }) :
    session.Grows { session with state := state, changed := changed } :=
  ⟨follows, rfl, rfl, rfl, rfl, fun _ _ found _ => found⟩

private theorem Grows.built {session next : Session} (grows : session.Grows next)
    (built : session.Built) : next.Built := by
  refine ⟨?_, ?_⟩
  · rw [grows.query, grows.domain, built.domain]
  · rw [grows.tupleCount, grows.domain, built.tupleCount]

theorem regular_create {id : QueryId} {query : Query} {client : Nat} {ref : String} {now : Int64}
    {session : Session} (created : create id query client ref now = .ok session) :
    session.Regular := by
  have positive := remaining_create_pos created
  have sound := sound_create created
  have count := tupleCount_create created
  obtain ⟨domain, built, rfl⟩ := create_eq created
  exact ⟨⟨built, count⟩, sound, iff_of_false (by simp) (Nat.pos_iff_ne_zero.mp positive), .refl⟩

/-! ## Transitions -/

theorem grows_transition (session : Session) {source target : SessionState}
    (next : SessionState.Next source target) :
    session.Grows (session.transition source target).1 := by
  simp only [transition]
  split
  · rename_i reached
    refine Follows.grows ⟨rfl, reached ▸ .single next, fun final => ?_⟩
    rw [isTerminal, reached, next.live] at final
    simp at final
  · exact .refl session

/-- A step to a state that is not final leaves a session live, and does not complete it. -/
theorem Regular.transition {session : Session} (regular : session.Regular)
    {source target : SessionState} (next : SessionState.Next source target)
    (early : target.isTerminal = false) : (session.transition source target).1.Regular ∧
      (session.transition source target).1.isTerminal = session.isTerminal := by
  have path := regular.path.trans (session.grows_transition next).path
  have built := (session.grows_transition next).built regular.built
  simp only [Session.transition] at path built ⊢
  split
  · rename_i reached
    rw [if_pos reached] at path built
    have incomplete : session.state ≠ .completed := by
      rintro same
      have live := next.live
      rw [← reached, same] at live
      simp [SessionState.isTerminal] at live
    refine ⟨⟨built, regular.sound.of_same rfl rfl rfl, ?_, path⟩, ?_⟩
    · have remains := mt regular.settled.mpr incomplete
      refine iff_of_false ?_ remains
      rintro rfl
      simp [SessionState.isTerminal] at early
    · simp only [isTerminal, early, reached, next.live]
  · exact ⟨regular, rfl⟩

/-! ## Ends -/

/-- Only a live session can be finished. -/
theorem finish_of_live {session : Session} (live : session.isTerminal = false)
    (target : SessionState) :
    session.finish target = ({ session with state := target, changed := true }, true) := by
  simp [finish, live]

theorem finish_of_terminal {session : Session} (final : session.isTerminal = true)
    (target : SessionState) : session.finish target = (session, false) := by
  simp [finish, final]

theorem grows_finish {session : Session} (live : session.isTerminal = false)
    {target : SessionState} (final : target.isTerminal = true) :
    session.Grows (session.finish target).1 := by
  rw [finish_of_live live]
  refine Follows.grows ⟨rfl, .single (.ended live final), fun ended => ?_⟩
  simp [live] at ended

/-- Ending a session keeps it regular if it is completed exactly when nothing remains. -/
theorem Regular.finish {session : Session} (regular : session.Regular)
    (live : session.isTerminal = false) {target : SessionState} (final : target.isTerminal = true)
    (settled : target = .completed ↔ session.remaining = 0) :
    (session.finish target).1.Regular ∧ (session.finish target).1.isTerminal = true := by
  have grows := grows_finish live final
  have path := regular.path.trans grows.path
  have built := grows.built regular.built
  rw [finish_of_live live] at path built ⊢
  exact ⟨⟨built, regular.sound.of_same rfl rfl rfl, settled, path⟩, final⟩

/-! ## Events -/

theorem grows_apply {session : Session} (sound : session.Sound)
    (live : session.isTerminal = false) (event : PartialResult) :
    session.Grows (session.apply event).1 := by
  have applied := apply_applied sound.slots event
  have frame := applied.frame
  refine ⟨⟨by rw [frame], by rw [frame], ?_⟩, by rw [frame], by rw [frame], by rw [frame],
    applied.tupleCount_eq, ?_⟩
  · intro ended
    simp [live] at ended
  · intro tuple slot found complete
    exact applied.slot?_of_complete sound found complete

theorem isTerminal_apply {session : Session} (sound : session.Sound) (event : PartialResult) :
    (session.apply event).1.isTerminal = session.isTerminal := by
  rw [(apply_applied sound.slots event).frame]
  rfl

/-- An event that does not complete a live session leaves something. -/
theorem Regular.apply {session : Session} (regular : session.Regular)
    (live : session.isTerminal = false)
    (unfinished : (session.apply event).2 ≠ .ok .sessionCompleted) :
    (session.apply event).1.Regular := by
  have applied := apply_applied regular.sound.slots event
  have state : (session.apply event).1.state = session.state := by rw [applied.frame]
  have incomplete : session.state ≠ .completed := by
    intro same
    simp [isTerminal, same, SessionState.isTerminal] at live
  have remains := mt regular.settled.mpr incomplete
  have left : (session.apply event).1.remaining ≠ 0 := fun none =>
    unfinished ((applied.sessionCompleted_iff regular.sound).mpr ⟨remains, none⟩)
  refine ⟨(grows_apply regular.sound live event).built regular.built, regular.sound.apply event,
    ?_, ?_⟩
  · rw [state]
    exact iff_of_false incomplete left
  · rw [state]
    exact regular.path

/-- An event that completes a session lets it be finished. -/
theorem Regular.complete {session : Session} (regular : session.Regular)
    (live : session.isTerminal = false)
    (finishes : (session.apply event).2 = .ok .sessionCompleted) :
    ((session.apply event).1.finish .completed).1.Regular ∧
      ((session.apply event).1.finish .completed).1.isTerminal = true := by
  have applied := apply_applied regular.sound.slots event
  have nothing := ((applied.sessionCompleted_iff regular.sound).mp finishes).2
  have still := (isTerminal_apply regular.sound event).trans live
  have sound := regular.sound.apply event
  have final : SessionState.completed.isTerminal = true := rfl
  have grows := (grows_apply regular.sound live event).trans (grows_finish still final)
  have path := regular.path.trans grows.path
  have built := grows.built regular.built
  rw [finish_of_live still] at path built ⊢
  exact ⟨⟨built, sound.of_same rfl rfl rfl, iff_of_true rfl nothing, path⟩, final⟩

end Session

end JointQuery
