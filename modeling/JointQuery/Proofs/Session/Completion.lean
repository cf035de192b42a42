import JointQuery.Proofs.Session.Soundness

/-! Completion over a whole run of a session. A tuple is marked by one event only, at a time when it
is resolved, and the session is reported complete by the event that marks the last tuple. -/
namespace JointQuery

namespace Session

variable {id : QueryId} {query : Query} {client : Nat} {ref : String} {now : Int64}

/-- How many tuples are marked complete. -/
def marked (session : Session) : Nat := session.slots.countP (·.complete)

private theorem isTupleComplete_create (created : create id query client ref now = .ok session)
    (tuple : Nat) : session.isTupleComplete tuple = false := by
  obtain ⟨domain, -, rfl⟩ := create_eq created
  simp only [isTupleComplete, slot?, List.getElem?_replicate]
  split
  · rename_i slot found
    split at found
    · exact Option.some.inj found ▸ rfl
    · simp at found
  · rfl

private theorem Sound.remaining_add_marked {session : Session} (sound : session.Sound) :
    session.remaining + session.marked = session.tupleCount := by
  have split := List.length_eq_countP_add_countP (fun slot : TupleSlot => slot.complete)
    (l := session.slots)
  simp only [sound.remaining, marked, tupleCount, split, Bool.not_eq_true, Bool.decide_eq_false]
  omega

theorem isTupleComplete_iff {session : Session} :
    session.isTupleComplete tuple = true ↔
      ∃ slot, session.slot? tuple = some slot ∧ slot.complete = true := by
  simp only [isTupleComplete]
  cases session.slot? tuple <;> simp

/-- Every tuple is marked complete. -/
def AllComplete (session : Session) : Prop := ∀ slot ∈ session.slots, slot.complete = true

theorem Sound.allComplete_iff {session : Session} (sound : session.Sound) :
    session.AllComplete ↔ session.remaining = 0 := by
  simp [AllComplete, sound.remaining, List.countP_eq_zero]

/-! ## One event -/

/-- The tuple whose completion a call claims. -/
def claimed? (event : PartialResult) : Except Violation ApplyOutcome → Option Nat
  | .ok (.tupleCompleted tuple) => some tuple
  | .ok .sessionCompleted => some event.tupleIndex.toNat
  | _ => none

/-- A tuple that is not complete is among those that remain. -/
theorem Sound.remaining_pos {session : Session} (sound : session.Sound)
    (found : session.slot? tuple = some slot) (unmarked : slot.complete = false) :
    0 < session.remaining := by
  rw [sound.remaining, List.countP_pos_iff]
  exact ⟨slot, List.mem_of_getElem? found, by simp [unmarked]⟩

namespace Applied

theorem remaining_le {session : Session}
    (applied : Applied session event next outcome) : next.remaining ≤ session.remaining := by
  cases applied <;> simp [Session.setSlot, Session.mark]

/-- Replacing a slot by one that is marked alike completes nothing. -/
private theorem isTupleComplete_setSlot {session : Session}
    (found : session.slot? addressed = some before) (alike : slot.complete = before.complete)
    (tuple : Nat) : (session.setSlot addressed slot).isTupleComplete tuple =
      session.isTupleComplete tuple := by
  by_cases same : tuple = addressed
  · subst same
    simp [isTupleComplete, slot?_setSlot_self found, found, alike]
  · simp [isTupleComplete, slot?_setSlot_ne session slot same]

/-- A call claims the tuple that it makes complete. -/
private theorem claimed?_iff {session : Session} (applied : Applied session event next outcome)
    (tuple : Nat) :
    claimed? event outcome = some tuple ↔
      session.isTupleComplete tuple = false ∧ next.isTupleComplete tuple = true := by
  cases applied with
  | refused unsuited => simp [claimed?]
  | cut found => simp [claimed?, isTupleComplete_setSlot found]
  | recorded found => simp [claimed?, isTupleComplete_setSlot found, TupleSlot.record]
  | claimed found admits written resolved unmarked =>
    rename_i slot progress
    have claims : claimed? event (.ok (if session.remaining = 1 then .sessionCompleted
        else .tupleCompleted event.tupleIndex.toNat)) = some event.tupleIndex.toNat := by
      split <;> rfl
    rw [claims]
    by_cases same : tuple = event.tupleIndex.toNat
    · subst same
      simp [isTupleComplete, found, unmarked, slot?_mark_self found]
    · have others := slot?_of_ne (.claimed found admits written resolved unmarked) same
      simp [isTupleComplete, others, Ne.symm same]

/-- A call reports the session complete when nothing remains after it that remained before. -/
theorem sessionCompleted_iff {session : Session}
    (applied : Applied session event next outcome) (sound : session.Sound) :
    outcome = .ok .sessionCompleted ↔ session.remaining ≠ 0 ∧ next.remaining = 0 := by
  cases applied with
  | refused unsuited => simp
  | cut => simp [Session.setSlot]
  | recorded => simp [Session.setSlot]
  | claimed found admits written resolved unmarked =>
    have positive := sound.remaining_pos found unmarked
    by_cases last : session.remaining = 1
    · simp [last, Session.mark]
    · simp only [last, Session.mark, if_false, Except.ok.injEq, reduceCtorEq, false_iff, not_and]
      omega

end Applied

/-! ## A whole run -/

/-- What is returned for each event of a run. -/
def outcomes (session : Session) : List PartialResult → List (Except Violation ApplyOutcome)
  | [] => []
  | event :: rest => (session.apply event).2 :: (session.apply event).1.outcomes rest

/-- The tuples whose completion is claimed in a run, in the order of the claims. -/
def claims (session : Session) : List PartialResult → List Nat
  | [] => []
  | event :: rest =>
    (claimed? event (session.apply event).2).toList ++ (session.apply event).1.claims rest

private theorem Sound.isTupleComplete_after {session : Session} (sound : session.Sound)
    (complete : session.isTupleComplete tuple = true) (events : List PartialResult) :
    (session.after events).isTupleComplete tuple = true := by
  obtain ⟨slot, found, marked⟩ := isTupleComplete_iff.mp complete
  exact isTupleComplete_iff.mpr ⟨slot, sound.slot?_after found marked events, marked⟩

/-- A run claims the tuples that it makes complete. -/
theorem Sound.mem_claims_iff {session : Session} (sound : session.Sound)
    (events : List PartialResult) :
    tuple ∈ session.claims events ↔ session.isTupleComplete tuple = false ∧
      (session.after events).isTupleComplete tuple = true := by
  induction events generalizing session with
  | nil => simp [claims]
  | cons event rest ih =>
    have step := (apply_applied sound.slots event).claimed?_iff tuple
    have earlier : session.isTupleComplete tuple = true →
        (session.apply event).1.isTupleComplete tuple = true :=
      fun complete => sound.isTupleComplete_after complete [event]
    have kept : (session.apply event).1.isTupleComplete tuple = true →
        ((session.apply event).1.after rest).isTupleComplete tuple = true :=
      fun complete => (sound.apply event).isTupleComplete_after complete rest
    simp only [claims, List.mem_append, Option.mem_toList, step, ih (sound.apply event), after_cons]
    cases first : session.isTupleComplete tuple <;>
      cases second : (session.apply event).1.isTupleComplete tuple <;> simp_all

/-- No tuple is claimed twice. -/
theorem Sound.nodup_claims {session : Session} (sound : session.Sound)
    (events : List PartialResult) : (session.claims events).Nodup := by
  induction events generalizing session with
  | nil => exact List.nodup_nil
  | cons event rest ih =>
    simp only [claims, List.nodup_append]
    refine ⟨?_, ih (sound.apply event), ?_⟩
    · cases claimed? event (session.apply event).2 <;> simp
    · rintro tuple now _ later rfl
      have applied := apply_applied sound.slots event
      have step := (applied.claimed?_iff tuple).mp (Option.mem_toList.mp now)
      have incomplete := (sound.apply event).mem_claims_iff rest |>.mp later
      simp [step.2] at incomplete

private theorem outcomes_getElem? (session : Session) (events : List PartialResult) (place : Nat) :
    (session.outcomes events)[place]? =
      events[place]?.map fun event => ((session.after (events.take place)).apply event).2 := by
  induction events generalizing session place with
  | nil => simp [outcomes]
  | cons event rest ih =>
    cases place with
    | zero => simp [outcomes]
    | succ place => simpa [outcomes] using ih (session.apply event).1 place

private theorem after_take_succ (session : Session) {events : List PartialResult} {place : Nat}
    (present : events[place]? = some event) :
    session.after (events.take (place + 1)) =
      ((session.after (events.take place)).apply event).1 := by
  rw [List.take_add_one, present, after_append]
  rfl

theorem Sound.remaining_after_le {session : Session} (sound : session.Sound)
    (events : List PartialResult) : (session.after events).remaining ≤ session.remaining := by
  induction events generalizing session with
  | nil => exact Nat.le_refl _
  | cons event rest ih =>
    exact Nat.le_trans (ih (sound.apply event)) (apply_applied sound.slots event).remaining_le

private theorem Sound.allComplete_after {session : Session} (sound : session.Sound)
    (complete : session.AllComplete) (events : List PartialResult) :
    (session.after events).AllComplete := by
  have nothing := sound.allComplete_iff.mp complete
  have fewer := sound.remaining_after_le events
  rw [(sound.after events).allComplete_iff]
  omega

/-- The session is reported complete by the call after which every tuple is complete. -/
theorem Sound.sessionCompleted_iff {session : Session} (sound : session.Sound)
    (events : List PartialResult) (place : Nat) :
    (session.outcomes events)[place]? = some (.ok .sessionCompleted) ↔ place < events.length ∧
      ¬ (session.after (events.take place)).AllComplete ∧
        (session.after (events.take (place + 1))).AllComplete := by
  rw [outcomes_getElem?]
  cases present : events[place]? with
  | none =>
    have outside := List.getElem?_eq_none_iff.mp present
    simp [Nat.not_lt.mpr outside]
  | some event =>
    have earlier := sound.after (events.take place)
    obtain ⟨inside, -⟩ := List.getElem?_eq_some_iff.mp present
    rw [after_take_succ session present, earlier.allComplete_iff,
      (earlier.apply event).allComplete_iff]
    simpa [inside] using (apply_applied earlier.slots event).sessionCompleted_iff earlier

/-- The session is reported complete once. -/
theorem Sound.sessionCompleted_unique {session : Session} (sound : session.Sound)
    {events : List PartialResult} {first second : Nat}
    (one : (session.outcomes events)[first]? = some (.ok .sessionCompleted))
    (other : (session.outcomes events)[second]? = some (.ok .sessionCompleted)) :
    first = second := by
  have apart {early late : Nat}
      (one : (session.outcomes events)[early]? = some (.ok .sessionCompleted))
      (other : (session.outcomes events)[late]? = some (.ok .sessionCompleted)) :
      ¬ early < late := by
    intro before
    obtain ⟨-, -, complete⟩ := (sound.sessionCompleted_iff events early).mp one
    obtain ⟨-, incomplete, -⟩ := (sound.sessionCompleted_iff events late).mp other
    apply incomplete
    obtain ⟨middle, split⟩ : ∃ middle, events.take late = events.take (early + 1) ++ middle := by
      refine ⟨(events.take late).drop (early + 1), ?_⟩
      have shorter : (events.take late).take (early + 1) = events.take (early + 1) := by
        rw [List.take_take, Nat.min_eq_left before]
      rw [← shorter, List.take_append_drop]
    rw [split, after_append]
    exact (sound.after _).allComplete_after complete middle
  have before := apart one other
  have behind := apart other one
  omega

/-- Completion is never early and is claimed once, whatever is received and in whatever order.
What remains is what is not marked; a tuple is marked only when it is resolved, and stays as it is
from then on; a run claims the tuples that it marks, each of them once; and the session is
reported complete by one call at most, the one after which every tuple is marked. -/
theorem completion_claimed_once (created : create id query client ref now = .ok fresh)
    (events : List PartialResult) :
    (fresh.after events).remaining + (fresh.after events).marked = fresh.domain.count ∧
    (fresh.after events).tupleCount = fresh.domain.count ∧
    (∀ tuple slot, (fresh.after events).slot? tuple = some slot → slot.complete = true →
      slot.Resolved ∧ slot.result.size = query.aggregates.length ∧
        ∀ more, (fresh.after (events ++ more)).slot? tuple = some slot) ∧
    (∀ tuple, tuple ∈ fresh.claims events ↔ (fresh.after events).isTupleComplete tuple = true) ∧
    (fresh.claims events).Nodup ∧
    (∀ place : Nat, (fresh.outcomes events)[place]? = some (.ok .sessionCompleted) ↔
      place < events.length ∧ ¬ (fresh.after (events.take place)).AllComplete ∧
        (fresh.after (events.take (place + 1))).AllComplete) ∧
    (∀ first second : Nat, (fresh.outcomes events)[first]? = some (.ok .sessionCompleted) →
      (fresh.outcomes events)[second]? = some (.ok .sessionCompleted) → first = second) := by
  have start := sound_create created
  have sound := start.after events
  have tuples := start.tupleCount_after events
  refine ⟨?_, ?_, fun tuple slot found complete => ?_, fun tuple => ?_, start.nodup_claims events,
    start.sessionCompleted_iff events, fun _ _ => start.sessionCompleted_unique⟩
  · rw [sound.remaining_add_marked, tuples, tupleCount_create created]
  · rw [tuples, tupleCount_create created]
  · obtain ⟨size, -, -, resolved⟩ := sound.slots slot (List.mem_of_getElem? found)
    rw [start.query_after events, query_create created] at size
    refine ⟨resolved complete, size, fun more => ?_⟩
    rw [after_append]
    exact sound.slot?_after found complete more
  · rw [start.mem_claims_iff, isTupleComplete_create created]
    simp

/-- The smallest session is completed by the report of its last row and its value. -/
theorem completion_claimed_once_single :
    create single.id oneCount 0 "" 0 = .ok single ∧
      0 ∈ single.claims [report [⟨.db1, some 2, 1⟩, ⟨.db2, some 0, 0⟩] [],
        report [⟨.db1, none, 1⟩] [⟨0, 1⟩]] :=
  ⟨create_single, ((completion_claimed_once create_single _).2.2.2.1 0).mpr rfl⟩

end Session

end JointQuery
