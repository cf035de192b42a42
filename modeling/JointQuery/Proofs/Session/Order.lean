import JointQuery.Proofs.Session.Consistency
import JointQuery.Proofs.Session.Gaps

/-! The order of partial results. A run of events is accepted when what it says of each tuple, taken
together, is consistent with the slot of that tuple, and then each slot has gained what was said of
it. Neither depends on the order of the events. -/
namespace JointQuery

namespace Session

variable {id : QueryId} {query : Query} {client : Nat} {ref : String} {now : Int64}
  {session : Session} {events permuted : List PartialResult}

/-- What events say of the rows of a tuple. -/
def toldRows (events : List PartialResult) (tuple : Nat) : List RowProgress :=
  (events.filter fun event => event.tupleIndex.toNat = tuple).flatMap (·.progress)

/-- What events say of the values of a tuple. -/
def toldValues (events : List PartialResult) (tuple : Nat) : List AggregateValue :=
  (events.filter fun event => event.tupleIndex.toNat = tuple).flatMap (·.values)

/-- Every event of a run is accepted. -/
def AcceptsAll (session : Session) (events : List PartialResult) : Prop :=
  ∀ outcome ∈ session.outcomes events, ∃ done, outcome = .ok done

/-- Events that are consistent with a session when they are taken together. -/
structure TakesAll (session : Session) (events : List PartialResult) : Prop where
  addressed : ∀ event ∈ events, event.tupleIndex.toNat < session.tupleCount
  takes : ∀ tuple slot, session.slot? tuple = some slot →
    slot.Takes (toldRows events tuple) (toldValues events tuple)

theorem told_cons_self (event : PartialResult) (rest : List PartialResult) :
    toldRows (event :: rest) event.tupleIndex.toNat =
        event.progress ++ toldRows rest event.tupleIndex.toNat ∧
      toldValues (event :: rest) event.tupleIndex.toNat =
        event.values ++ toldValues rest event.tupleIndex.toNat := by
  simp [toldRows, toldValues]

theorem told_cons_ne {event : PartialResult} (other : event.tupleIndex.toNat ≠ tuple)
    (rest : List PartialResult) :
    toldRows (event :: rest) tuple = toldRows rest tuple ∧
      toldValues (event :: rest) tuple = toldValues rest tuple := by
  simp [toldRows, toldValues, other]

private theorem toldRows_perm (perm : events.Perm permuted) (tuple : Nat) :
    (toldRows events tuple).Perm (toldRows permuted tuple) :=
  (perm.filter _).flatMap_right _

private theorem toldValues_perm (perm : events.Perm permuted) (tuple : Nat) :
    (toldValues events tuple).Perm (toldValues permuted tuple) :=
  (perm.filter _).flatMap_right _

private theorem acceptsAll_cons_iff {event : PartialResult} :
    session.AcceptsAll (event :: events) ↔
      (∃ outcome, (session.apply event).2 = .ok outcome) ∧
        (session.apply event).1.AcceptsAll events := by
  simp [AcceptsAll, outcomes]

/-- What an accepted event leaves to each tuple: what the events after it say. -/
private theorem slot_after_accepted (sound : session.Sound) {event : PartialResult}
    (accepted : (session.apply event).2 = .ok outcome)
    (found : session.slot? tuple = some slot) (rest : List PartialResult) :
    ∃ next, (session.apply event).1.slot? tuple = some next ∧
      (slot.Takes (toldRows (event :: rest) tuple) (toldValues (event :: rest) tuple) ↔
        next.Takes (toldRows rest tuple) (toldValues rest tuple)) ∧
      ∀ last, next.Takes (toldRows rest tuple) (toldValues rest tuple) →
        next.Gains (toldRows rest tuple) (toldValues rest tuple) last →
        slot.Gains (toldRows (event :: rest) tuple) (toldValues (event :: rest) tuple) last := by
  have applied := apply_applied sound.slots event
  have consistent := (sound.apply_ok_iff event).mp ⟨outcome, accepted⟩
  by_cases same : event.tupleIndex.toNat = tuple
  · subst same
    rw [accepted] at applied
    obtain ⟨before, next, present, held, gains, -⟩ := applied.gains sound
    obtain rfl := Option.some.inj (found.symm.trans present)
    obtain ⟨rows, values⟩ := told_cons_self event rest
    rw [rows, values]
    refine ⟨next, held, ?_, fun last takes later => gains.append later takes⟩
    rw [gains.takes_append_iff]
    exact and_iff_right (consistent.takes _ found)
  · obtain ⟨rows, values⟩ := told_cons_ne same rest
    rw [rows, values]
    exact ⟨slot, (applied.slot?_of_ne (Ne.symm same)).trans found, Iff.rfl,
      fun _ _ gains => gains⟩

/-- A run is accepted exactly when its events are consistent when they are taken together. -/
theorem Sound.acceptsAll_iff (sound : session.Sound) :
    session.AcceptsAll events ↔ session.TakesAll events := by
  induction events generalizing session with
  | nil =>
    refine ⟨fun _ => ⟨by simp, fun tuple slot found => ?_⟩, fun _ => by simp [AcceptsAll, outcomes]⟩
    exact (sound.slots slot (List.mem_of_getElem? found)).takes_nil
  | cons event rest ih =>
    rw [acceptsAll_cons_iff, ih (sound.apply event)]
    have count := (apply_applied sound.slots event).tupleCount_eq
    constructor
    · rintro ⟨⟨outcome, accepted⟩, later⟩
      have consistent := (sound.apply_ok_iff event).mp ⟨outcome, accepted⟩
      refine ⟨fun other member => ?_, fun tuple slot found => ?_⟩
      · rcases List.mem_cons.mp member with rfl | member
        · exact consistent.addressed
        · rw [← count]
          exact later.addressed other member
      · obtain ⟨next, held, takes, -⟩ := slot_after_accepted sound accepted found rest
        exact takes.mpr (later.takes tuple next held)
    · rintro ⟨addressed, all⟩
      have consistent : session.Consistent event := by
        refine ⟨addressed event List.mem_cons_self, fun slot found => ?_⟩
        have takes := all _ slot found
        obtain ⟨rows, values⟩ := told_cons_self event rest
        rw [rows, values] at takes
        exact takes.left
      obtain ⟨outcome, accepted⟩ := (sound.apply_ok_iff event).mpr consistent
      refine ⟨⟨outcome, accepted⟩, fun other member => ?_, fun tuple next held => ?_⟩
      · rw [count]
        exact addressed other (List.mem_cons_of_mem _ member)
      · have inside : tuple < session.tupleCount := by
          rw [← count]
          exact (List.getElem?_eq_some_iff.mp held).1
        have found := List.getElem?_eq_getElem inside
        obtain ⟨same, present, takes, -⟩ := slot_after_accepted sound accepted found rest
        obtain rfl := Option.some.inj (held.symm.trans present)
        exact takes.mp (all tuple _ found)

/-- An accepted run leaves to each slot what was said of its tuple. -/
theorem Sound.gains_after (sound : session.Sound) (accepted : session.AcceptsAll events)
    (found : session.slot? tuple = some slot) :
    ∃ next, (session.after events).slot? tuple = some next ∧
      slot.Gains (toldRows events tuple) (toldValues events tuple) next := by
  induction events generalizing session slot with
  | nil => exact ⟨slot, found, .refl slot⟩
  | cons event rest ih =>
    obtain ⟨⟨outcome, accepts⟩, later⟩ := acceptsAll_cons_iff.mp accepted
    have sound' := sound.apply event
    obtain ⟨middle, held, takes, gains⟩ := slot_after_accepted sound accepts found rest
    obtain ⟨last, present, gained⟩ := ih sound' later held
    have suits := (sound'.acceptsAll_iff.mp later).takes tuple middle held
    exact ⟨last, present, gains last suits gained⟩

private theorem TakesAll.perm (takes : session.TakesAll events) (perm : events.Perm permuted) :
    session.TakesAll permuted := by
  refine ⟨fun event member => takes.addressed event (perm.mem_iff.mpr member), ?_⟩
  exact fun tuple slot found =>
    (takes.takes tuple slot found).perm (toldRows_perm perm tuple) (toldValues_perm perm tuple)

/-! ## The session after an accepted run -/

/-- An accepted run leaves no gap where there was none. -/
theorem Sound.not_gap_after (sound : session.Sound) (accepted : session.AcceptsAll events)
    (closed : ¬ session.Gap tuple) : ¬ (session.after events).Gap tuple := by
  induction events generalizing session with
  | nil => exact closed
  | cons event rest ih =>
    obtain ⟨⟨outcome, accepts⟩, later⟩ := acceptsAll_cons_iff.mp accepted
    refine ih (sound.apply event) later fun gap => ?_
    rcases (sound.gap_apply_iff event).mp gap with ⟨before, -⟩ | ⟨-, overshoots⟩
    · exact closed before
    · obtain ⟨⟨violation, refused⟩, -⟩ := overshoots.gap sound
      simp [accepts] at refused

private theorem Sound.changed_after (sound : session.Sound) (events : List PartialResult) :
    (session.after events).changed =
      (session.changed || decide ((session.after events).remaining < session.remaining)) := by
  induction events generalizing session with
  | nil => simp
  | cons event rest ih =>
    have step := (apply_applied sound.slots event).changed_eq sound
    have first := sound.remaining_after_le [event]
    have fewer := (sound.apply event).remaining_after_le rest
    rw [after_cons, ih (sound.apply event), step, Bool.or_assoc]
    congr 1
    simp only [after_cons, after_nil] at first
    rw [Bool.eq_iff_iff]
    simp only [Bool.or_eq_true, decide_eq_true_eq]
    omega

/-- Runs that leave the same slots leave the same session. -/
theorem Sound.after_eq_of_slots (sound : session.Sound)
    (same : (session.after permuted).slots = (session.after events).slots) :
    session.after permuted = session.after events := by
  have remaining : (session.after permuted).remaining = (session.after events).remaining := by
    rw [(sound.after permuted).remaining, (sound.after events).remaining, same]
  have changed : (session.after permuted).changed = (session.after events).changed := by
    rw [sound.changed_after, sound.changed_after, remaining]
  rw [sound.after_frame permuted, sound.after_frame events, same, remaining, changed]

/-- Accepted runs of the same events lead to the same session. -/
theorem Sound.after_perm (sound : session.Sound) (closed : ∀ tuple, ¬ session.Gap tuple)
    (accepted : session.AcceptsAll events) (perm : events.Perm permuted) :
    session.AcceptsAll permuted ∧ session.after permuted = session.after events := by
  have together := sound.acceptsAll_iff.mp accepted
  have accepted' := sound.acceptsAll_iff.mpr (together.perm perm)
  refine ⟨accepted', sound.after_eq_of_slots (List.ext_getElem? fun tuple => ?_)⟩
  cases found : session.slot? tuple with
  | none =>
    have outside : session.tupleCount ≤ tuple := List.getElem?_eq_none_iff.mp found
    have nowhere (run : List PartialResult) : (session.after run).slot? tuple = none := by
      have count := sound.tupleCount_after run
      exact List.getElem?_eq_none_iff.mpr (Nat.le_trans (Nat.le_of_eq count) outside)
    exact (nowhere permuted).trans (nowhere events).symm
  | some slot =>
    obtain ⟨next, held, gains⟩ := sound.gains_after accepted found
    obtain ⟨last, held', gains'⟩ := sound.gains_after accepted' found
    have marks {run : List PartialResult} {slot : TupleSlot} (accepted : session.AcceptsAll run)
        (held : (session.after run).slot? tuple = some slot) :
        slot.complete = true ↔ False ∨ slot.Resolved := by
      rw [false_or]
      have open' := sound.not_gap_after accepted (closed tuple)
      exact (((sound.after run).gap_iff held).mpr open').symm
    have counted := ((sound.after events).slots _ (List.mem_of_getElem? held)).counted
    have counted' := ((sound.after permuted).slots _ (List.mem_of_getElem? held')).counted
    obtain ⟨progress, result⟩ := gains.eq_of_perm gains' (together.takes tuple slot found)
      (toldRows_perm perm tuple) (toldValues_perm perm tuple) counted counted'
    have same := TupleSlot.eq_of_marks progress result (marks accepted held) (marks accepted' held')
    exact held'.trans (same ▸ held.symm)

/-! ## Completion -/

/-- Whether a call reports the session complete. -/
def reportsCompletion : Except Violation ApplyOutcome → Bool
  | .ok .sessionCompleted => true
  | _ => false

/-- How often a run reports the session complete. -/
def completions (session : Session) (events : List PartialResult) : Nat :=
  (session.outcomes events).countP reportsCompletion

private theorem reportsCompletion_iff {outcome : Except Violation ApplyOutcome} :
    reportsCompletion outcome = true ↔ outcome = .ok .sessionCompleted := by
  cases outcome with
  | error violation => simp [reportsCompletion]
  | ok done => cases done <;> simp [reportsCompletion]

/-- A run reports the session complete once if it completes it, and otherwise not at all. -/
theorem Sound.completions_eq (sound : session.Sound) (events : List PartialResult) :
    session.completions events =
      if session.remaining ≠ 0 ∧ (session.after events).remaining = 0 then 1 else 0 := by
  induction events generalizing session with
  | nil =>
    have never : ¬ (session.remaining ≠ 0 ∧ session.remaining = 0) := fun both => both.1 both.2
    rw [after_nil, if_neg never]
    rfl
  | cons event rest ih =>
    have step := (apply_applied sound.slots event).sessionCompleted_iff sound
    have first := sound.remaining_after_le [event]
    have fewer := (sound.apply event).remaining_after_le rest
    have later := ih (sound.apply event)
    simp only [completions] at later
    simp only [after_cons, after_nil] at first ⊢
    simp only [completions, outcomes, List.countP_cons, later, reportsCompletion_iff, step]
    by_cases done : (session.apply event).1.remaining = 0
    · have ends : ((session.apply event).1.after rest).remaining = 0 := by omega
      simp [done, ends]
    · have began : session.remaining ≠ 0 := by omega
      simp [done, began]

/-- The order of partial results does not matter. If every event of a run on a new session is
accepted, then so is every event of the same run in any other order, and the session that is left
is the same. In each order the session is reported complete by one call if all tuples end resolved,
and by none otherwise. -/
theorem accepted_in_any_order (created : create id query client ref now = .ok fresh)
    (events permuted : List PartialResult) (perm : events.Perm permuted)
    (accepted : fresh.AcceptsAll events) :
    fresh.AcceptsAll permuted ∧ fresh.after permuted = fresh.after events ∧
    fresh.completions permuted = fresh.completions events ∧
    ((∀ slot ∈ (fresh.after events).slots, slot.Resolved) → fresh.completions events = 1) ∧
    (¬ (∀ slot ∈ (fresh.after events).slots, slot.Resolved) → fresh.completions events = 0) := by
  have sound := sound_create created
  have closed : ∀ tuple, ¬ fresh.Gap tuple := fun _ => not_gap_create created
  have positive : fresh.remaining ≠ 0 := Nat.pos_iff_ne_zero.mp (remaining_create_pos created)
  obtain ⟨accepted', same⟩ := sound.after_perm closed accepted perm
  have finished : (fresh.after events).remaining = 0 ↔
      ∀ slot ∈ (fresh.after events).slots, slot.Resolved := by
    rw [← (sound.after events).allComplete_iff, AllComplete]
    refine forall₂_congr fun slot member => ?_
    obtain ⟨tuple, found⟩ := List.mem_iff_getElem?.mp member
    exact (((sound.after events).gap_iff found).mpr
      (sound.not_gap_after accepted (closed tuple))).symm
  refine ⟨accepted', same, ?_, fun all => ?_, fun open' => ?_⟩
  · rw [sound.completions_eq, sound.completions_eq, same]
  · rw [sound.completions_eq, if_pos ⟨positive, finished.mpr all⟩]
  · rw [sound.completions_eq, if_neg fun both => open' (finished.mp both.2)]

/-- Three events of the smallest session, in the order in which they came and turned round: the
total of the first party comes last, and before its rows. -/
theorem accepted_in_any_order_single :
    create single.id oneCount 0 "" 0 = .ok single ∧
      single.AcceptsAll [report [⟨.db1, some 2, 0⟩] [], report [⟨.db2, some 0, 0⟩] [⟨0, 1⟩],
        report [⟨.db1, none, 2⟩] []] := by
  have accepted : single.AcceptsAll [report [⟨.db1, none, 2⟩] [],
      report [⟨.db2, some 0, 0⟩] [⟨0, 1⟩], report [⟨.db1, some 2, 0⟩] []] := by
    simp only [acceptsAll_cons_iff]
    exact ⟨⟨_, rfl⟩, ⟨_, rfl⟩, ⟨_, rfl⟩, by simp [AcceptsAll, outcomes]⟩
  exact ⟨create_single, (accepted_in_any_order create_single _ _ (List.reverse_perm _).symm
    accepted).1⟩

end Session

end JointQuery
