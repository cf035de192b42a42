import JointQuery.Proofs.Domain
import JointQuery.Proofs.Session.Events

/-! What every event keeps of a session, accepted or not: the slots are sound, and what remains is
what is not marked. A complete slot is not changed any more, in one step or in a whole run. -/
namespace JointQuery

namespace Session

open ProgressSlot (Written)

variable {id : QueryId} {query : Query} {client : Nat} {ref : String} {now : Int64}

/-- What every event keeps: the slots are sound, and the tuples that are not marked complete are
counted. -/
structure Sound (session : Session) : Prop where
  slots : ∀ slot ∈ session.slots, slot.Sound session.query.aggregates.length
  remaining : session.remaining = session.slots.countP fun slot => !slot.complete

theorem create_eq (created : create id query client ref now = .ok session) :
    ∃ domain, Domain.ofQuery query = .ok domain ∧ session =
      { id := id, query := query, domain := domain
        slots := List.replicate domain.count (.fresh query.aggregates.length)
        remaining := domain.count, state := .created, client := client, clientRef := ref
        createdAt := now, changed := false } := by
  simp only [create, bind, Except.bind, pure, Except.pure] at created
  cases built : Domain.ofQuery query with
  | error cause => simp [built] at created
  | ok domain =>
    rw [built] at created
    exact ⟨domain, rfl, (Except.ok.inj created).symm⟩

theorem sound_create (created : create id query client ref now = .ok session) :
    session.Sound := by
  obtain ⟨domain, -, rfl⟩ := create_eq created
  refine ⟨fun slot member => ?_, ?_⟩
  · rw [List.eq_of_mem_replicate member]
    exact TupleSlot.sound_fresh _
  · simp [List.countP_replicate, TupleSlot.fresh]

theorem remaining_create_pos (created : create id query client ref now = .ok session) :
    0 < session.remaining := by
  obtain ⟨domain, built, rfl⟩ := create_eq created
  exact Domain.count_pos built

theorem query_create (created : create id query client ref now = .ok session) :
    session.query = query := by
  obtain ⟨domain, -, rfl⟩ := create_eq created
  rfl

theorem tupleCount_create (created : create id query client ref now = .ok session) :
    session.tupleCount = session.domain.count := by
  obtain ⟨domain, -, rfl⟩ := create_eq created
  simp [tupleCount]

/-! ## Moves of the state -/

/-- A transition changes the state, if anything. -/
theorem transition_eq (session : Session) (source target : SessionState) :
    ∃ state, (session.transition source target).1 = { session with state := state } := by
  simp only [transition]
  split
  · exact ⟨target, rfl⟩
  · exact ⟨session.state, rfl⟩

/-- An end changes the state, if anything, and leaves a mark for the reporter. -/
theorem finish_eq (session : Session) (target : SessionState) :
    ∃ state changed,
      (session.finish target).1 = { session with state := state, changed := changed } := by
  simp only [finish]
  split
  · exact ⟨session.state, session.changed, rfl⟩
  · exact ⟨target, true, rfl⟩

/-- The state has no part in what every event keeps. -/
theorem Sound.of_same {session next : Session} (sound : session.Sound)
    (query : next.query = session.query) (slots : next.slots = session.slots)
    (remaining : next.remaining = session.remaining) : next.Sound := by
  constructor
  · rw [slots, query]
    exact sound.slots
  · rw [remaining, slots]
    exact sound.remaining

/-! ## One event -/

/-- A complete slot is what an event that it admits records. -/
private theorem record_of_complete {slot : TupleSlot} {event : PartialResult}
    (sound : slot.Sound aggregates) (complete : slot.complete = true)
    (fits : slot.result.Fits event.values)
    (written : Written slot.progress event.progress progress) :
    slot.record progress event.values = slot := by
  have resolved := sound.resolved complete
  have same := written.eq_of_saturated sound.tracked resolved.rows_saturated
  have nothing := resolved.full.eq_nil_of_fits fits
  simp [TupleSlot.record, same, nothing, ResultSlot.fill]

/-- A complete slot is not changed by entries either when one of them is refused. -/
private theorem cut_of_complete {slot : TupleSlot} (sound : slot.Sound aggregates)
    (complete : slot.complete = true) (written : Written slot.progress entries progress) :
    { slot with progress := progress } = slot := by
  obtain rfl := written.eq_of_saturated sound.tracked (sound.resolved complete).rows_saturated
  rfl

private theorem sound_record {slot : TupleSlot} (sound : slot.Sound aggregates)
    (admits : slot.Admits event) (written : Written slot.progress event.progress progress) :
    (slot.record progress event.values).Sound aggregates where
  size := (ResultSlot.size_fill _ _).trans sound.size
  tracked := written.tracked sound.tracked
  counted := sound.counted.fill admits.values
  resolved complete := by
    rw [record_of_complete sound complete admits.values written]
    exact sound.resolved complete

private theorem sound_cut {slot : TupleSlot} (sound : slot.Sound aggregates)
    (written : Written slot.progress entries progress) :
    TupleSlot.Sound aggregates { slot with progress := progress } where
  size := sound.size
  tracked := written.tracked sound.tracked
  counted := sound.counted
  resolved complete := by
    rw [cut_of_complete sound complete written]
    exact sound.resolved complete

private theorem sound_marked {slot : TupleSlot} (sound : slot.Sound aggregates)
    (resolved : slot.Resolved) : TupleSlot.Sound aggregates { slot with complete := true } where
  size := sound.size
  tracked := sound.tracked
  counted := sound.counted
  resolved _ := ⟨resolved.saturated, resolved.full⟩

private theorem forall_mem_set {slots : List TupleSlot}
    (all : ∀ slot ∈ slots, slot.Sound aggregates) (sound : slot.Sound aggregates) :
    ∀ other ∈ slots.set tuple slot, other.Sound aggregates := by
  intro other member
  rcases List.mem_or_eq_of_mem_set member with old | rfl
  · exact all other old
  · exact sound

/-- Replacing a slot by one that is marked alike leaves the count. -/
private theorem Sound.setSlot {session : Session} (sound : session.Sound)
    (found : session.slot? tuple = some before)
    (kept : slot.Sound session.query.aggregates.length)
    (alike : slot.complete = before.complete) : (session.setSlot tuple slot).Sound := by
  obtain ⟨inside, same⟩ := List.getElem?_eq_some_iff.mp found
  refine ⟨forall_mem_set sound.slots kept, ?_⟩
  have present := List.boole_getElem_le_countP (p := fun slot : TupleSlot => !slot.complete) inside
  simp only [Session.setSlot, sound.remaining, List.countP_set inside, same, alike] at present ⊢
  omega

private theorem Sound.mark {session : Session} (sound : session.Sound)
    (found : session.slot? tuple = some before)
    (kept : slot.Sound session.query.aggregates.length) (resolved : slot.Resolved)
    (unmarked : before.complete = false) : (session.mark tuple slot).Sound := by
  obtain ⟨inside, same⟩ := List.getElem?_eq_some_iff.mp found
  refine ⟨forall_mem_set sound.slots (sound_marked kept resolved), ?_⟩
  have present := List.boole_getElem_le_countP (p := fun slot : TupleSlot => !slot.complete) inside
  simp only [Session.mark, Session.setSlot, sound.remaining, List.countP_set inside, same,
    unmarked] at present ⊢
  simp

namespace Applied

/-- Only the slots, their count and the mark for the reporter change. -/
theorem frame {session : Session} (applied : Applied session event next outcome) :
    next = { session with
      slots := next.slots, remaining := next.remaining, changed := next.changed } := by
  cases applied <;> rfl

theorem tupleCount_eq {session : Session}
    (applied : Applied session event next outcome) : next.tupleCount = session.tupleCount := by
  cases applied <;> simp [tupleCount, Session.setSlot, Session.mark]

private theorem sound {session : Session} (applied : Applied session event next outcome)
    (sound : session.Sound) : next.Sound := by
  have slot_sound : ∀ {tuple slot}, session.slot? tuple = some slot →
      slot.Sound session.query.aggregates.length :=
    fun found => sound.slots _ (List.mem_of_getElem? found)
  cases applied with
  | refused unsuited => exact sound
  | cut found admits split written refuses =>
    exact sound.setSlot found (sound_cut (slot_sound found) written) rfl
  | recorded found admits written unclaimed =>
    exact sound.setSlot found (sound_record (slot_sound found) admits written) rfl
  | claimed found admits written resolved unmarked =>
    exact sound.mark found (sound_record (slot_sound found) admits written) resolved unmarked

/-- A complete slot is kept as it is. -/
theorem slot?_of_complete {session : Session}
    (applied : Applied session event next outcome) (sound : session.Sound)
    (found : session.slot? tuple = some slot) (complete : slot.complete = true) :
    next.slot? tuple = some slot := by
  have kept := sound.slots _ (List.mem_of_getElem? found)
  by_cases addressed : tuple = event.tupleIndex.toNat
  · subst addressed
    cases applied with
    | refused unsuited => exact found
    | cut present admits split written refuses =>
      obtain rfl := Option.some.inj (found.symm.trans present)
      rw [cut_of_complete kept complete written]
      exact slot?_setSlot_self found
    | recorded present admits written unclaimed =>
      obtain rfl := Option.some.inj (found.symm.trans present)
      rw [record_of_complete kept complete admits.values written]
      exact slot?_setSlot_self found
    | claimed present admits written resolved unmarked =>
      obtain rfl := Option.some.inj (found.symm.trans present)
      simp [complete] at unmarked
  · exact (applied.slot?_of_ne addressed).trans found

end Applied

/-- Every event, accepted or not, leaves a sound session. -/
theorem Sound.apply {session : Session} (sound : session.Sound) (event : PartialResult) :
    (session.apply event).1.Sound :=
  (apply_applied sound.slots event).sound sound

/-! ## A whole run -/

/-- The session after a run of events. -/
def after (session : Session) (events : List PartialResult) : Session :=
  events.foldl (fun session event => (session.apply event).1) session

@[simp] theorem after_nil (session : Session) : session.after [] = session := rfl

@[simp] theorem after_cons (session : Session) (event : PartialResult)
    (rest : List PartialResult) :
    session.after (event :: rest) = (session.apply event).1.after rest := rfl

theorem after_append (session : Session) (earlier later : List PartialResult) :
    session.after (earlier ++ later) = (session.after earlier).after later :=
  List.foldl_append

theorem Sound.after {session : Session} (sound : session.Sound) (events : List PartialResult) :
    (session.after events).Sound := by
  induction events generalizing session with
  | nil => exact sound
  | cons event rest ih => exact ih (sound.apply event)

/-- A complete slot is kept as it is by every run. -/
theorem Sound.slot?_after {session : Session} (sound : session.Sound)
    (found : session.slot? tuple = some slot) (complete : slot.complete = true)
    (events : List PartialResult) : (session.after events).slot? tuple = some slot := by
  induction events generalizing session with
  | nil => exact found
  | cons event rest ih =>
    exact ih (sound.apply event)
      ((apply_applied sound.slots event).slot?_of_complete sound found complete)

/-- Only the slots, their count and the mark for the reporter change. -/
theorem Sound.after_frame {session : Session} (sound : session.Sound)
    (events : List PartialResult) : session.after events = { session with
      slots := (session.after events).slots, remaining := (session.after events).remaining
      changed := (session.after events).changed } := by
  induction events generalizing session with
  | nil => rfl
  | cons event rest ih =>
    rw [after_cons, ih (sound.apply event), (apply_applied sound.slots event).frame]

theorem Sound.query_after {session : Session} (sound : session.Sound)
    (events : List PartialResult) : (session.after events).query = session.query := by
  rw [sound.after_frame events]

theorem Sound.tupleCount_after {session : Session} (sound : session.Sound)
    (events : List PartialResult) : (session.after events).tupleCount = session.tupleCount := by
  induction events generalizing session with
  | nil => rfl
  | cons event rest ih =>
    rw [after_cons, ih (sound.apply event), (apply_applied sound.slots event).tupleCount_eq]

/-! ## The smallest session -/

/-- One count and no groups: a single tuple with a single position. -/
def oneCount : Query where
  table := "visits"
  aggregates := [⟨.count, ⟨"visits", "id", .db1, .string, none⟩⟩]
  prefilters := ⟨none, none, none⟩
  groupBys := []

/-- A new session of that query. -/
def single : Session where
  id := ⟨Vector.replicate 16 0⟩
  query := oneCount
  domain := ⟨[], 1⟩
  slots := [.fresh 1]
  remaining := 1
  state := .created
  client := 0
  clientRef := ""
  createdAt := 0
  changed := false

theorem create_single : create single.id oneCount 0 "" 0 = .ok single := rfl

/-- A partial result of that session. -/
def report (progress : List RowProgress) (values : List AggregateValue) : PartialResult :=
  ⟨single.id, 0, progress, values⟩

end Session

end JointQuery
