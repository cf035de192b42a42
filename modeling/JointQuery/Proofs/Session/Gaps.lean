import JointQuery.Proofs.Session.Completion

/-! When completion comes late. It is claimed at the end of an accepted event only, so an event that
brings its tuple to the end and is refused after that leaves a gap: the tuple is resolved and is
not marked. The gap stays until an event for that tuple is accepted, and it has no other cause. -/
namespace JointQuery

/-- An event in which no data party is named by more than one entry. -/
def PartialResult.NamesOnce (event : PartialResult) : Prop :=
  (event.progress.filterMap (·.db.holder?)).Nodup

instance (event : PartialResult) : Decidable event.NamesOnce :=
  inferInstanceAs (Decidable (List.Nodup _))

/-- Entries before one of them do not name its party. -/
theorem PartialResult.NamesOnce.unnamed {event : PartialResult} (once : event.NamesOnce)
    (split : event.progress = before ++ entry :: rest) (holder : entry.db.holder? = some db) :
    ∀ other ∈ before, other.db.holder? ≠ some db := by
  intro other member named
  rw [NamesOnce, split, List.filterMap_append, List.nodup_append] at once
  refine once.2.2 db (List.mem_filterMap.mpr ⟨other, member, named⟩) db ?_ rfl
  exact List.mem_filterMap.mpr ⟨entry, List.mem_cons_self, holder⟩

namespace Session

open ProgressSlot (Written)

variable {id : QueryId} {query : Query} {client : Nat} {ref : String} {now : Int64}

/-- A tuple is resolved and is not marked complete. -/
def Gap (session : Session) (tuple : Nat) : Prop :=
  ∃ slot, session.slot? tuple = some slot ∧ slot.Resolved ∧ slot.complete = false

/-- An event overshoots when every position of its tuple has its value, some of its entries bring
both parties to their totals, and the next entry says more than that. -/
inductive Overshoots (session : Session) (event : PartialResult) : Prop where
  | intro (found : session.slot? event.tupleIndex.toNat = some slot)
      (unmarked : slot.complete = false) (full : slot.result.Full) (admits : slot.Admits event)
      (split : event.progress = before ++ bad :: rest)
      (written : Written slot.progress before progress)
      (saturated : ∀ db, (progress.rows db).Saturated) (holder : bad.db.holder? = some db)
      (excess : bad.scanned ≠ 0 ∨ ∃ total ∈ bad.reported, total ≠ (progress.rows db).index)

/-- No event of a run that is addressed to a tuple is accepted. -/
def Ignores (session : Session) (tuple : Nat) : List PartialResult → Prop
  | [] => True
  | event :: rest =>
    (event.tupleIndex.toNat = tuple → ∃ violation, (session.apply event).2 = .error violation) ∧
      (session.apply event).1.Ignores tuple rest

/-! ## One event -/

private theorem excess_of_refuses {progress : ProgressSlot} {bad : RowProgress}
    (tracked : progress.Tracked) (saturated : ∀ db, (progress.rows db).Saturated)
    (holder : bad.db.holder? = some db) (refuses : progress.Refuses bad) :
    bad.scanned ≠ 0 ∨ ∃ total ∈ bad.reported, total ≠ (progress.rows db).index := by
  have refused := refuses db holder
  rw [(saturated db).accepts_iff (tracked db)] at refused
  by_cases scans : bad.scanned = 0
  · right
    simpa [scans] using refused
  · exact .inl scans

private theorem refuses_of_excess {progress : ProgressSlot} {bad : RowProgress}
    (tracked : progress.Tracked) (saturated : ∀ db, (progress.rows db).Saturated)
    (holder : bad.db.holder? = some db)
    (excess : bad.scanned ≠ 0 ∨ ∃ total ∈ bad.reported, total ≠ (progress.rows db).index) :
    progress.Refuses bad := by
  intro other same accepts
  obtain rfl := Option.some.inj (holder.symm.trans same)
  obtain ⟨nothing, agrees⟩ := ((saturated db).accepts_iff (tracked db)).mp accepts
  rcases excess with scans | ⟨total, member, differ⟩
  · exact scans nothing
  · exact differ (agrees total member)

/-- An event leaves a gap at a tuple only if it overshoots there, or if the gap was there before and
the event is not accepted for that tuple. -/
private theorem Applied.gap {session : Session} (applied : Applied session event next outcome)
    (sound : session.Sound) (gap : next.Gap tuple) :
    (session.Gap tuple ∧
      (event.tupleIndex.toNat = tuple → ∃ violation, outcome = .error violation)) ∨
    (event.tupleIndex.toNat = tuple ∧ session.Overshoots event) := by
  obtain ⟨now, present, resolved, unmarked⟩ := gap
  by_cases addressed : event.tupleIndex.toNat = tuple
  · subst addressed
    cases applied with
    | refused unsuited => exact .inl ⟨⟨now, present, resolved, unmarked⟩, fun _ => ⟨_, rfl⟩⟩
    | cut found admits split written refuses =>
      right
      rename_i slot before bad rest progress violation
      rw [slot?_setSlot_self found, Option.some.injEq] at present
      subst present
      have tracked := written.tracked (sound.slots _ (List.mem_of_getElem? found)).tracked
      have named : bad ∈ event.progress := split ▸ List.mem_append_right _ List.mem_cons_self
      obtain ⟨db, holder, -⟩ := admits.progress bad named
      have saturated := TupleSlot.Resolved.rows_saturated resolved
      exact ⟨rfl, .intro found unmarked resolved.full admits split written saturated holder
        (excess_of_refuses tracked saturated holder refuses)⟩
    | recorded found admits written unclaimed =>
      rw [slot?_setSlot_self found, Option.some.injEq] at present
      subst present
      exact absurd ⟨resolved, unmarked⟩ unclaimed
    | claimed found admits written _ _ =>
      rw [slot?_mark_self found, Option.some.injEq] at present
      simp [← present] at unmarked
  · rw [applied.slot?_of_ne (Ne.symm addressed)] at present
    exact .inl ⟨⟨now, present, resolved, unmarked⟩, fun same => absurd same addressed⟩

/-- A gap stays until an event for its tuple is accepted. -/
private theorem Applied.gap_of_error {session : Session}
    (applied : Applied session event next outcome) (sound : session.Sound)
    (gap : session.Gap tuple)
    (ignored : event.tupleIndex.toNat = tuple → ∃ violation, outcome = .error violation) :
    next.Gap tuple := by
  obtain ⟨slot, present, resolved, unmarked⟩ := gap
  by_cases addressed : event.tupleIndex.toNat = tuple
  · subst addressed
    obtain ⟨violation, refused⟩ := ignored rfl
    cases applied with
    | refused unsuited => exact ⟨slot, present, resolved, unmarked⟩
    | cut found admits split written refuses =>
      obtain rfl := Option.some.inj (present.symm.trans found)
      have tracked := (sound.slots _ (List.mem_of_getElem? found)).tracked
      obtain rfl := written.eq_of_saturated tracked resolved.rows_saturated
      exact ⟨slot, slot?_setSlot_self found, resolved, unmarked⟩
    | recorded => simp at refused
    | claimed => simp at refused
  · exact ⟨slot, (applied.slot?_of_ne (Ne.symm addressed)).trans present, resolved, unmarked⟩

/-- An event that overshoots is refused and leaves a gap at its tuple. -/
theorem Overshoots.gap {session : Session} (overshoots : session.Overshoots event)
    (sound : session.Sound) : (∃ violation, (session.apply event).2 = .error violation) ∧
      (session.apply event).1.Gap event.tupleIndex.toNat := by
  obtain ⟨found, unmarked, full, admits, split, written, saturated, holder, excess⟩ := overshoots
  rename_i slot before bad rest progress db
  have tracked := (sound.slots _ (List.mem_of_getElem? found)).tracked
  have refuses := refuses_of_excess (written.tracked tracked) saturated holder excess
  obtain ⟨violation, ends⟩ := apply_of_cut found tracked admits split written refuses
  rw [ends]
  refine ⟨⟨violation, rfl⟩, { slot with progress := progress }, slot?_setSlot_self found, ?_,
    unmarked⟩
  exact ⟨fun db => ProgressSlot.saturated_iff.mp (saturated db), full⟩

/-- The gaps after an event. -/
theorem Sound.gap_apply_iff {session : Session} (sound : session.Sound) (event : PartialResult) :
    (session.apply event).1.Gap tuple ↔
      (session.Gap tuple ∧ (event.tupleIndex.toNat = tuple →
        ∃ violation, (session.apply event).2 = .error violation)) ∨
      (event.tupleIndex.toNat = tuple ∧ session.Overshoots event) := by
  have applied := apply_applied sound.slots event
  constructor
  · exact applied.gap sound
  · rintro (⟨gap, ignored⟩ | ⟨rfl, overshoots⟩)
    · exact applied.gap_of_error sound gap ignored
    · exact (overshoots.gap sound).2

/-- An event that names no data party twice does not overshoot. -/
theorem Overshoots.not_namesOnce {session : Session} (overshoots : session.Overshoots event)
    (sound : session.Sound) : ¬ event.NamesOnce := by
  intro once
  obtain ⟨found, unmarked, full, admits, split, written, saturated, holder, excess⟩ := overshoots
  rename_i slot before bad rest progress db
  have tracked := (sound.slots _ (List.mem_of_getElem? found)).tracked
  have kept := written.rows_of_unnamed tracked (once.unnamed split holder)
  obtain ⟨other, same, agrees, within⟩ := admits.progress bad
    (split ▸ List.mem_append_right _ List.mem_cons_self)
  obtain rfl := Option.some.inj (holder.symm.trans same)
  have known : (slot.progress.rows db).total = some (slot.progress.rows db).index := by
    rw [← kept]
    exact saturated db
  have bounded := within (slot.progress.rows db).index (by simp [known])
  rcases excess with scans | ⟨total, member, differ⟩
  · omega
  · exact differ (by rw [kept, ← (agrees total member).2 _ known])

/-! ## A whole run -/

/-- The gaps after a run. -/
theorem Sound.gap_after_iff {session : Session} (sound : session.Sound)
    (events : List PartialResult) (tuple : Nat) :
    (session.after events).Gap tuple ↔
      (session.Gap tuple ∧ session.Ignores tuple events) ∨
      ∃ earlier event later, events = earlier ++ event :: later ∧
        event.tupleIndex.toNat = tuple ∧ (session.after earlier).Overshoots event ∧
        (session.after (earlier ++ [event])).Ignores tuple later := by
  induction events generalizing session with
  | nil => simp [Ignores]
  | cons event rest ih =>
    rw [after_cons, ih (sound.apply event), sound.gap_apply_iff]
    constructor
    · rintro (⟨⟨gap, ignored⟩ | ⟨rfl, overshoots⟩, ignores⟩ | ⟨earlier, bad, later, rfl, found⟩)
      · exact .inl ⟨gap, ignored, ignores⟩
      · exact .inr ⟨[], event, rest, rfl, rfl, overshoots, ignores⟩
      · exact .inr ⟨event :: earlier, bad, later, rfl, found⟩
    · rintro (⟨gap, ignored, ignores⟩ |
        ⟨earlier, bad, later, split, addressed, overshoots, ignores⟩)
      · exact .inl ⟨.inl ⟨gap, ignored⟩, ignores⟩
      · cases earlier with
        | nil =>
          obtain ⟨rfl, rfl⟩ := List.cons.inj split
          exact .inl ⟨.inr ⟨addressed, overshoots⟩, ignores⟩
        | cons first earlier =>
          obtain ⟨rfl, rfl⟩ := List.cons.inj split
          exact .inr ⟨earlier, bad, later, rfl, addressed, overshoots, ignores⟩

theorem not_gap_create (created : create id query client ref now = .ok fresh) :
    ¬ fresh.Gap tuple := by
  rintro ⟨slot, present, resolved, -⟩
  obtain ⟨domain, -, rfl⟩ := create_eq created
  obtain rfl := List.eq_of_mem_replicate (List.mem_of_getElem? present)
  have unknown : ProgressSlot.fresh.rowCount .db1 = some (ProgressSlot.fresh.rowIndex .db1) :=
    resolved.saturated .db1
  exact absurd unknown (by decide)

/-- A tuple that is resolved is marked, unless it has a gap. -/
theorem Sound.gap_iff {session : Session} (sound : session.Sound)
    (found : session.slot? tuple = some slot) :
    (slot.Resolved ↔ slot.complete = true) ↔ ¬ session.Gap tuple := by
  have marked := (sound.slots _ (List.mem_of_getElem? found)).resolved
  simp only [Gap, found, Option.some.injEq, exists_eq_left', not_and, Bool.not_eq_false]
  exact ⟨fun same => same.mp, fun claimed => ⟨claimed, marked⟩⟩

/-- A tuple is resolved and not marked exactly when some event of the run overshot at it and no
event for it has been accepted since. In a run whose events name no data party twice, the tuples
that are marked are those that are resolved, and nothing remains once all of them are. -/
theorem resolved_unmarked_iff (created : create id query client ref now = .ok fresh)
    (events : List PartialResult) :
    (∀ tuple, (fresh.after events).Gap tuple ↔
      ∃ earlier event later, events = earlier ++ event :: later ∧
        event.tupleIndex.toNat = tuple ∧ (fresh.after earlier).Overshoots event ∧
        (fresh.after (earlier ++ [event])).Ignores tuple later) ∧
    ((∀ event ∈ events, event.NamesOnce) →
      (∀ tuple slot, (fresh.after events).slot? tuple = some slot →
        (slot.Resolved ↔ slot.complete = true)) ∧
      ((fresh.after events).remaining = 0 ↔
        ∀ slot ∈ (fresh.after events).slots, slot.Resolved)) := by
  have start := sound_create created
  have sound := start.after events
  have gaps := start.gap_after_iff events
  simp only [not_gap_create created, false_and, false_or] at gaps
  refine ⟨gaps, fun once => ?_⟩
  have closed (tuple : Nat) : ¬ (fresh.after events).Gap tuple := by
    rw [gaps]
    rintro ⟨earlier, event, later, rfl, -, overshoots, -⟩
    exact overshoots.not_namesOnce (start.after earlier) (once event (by simp))
  have marked : ∀ tuple slot, (fresh.after events).slot? tuple = some slot →
      (slot.Resolved ↔ slot.complete = true) :=
    fun tuple slot found => (sound.gap_iff found).mpr (closed tuple)
  refine ⟨marked, ?_⟩
  rw [← sound.allComplete_iff, AllComplete]
  refine forall₂_congr fun slot member => ?_
  obtain ⟨tuple, found⟩ := List.mem_iff_getElem?.mp member
  exact (marked tuple slot found).symm

/-- Two reports that name each party once complete the smallest session. -/
theorem resolved_unmarked_iff_single :
    create single.id oneCount 0 "" 0 = .ok single ∧
      ∀ slot ∈ (single.after [report [⟨.db2, some 0, 0⟩] [⟨0, 1⟩],
        report [⟨.db1, some 2, 2⟩] []]).slots, slot.Resolved :=
  ⟨create_single, ((resolved_unmarked_iff create_single _).2 (by decide)).2.mp rfl⟩

/-- One entry too many after the last row leaves a gap: all is there, and one tuple remains. -/
theorem resolved_unmarked_single :
    create single.id oneCount 0 "" 0 = .ok single ∧
      single.outcomes [report [⟨.db2, some 0, 0⟩] [⟨0, 1⟩],
        report [⟨.db1, some 2, 2⟩, ⟨.db1, none, 1⟩] []] =
          [.ok .applied, .error (.rowIndexOverrun single.id 0 .db1 3 2)] ∧
      (single.after [report [⟨.db2, some 0, 0⟩] [⟨0, 1⟩],
        report [⟨.db1, some 2, 2⟩, ⟨.db1, none, 1⟩] []]).Gap 0 ∧
      (single.after [report [⟨.db2, some 0, 0⟩] [⟨0, 1⟩],
        report [⟨.db1, some 2, 2⟩, ⟨.db1, none, 1⟩] []]).remaining = 1 := by
  refine ⟨create_single, rfl, ⟨_, rfl, ⟨fun db => ?_, fun position inside => ?_⟩, rfl⟩, rfl⟩
  · cases db <;> rfl
  · obtain rfl : position = 0 := Nat.lt_one_iff.mp inside
    exact ⟨1, rfl⟩

end Session

end JointQuery
