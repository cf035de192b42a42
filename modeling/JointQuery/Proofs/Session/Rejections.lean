import JointQuery.Proofs.Session.Gaps

/-! What a refused event leaves behind. The checks before the writing do not know the limit of
tracked rows, which only the writing has: an event can pass them, have its first entry recorded,
and be refused for its second. Values, marks and what remains are never touched by a refused
event. -/
namespace JointQuery

namespace Session

open ProgressSlot (Written)

variable {id : QueryId} {query : Query} {client : Nat} {ref : String} {now : Int64}

/-- An event spills when its first entry says something new of one party and is recorded, and its
second and last one, for the other party, passes the limit of tracked rows while no total of that
party is known or reported. -/
inductive Spills (session : Session) (event : PartialResult) : Prop where
  | intro (found : session.slot? event.tupleIndex.toNat = some slot)
      (fits : slot.result.Fits event.values) (entries : event.progress = [first, second])
      (one : first.db.holder? = some db) (two : second.db.holder? = some other)
      (apart : other ≠ db)
      (accepts : (slot.progress.rows db).Accepts first.reported first.scanned)
      (news : (slot.progress.rows db).add first.reported first.scanned ≠ slot.progress.rows db)
      (unknown : (slot.progress.rows other).total = none) (unreported : second.reported = none)
      (passes : Rows.limit < (slot.progress.rows other).index + second.scanned)

private theorem setSlot_self {session : Session} (found : session.slot? tuple = some slot) :
    session.setSlot tuple slot = session := by
  obtain ⟨inside, rfl⟩ := List.getElem?_eq_some_iff.mp found
  simp [setSlot]

/-- An event that names no data party twice, and each of whose entries names one, has at most two
entries. -/
private theorem length_progress_le {slot : ProgressSlot} {event : PartialResult}
    (once : event.NamesOnce) (admits : ∀ entry ∈ event.progress, slot.Admits entry) :
    event.progress.length ≤ 2 := by
  have named : (event.progress.filterMap (·.db.holder?)).length = event.progress.length := by
    rw [List.filterMap_length_eq_length]
    intro entry member
    obtain ⟨db, holder, -⟩ := admits entry member
    simp [holder]
  have holders : event.progress.filterMap (·.db.holder?) ⊆ Holder.all := by
    intro db _
    cases db <;> simp [Holder.all]
  rw [← named]
  exact once.length_le_of_subset holders

/-- A refused entry that was admitted passes the limit of tracked rows, when no entry before it
names its party. -/
private theorem passes_of_refuses {slot progress : ProgressSlot} {bad : RowProgress}
    (kept : progress.rows db = slot.rows db) (holder : bad.db.holder? = some db)
    (admits : slot.Admits bad) (refuses : progress.Refuses bad) :
    (slot.rows db).total = none ∧ bad.reported = none ∧
      Rows.limit < (slot.rows db).index + bad.scanned := by
  obtain ⟨same, held, suits⟩ := admits
  obtain rfl := Option.some.inj (holder.symm.trans held)
  have refused := refuses db holder
  rw [kept, Rows.accepts_iff] at refused
  simpa [suits, and_assoc] using refused

/-- A refused event that names no party twice and leaves something behind spills. -/
private theorem Applied.spills {session : Session}
    (applied : Applied session event next (.error violation)) (sound : session.Sound)
    (once : event.NamesOnce) (changed : next ≠ session) : session.Spills event := by
  cases applied with
  | refused unsuited => exact absurd rfl changed
  | cut found admits split written refuses =>
    rename_i slot before bad rest progress
    have tracked := (sound.slots _ (List.mem_of_getElem? found)).tracked
    have short := length_progress_le once admits.progress
    obtain ⟨other, two, suits⟩ := admits.progress bad
      (split ▸ List.mem_append_right _ List.mem_cons_self)
    have unnamed := once.unnamed split two
    have kept := written.rows_of_unnamed tracked unnamed
    obtain ⟨unknown, unreported, passes⟩ := passes_of_refuses kept two ⟨other, two, suits⟩ refuses
    cases written with
    | nil => exact absurd (setSlot_self found) changed
    | cons one updated written =>
      rename_i db middle tail first
      simp only [split, List.cons_append, List.length_cons, List.length_append] at short
      obtain rfl : tail = [] := List.eq_nil_of_length_eq_zero (by omega)
      obtain rfl : rest = [] := List.eq_nil_of_length_eq_zero (by omega)
      cases written
      obtain ⟨accepts, -, -⟩ := (ProgressSlot.update_ok_iff tracked).mp updated
      refine .intro found admits.values split one two ?_ accepts ?_ unknown unreported passes
      · rintro rfl
        exact unnamed first List.mem_cons_self one
      · intro same
        apply changed
        rw [ProgressSlot.update_of_add_eq tracked updated same]
        exact setSlot_self found

/-- An event that spills is refused, and its first entry stays recorded. -/
theorem Spills.changes {session : Session} (spills : session.Spills event)
    (sound : session.Sound) : ∃ violation, (session.apply event).2 = .error violation ∧
      (session.apply event).1 ≠ session := by
  obtain ⟨found, fits, entries, one, two, apart, accepts, news, unknown, unreported, passes⟩ :=
    spills
  rename_i slot first second db other
  have tracked := (sound.slots _ (List.mem_of_getElem? found)).tracked
  obtain ⟨progress, updated⟩ := (ProgressSlot.update_isOk_iff tracked).mpr accepts
  obtain ⟨-, added, others⟩ := (ProgressSlot.update_ok_iff tracked).mp updated
  have kept : progress.rows other = slot.progress.rows other := by
    simp only [ProgressSlot.rows, others other apart]
  have suits : slot.Admits event := by
    refine ⟨fun entry member => ?_, fits⟩
    simp only [entries, List.mem_cons, List.not_mem_nil, or_false] at member
    rcases member with rfl | rfl
    · exact ⟨db, one, (Rows.accepts_iff.mp accepts).1⟩
    · exact ⟨other, two, by simp [Rows.Agrees, unreported], by simp [unknown, unreported]⟩
  have refuses : progress.Refuses second := by
    intro party same takes
    obtain rfl := Option.some.inj (two.symm.trans same)
    rw [kept, Rows.accepts_iff] at takes
    have within := takes.2 (by simp [unknown, unreported])
    omega
  have split : event.progress = [first] ++ second :: [] := entries
  obtain ⟨violation, ends⟩ :=
    apply_of_cut found tracked suits split (.cons one updated .nil) refuses
  refine ⟨violation, by rw [ends], fun same => news ?_⟩
  rw [ends] at same
  have back := congrArg (fun session : Session => session.slot? event.tupleIndex.toNat) same
  simp only [slot?_setSlot_self found, found, Option.some.injEq] at back
  have still : progress = slot.progress := congrArg TupleSlot.progress back
  exact added.symm.trans (by rw [still])

/-- A refused event changes the rows of its tuple at most. -/
theorem Applied.kept_of_error {session : Session}
    (applied : Applied session event next (.error violation)) :
    next.remaining = session.remaining ∧ ∀ tuple,
      (next.slot? tuple).map (fun slot => (slot.result, slot.complete)) =
        (session.slot? tuple).map fun slot => (slot.result, slot.complete) := by
  cases applied with
  | refused unsuited => exact ⟨rfl, fun _ => rfl⟩
  | cut found admits split written refuses =>
    refine ⟨rfl, fun tuple => ?_⟩
    by_cases same : tuple = event.tupleIndex.toNat
    · subst same
      simp [slot?_setSlot_self found, found]
    · rw [slot?_setSlot_ne session _ same]

/-- When an event names no data party twice, it is refused with something left behind exactly when
it spills. No refused event touches a value, a mark or what remains. -/
theorem refused_changes_iff (created : create id query client ref now = .ok fresh)
    (history : List PartialResult) (event : PartialResult) :
    (event.NamesOnce →
      ((∃ violation, ((fresh.after history).apply event).2 = .error violation ∧
        ((fresh.after history).apply event).1 ≠ fresh.after history) ↔
          (fresh.after history).Spills event)) ∧
    (∀ violation, ((fresh.after history).apply event).2 = .error violation →
      ((fresh.after history).apply event).1.remaining = (fresh.after history).remaining ∧
      ∀ tuple, (((fresh.after history).apply event).1.slot? tuple).map
          (fun slot => (slot.result, slot.complete)) =
        ((fresh.after history).slot? tuple).map fun slot => (slot.result, slot.complete)) := by
  have sound := (sound_create created).after history
  have applied := apply_applied sound.slots event
  refine ⟨fun once => ⟨?_, fun spills => spills.changes sound⟩, fun violation refused => ?_⟩
  · rintro ⟨violation, refused, changed⟩
    rw [refused] at applied
    exact applied.spills sound once changed
  · rw [refused] at applied
    exact applied.kept_of_error

/-- Five rows of one party, and more of the other than are tracked: the event spills. -/
theorem refused_changes_iff_single :
    create single.id oneCount 0 "" 0 = .ok single ∧
      (report [⟨.db1, none, 5⟩, ⟨.db2, none, 4294967295⟩] []).NamesOnce ∧
      single.Spills (report [⟨.db1, none, 5⟩, ⟨.db2, none, 4294967295⟩] []) := by
  have once : (report [⟨.db1, none, 5⟩, ⟨.db2, none, 4294967295⟩] []).NamesOnce := by decide
  refine ⟨create_single, once, ((refused_changes_iff create_single [] _).1 once).mp ⟨_, rfl, ?_⟩⟩
  intro same
  have rows := congrArg (fun session : Session =>
    (session.slot? 0).map (·.progress.rowIndex .db1)) same
  revert rows
  decide

/-- The five rows of the first party stay counted, although the event is refused. -/
theorem refused_changes_single :
    create single.id oneCount 0 "" 0 = .ok single ∧
      (report [⟨.db1, none, 5⟩, ⟨.db2, none, 4294967295⟩] []).NamesOnce ∧
      (single.apply (report [⟨.db1, none, 5⟩, ⟨.db2, none, 4294967295⟩] [])).2 =
        .error (.rowLimitExceeded single.id 0 .db2 4294967295) ∧
      (single.slot? 0).map (·.progress.rowIndex .db1) = some 0 ∧
      ((single.apply (report [⟨.db1, none, 5⟩, ⟨.db2, none, 4294967295⟩] [])).1.slot? 0).map
        (·.progress.rowIndex .db1) = some 5 :=
  ⟨create_single, by decide, rfl, rfl, rfl⟩

end Session

end JointQuery
