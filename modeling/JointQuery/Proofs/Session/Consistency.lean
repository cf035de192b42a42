import JointQuery.Proofs.Session.Completion
import Mathlib.Algebra.Ring.Nat

/-! Which events are accepted, and what they do. An event is checked entry by entry against the
state before it and then written entry by entry. What comes of that does not depend on the order of
its entries: for each party the totals in play have to be one and the same, and the exact sum of
the rows has to stay within that total. The same rule decides whether events that follow each other
are all accepted. -/
namespace JointQuery

/-- The entries of a data party. -/
def RowProgress.about (entries : List RowProgress) (db : Holder) : List RowProgress :=
  entries.filter fun entry => entry.db.holder? = some db

namespace Rows

/-- The totals in play: the known one, and those that entries report. -/
def totals (rows : Rows) (entries : List RowProgress) : List Nat :=
  rows.total.toList ++ entries.filterMap (·.reported)

/-- The rows after entries: the first total in play, and the exact sum of what is scanned. -/
def addAll (rows : Rows) (entries : List RowProgress) : Rows :=
  ⟨(rows.totals entries).head?, rows.index + (entries.map (·.scanned)).sum⟩

/-- Entries that can be recorded together. The totals in play are one and the same number, one that
is tracked, and the rows stay within it, or within what is tracked if there is none. -/
structure Takes (rows : Rows) (entries : List RowProgress) : Prop where
  agree : ∀ first ∈ rows.totals entries, ∀ second ∈ rows.totals entries, first = second
  tracked : ∀ total ∈ rows.totals entries, total ≤ limit
  within : (rows.addAll entries).index ≤ (rows.addAll entries).bound

theorem addAll_nil (rows : Rows) : rows.addAll [] = rows := by
  cases rows with
  | mk total index => cases total <;> rfl

theorem addAll_cons (rows : Rows) (entry : RowProgress) (rest : List RowProgress) :
    rows.addAll (entry :: rest) = (rows.add entry.reported entry.scanned).addAll rest := by
  simp only [addAll, totals, add, List.map_cons, List.sum_cons, Nat.add_assoc, Rows.mk.injEq,
    and_true]
  cases rows.total <;> cases reported : entry.reported <;> simp [reported]

theorem addAll_append (rows : Rows) (first second : List RowProgress) :
    rows.addAll (first ++ second) = (rows.addAll first).addAll second := by
  induction first generalizing rows with
  | nil => rw [addAll_nil, List.nil_append]
  | cons entry rest ih => rw [List.cons_append, addAll_cons, addAll_cons, ih]

/-- An entry that agrees with the known total adds no other total to those in play. -/
private theorem mem_totals_cons {rows : Rows} {entry : RowProgress}
    (agrees : rows.Agrees entry.reported) (delta total : Nat) :
    total ∈ rows.totals (entry :: rest) ↔
      total ∈ (rows.add entry.reported delta).totals rest := by
  simp only [totals, add, List.mem_append, List.mem_filterMap, List.mem_cons, Option.mem_toList,
    exists_eq_or_imp]
  cases known : rows.total with
  | none => simp
  | some before =>
    cases reported : entry.reported with
    | none => simp
    | some rows =>
      have same : before = rows := (agrees rows reported).2 before known
      simp [same]

/-- Rows on which entries can be recorded are tracked. -/
theorem Takes.rows_tracked {rows : Rows} (takes : rows.Takes entries) : rows.Tracked := by
  obtain ⟨-, tracked, within⟩ := takes
  simp only [addAll, bound, totals] at tracked within
  cases known : rows.total with
  | some total =>
    have small := tracked total (by simp [known])
    simp only [known, Option.toList_some, List.cons_append, List.head?_cons,
      Option.getD_some] at within
    constructor <;> simp only [bound, known, Option.getD_some] <;> omega
  | none =>
    have below : rows.index ≤ limit := by
      cases first : entries.filterMap (·.reported) with
      | nil =>
        simp only [known, first, Option.toList_none, List.nil_append, List.head?_nil,
          Option.getD_none] at within
        omega
      | cons total others =>
        have small := tracked total (by simp [first])
        simp only [known, first, Option.toList_none, List.nil_append, List.head?_cons,
          Option.getD_some] at within
        omega
    constructor <;> simp only [bound, known, Option.getD_none] <;> omega

private theorem takes_nil_iff {rows : Rows} : rows.Takes [] ↔ rows.Tracked := by
  refine ⟨Takes.rows_tracked, fun tracked => ?_⟩
  obtain ⟨index_le, bound_le⟩ := tracked
  refine ⟨?_, ?_, ?_⟩
  · intro first one second other
    simp only [totals, List.filterMap_nil, List.append_nil, Option.mem_toList] at one other
    exact Option.some.inj (one.symm.trans other)
  · intro total member
    simp only [totals, List.filterMap_nil, List.append_nil, Option.mem_toList] at member
    rwa [bound, Option.mem_def.mp member] at bound_le
  · rwa [addAll_nil]

/-- Entries can be recorded together when the first one can, and then the others. -/
theorem takes_cons_iff {rows : Rows} {entry : RowProgress} :
    rows.Takes (entry :: rest) ↔ rows.Accepts entry.reported entry.scanned ∧
      (rows.add entry.reported entry.scanned).Takes rest := by
  constructor
  · intro takes
    have agrees : rows.Agrees entry.reported := by
      intro total reported
      have named : total ∈ rows.totals (entry :: rest) := by
        simp [totals, Option.mem_def.mp reported]
      refine ⟨takes.tracked total named, fun known held => ?_⟩
      exact takes.agree known (by simp [totals, Option.mem_def.mp held]) total named
    have same : ∀ total, total ∈ rows.totals (entry :: rest) ↔
        total ∈ (rows.add entry.reported entry.scanned).totals rest :=
      mem_totals_cons agrees entry.scanned
    have later : (rows.add entry.reported entry.scanned).Takes rest := by
      refine ⟨?_, ?_, ?_⟩
      · intro first one second other
        exact takes.agree first ((same first).mpr one) second ((same second).mpr other)
      · exact fun total member => takes.tracked total ((same total).mpr member)
      · rw [← addAll_cons]
        exact takes.within
    exact ⟨⟨agrees, later.rows_tracked.index_le⟩, later⟩
  · rintro ⟨accepts, later⟩
    have same : ∀ total, total ∈ rows.totals (entry :: rest) ↔
        total ∈ (rows.add entry.reported entry.scanned).totals rest :=
      mem_totals_cons accepts.agrees entry.scanned
    refine ⟨?_, ?_, ?_⟩
    · intro first one second other
      exact later.agree first ((same first).mp one) second ((same second).mp other)
    · exact fun total member => later.tracked total ((same total).mp member)
    · rw [addAll_cons]
      exact later.within

private theorem takes_append_iff {rows : Rows} {first second : List RowProgress} :
    rows.Takes (first ++ second) ↔ rows.Takes first ∧ (rows.addAll first).Takes second := by
  induction first generalizing rows with
  | nil =>
    rw [addAll_nil, List.nil_append, takes_nil_iff]
    exact ⟨fun takes => ⟨takes.rows_tracked, takes⟩, fun both => both.2⟩
  | cons entry rest ih =>
    rw [List.cons_append, takes_cons_iff, takes_cons_iff, ih, addAll_cons, and_assoc]

/-! ## Order -/

private theorem totals_perm (rows : Rows) {entries other : List RowProgress}
    (perm : entries.Perm other) : (rows.totals entries).Perm (rows.totals other) :=
  (perm.filterMap _).append_left _

/-- Entries that can be recorded together lead to the same rows in any order. -/
theorem Takes.addAll_perm {rows : Rows} (takes : rows.Takes entries)
    (perm : entries.Perm other) : rows.addAll other = rows.addAll entries := by
  have sums : (other.map (·.scanned)).sum = (entries.map (·.scanned)).sum :=
    (perm.map _).sum_nat.symm
  have heads : (rows.totals other).head? = (rows.totals entries).head? := by
    have members := fun total => (rows.totals_perm perm).mem_iff (a := total)
    cases before : rows.totals entries with
    | nil =>
      have empty : rows.totals other = [] :=
        List.eq_nil_iff_forall_not_mem.mpr fun total member => by
          simpa [before] using (members total).mpr member
      simp [empty]
    | cons total rest =>
      cases after : rows.totals other with
      | nil =>
        have lost : total ∈ rows.totals other := (members total).mp (by simp [before])
        simp [after] at lost
      | cons reported others =>
        have held : reported ∈ rows.totals entries := (members reported).mpr (by simp [after])
        have same : reported = total := takes.agree reported held total (by simp [before])
        simp [same]
  simp only [addAll, sums, heads]

private theorem Takes.perm {rows : Rows} (takes : rows.Takes entries) (perm : entries.Perm other) :
    rows.Takes other := by
  have members := fun total => (rows.totals_perm perm).mem_iff (a := total)
  refine ⟨?_, ?_, ?_⟩
  · intro first one second two
    exact takes.agree first ((members first).mpr one) second ((members second).mpr two)
  · exact fun total member => takes.tracked total ((members total).mpr member)
  · rw [takes.addAll_perm perm]
    exact takes.within

end Rows

/-! ## Slots -/

namespace RowProgress

variable {entry : RowProgress} {db : Holder}

private theorem about_cons_self (holder : entry.db.holder? = some db) (rest : List RowProgress) :
    about (entry :: rest) db = entry :: about rest db :=
  List.filter_cons_of_pos (decide_eq_true holder)

private theorem about_cons_ne (other : entry.db.holder? ≠ some db) (rest : List RowProgress) :
    about (entry :: rest) db = about rest db :=
  List.filter_cons_of_neg (by simpa using other)

private theorem about_append (first second : List RowProgress) (db : Holder) :
    about (first ++ second) db = about first db ++ about second db :=
  List.filter_append first second

private theorem about_perm {entries other : List RowProgress} (perm : entries.Perm other)
    (db : Holder) : (about entries db).Perm (about other db) :=
  perm.filter _

end RowProgress

namespace ProgressSlot

open RowProgress (about about_cons_self about_cons_ne)

/-- Entries that a slot records together: each belongs to a data party, and for each of these the
rows take what is said of it. -/
structure Takes (slot : ProgressSlot) (entries : List RowProgress) : Prop where
  holders : ∀ entry ∈ entries, ∃ db, entry.db.holder? = some db
  rows : ∀ db, (slot.rows db).Takes (about entries db)

/-- An entry that is recorded leaves to each party what the entries after it say. -/
private theorem rows_updated {slot next : ProgressSlot} (tracked : slot.Tracked)
    (holder : entry.db.holder? = some db)
    (updated : slot.update db entry.rowCount entry.rowDelta = .ok next)
    (rest : List RowProgress) (other : Holder) :
    ((slot.rows other).Takes (about (entry :: rest) other) ↔
      (next.rows other).Takes (about rest other)) ∧
    (slot.rows other).addAll (about (entry :: rest) other) =
      (next.rows other).addAll (about rest other) := by
  obtain ⟨accepts, added, others⟩ := (update_ok_iff tracked).mp updated
  by_cases same : other = db
  · subst same
    rw [about_cons_self holder, Rows.takes_cons_iff, Rows.addAll_cons, added]
    exact ⟨and_iff_right accepts, rfl⟩
  · have differ : entry.db.holder? ≠ some other := fun named =>
      same (Option.some.inj (named.symm.trans holder))
    rw [about_cons_ne differ, rows, rows, others other same]
    exact ⟨Iff.rfl, rfl⟩

private theorem takes_updated {slot next : ProgressSlot} (tracked : slot.Tracked)
    (holder : entry.db.holder? = some db)
    (updated : slot.update db entry.rowCount entry.rowDelta = .ok next)
    (rest : List RowProgress) : slot.Takes (entry :: rest) ↔ next.Takes rest := by
  have alike := fun other => (rows_updated tracked holder updated rest other).1
  constructor
  · intro takes
    exact ⟨fun later member => takes.holders later (List.mem_cons_of_mem _ member),
      fun other => (alike other).mp (takes.rows other)⟩
  · intro takes
    refine ⟨fun later member => ?_, fun other => (alike other).mpr (takes.rows other)⟩
    rcases List.mem_cons.mp member with rfl | member
    · exact ⟨db, holder⟩
    · exact takes.holders later member

/-- A slot records the entries that it takes, and they add up. -/
theorem written_iff {slot last : ProgressSlot} (tracked : slot.Tracked) :
    Written slot entries last ↔
      slot.Takes entries ∧ ∀ db, last.rows db = (slot.rows db).addAll (about entries db) := by
  induction entries generalizing slot with
  | nil =>
    constructor
    · intro written
      cases written
      refine ⟨⟨by simp, fun db => Rows.takes_nil_iff.mpr (tracked db)⟩, fun db => ?_⟩
      exact (Rows.addAll_nil _).symm
    · rintro ⟨-, same⟩
      have equal : last = slot := eq_of_rows_eq fun db => (same db).trans (Rows.addAll_nil _)
      exact equal ▸ .nil
  | cons entry rest ih =>
    constructor
    · intro written
      cases written with
      | cons holder updated later =>
        obtain ⟨takes, adds⟩ := (ih (tracked.update updated)).mp later
        refine ⟨(takes_updated tracked holder updated rest).mpr takes, fun db => ?_⟩
        rw [adds, (rows_updated tracked holder updated rest _).2]
    · rintro ⟨takes, adds⟩
      obtain ⟨db, holder⟩ := takes.holders entry List.mem_cons_self
      have accepts := takes.rows db
      rw [about_cons_self holder, Rows.takes_cons_iff] at accepts
      obtain ⟨next, updated⟩ := (update_isOk_iff tracked).mpr accepts.1
      refine .cons holder updated ((ih (tracked.update updated)).mpr ⟨?_, fun other => ?_⟩)
      · exact (takes_updated tracked holder updated rest).mp takes
      · rw [adds, (rows_updated tracked holder updated rest _).2]

/-- Each of the entries that a slot takes together suits it when taken alone. -/
theorem Takes.admits {slot : ProgressSlot} (takes : slot.Takes entries)
    (member : entry ∈ entries) : slot.Admits entry := by
  obtain ⟨db, holder⟩ := takes.holders entry member
  obtain ⟨before, after, rfl⟩ := List.append_of_mem member
  have first := (takes.rows db).perm (RowProgress.about_perm List.perm_middle db)
  rw [about_cons_self holder, Rows.takes_cons_iff] at first
  exact ⟨db, holder, (Rows.accepts_iff.mp first.1).1⟩

/-- A slot that takes entries refuses none of them after those before it. -/
theorem Takes.not_refuses {slot progress : ProgressSlot}
    (takes : slot.Takes (before ++ bad :: after)) (tracked : slot.Tracked)
    (written : Written slot before progress) : ¬ progress.Refuses bad := by
  intro refuses
  obtain ⟨db, holder⟩ := takes.holders bad (List.mem_append_right _ List.mem_cons_self)
  obtain ⟨-, adds⟩ := (written_iff tracked).mp written
  have later := takes.rows db
  rw [RowProgress.about_append, about_cons_self holder, Rows.takes_append_iff, ← adds,
    Rows.takes_cons_iff] at later
  exact refuses db holder later.2.1

end ProgressSlot

namespace ResultSlot

/-- Values written beside what was written before. -/
structure Filled (slot : ResultSlot) (values : List AggregateValue) (next : ResultSlot) : Prop where
  size : next.size = slot.size
  written : ∀ entry ∈ values, next.get? entry.position.toNat = some entry.value
  kept : ∀ position, (∀ entry ∈ values, entry.position.toNat ≠ position) →
    next.get? position = slot.get? position

private theorem get?_set_self {slot : ResultSlot} {position : Nat} (inside : position < slot.size)
    (value : Float) (count : Nat) :
    (mk (slot.cells.set position (some value)) count).get? position = some value := by
  have set : (slot.cells.set position (some value))[position]? = some (some value) :=
    List.getElem?_set_self inside
  simp only [get?, set, Option.join_some]

private theorem get?_set_ne (slot : ResultSlot) {position other : Nat} (differ : other ≠ position)
    (cell : Option Float) (count : Nat) :
    (mk (slot.cells.set position cell) count).get? other = slot.get? other := by
  simp only [get?, List.getElem?_set_ne (Ne.symm differ)]

theorem Fits.filled {slot : ResultSlot} (fits : slot.Fits values) :
    slot.Filled values (slot.fill values) := by
  induction values generalizing slot with
  | nil => exact ⟨rfl, by simp, fun _ _ => rfl⟩
  | cons entry rest ih =>
    obtain ⟨next, written, others, filled⟩ := fits.write
    obtain ⟨empty, rfl⟩ := write_ok_iff.mp written
    obtain ⟨inside, -⟩ := empty_iff.mp empty
    obtain ⟨-, apart, -⟩ := fits_cons_iff.mp fits
    obtain ⟨size, later, kept⟩ := ih others
    rw [filled] at size later kept
    refine ⟨size_fill slot _, fun other member => ?_, fun position unnamed => ?_⟩
    · rcases List.mem_cons.mp member with rfl | member
      · have alone : ∀ other' ∈ rest, other'.position.toNat ≠ other.position.toNat :=
          fun other' member same => apart other' member (UInt64.toNat_inj.mp same)
        rw [kept _ alone]
        exact get?_set_self inside _ _
      · exact later other member
    · rw [kept position fun other member => unnamed other (List.mem_cons_of_mem _ member)]
      exact get?_set_ne slot (Ne.symm (unnamed entry List.mem_cons_self)) _ _

/-- A slot is what it holds at each position, as long as its values are counted. -/
theorem eq_of_get?_eq {slot other : ResultSlot} (counted : slot.Counted) (counted' : other.Counted)
    (sizes : slot.size = other.size) (same : ∀ position, slot.get? position = other.get? position) :
    slot = other := by
  have cells : slot.cells = other.cells := by
    refine List.ext_getElem sizes fun position inside inside' => ?_
    simpa [get?, inside, inside'] using same position
  cases slot
  cases other
  simp only [Counted] at counted counted' cells ⊢
  subst cells
  rw [counted, counted']

/-- The order of the values does not matter to what is filled. -/
theorem Filled.get?_perm {slot next last : ResultSlot} (filled : slot.Filled values next)
    (other : slot.Filled permuted last) (perm : values.Perm permuted) (position : Nat) :
    last.get? position = next.get? position := by
  by_cases named : ∃ entry ∈ values, entry.position.toNat = position
  · obtain ⟨entry, member, rfl⟩ := named
    rw [filled.written entry member, other.written entry (perm.mem_iff.mp member)]
  · have unnamed : ∀ entry ∈ values, entry.position.toNat ≠ position := by simpa using named
    rw [filled.kept position unnamed]
    exact other.kept position fun entry member => unnamed entry (perm.mem_iff.mpr member)

private theorem Fits.perm {slot : ResultSlot} (fits : slot.Fits values)
    (perm : values.Perm permuted) : slot.Fits permuted :=
  ⟨fun entry member => fits.empty entry (perm.mem_iff.mpr member),
    (perm.map _).nodup_iff.mp fits.distinct⟩

/-- A position that is empty after values were filled was empty before them, and none of them is
for it. -/
private theorem Filled.empty_iff {slot next : ResultSlot} (filled : slot.Filled values next)
    (position : Nat) : next.cells[position]? = some none ↔
      slot.cells[position]? = some none ∧ ∀ entry ∈ values, entry.position.toNat ≠ position := by
  simp only [ResultSlot.empty_iff, filled.size, isWritten]
  constructor
  · rintro ⟨inside, unwritten⟩
    have unnamed : ∀ entry ∈ values, entry.position.toNat ≠ position := by
      rintro entry member rfl
      simp [filled.written entry member] at unwritten
    rw [filled.kept position unnamed] at unwritten
    exact ⟨⟨inside, unwritten⟩, unnamed⟩
  · rintro ⟨⟨inside, unwritten⟩, unnamed⟩
    rw [filled.kept position unnamed]
    exact ⟨inside, unwritten⟩

/-- Values fit when the first ones do, and the others fit what these leave. -/
theorem Filled.fits_append_iff {slot middle : ResultSlot} {first second : List AggregateValue}
    (filled : slot.Filled first middle) :
    slot.Fits (first ++ second) ↔ slot.Fits first ∧ middle.Fits second := by
  constructor
  · rintro ⟨empty, distinct⟩
    rw [List.map_append, List.nodup_append] at distinct
    obtain ⟨one, two, apart⟩ := distinct
    have early := fun entry member => empty entry (List.mem_append_left second member)
    refine ⟨⟨early, one⟩, fun entry member => ?_, two⟩
    refine (filled.empty_iff _).mpr ⟨empty entry (List.mem_append_right _ member), ?_⟩
    intro other named same
    exact apart _ (List.mem_map.mpr ⟨other, named, rfl⟩) _ (List.mem_map.mpr ⟨entry, member, rfl⟩)
      (UInt64.toNat_inj.mp same)
  · rintro ⟨early, late⟩
    have left := fun entry member => (filled.empty_iff _).mp (late.empty entry member)
    refine ⟨fun entry member => ?_, ?_⟩
    · rcases List.mem_append.mp member with member | member
      · exact early.empty entry member
      · exact (left entry member).1
    · rw [List.map_append, List.nodup_append]
      refine ⟨early.distinct, late.distinct, fun position one other two => ?_⟩
      obtain ⟨entry, named, rfl⟩ := List.mem_map.mp one
      obtain ⟨later, member, rfl⟩ := List.mem_map.mp two
      intro same
      exact (left later member).2 entry named (congrArg UInt64.toNat same)

theorem Filled.append {slot middle last : ResultSlot} {first second : List AggregateValue}
    (early : slot.Filled first middle) (late : middle.Filled second last)
    (fits : middle.Fits second) : slot.Filled (first ++ second) last := by
  refine ⟨late.size.trans early.size, fun entry member => ?_, fun position unnamed => ?_⟩
  · rcases List.mem_append.mp member with member | member
    · have apart : ∀ later ∈ second, later.position.toNat ≠ entry.position.toNat := by
        intro later named
        exact Ne.symm (((early.empty_iff _).mp (fits.empty later named)).2 entry member)
      rw [late.kept _ apart]
      exact early.written entry member
    · exact late.written entry member
  · rw [late.kept position fun entry member => unnamed entry (List.mem_append_right _ member)]
    exact early.kept position fun entry member => unnamed entry (List.mem_append_left _ member)

end ResultSlot

namespace TupleSlot

open RowProgress (about)

/-- What a slot takes: entries that it records together, and values that fit. -/
structure Takes (slot : TupleSlot) (entries : List RowProgress) (values : List AggregateValue) :
    Prop where
  progress : slot.progress.Takes entries
  values : slot.result.Fits values

/-- What entries and values make of a slot. The rows of each party are what its entries add up to,
and the values are in their cells. -/
structure Gains (slot : TupleSlot) (entries : List RowProgress) (values : List AggregateValue)
    (next : TupleSlot) : Prop where
  rows : ∀ db, next.progress.rows db = (slot.progress.rows db).addAll (about entries db)
  result : slot.result.Filled values next.result

variable {entries entries' : List RowProgress} {values values' : List AggregateValue}
  {slot next last : TupleSlot}

theorem Takes.perm (takes : slot.Takes entries values)
    (reordered : entries.Perm entries') (permuted : values.Perm values') :
    slot.Takes entries' values' := by
  refine ⟨⟨fun entry member => ?_, fun db => ?_⟩, takes.values.perm permuted⟩
  · exact takes.progress.holders entry (reordered.mem_iff.mpr member)
  · exact (takes.progress.rows db).perm (RowProgress.about_perm reordered db)

/-- Slots that gain the same in another order are the same, up to their marks. -/
theorem Gains.eq_of_perm (gains : slot.Gains entries values next)
    (other : slot.Gains entries' values' last) (takes : slot.Takes entries values)
    (reordered : entries.Perm entries') (permuted : values.Perm values')
    (counted : next.result.Counted) (counted' : last.result.Counted) :
    last.progress = next.progress ∧ last.result = next.result := by
  constructor
  · apply ProgressSlot.eq_of_rows_eq
    intro db
    rw [gains.rows, other.rows]
    exact (takes.progress.rows db).addAll_perm (RowProgress.about_perm reordered db)
  · apply ResultSlot.eq_of_get?_eq counted' counted
    · rw [gains.result.size, other.result.size]
    · exact fun position => gains.result.get?_perm other.result permuted position

theorem Takes.left (takes : slot.Takes (entries ++ entries') (values ++ values')) :
    slot.Takes entries values := by
  refine ⟨⟨fun entry member => ?_, fun db => ?_⟩, ⟨fun entry member => ?_, ?_⟩⟩
  · exact takes.progress.holders entry (List.mem_append_left _ member)
  · have rows := takes.progress.rows db
    rw [RowProgress.about_append, Rows.takes_append_iff] at rows
    exact rows.1
  · exact takes.values.empty entry (List.mem_append_left _ member)
  · have distinct := takes.values.distinct
    rw [List.map_append] at distinct
    exact (List.nodup_append.mp distinct).1

/-- What follows is taken together with what was gained when it is taken after it. -/
theorem Gains.takes_append_iff (gains : slot.Gains entries values next) :
    slot.Takes (entries ++ entries') (values ++ values') ↔
      slot.Takes entries values ∧ next.Takes entries' values' := by
  have parts : ∀ db, (slot.progress.rows db).Takes (about (entries ++ entries') db) ↔
      (slot.progress.rows db).Takes (about entries db) ∧
        (next.progress.rows db).Takes (about entries' db) := by
    intro db
    rw [RowProgress.about_append, Rows.takes_append_iff, gains.rows]
  constructor
  · intro takes
    obtain ⟨-, late⟩ := gains.result.fits_append_iff.mp takes.values
    exact ⟨takes.left, ⟨fun entry member => takes.progress.holders entry
      (List.mem_append_right _ member), fun db => ((parts db).mp (takes.progress.rows db)).2⟩, late⟩
  · rintro ⟨⟨⟨holders, rows⟩, early⟩, ⟨⟨holders', rows'⟩, late⟩⟩
    refine ⟨⟨fun entry member => ?_, fun db => (parts db).mpr ⟨rows db, rows' db⟩⟩,
      gains.result.fits_append_iff.mpr ⟨early, late⟩⟩
    rcases List.mem_append.mp member with member | member
    · exact holders entry member
    · exact holders' entry member

theorem Gains.append (gains : slot.Gains entries values next)
    (later : next.Gains entries' values' last) (takes : next.Takes entries' values') :
    slot.Gains (entries ++ entries') (values ++ values') last := by
  refine ⟨fun db => ?_, gains.result.append later.result takes.values⟩
  rw [RowProgress.about_append, Rows.addAll_append, ← gains.rows, later.rows]

theorem Gains.refl (slot : TupleSlot) : slot.Gains [] [] slot :=
  ⟨fun _ => (Rows.addAll_nil _).symm, rfl, by simp, fun _ _ => rfl⟩

theorem Sound.takes_nil {slot : TupleSlot} (sound : slot.Sound aggregates) : slot.Takes [] [] :=
  ⟨⟨by simp, fun db => Rows.takes_nil_iff.mpr (sound.tracked db)⟩, ⟨by simp, by simp⟩⟩

/-- Slots that are alike are marked alike, when marks go by what is resolved. -/
theorem eq_of_marks {marked : Prop} (progress : last.progress = next.progress)
    (result : last.result = next.result) (marks : next.complete = true ↔ marked ∨ next.Resolved)
    (marks' : last.complete = true ↔ marked ∨ last.Resolved) : last = next := by
  have resolved : last.Resolved ↔ next.Resolved := by
    constructor
    · rintro ⟨saturated, full⟩
      exact ⟨progress ▸ saturated, result ▸ full⟩
    · rintro ⟨saturated, full⟩
      exact ⟨progress ▸ saturated, result ▸ full⟩
  have complete : last.complete = next.complete := by
    rw [Bool.eq_iff_iff, marks, marks', resolved]
  cases last
  cases next
  simp_all

/-- A slot that has recorded what it takes has gained that. -/
theorem Takes.gains_record {written : ProgressSlot} (takes : slot.Takes entries values)
    (tracked : slot.progress.Tracked)
    (records : ProgressSlot.Written slot.progress entries written) :
    slot.Gains entries values (slot.record written values) :=
  ⟨((ProgressSlot.written_iff tracked).mp records).2, takes.values.filled⟩

end TupleSlot

/-! ## Events -/

namespace Session

open ProgressSlot (Written)

variable {id : QueryId} {query : Query} {client : Nat} {ref : String} {now : Int64}

/-- An event that is consistent with a session: it is for one of its tuples, whose slot takes what
the event says. -/
structure Consistent (session : Session) (event : PartialResult) : Prop where
  addressed : event.tupleIndex.toNat < session.tupleCount
  takes : ∀ slot, session.slot? event.tupleIndex.toNat = some slot →
    slot.Takes event.progress event.values

/-- Exactly the consistent events are accepted. -/
theorem Sound.apply_ok_iff {session : Session} (sound : session.Sound) (event : PartialResult) :
    (∃ outcome, (session.apply event).2 = .ok outcome) ↔ session.Consistent event := by
  have accepts {slot : TupleSlot} {progress : ProgressSlot}
      (found : session.slot? event.tupleIndex.toNat = some slot) (admits : slot.Admits event)
      (written : Written slot.progress event.progress progress) : session.Consistent event := by
    have tracked := (sound.slots _ (List.mem_of_getElem? found)).tracked
    refine ⟨(List.getElem?_eq_some_iff.mp found).1, fun other same => ?_⟩
    obtain rfl := Option.some.inj (found.symm.trans same)
    exact ⟨((ProgressSlot.written_iff tracked).mp written).1, admits.values⟩
  have applied := apply_applied sound.slots event
  generalize (session.apply event).1 = next at applied
  generalize (session.apply event).2 = result at applied ⊢
  constructor
  · rintro ⟨outcome, rfl⟩
    cases applied with
    | recorded found admits written unclaimed => exact accepts found admits written
    | claimed found admits written resolved unmarked => exact accepts found admits written
  · rintro ⟨addressed, takes⟩
    cases applied with
    | refused unsuited =>
      have found := List.getElem?_eq_getElem addressed
      have suits := takes _ found
      exact absurd ⟨fun entry member => suits.progress.admits member, suits.values⟩
        (unsuited _ found)
    | cut found admits split written refuses =>
      have tracked := (sound.slots _ (List.mem_of_getElem? found)).tracked
      have suits := (takes _ found).progress
      rw [split] at suits
      exact absurd refuses (suits.not_refuses tracked written)
    | recorded => exact ⟨_, rfl⟩
    | claimed => exact ⟨_, rfl⟩

namespace Applied

variable {session next : Session} {event : PartialResult} {outcome : ApplyOutcome}

/-- What an accepted event makes of the slot of its tuple. The slot is marked if it was, or if it is
resolved now. -/
theorem gains (applied : Applied session event next (.ok outcome)) (sound : session.Sound) :
    ∃ before slot, session.slot? event.tupleIndex.toNat = some before ∧
      next.slot? event.tupleIndex.toNat = some slot ∧
      before.Gains event.progress event.values slot ∧
      (slot.complete = true ↔ before.complete = true ∨ slot.Resolved) := by
  have gained {slot : TupleSlot} {progress : ProgressSlot}
      (found : session.slot? event.tupleIndex.toNat = some slot) (admits : slot.Admits event)
      (written : Written slot.progress event.progress progress) :
      slot.Gains event.progress event.values (slot.record progress event.values) := by
    have tracked := (sound.slots _ (List.mem_of_getElem? found)).tracked
    have takes := ((ProgressSlot.written_iff tracked).mp written).1
    exact TupleSlot.Takes.gains_record ⟨takes, admits.values⟩ tracked written
  cases applied with
  | recorded found admits written unclaimed =>
    refine ⟨_, _, found, slot?_setSlot_self found, gained found admits written, ?_⟩
    refine ⟨.inl, fun marked => ?_⟩
    rcases marked with marked | resolved
    · exact marked
    · exact Bool.of_not_eq_false fun unmarked => unclaimed ⟨resolved, unmarked⟩
  | claimed found admits written resolved unmarked =>
    obtain ⟨rows, result⟩ := gained found admits written
    refine ⟨_, _, found, slot?_mark_self found, ⟨rows, result⟩, ?_⟩
    exact ⟨fun _ => .inr ⟨resolved.saturated, resolved.full⟩, fun _ => rfl⟩

/-- The mark for the reporter is set when a tuple is completed. -/
theorem changed_eq (applied : Applied session event next result) (sound : session.Sound) :
    next.changed = (session.changed || decide (next.remaining < session.remaining)) := by
  cases applied with
  | refused => simp
  | cut => simp [setSlot]
  | recorded => simp [setSlot]
  | claimed found admits written resolved unmarked =>
    have positive := sound.remaining_pos found unmarked
    have fewer : session.remaining - 1 < session.remaining := by omega
    simp [mark, setSlot, fewer]

/-- What an accepted event has brought about can be told from what remains. -/
theorem outcome_eq (applied : Applied session event next (.ok outcome)) (sound : session.Sound) :
    outcome = if next.remaining = session.remaining then .applied
      else if next.remaining = 0 then .sessionCompleted
      else .tupleCompleted event.tupleIndex.toNat := by
  cases applied with
  | recorded => simp [setSlot]
  | claimed found admits written resolved unmarked =>
    have positive := sound.remaining_pos found unmarked
    have fewer : session.remaining - 1 ≠ session.remaining := by omega
    have last : session.remaining - 1 = 0 ↔ session.remaining = 1 := by omega
    simp only [mark, setSlot, fewer, if_false, last]

end Applied

/-- A session is the same if its slots are, whatever has led to them. -/
private theorem apply_eq_of_slots {session : Session} (sound : session.Sound)
    {event other : PartialResult} (addressed : other.tupleIndex = event.tupleIndex)
    (accepted : (session.apply event).2 = .ok outcome)
    (accepted' : (session.apply other).2 = .ok outcome')
    (same : (session.apply other).1.slots = (session.apply event).1.slots) :
    session.apply other = session.apply event := by
  have first := apply_applied sound.slots event
  have second := apply_applied sound.slots other
  have remaining : (session.apply other).1.remaining = (session.apply event).1.remaining := by
    rw [(sound.apply other).remaining, (sound.apply event).remaining, same]
  have changed : (session.apply other).1.changed = (session.apply event).1.changed := by
    rw [second.changed_eq sound, first.changed_eq sound, remaining]
  have sessions : (session.apply other).1 = (session.apply event).1 := by
    rw [second.frame, first.frame, same, remaining, changed]
  rw [accepted] at first
  rw [accepted'] at second
  have outcomes : outcome' = outcome := by
    rw [second.outcome_eq sound, first.outcome_eq sound, remaining, addressed]
  refine Prod.ext sessions ?_
  rw [accepted, accepted', outcomes]

/-- The order of entries and values inside an accepted event does not matter. -/
theorem Sound.apply_perm {session : Session} (sound : session.Sound) {event other : PartialResult}
    (consistent : session.Consistent event) (addressed : other.tupleIndex = event.tupleIndex)
    (reordered : event.progress.Perm other.progress) (permuted : event.values.Perm other.values) :
    session.apply other = session.apply event := by
  have suits : session.Consistent other := by
    refine ⟨by rw [addressed]; exact consistent.addressed, fun slot found => ?_⟩
    rw [addressed] at found
    exact (consistent.takes slot found).perm reordered permuted
  obtain ⟨outcome, accepted⟩ := (sound.apply_ok_iff event).mpr consistent
  obtain ⟨outcome', accepted'⟩ := (sound.apply_ok_iff other).mpr suits
  refine apply_eq_of_slots sound addressed accepted accepted' (List.ext_getElem? fun tuple => ?_)
  have first := apply_applied sound.slots event
  have second := apply_applied sound.slots other
  by_cases same : tuple = event.tupleIndex.toNat
  · subst same
    rw [accepted] at first
    rw [accepted'] at second
    obtain ⟨before, slot, found, present, gains, marks⟩ := first.gains sound
    obtain ⟨before', slot', found', present', gains', marks'⟩ := second.gains sound
    rw [addressed] at found' present'
    obtain rfl := Option.some.inj (found.symm.trans found')
    have counted := ((sound.apply event).slots _ (List.mem_of_getElem? present)).counted
    have counted' := ((sound.apply other).slots _ (List.mem_of_getElem? present')).counted
    obtain ⟨progress, result⟩ := gains.eq_of_perm gains' (consistent.takes before found) reordered
      permuted counted counted'
    have alike := TupleSlot.eq_of_marks progress result marks marks'
    exact present'.trans (alike ▸ present.symm)
  · have differ : tuple ≠ other.tupleIndex.toNat := addressed ▸ same
    exact (second.slot?_of_ne differ).trans (first.slot?_of_ne same).symm

/-! ## The rule -/

/-- Which events a session accepts after any history, and what becomes of it. Exactly the
consistent events are accepted. An accepted event changes the slot of its tuple only: the rows of
each party are what its entries add up to, the values are in their cells, and the tuple is marked
if it was or if it is resolved now. The order of entries and values inside the event does not
matter. -/
theorem accepted_iff_consistent (created : create id query client ref now = .ok fresh)
    (history : List PartialResult) (session : Session) (reached : fresh.after history = session)
    (event : PartialResult) :
    ((∃ outcome, (session.apply event).2 = .ok outcome) ↔ session.Consistent event) ∧
    (∀ slot ∈ session.slots, slot.result.size = query.aggregates.length) ∧
    (session.Consistent event →
      (∃ before slot, session.slot? event.tupleIndex.toNat = some before ∧
        (session.apply event).1.slot? event.tupleIndex.toNat = some slot ∧
        before.Gains event.progress event.values slot ∧
        (slot.complete = true ↔ before.complete = true ∨ slot.Resolved)) ∧
      (∀ tuple, tuple ≠ event.tupleIndex.toNat →
        (session.apply event).1.slot? tuple = session.slot? tuple) ∧
      (∀ other : PartialResult, other.tupleIndex = event.tupleIndex →
        event.progress.Perm other.progress → event.values.Perm other.values →
        session.apply other = session.apply event)) := by
  have start := sound_create created
  have sound : session.Sound := reached ▸ start.after history
  have applied := apply_applied sound.slots event
  refine ⟨sound.apply_ok_iff event, fun slot member => ?_, fun consistent => ⟨?_, ?_, ?_⟩⟩
  · rw [(sound.slots slot member).size, ← reached, start.query_after, query_create created]
  · obtain ⟨outcome, accepted⟩ := (sound.apply_ok_iff event).mpr consistent
    rw [accepted] at applied
    exact applied.gains sound
  · exact fun tuple differ => applied.slot?_of_ne differ
  · exact fun other addressed => sound.apply_perm consistent addressed

/-- Three entries, two of them for one party whose total comes with the second, and one value. -/
theorem accepted_iff_consistent_single :
    create single.id oneCount 0 "" 0 = .ok single ∧
      single.Consistent
        (report [⟨.db1, none, 2⟩, ⟨.db1, some 3, 1⟩, ⟨.db2, some 0, 0⟩] [⟨0, 1⟩]) :=
  ⟨create_single, (accepted_iff_consistent create_single [] single rfl _).1.mp ⟨_, rfl⟩⟩

end Session

end JointQuery
