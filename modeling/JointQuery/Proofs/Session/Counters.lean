import JointQuery.Proofs.Session.Consistency

/-! Row counters over a whole run of calls. What the words of a slot say after any calls is what two
plain counters say, one for each data party: a total, once one is accepted, and an index without
bounds. A call is accepted exactly when the counter of its party has room for it. A refused call
names the rule that it breaks and changes nothing. -/
namespace JointQuery

/-! ## Faults -/

namespace Rows

/-- The rule that a report breaks, with what the refusal says of it. A total is looked at first; the
rows are counted only against totals that agree. The index in a refusal is that of a word. -/
inductive Fault (rows : Rows) (reported : Option Nat) (delta : Nat) : SlotError → Prop where
  /-- The reported total is larger than any that is tracked. -/
  | untracked {value : UInt64} (reports : reported = some value.toNat)
      (large : limit < value.toNat) : Fault rows reported delta (.rowLimitExceeded value)
  /-- Another total is known. -/
  | conflict {existing : UInt64} {other : Nat} (reports : reported = some other)
      (small : other ≤ limit) (known : rows.total = some existing.toNat)
      (differ : existing.toNat ≠ other) : Fault rows reported delta (.rowCountConflict existing)
  /-- There would be more rows than the total says. -/
  | overrun {bound reached : UInt64} (agrees : rows.Agrees reported)
      (bounded : rows.total.or reported = some bound.toNat)
      (passes : bound.toNat < rows.index + delta)
      (counted : reached.toNat = min (rows.index + delta) (UInt64.size - 1)) :
      Fault rows reported delta (.rowIndexOverrun reached bound)
  /-- There would be more rows than are tracked, and no total is known. -/
  | unbounded {reached : UInt64} (agrees : rows.Agrees reported)
      (unknown : rows.total.or reported = none) (passes : limit < rows.index + delta)
      (counted : reached.toNat = min (rows.index + delta) (UInt64.size - 1)) :
      Fault rows reported delta (.rowLimitExceeded reached)

end Rows

open Rows (limit limit_eq ofWord)

private theorem checkReported_error_iff :
    checkReported reported = .error refusal ↔
      ∃ value, reported = some value ∧ limit < value.toNat ∧ refusal = .rowLimitExceeded value := by
  cases reported with
  | none => simp [checkReported]
  | some value =>
    simp only [checkReported, UInt64.lt_iff_toNat_lt, limit_eq]
    split
    · rename_i large
      simp [large, eq_comm]
    · rename_i small
      simp [small]

private theorem mergeTotal_error_iff :
    mergeTotal known reported = .error refusal ↔
      ∃ existing other, known = some existing ∧ reported = some other ∧ existing ≠ other ∧
        refusal = .rowCountConflict existing := by
  cases known with
  | none => cases reported <;> simp [mergeTotal]
  | some existing =>
    cases reported with
    | none => simp [mergeTotal]
    | some other =>
      simp only [mergeTotal]
      split
      · rename_i same
        simp [same]
      · rename_i differ
        simp [differ, eq_comm]

private theorem checkIndex_error_iff :
    checkIndex total index = .error refusal ↔
      (∃ bound, total = some bound ∧ bound.toNat < index.toNat ∧
        refusal = .rowIndexOverrun index bound) ∨
      (total = none ∧ limit < index.toNat ∧ refusal = .rowLimitExceeded index) := by
  cases total with
  | none =>
    simp only [checkIndex, UInt64.lt_iff_toNat_lt, limit_eq]
    split
    · rename_i passes
      simp [passes, eq_comm]
    · rename_i within
      simp [within]
  | some bound =>
    simp only [checkIndex, UInt64.lt_iff_toNat_lt]
    split
    · rename_i passes
      simp [passes, eq_comm]
    · rename_i within
      simp [within]

private theorem updateWord_eq_error :
    updateWord word reported delta = .error refusal ↔
      checkReported reported = .error refusal ∨
      (checkReported reported = .ok () ∧
        (mergeTotal (wordTotal word) reported = .error refusal ∨
          ∃ total, mergeTotal (wordTotal word) reported = .ok total ∧
            checkIndex total (saturatingAdd (wordIndex word) delta) = .error refusal)) := by
  simp only [updateWord, bind, Except.bind, pure, Except.pure]
  cases checkReported reported with
  | error refusal => simp
  | ok _ =>
    cases mergeTotal (wordTotal word) reported with
    | error refusal => simp
    | ok total =>
      cases checked : checkIndex total (saturatingAdd (wordIndex word) delta) <;> simp [checked]

private theorem eq_some_of_map {reported : Option UInt64} {value : UInt64}
    (reports : reported.map UInt64.toNat = some value.toNat) : reported = some value := by
  obtain ⟨other, rfl, same⟩ := Option.map_eq_some_iff.mp reports
  rw [UInt64.toNat_inj.mp same]

private theorem agrees_iff :
    (ofWord word).Agrees (reported.map UInt64.toNat) ↔
      checkReported reported = .ok () ∧
        mergeTotal (wordTotal word) reported = .ok ((wordTotal word).or reported) := by
  rw [checkReported_ok_iff, mergeTotal_ok_iff]
  constructor
  · intro agrees
    exact ⟨fun total member => (agrees total member).1, fun total member => (agrees total member).2,
      rfl⟩
  · rintro ⟨tracks, same, -⟩
    exact fun total member => ⟨tracks total member, same total member⟩

/-- A word refuses a report that breaks a rule, and says which. -/
theorem updateWord_error_iff (tracked : (ofWord word).Tracked) :
    updateWord word reported delta = .error refusal ↔
      (ofWord word).Fault (reported.map UInt64.toNat) delta.toNat refusal := by
  have counted := saturatingAdd_toNat (wordIndex word) delta
  have total : (ofWord word).total.or (reported.map UInt64.toNat) =
      ((wordTotal word).or reported).map UInt64.toNat := (or_map_toNat _ _).symm
  rw [updateWord_eq_error]
  constructor
  · rintro (large | ⟨tracks, conflicts | ⟨merged, merges, passes⟩⟩)
    · obtain ⟨value, rfl, above, rfl⟩ := checkReported_error_iff.mp large
      exact .untracked rfl above
    · obtain ⟨existing, other, known, rfl, differ, rfl⟩ := mergeTotal_error_iff.mp conflicts
      refine .conflict rfl (checkReported_ok_iff.mp tracks other.toNat rfl) ?_ ?_
      · simp [ofWord, known]
      · exact fun same => differ (UInt64.toNat_inj.mp same)
    · obtain ⟨-, rfl⟩ := mergeTotal_ok_iff.mp merges
      have agrees := agrees_iff.mpr ⟨tracks, merges⟩
      rcases checkIndex_error_iff.mp passes with
        ⟨bound, bounded, above, rfl⟩ | ⟨unknown, above, rfl⟩
      · rw [counted] at above
        refine .overrun agrees (by rw [total, bounded, Option.map_some]) ?_ counted
        exact Nat.lt_of_lt_of_le above (Nat.min_le_left _ _)
      · rw [counted] at above
        refine .unbounded agrees (by rw [total, unknown, Option.map_none]) ?_ counted
        exact Nat.lt_of_lt_of_le above (Nat.min_le_left _ _)
  · intro fault
    cases fault with
    | @untracked value reports large =>
      exact .inl (checkReported_error_iff.mpr ⟨value, eq_some_of_map reports, large, rfl⟩)
    | @conflict existing other reports small known differ =>
      obtain ⟨value, rfl, rfl⟩ := Option.map_eq_some_iff.mp reports
      refine .inr ⟨checkReported_ok_iff.mpr (by simpa using small), .inl ?_⟩
      refine mergeTotal_error_iff.mpr ⟨existing, value, eq_some_of_map known, rfl, ?_, rfl⟩
      rintro rfl
      exact differ rfl
    | @overrun bound reached agrees bounded passes reaches =>
      obtain ⟨tracks, merges⟩ := agrees_iff.mp agrees
      rw [total] at bounded
      have limited := total_le_limit tracked agrees
      rw [bounded, Option.getD_some] at limited
      obtain rfl := UInt64.toNat_inj.mp (reaches.trans counted.symm)
      refine .inr ⟨tracks, .inr ⟨_, merges, checkIndex_error_iff.mpr (.inl ⟨bound, ?_, ?_, rfl⟩)⟩⟩
      · exact eq_some_of_map bounded
      · have small : limit < UInt64.size - 1 := by decide
        omega
    | @unbounded reached agrees unknown passes reaches =>
      obtain ⟨tracks, merges⟩ := agrees_iff.mp agrees
      rw [total, Option.map_eq_none_iff] at unknown
      obtain rfl := UInt64.toNat_inj.mp (reaches.trans counted.symm)
      refine .inr ⟨tracks, .inr ⟨_, merges, checkIndex_error_iff.mpr (.inr ⟨unknown, ?_, rfl⟩)⟩⟩
      have small : limit < UInt64.size - 1 := by decide
      omega

/-! ## Calls -/

/-- A call on a progress slot. -/
inductive RowCall where
  | update (db : Holder) (total : Option UInt64) (delta : UInt64)
  | setRowCount (db : Holder) (total : UInt64)
  | advance (db : Holder) (delta : UInt64)

namespace RowCall

/-- The data party that a call is about. -/
def db : RowCall → Holder
  | .update db _ _ => db
  | .setRowCount db _ => db
  | .advance db _ => db

/-- What a call reports of its party. -/
def entry : RowCall → RowProgress
  | .update db total delta => ⟨db.party, total, delta⟩
  | .setRowCount db total => ⟨db.party, some total, 0⟩
  | .advance db delta => ⟨db.party, none, delta⟩

/-- What is answered for an index that is recorded: the index, unless only a total is set. -/
def answer : RowCall → UInt64 → Option UInt64
  | .setRowCount _ _, _ => none
  | _, index => some index

end RowCall

namespace Rows

instance (rows : Rows) (reported : Option Nat) : Decidable (rows.Agrees reported) :=
  inferInstanceAs
    (Decidable (∀ total ∈ reported, total ≤ limit ∧ ∀ known ∈ rows.total, known = total))

instance (rows : Rows) (reported : Option Nat) (delta : Nat) :
    Decidable (rows.Accepts reported delta) :=
  decidable_of_iff
    (rows.Agrees reported ∧ rows.index + delta ≤ (rows.add reported delta).bound)
    ⟨fun ⟨agrees, within⟩ => ⟨agrees, within⟩, fun ⟨agrees, within⟩ => ⟨agrees, within⟩⟩

/-- The plain counter of a data party after a call: the report is added if there is room for it. -/
def count (db : Holder) (rows : Rows) (call : RowCall) : Rows :=
  if call.db = db ∧ rows.Accepts call.entry.reported call.entry.scanned then
    rows.add call.entry.reported call.entry.scanned
  else rows

/-- The plain counter of a data party after calls. -/
def counted (db : Holder) (calls : List RowCall) : Rows := calls.foldl (count db) ⟨none, 0⟩

/-- A word that holds these rows: the total, plus one, in its high half and the index in its low
half, with room for both. -/
structure Packed (rows : Rows) (word : UInt64) : Prop where
  word_eq : word.toNat = 2 ^ 32 * (rows.total.map (· + 1)).getD 0 + rows.index
  total_lt : (rows.total.map (· + 1)).getD 0 < 2 ^ 32
  index_lt : rows.index < 2 ^ 32

private theorem packed_ofWord (word : UInt64) : (ofWord word).Packed word := by
  have high := high_half word
  have low := low_half word
  have bound := word.toNat_lt
  have stored : ((ofWord word).total.map (· + 1)).getD 0 = (word >>> 32).toNat := by
    simp only [ofWord, wordTotal]
    split
    · rename_i zero
      rw [zero]
      rfl
    · rename_i nonzero
      have positive : (word >>> 32).toNat ≠ 0 := fun zero => nonzero (UInt64.toNat_inj.mp zero)
      have one : (1 : UInt64) ≤ word >>> 32 := by
        rw [UInt64.le_iff_toNat_le]
        exact Nat.one_le_iff_ne_zero.mpr positive
      simp only [Option.map_some, Option.getD_some, UInt64.toNat_sub_of_le _ _ one]
      change (word >>> 32).toNat - 1 + 1 = _
      omega
  constructor
  · rw [stored, high]
    change _ = _ + (wordIndex word).toNat
    omega
  · rw [stored, high]
    omega
  · change (wordIndex word).toNat < _
    omega

end Rows

namespace ProgressSlot

/-- Records what a call reports. -/
def record (slot : ProgressSlot) : RowCall → Except SlotError ProgressSlot
  | .update db total delta => slot.update db total delta
  | .setRowCount db total => slot.setRowCount db total
  | .advance db delta => slot.advance db delta

/-- Performs a call: the slot after it, and what is answered. -/
def perform (slot : ProgressSlot) (call : RowCall) :
    ProgressSlot × Except SlotError (Option UInt64) :=
  match slot.record call with
  | .ok next =>
    (next, .ok (call.answer (saturatingAdd (slot.rowIndex call.db) call.entry.rowDelta)))
  | .error refusal => (slot, .error refusal)

/-- The slot after calls. -/
def performed (slot : ProgressSlot) (calls : List RowCall) : ProgressSlot :=
  calls.foldl (fun slot call => (slot.perform call).1) slot

/-- What the accepted calls about a data party report, in their order. -/
def accepted (slot : ProgressSlot) (db : Holder) : List RowCall → List RowProgress
  | [] => []
  | call :: rest =>
    (if call.db = db ∧ (slot.perform call).2.isOk then [call.entry] else []) ++
      (slot.perform call).1.accepted db rest

theorem record_eq (slot : ProgressSlot) (call : RowCall) :
    slot.record call = slot.update call.db call.entry.rowCount call.entry.rowDelta := by
  cases call <;> rfl

variable {slot : ProgressSlot}

private theorem update_error_iff (tracked : slot.Tracked) :
    slot.update db reported delta = .error refusal ↔
      (slot.rows db).Fault (reported.map UInt64.toNat) delta.toNat refusal := by
  rw [rows, ← updateWord_error_iff (tracked db), update]
  cases updateWord (slot.word db) reported delta <;> simp [Except.map]

/-- The index that a recorded report is answered with is the exact sum. -/
theorem rowIndex_update {next : ProgressSlot} (tracked : slot.Tracked)
    (updated : slot.update db reported delta = .ok next) :
    saturatingAdd (slot.rowIndex db) delta = next.rowIndex db := by
  obtain ⟨accepts, added, -⟩ := (update_ok_iff tracked).mp updated
  have exact_sum : (next.rowIndex db).toNat = (slot.rowIndex db).toNat + delta.toNat :=
    congrArg Rows.index added
  have tracks := (tracked db).add accepts
  have below := Nat.le_trans tracks.index_le tracks.bound_le
  simp only [Rows.add, rows_index, limit] at below
  apply UInt64.toNat_inj.mp
  rw [saturatingAdd_toNat, exact_sum]
  omega

/-- A call is recorded and answered, or it breaks a rule and changes nothing. -/
theorem perform_cases (tracked : slot.Tracked) (call : RowCall) :
    (∃ next, slot.perform call = (next, .ok (call.answer (next.rowIndex call.db))) ∧
      (slot.rows call.db).Accepts call.entry.reported call.entry.scanned ∧
      next.rows call.db = (slot.rows call.db).add call.entry.reported call.entry.scanned ∧
      ∀ other, other ≠ call.db → next.word other = slot.word other) ∨
    (∃ refusal, slot.perform call = (slot, .error refusal) ∧
      (slot.rows call.db).Fault call.entry.reported call.entry.scanned refusal ∧
      ¬ (slot.rows call.db).Accepts call.entry.reported call.entry.scanned) := by
  simp only [perform, record_eq]
  cases updated : slot.update call.db call.entry.rowCount call.entry.rowDelta with
  | ok next =>
    left
    obtain ⟨accepts, added, others⟩ := (update_ok_iff tracked).mp updated
    exact ⟨next, by rw [rowIndex_update tracked updated], accepts, added, others⟩
  | error refusal =>
    right
    refine ⟨refusal, rfl, (update_error_iff tracked).mp updated, fun accepts => ?_⟩
    obtain ⟨next, recorded⟩ := (update_isOk_iff tracked).mpr accepts
    simp [updated] at recorded

private theorem perform_error_iff (tracked : slot.Tracked) {call : RowCall} :
    (slot.perform call).2 = .error refusal ↔
      (slot.rows call.db).Fault call.entry.reported call.entry.scanned refusal := by
  have faults : slot.update call.db call.entry.rowCount call.entry.rowDelta = .error refusal ↔
      (slot.rows call.db).Fault call.entry.reported call.entry.scanned refusal :=
    update_error_iff tracked
  rw [← faults, perform, record_eq]
  cases slot.update call.db call.entry.rowCount call.entry.rowDelta <;> simp

theorem Tracked.perform (tracked : slot.Tracked) (call : RowCall) :
    (slot.perform call).1.Tracked := by
  simp only [ProgressSlot.perform, record_eq]
  cases updated : slot.update call.db call.entry.rowCount call.entry.rowDelta with
  | ok next => exact tracked.update updated
  | error refusal => exact tracked

private theorem rows_perform (tracked : slot.Tracked) (call : RowCall) (db : Holder) :
    (slot.perform call).1.rows db = Rows.count db (slot.rows db) call := by
  rcases perform_cases tracked call with
    ⟨next, done, accepts, added, others⟩ | ⟨refusal, done, -, refuses⟩
  · rw [done]
    by_cases same : call.db = db
    · subst same
      simp [Rows.count, accepts, added]
    · simp only [Rows.count, same, false_and, if_false, rows, others db (Ne.symm same)]
  · rw [done, Rows.count, if_neg]
    rintro ⟨rfl, accepts⟩
    exact refuses accepts

/-! ## Runs -/

theorem Tracked.performed (tracked : slot.Tracked) (calls : List RowCall) :
    (slot.performed calls).Tracked := by
  induction calls generalizing slot with
  | nil => exact tracked
  | cons call rest ih => exact ih (tracked.perform call)

/-- After any calls the words say what the plain counters say. -/
theorem rows_performed (tracked : slot.Tracked) (calls : List RowCall) (db : Holder) :
    (slot.performed calls).rows db = calls.foldl (Rows.count db) (slot.rows db) := by
  induction calls generalizing slot with
  | nil => rfl
  | cons call rest ih =>
    rw [List.foldl_cons, ← rows_perform tracked]
    exact ih (tracked.perform call)

/-- After any calls the rows are what the accepted ones add up to. -/
theorem rows_performed_accepted (tracked : slot.Tracked) (calls : List RowCall) (db : Holder) :
    (slot.performed calls).rows db = (slot.rows db).addAll (slot.accepted db calls) := by
  induction calls generalizing slot with
  | nil => exact (Rows.addAll_nil _).symm
  | cons call rest ih =>
    refine (ih (tracked.perform call)).trans ?_
    rw [accepted, Rows.addAll_append]
    congr 1
    rcases perform_cases tracked call with
      ⟨next, done, accepts, added, others⟩ | ⟨refusal, done, -, refuses⟩
    · rw [done]
      by_cases same : call.db = db
      · subst same
        simp [Except.isOk, Except.toBool, Rows.addAll_cons, Rows.addAll_nil, added]
      · simp [same, Rows.addAll_nil, rows, others db (Ne.symm same)]
    · rw [done]
      simp [Except.isOk, Except.toBool, Rows.addAll_nil]

/-- A total that is known stays. -/
theorem rowCount_performed (tracked : slot.Tracked) {total : UInt64}
    (known : slot.rowCount db = some total) (calls : List RowCall) :
    (slot.performed calls).rowCount db = some total := by
  have held : (slot.rows db).total = some total.toNat := congrArg (Option.map UInt64.toNat) known
  have added := congrArg Rows.total (rows_performed_accepted tracked calls db)
  simp only [Rows.addAll, Rows.totals, held, Option.toList_some, List.cons_append,
    List.head?_cons] at added
  exact eq_some_of_map added

/-- A slot performs a call as the plain counter of its party says. -/
structure Performs (slot : ProgressSlot) (counted : Rows) (call : RowCall) : Prop where
  /-- A call is accepted exactly when the counter has room for it. -/
  accepts : (∃ answer, (slot.perform call).2 = .ok answer) ↔
    counted.Accepts call.entry.reported call.entry.scanned
  /-- It is answered with the index that is recorded. -/
  answers : ∀ answer, (slot.perform call).2 = .ok answer →
    answer = call.answer ((slot.perform call).1.rowIndex call.db)
  /-- Otherwise it is refused for the rule that it breaks. -/
  refuses : ∀ refusal, (slot.perform call).2 = .error refusal ↔
    counted.Fault call.entry.reported call.entry.scanned refusal
  /-- What is refused leaves both words. -/
  stays : ∀ refusal, (slot.perform call).2 = .error refusal → (slot.perform call).1 = slot
  /-- No call touches the word of the other party. -/
  others : ∀ other, other ≠ call.db → (slot.perform call).1.word other = slot.word other

/-- What a slot that was fresh before some calls says of a party after them. -/
structure Tallies (slot : ProgressSlot) (calls : List RowCall) (db : Holder) : Prop where
  /-- The word says what the plain counter says. -/
  rows : slot.rows db = Rows.counted db calls
  /-- The index is the exact sum of the accepted rows. -/
  index : (slot.rowIndex db).toNat = ((fresh.accepted db calls).map (·.scanned)).sum
  /-- The total is the first that was accepted. -/
  total : (slot.rowCount db).map UInt64.toNat =
    ((fresh.accepted db calls).filterMap (·.reported)).head?
  /-- A known total bounds the index, is tracked, and stays whatever else is called. -/
  known : ∀ total, slot.rowCount db = some total → slot.rowIndex db ≤ total ∧
    total ≤ maxTrackedRows ∧ ∀ more, (slot.performed more).rowCount db = some total
  index_le : slot.rowIndex db ≤ maxTrackedRows
  /-- Neither half of the word is too small for what it holds. -/
  packed : (Rows.counted db calls).Packed (slot.word db)

private theorem performs_of_tracked (tracked : slot.Tracked) (call : RowCall) :
    slot.Performs (slot.rows call.db) call := by
  refine ⟨?_, ?_, fun refusal => perform_error_iff tracked, ?_, ?_⟩
  all_goals
    rcases perform_cases tracked call with
      ⟨next, done, accepts, -, others⟩ | ⟨fault, done, -, refuses⟩
  · simp [done, accepts]
  · simp [done, refuses]
  · intro answer answered
    rw [done] at answered ⊢
    exact (Except.ok.inj answered).symm
  · simp [done]
  · simp [done]
  · simp [done]
  · intro other differ
    rw [done]
    exact others other differ
  · simp [done]

private theorem tallies_performed (calls : List RowCall) (db : Holder) :
    (fresh.performed calls).Tallies calls db := by
  have tracked := tracked_fresh.performed calls
  have plain : (fresh.performed calls).rows db = Rows.counted db calls := by
    rw [rows_performed tracked_fresh, rows_fresh, Rows.counted]
  have sums := rows_performed_accepted tracked_fresh calls db
  rw [rows_fresh] at sums
  have within := (tracked db).index_le
  have limited := (tracked db).bound_le
  refine ⟨plain, ?_, congrArg Rows.total sums, ?_, ?_, ?_⟩
  · rw [← rows_index, sums]
    exact Nat.zero_add _
  · intro total known
    have held : ((fresh.performed calls).rows db).total = some total.toNat :=
      congrArg (Option.map UInt64.toNat) known
    rw [Rows.bound, held, Option.getD_some] at within limited
    exact ⟨within, limited, rowCount_performed tracked known⟩
  · exact Nat.le_trans within limited
  · rw [← plain]
    exact Rows.packed_ofWord _

/-- What a slot has come to after any calls, and what one more call does. Both are what the plain
counters say, which have no bounds of their own. -/
theorem counts_exactly (calls : List RowCall) (slot : ProgressSlot)
    (reached : fresh.performed calls = slot) :
    (∀ call, slot.Performs (Rows.counted call.db calls) call) ∧ ∀ db, slot.Tallies calls db := by
  subst reached
  refine ⟨fun call => ?_, tallies_performed calls⟩
  rw [← (tallies_performed calls call.db).rows]
  exact performs_of_tracked (tracked_fresh.performed calls) call

/-- One row more than is tracked, and as many as a word can say: the refusal names what a word
holds of their sum. -/
theorem counts_exactly_full :
    fresh.performed [.advance .db2 4294967294] = ⟨0, 4294967294⟩ ∧
      (Rows.counted .db2 [.advance .db2 4294967294]).Fault none 18446744073709551615
        (.rowLimitExceeded 18446744073709551615) := by
  have reached : fresh.performed [.advance .db2 4294967294] = ⟨0, 4294967294⟩ := by decide
  obtain ⟨next, -⟩ := counts_exactly _ _ reached
  exact ⟨reached, ((next (.advance .db2 18446744073709551615)).refuses _).mp (by decide)⟩

end ProgressSlot

end JointQuery
