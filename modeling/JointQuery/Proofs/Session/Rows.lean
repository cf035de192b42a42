import JointQuery.Session.Progress

/-! The words of row progress, read as numbers. A word says which total is known and how many rows
have been scanned; as long as the rows are tracked it says so without loss, and a report changes
it exactly as it changes the two numbers. Sums of rows are exact here, while words saturate. -/
namespace JointQuery

/-- Row progress of one data party. -/
structure Rows where
  total : Option Nat
  index : Nat
  deriving DecidableEq, Repr

namespace Rows

/-- The most rows that are tracked. -/
def limit : Nat := 4294967294

/-- How far the index may run: to the total, or to what is tracked while that is unknown. -/
def bound (rows : Rows) : Nat := rows.total.getD limit

/-- What a word says. -/
def ofWord (word : UInt64) : Rows := ⟨(wordTotal word).map UInt64.toNat, (wordIndex word).toNat⟩

/-- The rows after a report: a known total stays, and the newly scanned rows are added. -/
def add (rows : Rows) (reported : Option Nat) (delta : Nat) : Rows :=
  ⟨rows.total.or reported, rows.index + delta⟩

/-- The index is within its bound, and the bound within what is tracked. -/
structure Tracked (rows : Rows) : Prop where
  index_le : rows.index ≤ rows.bound
  bound_le : rows.bound ≤ limit

/-- A report agrees with the total: it is one that is tracked, and the known one if there is
one. -/
def Agrees (rows : Rows) (reported : Option Nat) : Prop :=
  ∀ total ∈ reported, total ≤ limit ∧ ∀ known ∈ rows.total, known = total

/-- A report that can be recorded: it agrees with the total and stays within the bound. -/
structure Accepts (rows : Rows) (reported : Option Nat) (delta : Nat) : Prop where
  agrees : rows.Agrees reported
  within : rows.index + delta ≤ (rows.add reported delta).bound

/-- All rows are scanned. -/
def Saturated (rows : Rows) : Prop := rows.total = some rows.index

theorem Tracked.add {rows : Rows} (tracked : rows.Tracked) (accepts : rows.Accepts reported delta) :
    (rows.add reported delta).Tracked := by
  refine ⟨accepts.within, ?_⟩
  obtain ⟨index_le, bound_le⟩ := tracked
  simp only [bound, Rows.add] at bound_le ⊢
  cases known : rows.total with
  | some total => simpa [known] using bound_le
  | none =>
    cases reported with
    | none => simp
    | some total => simpa using (accepts.agrees total rfl).1

/-- Rows that are all scanned take only what says nothing new. -/
theorem Saturated.accepts_iff {rows : Rows} (saturated : rows.Saturated) (tracked : rows.Tracked) :
    rows.Accepts reported delta ↔ delta = 0 ∧ ∀ total ∈ reported, total = rows.index := by
  have known : rows.total = some rows.index := saturated
  have within_limit := Nat.le_trans tracked.index_le tracked.bound_le
  constructor
  · rintro ⟨agrees, within⟩
    simp only [bound, Rows.add, known, Option.some_or, Option.getD_some] at within
    exact ⟨by omega, fun total member => ((agrees total member).2 rows.index known).symm⟩
  · rintro ⟨rfl, same⟩
    refine ⟨fun total member => ?_, by simp [bound, Rows.add, known]⟩
    rw [same total member]
    exact ⟨within_limit, fun before held => Option.some.inj (held.symm.trans known)⟩

/-- Nothing can be added to rows that are all scanned. -/
theorem Saturated.add_eq {rows : Rows} (saturated : rows.Saturated)
    (accepts : rows.Accepts reported delta) : rows.add reported delta = rows := by
  have known : rows.total = some rows.index := saturated
  have within := accepts.within
  simp only [bound, Rows.add, known, Option.some_or, Option.getD_some] at within ⊢
  have nothing : delta = 0 := by omega
  simp [nothing, ← known]

/-! ## Words -/

theorem limit_eq : maxTrackedRows.toNat = limit := rfl

theorem high_half (word : UInt64) : (word >>> 32).toNat = word.toNat / 4294967296 := by
  simp [Nat.shiftRight_eq_div_pow]

theorem low_half (word : UInt64) : (wordIndex word).toNat = word.toNat % 4294967296 := by
  simpa [wordIndex] using Nat.and_two_pow_sub_one_eq_mod word.toNat 32

private theorem storedTotal_toNat (total : Option UInt64)
    (tracked : ∀ rows ∈ total, rows.toNat ≤ limit) :
    (storedTotal total).toNat = (total.map fun rows => rows.toNat + 1).getD 0 := by
  cases total with
  | none => rfl
  | some rows =>
    have bounded : rows.toNat ≤ 4294967294 := tracked rows rfl
    simp only [storedTotal, Option.map_some, Option.getD_some, UInt64.toNat_add]
    change (rows.toNat + 1) % 18446744073709551616 = rows.toNat + 1
    omega

private theorem stored_le {total : Option UInt64} (tracked : ∀ rows ∈ total, rows.toNat ≤ limit) :
    (total.map fun rows => rows.toNat + 1).getD 0 ≤ 4294967295 := by
  cases total with
  | none => simp
  | some rows =>
    have bounded : rows.toNat ≤ 4294967294 := tracked rows rfl
    simp only [Option.map_some, Option.getD_some]
    omega

/-- The halves of a packed word do not touch. -/
private theorem packRows_toNat (total : Option UInt64) (index : UInt64)
    (tracked : ∀ rows ∈ total, rows.toNat ≤ limit) (small : index.toNat < 4294967296) :
    (packRows total index).toNat =
      4294967296 * (total.map fun rows => rows.toNat + 1).getD 0 + index.toNat := by
  have stored := storedTotal_toNat total tracked
  have bounded := stored_le tracked
  have shifted : (storedTotal total <<< 32).toNat =
      (total.map fun rows => rows.toNat + 1).getD 0 <<< 32 := by
    simp only [UInt64.toNat_shiftLeft, stored, Nat.shiftLeft_eq]
    change _ * 4294967296 % 18446744073709551616 = _ * 4294967296
    omega
  have joined := Nat.shiftLeft_add_eq_or_of_lt (i := 32) small
    ((total.map fun rows => rows.toNat + 1).getD 0)
  rw [packRows, UInt64.toNat_or, shifted, ← joined, Nat.shiftLeft_eq]
  omega

/-- A packed total and index are read back. -/
theorem ofWord_packRows (total : Option UInt64) (index : UInt64)
    (tracked : ∀ rows ∈ total, rows.toNat ≤ limit) (small : index.toNat < 4294967296) :
    ofWord (packRows total index) = ⟨total.map UInt64.toNat, index.toNat⟩ := by
  have packed := packRows_toNat total index tracked small
  have low : (wordIndex (packRows total index)).toNat = index.toNat := by
    rw [low_half, packed]
    omega
  have high : (packRows total index >>> 32).toNat =
      (total.map fun rows => rows.toNat + 1).getD 0 := by
    rw [high_half, packed]
    omega
  have read : (wordTotal (packRows total index)).map UInt64.toNat = total.map UInt64.toNat := by
    cases total with
    | none =>
      have zero : packRows none index >>> 32 = 0 := UInt64.toNat_inj.mp (by simpa using high)
      simp [wordTotal, zero]
    | some rows =>
      have bounded : rows.toNat ≤ 4294967294 := tracked rows rfl
      have next : packRows (some rows) index >>> 32 = rows + 1 := by
        apply UInt64.toNat_inj.mp
        rw [high, UInt64.toNat_add]
        change rows.toNat + 1 = (rows.toNat + 1) % 18446744073709551616
        omega
      have nonzero : rows + 1 ≠ 0 := by
        intro zero
        have contra := congrArg UInt64.toNat zero
        rw [UInt64.toNat_add] at contra
        change (rows.toNat + 1) % 18446744073709551616 = 0 at contra
        omega
      simp [wordTotal, next, nonzero]
  simp only [ofWord, low, read]

/-- What a word says names the word. -/
theorem ofWord_injective {word other : UInt64} (same : ofWord word = ofWord other) :
    word = other := by
  simp only [ofWord, Rows.mk.injEq] at same
  obtain ⟨totals, indices⟩ := same
  rw [low_half, low_half] at indices
  have highs : (word >>> 32).toNat = (other >>> 32).toNat := by
    simp only [wordTotal] at totals
    split at totals <;> split at totals
    · simp_all
    · simp at totals
    · simp at totals
    · simp only [Option.map_some, Option.some.injEq] at totals
      have equal := UInt64.toNat_inj.mp totals
      have back := congrArg (· + 1) equal
      simp only [UInt64.sub_add_cancel] at back
      rw [back]
  rw [high_half, high_half] at highs
  apply UInt64.toNat_inj.mp
  omega

end Rows

/-! ## Reports -/

open Rows (limit limit_eq bound ofWord ofWord_packRows ofWord_injective)

theorem saturatingAdd_toNat (a b : UInt64) :
    (saturatingAdd a b).toNat = min (a.toNat + b.toNat) 18446744073709551615 := by
  have left := a.toNat_lt
  have right := b.toNat_lt
  have sum : (a + b).toNat = (a.toNat + b.toNat) % 18446744073709551616 := UInt64.toNat_add a b
  simp only [saturatingAdd, UInt64.lt_iff_toNat_lt, sum]
  split
  · change 18446744073709551615 = _
    omega
  · rw [sum]
    omega

theorem checkReported_ok_iff :
    checkReported reported = .ok () ↔ ∀ total ∈ reported.map UInt64.toNat, total ≤ limit := by
  cases reported with
  | none => simp [checkReported]
  | some total =>
    simp only [checkReported, UInt64.lt_iff_toNat_lt, limit_eq]
    split <;> simp_all

theorem mergeTotal_ok_iff :
    mergeTotal known reported = .ok total ↔
      (∀ rows ∈ reported.map UInt64.toNat, ∀ before ∈ known.map UInt64.toNat, before = rows) ∧
        total = known.or reported := by
  cases known with
  | none => cases reported <;> simp [mergeTotal, eq_comm]
  | some before =>
    cases reported with
    | none => simp [mergeTotal, eq_comm]
    | some rows =>
      simp only [mergeTotal]
      split <;> simp_all [eq_comm, UInt64.toNat_inj]

private theorem checkIndex_ok_iff :
    checkIndex total index = .ok () ↔ index.toNat ≤ (total.map UInt64.toNat).getD limit := by
  cases total <;> simp only [checkIndex, UInt64.lt_iff_toNat_lt, limit_eq] <;> split <;> simp_all

private theorem updateWord_eq_ok :
    updateWord word reported delta = .ok next ↔
      checkReported reported = .ok () ∧ ∃ total, mergeTotal (wordTotal word) reported = .ok total ∧
        checkIndex total (saturatingAdd (wordIndex word) delta) = .ok () ∧
          packRows total (saturatingAdd (wordIndex word) delta) = next := by
  simp only [updateWord, bind, Except.bind, pure, Except.pure]
  cases checkReported reported with
  | error refusal => simp
  | ok _ =>
    cases mergeTotal (wordTotal word) reported with
    | error refusal => simp
    | ok total =>
      cases checked : checkIndex total (saturatingAdd (wordIndex word) delta) <;>
        simp [checked]

theorem or_map_toNat (known reported : Option UInt64) :
    (known.or reported).map UInt64.toNat =
      (known.map UInt64.toNat).or (reported.map UInt64.toNat) := by
  cases known <;> rfl

/-- The total that a report leaves is tracked. -/
theorem total_le_limit (tracked : (ofWord word).Tracked)
    (agrees : (ofWord word).Agrees (reported.map UInt64.toNat)) :
    (((wordTotal word).or reported).map UInt64.toNat).getD limit ≤ limit := by
  have within := tracked.bound_le
  simp only [bound, ofWord] at within
  cases known : wordTotal word with
  | some rows => simpa [known] using within
  | none =>
    cases reported with
    | none => simp
    | some rows => simpa using (agrees rows.toNat rfl).1

/-- A total within the limit leaves no room for a saturated sum. -/
private theorem within_iff (tracked : (ofWord word).Tracked)
    (agrees : (ofWord word).Agrees (reported.map UInt64.toNat)) :
    (saturatingAdd (wordIndex word) delta).toNat ≤
        (((wordTotal word).or reported).map UInt64.toNat).getD limit ↔
      (ofWord word).index + delta.toNat ≤
        ((ofWord word).add (reported.map UInt64.toNat) delta.toNat).bound := by
  have limited := total_le_limit tracked agrees
  have small : limit < 18446744073709551615 := by decide
  rw [saturatingAdd_toNat]
  simp only [bound, Rows.add, ofWord, ← or_map_toNat]
  omega

private theorem updateWord_eq_packRows (tracked : (ofWord word).Tracked) :
    updateWord word reported delta = .ok next ↔
      (ofWord word).Accepts (reported.map UInt64.toNat) delta.toNat ∧
        packRows ((wordTotal word).or reported) (saturatingAdd (wordIndex word) delta) = next := by
  rw [updateWord_eq_ok]
  simp only [checkReported_ok_iff, mergeTotal_ok_iff, checkIndex_ok_iff]
  constructor
  · rintro ⟨tracks, _, ⟨agree, rfl⟩, within, rfl⟩
    have agrees : (ofWord word).Agrees (reported.map UInt64.toNat) := fun rows member =>
      ⟨tracks rows member, agree rows member⟩
    exact ⟨⟨agrees, (within_iff tracked agrees).mp within⟩, rfl⟩
  · rintro ⟨accepts, rfl⟩
    exact ⟨fun rows member => (accepts.agrees rows member).1, _,
      ⟨fun rows member => (accepts.agrees rows member).2, rfl⟩,
      (within_iff tracked accepts.agrees).mpr accepts.within, rfl⟩

private theorem ofWord_updated (tracked : (ofWord word).Tracked)
    (accepts : (ofWord word).Accepts (reported.map UInt64.toNat) delta.toNat) :
    ofWord (packRows ((wordTotal word).or reported) (saturatingAdd (wordIndex word) delta)) =
      (ofWord word).add (reported.map UInt64.toNat) delta.toNat := by
  obtain ⟨index_le, bound_le⟩ := tracked.add accepts
  have top := Nat.le_trans index_le bound_le
  simp only [Rows.add, ofWord, limit] at top
  have exact_sum : (saturatingAdd (wordIndex word) delta).toNat =
      (wordIndex word).toNat + delta.toNat := by
    rw [saturatingAdd_toNat]
    omega
  have kept : ∀ rows ∈ (wordTotal word).or reported, rows.toNat ≤ limit := by
    intro rows member
    simp only [bound, Rows.add, ofWord, ← or_map_toNat] at bound_le
    rw [Option.mem_def.mp member] at bound_le
    simpa using bound_le
  rw [ofWord_packRows _ _ kept (by omega)]
  simp only [Rows.add, ofWord, exact_sum, or_map_toNat]

/-- A word takes exactly the reports that can be recorded, and then says what they add up to. -/
theorem updateWord_ok_iff (tracked : (ofWord word).Tracked) :
    updateWord word reported delta = .ok next ↔
      (ofWord word).Accepts (reported.map UInt64.toNat) delta.toNat ∧
        ofWord next = (ofWord word).add (reported.map UInt64.toNat) delta.toNat := by
  rw [updateWord_eq_packRows tracked]
  refine and_congr_right fun accepts => ⟨?_, fun reads => ?_⟩
  · rintro rfl
    exact ofWord_updated tracked accepts
  · exact ofWord_injective ((ofWord_updated tracked accepts).trans reads.symm)

theorem updateWord_isOk_iff (tracked : (ofWord word).Tracked) :
    (∃ next, updateWord word reported delta = .ok next) ↔
      (ofWord word).Accepts (reported.map UInt64.toNat) delta.toNat := by
  simp [updateWord_eq_packRows tracked]

end JointQuery
