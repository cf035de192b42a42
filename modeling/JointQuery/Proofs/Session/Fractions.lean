import JointQuery.Proofs.Decimal.Arithmetic
import JointQuery.Proofs.Session.Counters
import JointQuery.Proofs.Session.Growth

/-! The scanned part of a tuple's rows, as an exact ratio and as the double that is reported. While
the rows are tracked all sums are small enough for both words and doubles, so that the double is the
ratio, rounded once. No index goes beyond its total: the ratio is one only when both parties are
done, and it does not fall, since a total counts for nothing until both are known. -/
namespace JointQuery

namespace ProgressSlot

open Decimal (exactValue isFinite overflowPoint Rounds)

variable {slot before after : ProgressSlot} {a b i j : ℕ}

/-- The scanned part of all rows of both parties, exactly: one if there are no rows, and zero while
a total is unknown. -/
def ratio (slot : ProgressSlot) : ℚ :=
  match (slot.rows .db1).total, (slot.rows .db2).total with
  | some a, some b =>
    if a + b = 0 then 1 else ((slot.rows .db1).index + (slot.rows .db2).index : ℕ) / (a + b : ℕ)
  | _, _ => 0

/-- Both totals are known; the parties have so many rows, and have scanned so many of them. -/
structure Counted (slot : ProgressSlot) (a b i j : ℕ) : Prop where
  first : slot.rows .db1 = ⟨some a, i⟩
  second : slot.rows .db2 = ⟨some b, j⟩

private theorem counted_or (slot : ProgressSlot) :
    (∃ a b i j, slot.Counted a b i j) ∨ ∃ db, (slot.rows db).total = none := by
  cases first : (slot.rows .db1).total with
  | none => exact .inr ⟨.db1, first⟩
  | some a =>
    cases second : (slot.rows .db2).total with
    | none => exact .inr ⟨.db2, second⟩
    | some b => exact .inl ⟨a, b, _, _, ⟨by rw [← first], by rw [← second]⟩⟩

private theorem Counted.ratio_eq (counted : slot.Counted a b i j) :
    slot.ratio = if a + b = 0 then 1 else ((i + j : ℕ) : ℚ) / (a + b : ℕ) := by
  simp only [ratio, counted.first, counted.second]

private theorem ratio_of_unknown {db : Holder} (unknown : (slot.rows db).total = none) :
    slot.ratio = 0 := by
  unfold ratio
  cases db with
  | db1 => rw [unknown]
  | db2 =>
    rw [unknown]
    split
    · rename_i absurdity
      cases absurdity
    · rfl

/-- The index of a party stays within its total, and that within what is tracked. -/
theorem Counted.bounds (counted : slot.Counted a b i j) (tracked : slot.Tracked) :
    i ≤ a ∧ a ≤ Rows.limit ∧ j ≤ b ∧ b ≤ Rows.limit := by
  have first := tracked .db1
  have second := tracked .db2
  rw [counted.first] at first
  rw [counted.second] at second
  exact ⟨first.index_le, first.bound_le, second.index_le, second.bound_le⟩

private theorem Counted.isSaturated_iff (counted : slot.Counted a b i j) :
    slot.isSaturated = true ↔ a = i ∧ b = j := by
  rw [ProgressSlot.isSaturated_iff]
  constructor
  · intro saturated
    have first := saturated .db1
    have second := saturated .db2
    rw [counted.first] at first
    rw [counted.second] at second
    exact ⟨Option.some.inj first, Option.some.inj second⟩
  · rintro ⟨rfl, rfl⟩ db
    cases db with
    | db1 => rw [counted.first]; rfl
    | db2 => rw [counted.second]; rfl

/-! ## The ratio -/

private theorem ratio_nonneg (slot : ProgressSlot) : 0 ≤ slot.ratio := by
  rcases slot.counted_or with ⟨a, b, i, j, counted⟩ | ⟨db, unknown⟩
  · rw [counted.ratio_eq]
    split <;> positivity
  · rw [ratio_of_unknown unknown]

/-- A ratio short of one is so by at least one row of all that can be tracked. -/
theorem ratio_cases (tracked : slot.Tracked) :
    slot.ratio = 1 ∧ slot.isSaturated = true ∨
      slot.ratio ≤ 1 - 1 / 2 ^ 33 ∧ slot.isSaturated = false := by
  rcases slot.counted_or with ⟨a, b, i, j, counted⟩ | ⟨db, unknown⟩
  · obtain ⟨scanned, small, otherScanned, otherSmall⟩ := counted.bounds tracked
    rw [counted.ratio_eq, ← Bool.not_eq_true, counted.isSaturated_iff]
    split
    · exact .inl ⟨rfl, by omega⟩
    · rename_i some_row
      have positive : (0 : ℚ) < (a + b : ℕ) := by exact_mod_cast Nat.pos_of_ne_zero some_row
      by_cases all : a = i ∧ b = j
      · obtain ⟨rfl, rfl⟩ := all
        exact .inl ⟨div_self positive.ne', rfl, rfl⟩
      · right
        refine ⟨?_, all⟩
        have short : ((i + j : ℕ) : ℚ) + 1 ≤ (a + b : ℕ) := by exact_mod_cast (by omega)
        have few : ((a + b : ℕ) : ℚ) ≤ 2 ^ 33 := by
          unfold Rows.limit at small otherSmall
          exact_mod_cast (by omega : a + b ≤ 2 ^ 33)
        rw [div_le_iff₀ positive, sub_mul, one_mul]
        have row : (1 : ℚ) / 2 ^ 33 * (a + b : ℕ) ≤ 1 := by
          rw [one_div_mul_eq_div, div_le_one (by positivity)]
          exact few
        linarith
  · refine .inr ⟨?_, ?_⟩
    · rw [ratio_of_unknown unknown]
      norm_num
    · rw [← Bool.not_eq_true, ProgressSlot.isSaturated_iff]
      intro saturated
      have known := saturated db
      rw [Rows.Saturated, unknown] at known
      cases known

private theorem ratio_le_one (tracked : slot.Tracked) : slot.ratio ≤ 1 := by
  rcases ratio_cases tracked with ⟨one, -⟩ | ⟨less, -⟩
  · exact one.le
  · exact less.trans (by norm_num)

/-- All rows are scanned exactly when the ratio is one. -/
theorem ratio_eq_one_iff (tracked : slot.Tracked) : slot.ratio = 1 ↔ slot.isSaturated = true := by
  rcases ratio_cases tracked with ⟨one, saturated⟩ | ⟨less, unsaturated⟩
  · simp [one, saturated]
  · have short : slot.ratio < 1 := less.trans_lt (by norm_num)
    simp [short.ne, unsaturated]

private theorem Grows.rows (grows : before.Grows after) (db : Holder) :
    (before.rows db).index ≤ (after.rows db).index ∧
      ∀ total, (before.rows db).total = some total → (after.rows db).total = some total := by
  refine ⟨UInt64.le_iff_toNat_le.mp (grows.rowIndex_le db), fun total known => ?_⟩
  obtain ⟨word, held, rfl⟩ := Option.map_eq_some_iff.mp known
  exact congrArg (Option.map UInt64.toNat) (grows.rowCount db word held)

/-- Progress from which nothing is taken back does not lower the ratio. -/
theorem Grows.ratio_le (grows : before.Grows after) : before.ratio ≤ after.ratio := by
  rcases before.counted_or with ⟨a, b, i, j, counted⟩ | ⟨db, unknown⟩
  · obtain ⟨firstLe, firstKept⟩ := grows.rows .db1
    obtain ⟨secondLe, secondKept⟩ := grows.rows .db2
    rw [counted.first] at firstLe firstKept
    rw [counted.second] at secondLe secondKept
    have later : after.Counted a b (after.rows .db1).index (after.rows .db2).index :=
      ⟨by rw [← firstKept a rfl], by rw [← secondKept b rfl]⟩
    rw [counted.ratio_eq, later.ratio_eq]
    split
    · exact le_rfl
    · have more : ((i + j : ℕ) : ℚ) ≤
          ((after.rows .db1).index + (after.rows .db2).index : ℕ) := by
        exact_mod_cast Nat.add_le_add firstLe secondLe
      exact div_le_div_of_nonneg_right more (by positivity)
  · rw [ratio_of_unknown unknown]
    exact after.ratio_nonneg

private theorem grows_perform (tracked : slot.Tracked) (call : RowCall) :
    slot.Grows (slot.perform call).1 := by
  simp only [perform, record_eq]
  cases updated : slot.update call.db call.entry.rowCount call.entry.rowDelta with
  | ok next => exact grows_update tracked updated
  | error => exact .refl slot

/-- Calls take nothing back, accepted or not. -/
theorem grows_performed (tracked : slot.Tracked) (calls : List RowCall) :
    slot.Grows (slot.performed calls) := by
  induction calls generalizing slot with
  | nil => exact .refl slot
  | cons call rest ih => exact (grows_perform tracked call).trans (ih (tracked.perform call))

/-! ## The double that is reported -/

/-- The sums are exact. -/
theorem Counted.scanned (counted : slot.Counted a b i j) (tracked : slot.Tracked) :
    ∃ done total, slot.scanned = some (done, total) ∧ done.toNat = i + j ∧ total.toNat = a + b := by
  obtain ⟨inside, small, otherInside, otherSmall⟩ := counted.bounds tracked
  obtain ⟨first, firstKnown, rfl⟩ := Option.map_eq_some_iff.mp (congrArg Rows.total counted.first)
  obtain ⟨second, secondKnown, rfl⟩ :=
    Option.map_eq_some_iff.mp (congrArg Rows.total counted.second)
  obtain rfl : (slot.rowIndex .db1).toNat = i := congrArg Rows.index counted.first
  obtain rfl : (slot.rowIndex .db2).toNat = j := congrArg Rows.index counted.second
  refine ⟨slot.rowIndex .db1 + slot.rowIndex .db2, first + second, ?_, ?_, ?_⟩
  · have known : slot.rowCount .db1 = some first := firstKnown
    have otherKnown : slot.rowCount .db2 = some second := secondKnown
    simp only [ProgressSlot.scanned, known, otherKnown]
  · rw [UInt64.toNat_add]
    unfold Rows.limit at small otherSmall
    omega
  · rw [UInt64.toNat_add]
    unfold Rows.limit at small otherSmall
    omega

private theorem fraction_of_unknown {db : Holder} (unknown : (slot.rows db).total = none) :
    slot.fraction = (0 : UInt64).toFloat := by
  have unknownWord : slot.rowCount db = none := Option.map_eq_none_iff.mp unknown
  have nothing : slot.scanned = none := by
    unfold ProgressSlot.scanned
    cases db with
    | db1 => simp [unknownWord]
    | db2 => cases slot.rowCount .db1 <;> simp [unknownWord]
  rw [fraction, nothing]
  rfl

/-- What is reported is the ratio, rounded. -/
theorem fraction_rounds (tracked : slot.Tracked) :
    isFinite slot.fraction = true ∧ Rounds slot.ratio (exactValue slot.fraction) := by
  rcases slot.counted_or with ⟨a, b, i, j, counted⟩ | ⟨db, unknown⟩
  · obtain ⟨done, total, scanned, doneSum, totalSum⟩ := counted.scanned tracked
    have none_iff : total = 0 ↔ a + b = 0 := by
      rw [← UInt64.toNat_inj, totalSum]
      rfl
    rw [counted.ratio_eq, fraction, scanned]
    simp only [none_iff]
    split
    · exact Decimal.rounds_toFloat 1
    · rename_i some_row
      obtain ⟨inside, small, otherInside, otherSmall⟩ := counted.bounds tracked
      unfold Rows.limit at small otherSmall
      have sum := Decimal.size_toFloat (by omega : done.toNat ≤ 2 ^ 53)
      have all := Decimal.size_toFloat (by omega : total.toNat ≤ 2 ^ 53)
      have positive : (0 : ℚ) < (a + b : ℕ) := by exact_mod_cast Nat.pos_of_ne_zero some_row
      rw [doneSum] at sum
      rw [totalSum] at all
      obtain ⟨approximates, sign⟩ := Decimal.approximates_div (Decimal.isFinite_toFloat done)
        (Decimal.isFinite_toFloat total) (by rw [all]; exact positive.ne')
      rw [sum, all] at approximates
      rw [(Decimal.approximates_toFloat done).2, (Decimal.approximates_toFloat total).2] at sign
      refine approximates.rounds sign (lt_of_le_of_lt ?_ (Decimal.natCast_lt (by decide : 1 ≤ _)))
      rw [div_le_iff₀ positive]
      exact_mod_cast (by omega : i + j ≤ 1 * (a + b))
  · rw [ratio_of_unknown unknown, fraction_of_unknown unknown]
    exact Decimal.rounds_toFloat 0

private theorem held_one : Decimal.Held 1 := ⟨1, 0, by decide, by decide, by norm_num⟩

private theorem held_short : Decimal.Held (1 - 1 / 2 ^ 33) :=
  ⟨2 ^ 33 - 1, -33, by decide, by decide, by norm_num⟩

/-- What is reported is one exactly when all rows are scanned. -/
theorem fraction_eq_one_iff (tracked : slot.Tracked) :
    exactValue slot.fraction = 1 ↔ slot.isSaturated = true := by
  obtain ⟨-, rounds⟩ := fraction_rounds tracked
  rcases ratio_cases tracked with ⟨one, saturated⟩ | ⟨less, unsaturated⟩
  · rw [one] at rounds
    simp [rounds.eq_of_held held_one, saturated]
  · have short := (rounds.le_of_held held_short less).trans_lt
      (by norm_num : (1 : ℚ) - 1 / 2 ^ 33 < 1)
    simp [short.ne, unsaturated]

/-- How the progress of a slot is reported. -/
structure SoundFraction (slot : ProgressSlot) : Prop where
  /-- The sums of the words are those of the numbers, and small. -/
  sums : ∀ a b, (slot.rows .db1).total = some a → (slot.rows .db2).total = some b →
    ∃ done total, slot.scanned = some (done, total) ∧
      done.toNat = (slot.rows .db1).index + (slot.rows .db2).index ∧ total.toNat = a + b ∧
      done.toNat < 2 ^ 33 ∧ total.toNat < 2 ^ 33
  ratio_nonneg : 0 ≤ slot.ratio
  ratio_le_one : slot.ratio ≤ 1
  ratio_eq_one : slot.ratio = 1 ↔ slot.isSaturated = true
  /-- The double is the ratio, rounded. -/
  rounds : isFinite slot.fraction = true ∧ Rounds slot.ratio (exactValue slot.fraction)
  fraction_nonneg : 0 ≤ exactValue slot.fraction
  fraction_le_one : exactValue slot.fraction ≤ 1
  fraction_eq_one : exactValue slot.fraction = 1 ↔ slot.isSaturated = true

theorem Tracked.soundFraction (tracked : slot.Tracked) : slot.SoundFraction where
  sums a b first second := by
    have counted : slot.Counted a b _ _ := ⟨by rw [← first], by rw [← second]⟩
    obtain ⟨done, total, scanned, sum, all⟩ := counted.scanned tracked
    have bounds := counted.bounds tracked
    unfold Rows.limit at bounds
    exact ⟨done, total, scanned, sum, all, by omega, by omega⟩
  ratio_nonneg := slot.ratio_nonneg
  ratio_le_one := ratio_le_one tracked
  ratio_eq_one := ratio_eq_one_iff tracked
  rounds := fraction_rounds tracked
  fraction_nonneg := (fraction_rounds tracked).2.nonneg
  fraction_le_one := (fraction_rounds tracked).2.le_of_held held_one (ratio_le_one tracked)
  fraction_eq_one := fraction_eq_one_iff tracked

/-- No less is reported of a later slot than of an earlier one. -/
def NoLess (earlier later : ProgressSlot) : Prop :=
  earlier.ratio ≤ later.ratio ∧ exactValue earlier.fraction ≤ exactValue later.fraction

theorem Grows.noLess (grows : before.Grows after) (tracked : before.Tracked)
    (later : after.Tracked) : before.NoLess after :=
  ⟨grows.ratio_le, Rounds.mono grows.ratio_le (fraction_rounds tracked).2
    (fraction_rounds later).2⟩

/-! ## Readings -/

/-- Fractions that were read off a slot one after another, while it grew to what it is. -/
def Read (slot : ProgressSlot) (fractions : List Float) : Prop :=
  ∃ history : List ProgressSlot, fractions = history.map fraction ∧
    (∀ past ∈ history, past.Tracked) ∧ (history ++ [slot]).Pairwise Grows

theorem read_nil (slot : ProgressSlot) : slot.Read [] := ⟨[], rfl, by simp, by simp⟩

variable {fractions more : List Float}

theorem Read.grows (read : before.Read fractions) (grows : before.Grows after) :
    after.Read fractions := by
  obtain ⟨history, same, tracked, ordered⟩ := read
  rw [List.pairwise_append] at ordered
  obtain ⟨ordered, -, current⟩ := ordered
  refine ⟨history, same, tracked, List.pairwise_append.mpr ⟨ordered, by simp, ?_⟩⟩
  intro past member last equal
  rw [List.mem_singleton] at equal
  exact equal ▸ (current past member before (by simp)).trans grows

/-- One more reading. -/
theorem Read.snoc (read : slot.Read fractions) (tracked : slot.Tracked) :
    slot.Read (fractions ++ [slot.fraction]) := by
  obtain ⟨history, rfl, all, ordered⟩ := read
  refine ⟨history ++ [slot], by simp, ?_, ?_⟩
  · intro past member
    rcases List.mem_append.mp member with old | new
    · exact all past old
    · rw [List.mem_singleton] at new
      exact new ▸ tracked
  · refine List.pairwise_append.mpr ⟨ordered, by simp, ?_⟩
    intro past member last equal
    rw [List.mem_singleton] at equal
    rw [equal]
    rcases List.mem_append.mp member with old | new
    · exact (List.pairwise_append.mp ordered).2.2 past old slot (by simp)
    · rw [List.mem_singleton] at new
      exact new ▸ .refl slot

theorem Read.of_append (read : slot.Read (fractions ++ more)) : slot.Read fractions := by
  obtain ⟨history, same, all, ordered⟩ := read
  obtain ⟨first, rest, rfl, rfl, -⟩ := List.append_eq_map_iff.mp same
  refine ⟨first, rfl, fun past member => all past (List.mem_append_left _ member), ?_⟩
  refine ordered.sublist ?_
  exact (List.sublist_append_left first rest).append_right [slot]

end ProgressSlot

namespace Session

variable {session before after : Session}

/-- The row progress of a tuple. -/
def progressAt (session : Session) (tuple : ℕ) : ProgressSlot :=
  match session.slot? tuple with
  | some slot => slot.progress
  | none => .fresh

theorem tupleFraction_eq (session : Session) (tuple : ℕ) :
    session.tupleFraction tuple = (session.progressAt tuple).fraction := by
  unfold tupleFraction progressAt
  cases session.slot? tuple <;> rfl

theorem Sound.tracked_progressAt (sound : session.Sound) (tuple : ℕ) :
    (session.progressAt tuple).Tracked := by
  unfold progressAt
  split
  · rename_i slot found
    exact (sound.slots slot (List.mem_of_getElem? found)).tracked
  · exact ProgressSlot.tracked_fresh

theorem Advances.progressAt (advances : before.Advances after) (tuple : ℕ) :
    (before.progressAt tuple).Grows (after.progressAt tuple) := by
  cases found : before.slot? tuple with
  | none =>
    have beyond : after.slot? tuple = none := by
      rw [slot?, List.getElem?_eq_none_iff] at found ⊢
      exact advances.tupleCount.trans_le found
    simp only [Session.progressAt, found, beyond]
    exact .refl _
  | some slot =>
    obtain ⟨next, held, grows⟩ := advances.slots tuple slot found
    simp only [Session.progressAt, found, held]
    exact grows.progress

end Session

end JointQuery
