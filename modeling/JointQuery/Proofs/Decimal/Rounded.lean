import JointQuery.Decimal.Rounding
import JointQuery.Proofs.Decimal.Arithmetic

/-! Rounding to decimal places. Scaling up is the only step that can leave the doubles: the factor is
a whole number that a double holds exactly, rounding to a whole number keeps a double finite, and
scaling down makes nothing larger. -/
namespace JointQuery.Decimal

variable {value : Float}

private theorem scaleFactor_parts (scale : ℕ) : isFinite (scaleFactor scale) = true ∧
    size (scaleFactor scale) = 10 ^ min scale maxScale := by
  have small : 10 ^ min scale maxScale ≤ 10 ^ 15 :=
    Nat.pow_le_pow_right (by decide) (Nat.min_le_right _ _)
  have word : (Nat.pow 10 (min scale maxScale)).toUInt64.toNat = 10 ^ min scale maxScale :=
    UInt64.toNat_ofNat_of_lt' (by simp only [Nat.pow_eq, UInt64.size]; omega)
  refine ⟨isFinite_toFloat _, ?_⟩
  rw [scaleFactor, size_toFloat (by omega), word, Nat.cast_pow, Nat.cast_ofNat]

/-- A double is rounded to an integral one that is finite if it is finite itself. -/
theorem isFinite_nearestIntegral (value : Float) :
    isFinite (nearestIntegral value) = isFinite value := by
  unfold nearestIntegral
  split
  · rfl
  · rename_i small
    have finite : isFinite value = true := by
      rw [isFinite_iff]
      omega
    rw [finite]
    unfold withSign
    split
    · exact isFinite_neg (isFinite_toFloat _)
    · exact isFinite_toFloat _

/-- A finite value is rounded to a finite one exactly when scaling it up stays below the middle
between the largest double and the power of two that would come next. -/
theorem isFinite_roundToScale_iff (finite : isFinite value = true) (scale : ℕ) :
    isFinite (roundToScale value scale) = true ↔
      size value * 10 ^ min scale maxScale < overflowPoint := by
  obtain ⟨factorFinite, factor⟩ := scaleFactor_parts scale
  have scaled := approximates_mul finite factorFinite
  rw [← factor, ← scaled.isFinite_iff, ← isFinite_nearestIntegral (value * scaleFactor scale),
    roundToScale]
  cases up : isFinite (nearestIntegral (value * scaleFactor scale)) with
  | false => simp [isFinite_div_of_not up factorFinite]
  | true =>
    have one : (1 : ℚ) ≤ size (scaleFactor scale) := by
      rw [factor]
      exact one_le_pow₀ (by norm_num)
    have divided := (approximates_div up factorFinite (by linarith)).1
    have smaller : size (nearestIntegral (value * scaleFactor scale)) / size (scaleFactor scale) <
        overflowPoint := lt_of_le_of_lt (div_le_self (size_nonneg _) one) (size_lt up)
    simpa only [divided.isFinite_iff, iff_true] using smaller

end JointQuery.Decimal
