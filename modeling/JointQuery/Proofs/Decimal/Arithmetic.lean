import JointQuery.Proofs.Decimal.Unpacked
import Mathlib.Tactic.FieldSimp

/-! Products and quotients of doubles, and whole numbers as doubles. Each is the exact result rounded
to 53 bits; where that is beyond every double, so is the result. What is cut off on the way is kept
as two bits, which say on which side of the middle it lies. -/
namespace JointQuery.Decimal

open Float.Model (Format UnpackedFloat totalExponent)
open Float.Model.UnpackedFloat (Accuracy ExtendedMantissa Sign roundWithAccuracy shiftToExponent
  shiftToTargetExponent)

/-! ## Cutting -/

/-- A number and what is left of it when its fraction is cut: the whole part, the first bit that is
lost, and whether anything is lost behind that. -/
def Cuts (cut : ExtendedMantissa) (y : ℚ) : Prop :=
  match cut.roundBit, cut.stickyBit with
  | false, false => y = cut.mantissa
  | false, true => cut.mantissa < y ∧ y < cut.mantissa + 1 / 2
  | true, false => y = cut.mantissa + 1 / 2
  | true, true => cut.mantissa + 1 / 2 < y ∧ y < cut.mantissa + 1

variable {cut : ExtendedMantissa} {accuracy : Accuracy} {x y : ℚ} {m n : ℕ} {e : ℤ}

private theorem Cuts.floor (cuts : Cuts cut y) : cut.mantissa ≤ y ∧ y < cut.mantissa + 1 := by
  obtain ⟨m, round, sticky⟩ := cut
  cases round <;> cases sticky <;> simp only [Cuts] at cuts ⊢ <;> constructor <;> linarith

/-- What a shift by one place cuts. -/
theorem Cuts.half (cuts : Cuts cut y) : Cuts cut.shiftRightOne (y / 2) := by
  obtain ⟨m, round, sticky⟩ := cut
  have split : ((m : ℕ) : ℚ) = 2 * (m / 2 : ℕ) + (m % 2 : ℕ) := by
    exact_mod_cast (Nat.div_add_mod m 2).symm
  rcases Nat.mod_two_eq_zero_or_one m with even | odd
  · rw [even, Nat.cast_zero] at split
    cases round <;> cases sticky <;>
      simp only [Cuts, ExtendedMantissa.shiftRightOne, even, bne_self_eq_false, Bool.or_false,
        Bool.or_true] at cuts ⊢
    · linarith
    all_goals constructor <;> linarith
  · have lost : ((1 : ℕ) != 0) = true := rfl
    rw [odd, Nat.cast_one] at split
    cases round <;> cases sticky <;>
      simp only [Cuts, ExtendedMantissa.shiftRightOne, odd, lost, Bool.or_false,
        Bool.or_true] at cuts ⊢
    · linarith
    all_goals constructor <;> linarith

private theorem Cuts.shiftRight (cuts : Cuts cut y) (n : ℕ) : Cuts (cut >>> n) (y / 2 ^ n) := by
  change Cuts (n.repeat ExtendedMantissa.shiftRightOne cut) _
  induction n with
  | zero => simpa [Nat.repeat] using cuts
  | succ n ih =>
    rw [pow_succ, ← div_div]
    exact ih.half

/-- What is rounded is the nearest whole number. -/
theorem Cuts.nearest (cuts : Cuts cut y) : NearestWhole y cut.roundedMantissa := by
  obtain ⟨m, round, sticky⟩ := cut
  unfold NearestWhole
  cases round <;> cases sticky <;>
    simp only [Cuts, ExtendedMantissa.roundedMantissa, ExtendedMantissa.accuracy,
      Accuracy.roundToNearestEven] at cuts ⊢
  · left
    rw [cuts, sub_self, abs_zero]
    norm_num
  · left
    rw [abs_lt]
    constructor <;> linarith
  · right
    rcases Nat.mod_two_eq_zero_or_one m with even | odd
    · rw [even, cuts]
      refine ⟨?_, Nat.even_iff.mpr even⟩
      rw [Nat.add_zero, add_sub_cancel_left]
      norm_num
    · rw [odd, cuts]
      refine ⟨?_, Nat.even_iff.mpr (by omega)⟩
      push_cast
      rw [abs_of_neg (by linarith)]
      linarith
  · left
    push_cast
    rw [abs_lt]
    constructor <;> linarith

/-! ## Rounding -/

/-- The unit to which a mantissa is shifted: one that leaves it 53 bits, or fewer at the smallest
unit, but none below its own. -/
def unitOf (m : ℕ) (e : ℤ) : ℤ := max e (max (m.log2 + 1 + e - 53) (-1074))

/-- A shift to a unit cuts what lies below it. -/
theorem Cuts.shift (cuts : Cuts (.ofMantissaAndAccuracy m accuracy) (x / 2 ^ e)) :
    ∃ rest, shiftToTargetExponent .binary64 m e accuracy = (rest, unitOf m e) ∧
      Cuts rest (x / 2 ^ unitOf m e) := by
  have places : e + (max (m.log2 + 1 + e - 53) (-1074) - e).toNat = unitOf m e := by
    unfold unitOf
    omega
  refine ⟨ExtendedMantissa.ofMantissaAndAccuracy m accuracy >>>
    (max (m.log2 + 1 + e - 53) (-1074) - e).toNat, Prod.ext rfl places, ?_⟩
  rw [← places, zpow_add₀ two_ne_zero, zpow_natCast, ← div_div]
  exact cuts.shiftRight _

private theorem cuts_whole (m : ℕ)
    (e : ℤ) : Cuts (.ofMantissaAndAccuracy m .exact) (m * 2 ^ e / 2 ^ e) :=
  mul_div_cancel_right₀ _ (by positivity)

/-- A cut number with 53 bits before the point, or one that is cut at the smallest unit or below it,
is measured in the unit to which it is shifted. -/
theorem Cuts.measured (cuts : Cuts (.ofMantissaAndAccuracy m accuracy) (x / 2 ^ e))
    (enough : 52 ≤ m.log2 ∨ e ≤ -1074) :
    ∃ rest, shiftToTargetExponent .binary64 m e accuracy = (rest, unitOf m e) ∧
      Measured x (unitOf m e) rest.roundedMantissa := by
  obtain ⟨rest, shifted, cut⟩ := cuts.shift
  refine ⟨rest, shifted, ?_⟩
  have unit : (0 : ℚ) < 2 ^ e := by positivity
  have kept : (ExtendedMantissa.ofMantissaAndAccuracy m accuracy).mantissa = m := by
    unfold ExtendedMantissa.ofMantissaAndAccuracy
    split <;> rfl
  obtain ⟨low, high⟩ := cuts.floor
  rw [kept] at low high
  rw [le_div_iff₀ unit] at low
  rw [div_lt_iff₀ unit] at high
  have top : ((m : ℚ) + 1) ≤ 2 ^ (m.log2 + 1) := by exact_mod_cast Nat.lt_log2_self
  refine ⟨le_trans (by positivity) low, by unfold unitOf; omega, ?_, ?_, cut.nearest⟩
  · calc x < (m + 1) * 2 ^ e := high
      _ ≤ 2 ^ (m.log2 + 1) * 2 ^ e := mul_le_mul_of_nonneg_right top unit.le
      _ = 2 ^ ((m.log2 + 1 : ℕ) + e : ℤ) := by rw [zpow_add₀ two_ne_zero, zpow_natCast]
      _ ≤ 2 ^ (53 + unitOf m e) :=
        zpow_le_zpow_right₀ one_le_two (by unfold unitOf; push_cast; omega)
      _ = 2 ^ 53 * 2 ^ unitOf m e := by rw [zpow_add₀ two_ne_zero, zpow_ofNat]
  · by_cases smallest : unitOf m e = -1074
    · exact .inr smallest
    · have bits : 52 + unitOf m e = m.log2 + e ∧ m ≠ 0 := by
        constructor
        · unfold unitOf at smallest ⊢
          omega
        · rintro rfl
          have none : Nat.log2 0 = 0 := rfl
          unfold unitOf at smallest
          omega
      have bottom : (2 : ℚ) ^ m.log2 ≤ m := by exact_mod_cast Nat.log2_self_le bits.2
      left
      calc (2 : ℚ) ^ 52 * 2 ^ unitOf m e = 2 ^ (52 + unitOf m e) := by
            rw [zpow_add₀ two_ne_zero, zpow_ofNat]
        _ = 2 ^ m.log2 * 2 ^ e := by rw [bits.1, zpow_add₀ two_ne_zero, zpow_natCast]
        _ ≤ m * 2 ^ e := mul_le_mul_of_nonneg_right bottom unit.le
        _ ≤ x := low

/-- The exact magnitude of a double that is finite. -/
def size (x : Float) : ℚ := (magnitude x).mantissa * 2 ^ (magnitude x).exponent

/-- The exact value of a double that is finite. -/
def exactValue (x : Float) : ℚ := if isNegative x then -size x else size x

private theorem exactValue_of_positive {x : Float} (positive : sign x = .positive) :
    exactValue x = size x := by
  unfold sign at positive
  unfold exactValue
  split at positive
  · cases positive
  · rename_i plain
    rw [if_neg plain]

/-- A double is a magnitude rounded to 53 bits, and not finite if that is beyond all doubles. -/
def Approximates (x : Float) (q : ℚ) : Prop :=
  ∃ r, Rounds q r ∧ (r < 2 ^ 1024 → isFinite x = true ∧ size x = r) ∧
    (2 ^ 1024 ≤ r → isFinite x = false)

/-- A measured number of units in its canonical form; the next power of two takes a larger unit. -/
theorem Measured.canonical {g : ℤ} (measured : Measured x g n) :
    ∃ rest j, shiftToTargetExponent .binary64 n g .exact = (rest, j) ∧
      (rest.mantissa : ℚ) * 2 ^ j = n * 2 ^ g ∧
      (rest.mantissa = 0 ∨ Canonical rest.mantissa j) := by
  have least := measured.least
  have unit : (2 : ℚ) ^ g ≠ 0 := by positivity
  obtain ⟨rest, shifted, cut⟩ := (cuts_whole n g).shift
  have exactly {k : ℕ} (same : (n : ℚ) * 2 ^ g / 2 ^ unitOf n g = k) : rest.mantissa = k := by
    obtain ⟨low, high⟩ := cut.floor
    rw [same] at low high
    have above : rest.mantissa ≤ k := by exact_mod_cast low
    have below : k < rest.mantissa + 1 := by exact_mod_cast high
    omega
  refine ⟨rest, _, shifted, ?_⟩
  rcases Nat.lt_or_eq_of_le measured.le_full with below | top
  · have bits : n.log2 < 53 := by
      rcases Nat.eq_zero_or_pos n with rfl | positive
      · decide
      · exact (Nat.log2_lt positive.ne').mpr below
    have stays : unitOf n g = g := by
      unfold unitOf
      omega
    rw [stays] at exactly ⊢
    rw [exactly (mul_div_cancel_right₀ _ unit)]
    exact ⟨rfl, .inr ⟨least, below, measured.units_full⟩⟩
  · have bits : n.log2 = 53 := by
      rw [top]
      exact Nat.log2_two_pow
    have next : unitOf n g = g + 1 := by
      unfold unitOf
      omega
    have twice : (n : ℚ) * 2 ^ g = (2 ^ 52 : ℕ) * 2 ^ (g + 1) := by
      rw [top, zpow_add_one₀ two_ne_zero]
      push_cast
      ring
    rw [next] at exactly ⊢
    rw [exactly (by rw [twice, mul_div_cancel_right₀ _ (by positivity)])]
    exact ⟨twice.symm, .inr ⟨by omega, by decide, .inl le_rfl⟩⟩

private theorem two_pow_eq : (2 : ℚ) ^ 1024 = 2 ^ (53 + 971 : ℤ) := by
  rw [zpow_add₀ two_ne_zero, zpow_ofNat, zpow_ofNat, ← pow_add]

/-- A magnitude in its canonical form is below the power of two beyond all doubles exactly up to the
largest exponent. -/
theorem Canonical.lt_iff (canonical : Canonical m e) : (m : ℚ) * 2 ^ e < 2 ^ 1024 ↔ e ≤ 971 := by
  obtain ⟨least, below, full⟩ := canonical
  have unit : (0 : ℚ) < 2 ^ e := by positivity
  rw [two_pow_eq]
  constructor
  · intro less
    by_contra large
    have many : (2 : ℚ) ^ 52 ≤ m := by exact_mod_cast full.resolve_right (by omega)
    have reached : (2 : ℚ) ^ (53 + 971 : ℤ) ≤ m * 2 ^ e :=
      calc (2 : ℚ) ^ (53 + 971 : ℤ) ≤ 2 ^ (52 + e) := zpow_le_zpow_right₀ one_le_two (by omega)
        _ = 2 ^ 52 * 2 ^ e := by rw [zpow_add₀ two_ne_zero, zpow_ofNat]
        _ ≤ m * 2 ^ e := mul_le_mul_of_nonneg_right many unit.le
    exact absurd less (not_lt.mpr reached)
  · intro small
    have few : (m : ℚ) < 2 ^ 53 := by exact_mod_cast below
    calc (m : ℚ) * 2 ^ e < 2 ^ 53 * 2 ^ e := mul_lt_mul_of_pos_right few unit
      _ = 2 ^ (53 + e) := by rw [zpow_add₀ two_ne_zero, zpow_ofNat]
      _ ≤ 2 ^ (53 + 971 : ℤ) := zpow_le_zpow_right₀ one_le_two (by omega)

/-- Rounding shifts to the bits that are kept, and once more when they have become too many. -/
private theorem roundWithAccuracy_eq {first last : ExtendedMantissa} {i j : ℤ}
    (shifted : shiftToTargetExponent .binary64 m e accuracy = (first, i))
    (again : shiftToTargetExponent .binary64 first.roundedMantissa i .exact = (last, j))
    (s : Sign) :
    (last.mantissa = 0 ∧ roundWithAccuracy .binary64 s m e accuracy = .zero s) ∨
      ∃ positive : 0 < last.mantissa,
        roundWithAccuracy .binary64 s m e accuracy = .finite s last.mantissa j positive := by
  dsimp only [roundWithAccuracy]
  rw [shifted]
  dsimp only
  rw [again]
  by_cases zero : last.mantissa = 0
  · exact .inl ⟨zero, dif_pos zero⟩
  · exact .inr ⟨Nat.pos_of_ne_zero zero, dif_neg zero⟩

/-- What a cut number is rounded to. -/
theorem Cuts.approximates (cuts : Cuts (.ofMantissaAndAccuracy m accuracy) (x / 2 ^ e))
    (enough : 52 ≤ m.log2 ∨ e ≤ -1074) (s : Sign) :
    Approximates (packed (roundWithAccuracy .binary64 s m e accuracy)) x := by
  obtain ⟨rest, shifted, measured⟩ := cuts.measured enough
  obtain ⟨last, j, again, value, canonical⟩ := measured.canonical
  refine ⟨_, ⟨_, _, measured, rfl⟩, ?_⟩
  rw [← value]
  obtain ⟨zero, rounded⟩ | ⟨positive, rounded⟩ := roundWithAccuracy_eq shifted again s
  · obtain ⟨finite, parts⟩ := packed_zero s
    have positive : (0 : ℚ) < 2 ^ 1024 := by positivity
    rw [rounded, zero, Nat.cast_zero, zero_mul]
    refine ⟨fun _ => ⟨finite, ?_⟩, fun more => absurd positive (not_lt.mpr more)⟩
    rw [size, parts, Nat.cast_zero, zero_mul]
  · have form := canonical.resolve_left positive.ne'
    have made := packed_finite (s := s) positive form
    rw [rounded, ← not_lt, form.lt_iff]
    by_cases small : j ≤ 971
    · rw [if_pos small] at made
      obtain ⟨finite, parts⟩ := made
      refine ⟨fun _ => ⟨finite, ?_⟩, absurd small⟩
      rw [size, parts]
    · rw [if_neg small] at made
      exact ⟨fun less => absurd less small, fun _ => made⟩

/-- Rounding keeps the sign. -/
theorem sign_round (s : Sign) (m : ℕ) (e : ℤ) (accuracy : Accuracy) :
    sign (packed (roundWithAccuracy .binary64 s m e accuracy)) = s := by
  obtain ⟨-, rounded⟩ | ⟨positive, rounded⟩ := roundWithAccuracy_eq rfl rfl s
  · rw [rounded]
    exact (fields_zero s).1
  · rw [rounded]
    exact sign_packed positive

/-! ## Operations -/

section

variable {a b : Float}

private theorem canonical_magnitude (finite : isFinite a = true) :
    Canonical (magnitude a).mantissa (magnitude a).exponent ∧ (magnitude a).exponent ≤ 971 := by
  have fraction := fractionField_lt a
  have exponent := exponentField_lt a
  rw [isFinite_iff] at finite
  unfold magnitude
  split
  · exact ⟨⟨le_rfl, by simp only; omega, .inr rfl⟩, by simp only; omega⟩
  · refine ⟨⟨?_, ?_, .inl ?_⟩, ?_⟩ <;> simp only [Nat.pow_eq] <;> omega

theorem size_nonneg (a : Float) : 0 ≤ size a := by
  unfold size
  positivity

/-- No finite double reaches the middle to the power of two that comes next. -/
theorem size_lt (finite : isFinite a = true) : size a < overflowPoint := by
  obtain ⟨⟨-, below, -⟩, small⟩ := canonical_magnitude finite
  have bits : ((magnitude a).mantissa : ℚ) ≤ 2 ^ 53 - 1 := by
    have whole : ((magnitude a).mantissa : ℚ) + 1 ≤ 2 ^ 53 := by exact_mod_cast below
    linarith
  have unit : (2 : ℚ) ^ (magnitude a).exponent ≤ 2 * 2 ^ 970 := by
    have step := zpow_le_zpow_right₀ (one_le_two : (1 : ℚ) ≤ 2) small
    rwa [zpow_ofNat, pow_succ'] at step
  have positive : (0 : ℚ) < 2 ^ 970 := by positivity
  unfold size overflowPoint
  generalize (2 : ℚ) ^ 970 = last at *
  calc ((magnitude a).mantissa : ℚ) * 2 ^ (magnitude a).exponent
      ≤ (2 ^ 53 - 1) * (2 * last) := mul_le_mul bits unit (by positivity) (by norm_num)
    _ < (2 ^ 54 - 1) * last := by linarith

private theorem approximates_zero (s : Sign) : Approximates (packed (.zero s)) 0 := by
  have cuts : Cuts (.ofMantissaAndAccuracy 0 .exact) (0 / 2 ^ (-1074 : ℤ)) := by
    rw [zero_div]
    exact rfl
  exact cuts.approximates (.inr le_rfl) s

private theorem size_of_empty (empty : (magnitude a).mantissa = 0) : size a = 0 := by
  rw [size, empty, Nat.cast_zero, zero_mul]

/-- A product is the exact product, rounded. -/
theorem approximates_mul (left : isFinite a = true) (right : isFinite b = true) :
    Approximates (a * b) (size a * size b) := by
  have made : a * b = packed (.mul .binary64 a.toModel.unpack b.toModel.unpack) := rfl
  have first := unpacks a
  have second := unpacks b
  rw [made]
  generalize a.toModel.unpack = p at *
  generalize b.toModel.unpack = q at *
  cases first with
  | beyond field => simp [left] at field
  | zero _ empty =>
    rw [size_of_empty empty, zero_mul]
    cases second with
    | beyond field => simp [right] at field
    | zero | finite => exact approximates_zero _
  | finite _ positive =>
    cases second with
    | beyond field => simp [right] at field
    | zero _ empty =>
      rw [size_of_empty empty, mul_zero]
      exact approximates_zero _
    | finite _ other =>
      obtain ⟨⟨-, -, full⟩, -⟩ := canonical_magnitude left
      obtain ⟨⟨-, -, otherFull⟩, -⟩ := canonical_magnitude right
      have product : size a * size b = ((magnitude a).mantissa * (magnitude b).mantissa : ℕ) *
          2 ^ ((magnitude a).exponent + (magnitude b).exponent) := by
        rw [size, size, zpow_add₀ two_ne_zero, Nat.cast_mul]
        ring
      rw [product]
      refine (cuts_whole _ _).approximates ?_ _
      rcases full with many | least
      · refine .inl ((Nat.le_log2 (Nat.mul_pos positive other).ne').mpr ?_)
        exact le_trans many (Nat.le_mul_of_pos_right _ other)
      · rcases otherFull with many | otherLeast
        · refine .inl ((Nat.le_log2 (Nat.mul_pos positive other).ne').mpr ?_)
          exact le_trans many (Nat.le_mul_of_pos_left _ positive)
        · exact .inr (by omega)

/-- A quotient is cut to a whole number, and the remainder says how much is lost. -/
theorem cuts_div {k : ℕ} (positive : 0 < k) :
    Cuts (.ofMantissaAndAccuracy (m / k) (UnpackedFloat.accuracyOfFraction (m % k) k))
      ((m : ℚ) / k) := by
  have divisor : (0 : ℚ) < k := by exact_mod_cast positive
  have parts : (m : ℚ) / k = (m / k : ℕ) + (m % k : ℕ) / k := by
    have split : (m : ℚ) = k * (m / k : ℕ) + (m % k : ℕ) := by
      exact_mod_cast (Nat.div_add_mod m k).symm
    rw [eq_comm, ← mul_div_cancel_left₀ ((m / k : ℕ) : ℚ) divisor.ne', ← add_div, ← split]
  have less : ((m % k : ℕ) : ℚ) / k < 1 := by
    rw [div_lt_one divisor]
    exact_mod_cast Nat.mod_lt m positive
  rw [parts]
  unfold UnpackedFloat.accuracyOfFraction
  generalize m % k = rest at less ⊢
  split
  · rename_i none
    simp [none, Cuts, ExtendedMantissa.ofMantissaAndAccuracy]
  · rename_i some
    have more : 0 < (rest : ℚ) / k := div_pos (by exact_mod_cast Nat.pos_of_ne_zero some) divisor
    cases order : compare (2 * rest) k with
    | lt =>
      have half : (rest : ℚ) / k < 1 / 2 := by
        rw [div_lt_iff₀ divisor]
        have small : (2 : ℚ) * rest < k := by exact_mod_cast Nat.compare_eq_lt.mp order
        linarith
      exact ⟨lt_add_of_pos_right _ more, (add_lt_add_iff_left _).mpr half⟩
    | eq =>
      have half : (rest : ℚ) / k = 1 / 2 := by
        rw [div_eq_iff divisor.ne']
        have same : (2 : ℚ) * rest = k := by exact_mod_cast Nat.compare_eq_eq.mp order
        linarith
      exact congrArg _ half
    | gt =>
      have half : 1 / 2 < (rest : ℚ) / k := by
        rw [lt_div_iff₀ divisor]
        have large : (k : ℚ) < 2 * rest := by exact_mod_cast Nat.compare_eq_gt.mp order
        linarith
      exact ⟨(add_lt_add_iff_left _).mpr half, (add_lt_add_iff_left _).mpr less⟩

/-- A shift adds its places to the bits of a number. -/
theorem two_pow_le_shiftLeft (positive : 0 < n) (k : ℕ) : 2 ^ (n.log2 + k) ≤ n <<< k := by
  rw [Nat.shiftLeft_eq, pow_add]
  exact Nat.mul_le_mul_right _ (Nat.log2_self_le positive.ne')

/-- The exponent to which a dividend is brought, so that the quotient has 53 bits. -/
def dividendExponent (m₁ : ℕ) (e₁ : ℤ) (m₂ : ℕ) (e₂ : ℤ) : ℤ :=
  min (e₁ - e₂) (max (m₁.log2 + 1 + e₁ - (m₂.log2 + 1 + e₂) - 53) (-1074))

private theorem approximates_quotient {m₁ m₂ : ℕ} {e₁ e₂ : ℤ} (s₁ s₂ : Sign) (positive : 0 < m₁)
    (other : 0 < m₂) : Approximates (packed (.div .binary64 (.finite s₁ m₁ e₁ positive)
      (.finite s₂ m₂ e₂ other))) (m₁ * 2 ^ e₁ / (m₂ * 2 ^ e₂)) := by
  obtain ⟨e, exponent⟩ : ∃ e, e = dividendExponent m₁ e₁ m₂ e₂ := ⟨_, rfl⟩
  obtain ⟨k, places⟩ : ∃ k, k = (e₁ - e₂ - e).toNat := ⟨_, rfl⟩
  have made : UnpackedFloat.div .binary64 (.finite s₁ m₁ e₁ positive) (.finite s₂ m₂ e₂ other) =
      roundWithAccuracy .binary64 (s₁ / s₂) (m₁ <<< k / m₂) e
        (UnpackedFloat.accuracyOfFraction (m₁ <<< k % m₂) m₂) := by
    rw [places, exponent]
    rfl
  have below : e ≤ e₁ - e₂ := exponent ▸ min_le_left _ _
  have cuts := cuts_div (m := m₁ <<< k) other
  have quotient : (m₁ * 2 ^ e₁ / (m₂ * 2 ^ e₂) : ℚ) / 2 ^ e = (m₁ <<< k : ℕ) / m₂ := by
    have split : e₁ = k + e + e₂ := by omega
    rw [split, Nat.shiftLeft_eq, zpow_add₀ two_ne_zero, zpow_add₀ two_ne_zero, zpow_natCast]
    push_cast
    field_simp
  rw [← quotient] at cuts
  rw [made]
  refine cuts.approximates ?_ _
  by_cases smallest : e ≤ -1074
  · exact .inr smallest
  · have bits : 53 + m₂.log2 ≤ m₁.log2 + k := by
      unfold dividendExponent at exponent
      omega
    have many : 2 ^ 52 ≤ m₁ <<< k / m₂ := by
      rw [Nat.le_div_iff_mul_le other]
      calc 2 ^ 52 * m₂ ≤ 2 ^ 52 * 2 ^ (m₂.log2 + 1) := Nat.mul_le_mul_left _ Nat.lt_log2_self.le
        _ = 2 ^ (53 + m₂.log2) := by rw [← pow_add]; congr 1; omega
        _ ≤ 2 ^ (m₁.log2 + k) := Nat.pow_le_pow_right two_pos bits
        _ ≤ m₁ <<< k := two_pow_le_shiftLeft positive k
    exact .inl ((Nat.le_log2 (by omega)).mpr many)

/-- A quotient is the exact quotient, rounded, with the sign of the exact one. -/
theorem approximates_div (left : isFinite a = true) (right : isFinite b = true)
    (nonzero : size b ≠ 0) :
    Approximates (a / b) (size a / size b) ∧ sign (a / b) = sign a / sign b := by
  have made : a / b = packed (.div .binary64 a.toModel.unpack b.toModel.unpack) := rfl
  have first := unpacks a
  have second := unpacks b
  rw [made]
  generalize a.toModel.unpack = p at *
  generalize b.toModel.unpack = q at *
  cases second with
  | beyond field => simp [right] at field
  | zero _ empty => exact absurd (size_of_empty empty) nonzero
  | finite _ other =>
    cases first with
    | beyond field => simp [left] at field
    | zero _ empty =>
      rw [size_of_empty empty, zero_div]
      exact ⟨approximates_zero _, (fields_zero _).1⟩
    | finite _ positive => exact ⟨approximates_quotient _ _ positive other, sign_round ..⟩

/-- A whole number as a double is rounded. -/
theorem approximates_toFloat (n : UInt64) :
    Approximates n.toFloat n.toNat ∧ sign n.toFloat = .positive := by
  have made : n.toFloat = packed (.normalize .binary64 n.toNat 0 .positive) := rfl
  rw [made, UnpackedFloat.normalize]
  generalize n.toNat = n
  rcases Nat.eq_zero_or_pos n with rfl | positive
  · exact ⟨approximates_zero .positive, (fields_zero _).1⟩
  · have order : compare (n : ℤ) 0 = .gt := by
      rw [Int.compare_eq_gt]
      exact_mod_cast positive
    simp only [order, Int.toNat_natCast]
    obtain ⟨k, places⟩ : ∃ k, k = (0 - max ((n.log2 : ℤ) + 1 + 0 - 53) (-1074)).toNat := ⟨_, rfl⟩
    have same : UnpackedFloat.round .binary64 .positive n 0 =
        roundWithAccuracy .binary64 .positive (n <<< k) (0 - k) .exact := by
      rw [places]
      rfl
    have whole : ((n : ℕ) : ℚ) = (n <<< k : ℕ) * 2 ^ (0 - k : ℤ) := by
      rw [Nat.shiftLeft_eq, zero_sub, zpow_neg, zpow_natCast]
      push_cast
      field_simp
    have many : 2 ^ 52 ≤ n <<< k :=
      (Nat.pow_le_pow_right two_pos (by omega)).trans (two_pow_le_shiftLeft positive k)
    rw [same, whole]
    exact ⟨(cuts_whole _ _).approximates (.inl ((Nat.le_log2 (by omega)).mpr many)) .positive,
      sign_round ..⟩

theorem isFinite_neg (finite : isFinite a = true) : isFinite (-a) = true := by
  have made : -a = packed (.neg a.toModel.unpack) := rfl
  have parts := unpacks a
  rw [made]
  generalize a.toModel.unpack = p at *
  cases parts with
  | beyond field => simp [finite] at field
  | zero => exact (packed_zero _).1
  | finite _ positive =>
    obtain ⟨canonical, small⟩ := canonical_magnitude finite
    have made := packed_finite (s := -sign a) positive canonical
    rw [if_pos small] at made
    exact made.1

theorem isFinite_div_of_not (left : isFinite a = false) (right : isFinite b = true) :
    isFinite (a / b) = false := by
  have made : a / b = packed (.div .binary64 a.toModel.unpack b.toModel.unpack) := rfl
  have first := unpacks a
  have second := unpacks b
  rw [made]
  generalize a.toModel.unpack = p at *
  generalize b.toModel.unpack = q at *
  cases first with
  | zero field | finite field => simp [left] at field
  | beyond _ special =>
    rcases special with ⟨s, rfl⟩ | rfl
    · cases second with
      | beyond field => simp [right] at field
      | zero | finite => exact packed_infinity _
    · exact packed_notANumber

end

/-! ## What rounding keeps -/

section

variable {a b : Float} {p q : ℚ}

theorem Approximates.isFinite_iff (approximates : Approximates a q) :
    isFinite a = true ↔ q < overflowPoint := by
  obtain ⟨r, rounds, within, beyond⟩ := approximates
  rw [← rounds.lt_iff]
  refine ⟨fun finite => ?_, fun less => (within less).1⟩
  by_contra more
  simp [beyond (not_lt.mp more)] at finite

/-- The size of a finite double that was rounded. -/
theorem Approximates.rounds_size (approximates : Approximates a q) (finite : isFinite a = true) :
    Rounds q (size a) := by
  have less := approximates.isFinite_iff.mp finite
  obtain ⟨r, rounds, within, -⟩ := approximates
  rw [(within (rounds.lt_iff.mpr less)).2]
  exact rounds

/-- The exact value of what was rounded from a number that is not negative. -/
theorem Approximates.rounds (approximates : Approximates a q) (positive : sign a = .positive)
    (below : q < overflowPoint) : isFinite a = true ∧ Rounds q (exactValue a) := by
  have finite := approximates.isFinite_iff.mpr below
  rw [exactValue_of_positive positive]
  exact ⟨finite, approximates.rounds_size finite⟩

private theorem held_natCast {n : ℕ} (few : n ≤ 2 ^ 53) : Held n :=
  ⟨n, 0, few, by decide, by simp⟩

theorem natCast_lt {n : ℕ} (few : n ≤ 2 ^ 64) : (n : ℚ) < overflowPoint := by
  calc (n : ℚ) ≤ 2 ^ 64 := by exact_mod_cast few
    _ ≤ 2 ^ 970 := pow_le_pow_right₀ one_le_two (by decide)
    _ < overflowPoint := lt_mul_of_one_lt_left (by positivity) (by norm_num)

theorem rounds_toFloat (n : UInt64) :
    isFinite n.toFloat = true ∧ Rounds n.toNat (exactValue n.toFloat) :=
  (approximates_toFloat n).1.rounds (approximates_toFloat n).2 (natCast_lt n.toNat_lt.le)

theorem isFinite_toFloat (n : UInt64) : isFinite n.toFloat = true := (rounds_toFloat n).1

/-- A whole number of 53 bits is held exactly. -/
theorem size_toFloat {n : UInt64} (few : n.toNat ≤ 2 ^ 53) : size n.toFloat = n.toNat :=
  ((approximates_toFloat n).1.rounds_size (isFinite_toFloat n)).eq_of_held (held_natCast few)

end

end JointQuery.Decimal
