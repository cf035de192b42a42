import Mathlib.Algebra.Order.Field.Rat
import Mathlib.Algebra.Order.Field.Power
import Mathlib.Algebra.Ring.Parity
import Mathlib.Tactic.Linarith
import Mathlib.Tactic.NormNum
import Mathlib.Tactic.Positivity
import Mathlib.Tactic.Ring

/-! Rounding to 53 bits, as it is of exact numbers. A magnitude is measured in a unit, a power of
two that leaves it 53 bits before the point, or fewer at the smallest unit; and the nearest whole
number of units is taken, of two the even one. The result is the nearest of all numbers that 53 bits
can hold, so that rounding keeps the order and leaves what needs no rounding. -/
namespace JointQuery.Decimal

/-- Numbers of 53 bits, or the next power of two, at the smallest unit or a larger one. -/
def Held (w : ℚ) : Prop :=
  ∃ (m : ℕ) (e : ℤ), m ≤ 2 ^ 53 ∧ -1074 ≤ e ∧ w = m * 2 ^ e

/-- The whole number nearest to a number, of two the even one. -/
def NearestWhole (y : ℚ) (n : ℕ) : Prop :=
  |y - n| < 1 / 2 ∨ (|y - n| = 1 / 2 ∧ Even n)

variable {x y z w : ℚ} {n k : ℕ} {g : ℤ}

private theorem NearestWhole.within (nearest : NearestWhole y n) : |y - n| ≤ 1 / 2 := by
  rcases nearest with near | ⟨tie, -⟩
  · exact near.le
  · exact tie.le

/-- No whole number is nearer. -/
theorem NearestWhole.le (nearest : NearestWhole y n) (k : ℕ) : |y - n| ≤ |y - k| := by
  rcases eq_or_ne k n with rfl | differ
  · exact le_rfl
  · have apart : (1 : ℚ) ≤ |(n : ℚ) - k| := by
      have whole : (1 : ℤ) ≤ |(n : ℤ) - k| := Int.one_le_abs (by omega)
      exact_mod_cast whole
    have between := abs_sub_le (n : ℚ) y k
    rw [abs_sub_comm (n : ℚ) y] at between
    linarith [nearest.within]

/-- What is not below a whole number is not nearest to one below that. -/
theorem NearestWhole.ge (nearest : NearestWhole y n) (reached : k ≤ y) : k ≤ n := by
  have near := (abs_le.mp nearest.within).2
  have bound : (k : ℚ) < n + 1 := by linarith
  have whole : k < n + 1 := by exact_mod_cast bound
  omega

private theorem NearestWhole.unique (nearest : NearestWhole y n) (other : NearestWhole y k) :
    n = k := by
  wlog less : n ≤ k generalizing n k
  · exact (this other nearest (Nat.le_of_not_le less)).symm
  by_contra differ
  have next : (n : ℚ) + 1 ≤ k := by exact_mod_cast Nat.lt_of_le_of_ne less differ
  have low := abs_le.mp nearest.within
  have high := abs_le.mp other.within
  have one : (k : ℚ) = n + 1 := by linarith
  rcases nearest with near | ⟨-, even⟩
  · linarith [(abs_lt.mp near).2]
  · rcases other with near | ⟨-, otherEven⟩
    · linarith [(abs_lt.mp near).1]
    · obtain rfl : k = n + 1 := by exact_mod_cast one
      exact Nat.not_even_iff_odd.mpr (even.add_one) otherEven

/-- The last whole number of 53 bits is odd, so that the middle beyond it goes to the next. -/
theorem NearestWhole.full (nearest : NearestWhole y n) (beyond : 2 ^ 53 - 1 / 2 ≤ y) :
    2 ^ 53 ≤ n := by
  by_contra few
  have near := (abs_le.mp nearest.within).2
  have bound : (2 : ℚ) ^ 53 ≤ n + 1 := by linarith
  have whole : 2 ^ 53 ≤ n + 1 := by exact_mod_cast bound
  have last : n = 2 ^ 53 - 1 := by omega
  have value : (n : ℚ) = 2 ^ 53 - 1 := by
    rw [last, Nat.cast_sub Nat.one_le_two_pow]
    norm_num
  rcases nearest with close | ⟨-, even⟩
  · linarith [(abs_lt.mp close).2]
  · rw [last] at even
    exact absurd even (by decide)

/-- A magnitude is `n` units of `2 ^ g` to the nearest. The unit leaves it 53 bits before the point,
or fewer at the smallest unit. -/
structure Measured (x : ℚ) (g : ℤ) (n : ℕ) : Prop where
  nonneg : 0 ≤ x
  least : -1074 ≤ g
  below : x < 2 ^ 53 * 2 ^ g
  full : 2 ^ 52 * 2 ^ g ≤ x ∨ g = -1074
  nearest : NearestWhole (x / 2 ^ g) n

/-- A magnitude rounded to 53 bits. -/
def Rounds (x r : ℚ) : Prop := ∃ g n, Measured x g n ∧ r = n * 2 ^ g

private theorem Measured.unit_le {j : ℤ} (measured : Measured x g n) (other : Measured x j k) :
    j ≤ g := by
  by_contra more
  rcases other.full with full | least
  · have step : (2 : ℚ) ^ (g + 1) ≤ 2 ^ j := zpow_le_zpow_right₀ one_le_two (by omega)
    rw [zpow_add_one₀ two_ne_zero] at step
    linarith [measured.below]
  · linarith [measured.least]

private theorem Rounds.unique {r s : ℚ} (rounds : Rounds x r) (other : Rounds x s) : r = s := by
  obtain ⟨g, n, measured, rfl⟩ := rounds
  obtain ⟨j, k, again, rfl⟩ := other
  obtain rfl := le_antisymm (again.unit_le measured) (measured.unit_le again)
  rw [measured.nearest.unique again.nearest]

theorem Measured.le_full (measured : Measured x g n) : n ≤ 2 ^ 53 := by
  have unit : (0 : ℚ) < 2 ^ g := by positivity
  have below : x / 2 ^ g < 2 ^ 53 := (div_lt_iff₀ unit).mpr measured.below
  have near := (abs_le.mp measured.nearest.within).1
  have bound : (n : ℚ) < 2 ^ 53 + 1 := by linarith
  have whole : n < 2 ^ 53 + 1 := by exact_mod_cast bound
  omega

theorem Measured.units_full (measured : Measured x g n) : 2 ^ 52 ≤ n ∨ g = -1074 := by
  refine measured.full.imp (fun full => measured.nearest.ge ?_) id
  rw [Nat.cast_pow, Nat.cast_ofNat]
  exact (le_div_iff₀ (by positivity)).mpr full

private theorem Rounds.held {r : ℚ} (rounds : Rounds x r) : Held r := by
  obtain ⟨g, n, measured, rfl⟩ := rounds
  exact ⟨n, g, measured.le_full, measured.least, rfl⟩

theorem Rounds.nonneg {r : ℚ} (rounds : Rounds x r) : 0 ≤ r := by
  obtain ⟨g, n, -, rfl⟩ := rounds
  positivity

/-- No number of 53 bits is nearer than the one that a magnitude is rounded to. One of smaller units
lies below all numbers of 53 bits before the point. -/
theorem Rounds.nearest {r : ℚ} (rounds : Rounds x r) (held : Held w) : |x - r| ≤ |x - w| := by
  obtain ⟨g, n, measured, rfl⟩ := rounds
  obtain ⟨m, e, few, least, rfl⟩ := held
  have unit : (0 : ℚ) < 2 ^ g := by positivity
  have whole (k : ℕ) : |x - n * 2 ^ g| ≤ |x - k * 2 ^ g| := by
    have scaled (j : ℕ) : |x - j * 2 ^ g| = |x / 2 ^ g - j| * 2 ^ g := by
      rw [← abs_of_pos unit, ← abs_mul, abs_of_pos unit, sub_mul, div_mul_cancel₀ x unit.ne']
    rw [scaled n, scaled k]
    exact mul_le_mul_of_nonneg_right (measured.nearest.le k) unit.le
  rcases le_or_gt g e with large | small
  · have same : (m : ℚ) * 2 ^ e = ((m * 2 ^ (e - g).toNat : ℕ) : ℚ) * 2 ^ g := by
      obtain ⟨d, rfl⟩ := Int.exists_add_of_le large
      rw [zpow_add₀ two_ne_zero]
      simp
      ring
    rw [same]
    exact whole _
  · have full : 2 ^ 52 * 2 ^ g ≤ x := measured.full.resolve_right (by omega)
    have step : (2 : ℚ) ^ (e + 1) ≤ 2 ^ g := zpow_le_zpow_right₀ one_le_two (by omega)
    rw [zpow_add_one₀ two_ne_zero] at step
    have bits : (m : ℚ) * 2 ^ e ≤ 2 ^ 53 * 2 ^ e :=
      mul_le_mul_of_nonneg_right (by exact_mod_cast few) (by positivity)
    have last := whole (2 ^ 52)
    rw [Nat.cast_pow, Nat.cast_ofNat] at last
    rw [abs_of_nonneg (sub_nonneg.mpr full)] at last
    rw [abs_of_nonneg (by linarith : 0 ≤ x - m * 2 ^ e)]
    linarith

/-- What needs no rounding stays. -/
theorem Rounds.eq_of_held {r : ℚ} (rounds : Rounds x r) (held : Held x) : r = x := by
  have near := rounds.nearest held
  rw [sub_self, abs_zero, abs_nonpos_iff, sub_eq_zero] at near
  exact near.symm

/-- Nothing is rounded up beyond a number of 53 bits. -/
theorem Rounds.le_of_held {r : ℚ} (rounds : Rounds x r) (held : Held w) (less : x ≤ w) : r ≤ w := by
  have near := rounds.nearest held
  rw [abs_of_nonpos (sub_nonpos.mpr less)] at near
  linarith [neg_le_abs (x - r)]

/-- Rounding keeps the order. -/
theorem Rounds.mono {r s : ℚ} (less : x ≤ y) (rounds : Rounds x r) (other : Rounds y s) :
    r ≤ s := by
  rcases less.eq_or_lt with rfl | less
  · exact (rounds.unique other).le
  · by_contra more
    have first := rounds.nearest other.held
    have second := other.nearest rounds.held
    rcases abs_cases (x - r) with a | a <;> rcases abs_cases (x - s) with b | b <;>
      rcases abs_cases (y - r) with c | c <;> rcases abs_cases (y - s) with d | d <;> linarith

/-- The middle between the largest double and the power of two that would come next. -/
def overflowPoint : ℚ := (2 ^ 54 - 1) * 2 ^ 970

private theorem held_largest : Held ((2 ^ 54 - 2) * 2 ^ 970) := by
  have twice : (2 : ℚ) ^ 971 = 2 * 2 ^ 970 := pow_succ' 2 970
  refine ⟨2 ^ 53 - 1, 971, Nat.sub_le _ _, by decide, ?_⟩
  rw [Nat.cast_sub Nat.one_le_two_pow, zpow_ofNat, twice]
  generalize (2 : ℚ) ^ 970 = unit
  push_cast
  ring

private theorem two_pow_1024 : (2 : ℚ) ^ 1024 = 2 ^ 54 * 2 ^ 970 := by rw [← pow_add]

/-- Rounding reaches the power of two beyond all doubles exactly from the middle on. -/
theorem Rounds.lt_iff {r : ℚ} (rounds : Rounds x r) : r < 2 ^ 1024 ↔ x < overflowPoint := by
  have largest := rounds.nearest held_largest
  have small (g : ℤ) (less : g < 971) : (2 : ℚ) ^ g ≤ 2 ^ 970 := by
    have step : (2 : ℚ) ^ g ≤ 2 ^ (970 : ℤ) := zpow_le_zpow_right₀ one_le_two (by omega)
    rwa [zpow_ofNat] at step
  have middle (g : ℤ) (same : 971 = g) : (2 : ℚ) ^ g = 2 * 2 ^ 970 := by
    rw [← same, zpow_ofNat, pow_succ']
  have large (g : ℤ) (more : 971 < g) : 2 * (2 * (2 : ℚ) ^ 970) ≤ 2 ^ g := by
    have step : (2 : ℚ) ^ (972 : ℤ) ≤ 2 ^ g := zpow_le_zpow_right₀ one_le_two more
    rwa [zpow_ofNat, pow_succ', pow_succ'] at step
  have positive : (0 : ℚ) < 2 ^ 970 := by positivity
  rw [two_pow_1024, overflowPoint]
  generalize (2 : ℚ) ^ 970 = unit at *
  constructor
  · intro below
    by_contra beyond
    obtain ⟨g, n, measured, rfl⟩ := rounds
    rcases lt_trichotomy 971 g with more | same | less
    · have many : 2 ^ 52 ≤ n := measured.units_full.resolve_right (by omega)
      have reached : (2 : ℚ) ^ 52 * 2 ^ g ≤ n * 2 ^ g :=
        mul_le_mul_of_nonneg_right (by exact_mod_cast many) (by positivity)
      linarith [large g more]
    · have units : 2 ^ 53 - 1 / 2 ≤ x / 2 ^ g := by
        rw [middle g same]
        exact (le_div_iff₀ (by positivity)).mpr (by linarith)
      have many : 2 ^ 53 ≤ n := measured.nearest.full units
      have reached : (2 : ℚ) ^ 53 * 2 ^ g ≤ n * 2 ^ g :=
        mul_le_mul_of_nonneg_right (by exact_mod_cast many) (by positivity)
      rw [middle g same] at below reached
      linarith
    · linarith [measured.below, small g less]
  · intro below
    by_contra more
    rw [abs_of_nonpos (by linarith)] at largest
    rcases abs_cases (x - (2 ^ 54 - 2) * unit) with ⟨same, -⟩ | ⟨same, -⟩ <;>
      rw [same] at largest <;> linarith

end JointQuery.Decimal
