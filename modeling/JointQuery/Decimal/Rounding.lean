import JointQuery.Decimal.Magnitude

/-! Rounding doubles to integers and to a number of decimal places. -/
namespace JointQuery.Decimal

/-- The whole number nearest to `mantissa / 2 ^ places`, a half going up. -/
def halfUp (mantissa places : Nat) : Nat :=
  if places = 0 then mantissa else (mantissa + Nat.pow 2 (places - 1)) / Nat.pow 2 places

/-- The nearest integral double, a half going away from zero. A double of at least `2 ^ 52`,
an infinity and a NaN stay as they are. -/
def nearestIntegral (x : Float) : Float :=
  if 1075 ≤ exponentField x then x
  else
    let m := magnitude x
    withSign (isNegative x) (halfUp m.mantissa (-m.exponent).toNat).toUInt64.toFloat

/-- The largest number of decimal places that rounding keeps. -/
def maxScale : Nat := 15

/-- `10 ^ min scale maxScale`, which a double holds exactly. -/
def scaleFactor (scale : Nat) : Float :=
  (Nat.pow 10 (min scale maxScale)).toUInt64.toFloat

/-- `round_to_scale`: the value is scaled up by `scale` decimal places, rounded to an integer, and
scaled down. -/
def roundToScale (value : Float) (scale : Nat) : Float :=
  nearestIntegral (value * scaleFactor scale) / scaleFactor scale

end JointQuery.Decimal
