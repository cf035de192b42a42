import JointQuery.Decimal.Magnitude

/-! Decimal literals and the numbers they stand for. A literal without point and exponent that
fits 64 bits is an integer. Any other is a double: as many leading digits as fit 64 bits are taken
as a whole number, and that is scaled by one power of ten, so that the last bit of the result may
differ from the nearest double. -/
namespace JointQuery.Decimal

/-- A number: an exact integer of 64 bits, or a double. -/
inductive Number where
  | int (value : Int)
  | real (value : Float)

/-- A decimal literal; digits are values below ten, and an exponent has a sign. -/
structure Literal where
  negative : Bool
  whole : List Nat
  fraction : Option (List Nat)
  exponent : Option (Bool × List Nat)
  deriving DecidableEq, Repr

/-- The largest number that leading digits may reach. -/
def maxSignificand : Nat := UInt64.size - 1

/-- Appends digits to a significand for as long as it fits, and gives what is left over. -/
def absorb (significand : Nat) : List Nat → Nat × List Nat
  | [] => (significand, [])
  | d :: rest =>
    if maxSignificand < significand * 10 + d then (significand, d :: rest)
    else absorb (significand * 10 + d) rest

/-- The powers of ten that one scaling step knows reach to `10 ^ 308`. -/
def maxPower : Nat := 308

/-- The double nearest to `10 ^ n`. -/
def powerOfTen (n : Nat) : Float :=
  Float.ofScientific 1 false n

/-- Scales a double by a power of ten: up in one step, which must not overflow, or down in steps
of at most `10 ^ 308`. -/
def scaled (x : Float) (exponent : Int) : Option Float :=
  if _h : exponent < -maxPower then
    if x == 0.0 then some x else scaled (x / powerOfTen maxPower) (exponent + maxPower)
  else if exponent < 0 then some (x / powerOfTen exponent.natAbs)
  else if maxPower < exponent then if x == 0.0 then some x else none
  else
    let y := x * powerOfTen exponent.natAbs
    if isFinite y then some y else none
termination_by exponent.natAbs
decreasing_by simp only [maxPower] at *; omega

/-- The value of a run of digits. -/
def digitsValue (digits : List Nat) : Nat :=
  digits.foldl (fun n d => n * 10 + d) 0

/-- An exponent is too long once it passes 31 bits. -/
def maxExponent : Nat := Nat.pow 2 31 - 1

/-- A literal's magnitude as a double. An exponent that is too long gives zero, unless it is
positive and a digit is not zero. -/
def realMagnitude (literal : Literal) : Option Float :=
  let (leadingWhole, dropped) := absorb 0 literal.whole
  let fraction := literal.fraction.getD []
  let (significand, ignored) := absorb leadingWhole fraction
  let start : Int := (dropped.length : Int) - ((fraction.length - ignored.length : Nat) : Int)
  let x := significand.toUInt64.toFloat
  match literal.exponent with
  | none => scaled x start
  | some (negative, digits) =>
    if maxExponent < digitsValue digits then
      if significand ≠ 0 ∧ !negative then none else some 0.0
    else scaled x (if negative then start - digitsValue digits else start + digitsValue digits)

/-- The number of a literal, unless it is beyond every double. Minus zero is a double. -/
def Literal.number? (literal : Literal) : Option Number :=
  let real := (realMagnitude literal).map fun x => .real (withSign literal.negative x)
  match literal.fraction, literal.exponent with
  | none, none =>
    let n := digitsValue literal.whole
    if literal.negative then
      if 1 ≤ n ∧ n ≤ Nat.pow 2 63 then some (.int (-n)) else real
    else if n ≤ maxSignificand then some (.int n) else real
  | _, _ => real

end JointQuery.Decimal
