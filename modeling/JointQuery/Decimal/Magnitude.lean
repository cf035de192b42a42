/-! The exact value of a double: a sign, and a whole number times a power of two. -/
namespace JointQuery.Decimal

/-- A magnitude `mantissa * 2 ^ exponent`. -/
structure Magnitude where
  mantissa : Nat
  exponent : Int
  deriving DecidableEq, Repr

/-- The sign bit of a double. -/
def isNegative (x : Float) : Bool :=
  Nat.pow 2 63 ≤ x.toBits.toNat

/-- The eleven bits of a double's exponent field. -/
def exponentField (x : Float) : Nat :=
  x.toBits.toNat / Nat.pow 2 52 % Nat.pow 2 11

/-- The fifty-two bits of a double's fraction field. -/
def fractionField (x : Float) : Nat :=
  x.toBits.toNat % Nat.pow 2 52

/-- A double is finite unless its exponent field is all ones. -/
def isFinite (x : Float) : Bool :=
  exponentField x != 2047

/-- The magnitude of a finite double; a normal one has an implied leading bit. -/
def magnitude (x : Float) : Magnitude :=
  if exponentField x = 0 then ⟨fractionField x, -1074⟩
  else ⟨fractionField x + Nat.pow 2 52, exponentField x - 1075⟩

/-- The double with the magnitude of `x` and the given sign. -/
def withSign (negative : Bool) (x : Float) : Float :=
  if negative then -x else x

end JointQuery.Decimal
