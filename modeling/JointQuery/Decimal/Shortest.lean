import JointQuery.Decimal.Magnitude

/-! The fewest decimal digits that name a double: of all decimals that lie closer to it than to
any other double, one with the fewest digits, and of those the nearest. -/
namespace JointQuery.Decimal

/-- `digits` read as a whole number, times a power of ten. -/
structure Scientific where
  digits : Nat
  exponent : Int
  deriving DecidableEq, Repr

/-- Both sides of `a * 10 ^ ten` against `b * 2 ^ two`, as whole numbers. -/
def sides (a : Nat) (ten : Int) (b : Nat) (two : Int) : Nat × Nat :=
  (a * Nat.pow 10 ten.toNat * Nat.pow 2 (-two).toNat,
    b * Nat.pow 2 two.toNat * Nat.pow 10 (-ten).toNat)

/-- The decimals that read back as a double lie between these two bounds, in quarters of its
last place. The gap below a power of two is half as wide. -/
def bounds (m : Magnitude) : Nat × Nat :=
  (4 * m.mantissa - (if m.mantissa = Nat.pow 2 52 ∧ -1074 < m.exponent then 1 else 2),
    4 * m.mantissa + 2)

/-- A decimal names the double if it lies within the bounds; a bound itself counts when the
mantissa is even. -/
def names (m : Magnitude) (d : Scientific) : Bool :=
  let low := sides d.digits d.exponent (bounds m).1 (m.exponent - 2)
  let high := sides d.digits d.exponent (bounds m).2 (m.exponent - 2)
  if m.mantissa % 2 = 0 then low.2 ≤ low.1 && high.1 ≤ high.2
  else low.2 < low.1 && high.1 < high.2

/-- The decimal exponent of the leading digit of a positive magnitude. -/
def leadingExponent (m : Magnitude) : Int :=
  let num := m.mantissa * Nat.pow 2 m.exponent.toNat
  let den := Nat.pow 2 (-m.exponent).toNat
  if den ≤ num then (Nat.toDigits 10 (num / den)).length - 1
  else
    let j := (Nat.toDigits 10 (den / num)).length
    if den ≤ num * Nat.pow 10 (j - 1) then -((j - 1 : Nat) : Int) else -(j : Int)

/-- The magnitude divided by `10 ^ exponent`, rounded down. -/
def floorAt (m : Magnitude) (exponent : Int) : Nat :=
  let s := sides 1 exponent m.mantissa m.exponent
  s.2 / s.1

/-- Whether the magnitude lies above, on or below the middle between `n` and `n + 1` units of
`10 ^ exponent`. -/
def compareMiddle (m : Magnitude) (n : Nat) (exponent : Int) : Ordering :=
  let s := sides (2 * n + 1) exponent (2 * m.mantissa) m.exponent
  compare s.2 s.1

/-- The nearer of the two neighbours on a decimal grid if one of them names the double; an exact
tie goes to the even digit. -/
def onGrid (m : Magnitude) (exponent : Int) : Option Scientific :=
  let n := floorAt m exponent
  let low : Scientific := ⟨n, exponent⟩
  let high : Scientific := ⟨n + 1, exponent⟩
  match names m low, names m high with
  | false, false => none
  | true, false => some low
  | false, true => some high
  | true, true =>
    match compareMiddle m n exponent with
    | .lt => some low
    | .gt => some high
    | .eq => if n % 2 = 0 then some low else some high

/-- The first grid, from one digit to seventeen, that holds a name of the double. -/
def shortest (m : Magnitude) : Scientific :=
  let top := leadingExponent m
  ((List.range 17).findSome? fun (k : Nat) => onGrid m (top - k)).getD
    ⟨floorAt m (top - 16), top - 16⟩

/-- The decimal without its trailing zeros, as digits and the exponent of the first digit. -/
def leading (d : Scientific) : List Char × Int :=
  let digits := Nat.toDigits 10 d.digits
  ((digits.reverse.dropWhile (· == '0')).reverse, d.exponent + digits.length - 1)

/-- Plain notation with at least one digit after the point. -/
def plain (digits : List Char) (exponent : Int) : List Char :=
  if exponent < 0 then
    '0' :: '.' :: List.replicate (-exponent - 1).toNat '0' ++ digits
  else
    let whole := exponent.toNat + 1
    let fraction := digits.drop whole
    digits.take whole ++ List.replicate (whole - digits.length) '0' ++ '.' ::
      (if fraction.isEmpty then ['0'] else fraction)

/-- Scientific notation; the sign of the exponent is always there. -/
def scientific (digits : List Char) (exponent : Int) : List Char :=
  digits.take 1 ++ (if digits.length ≤ 1 then [] else '.' :: digits.drop 1) ++
    'e' :: (if exponent < 0 then '-' else '+') :: Nat.toDigits 10 exponent.natAbs

/-- Digits are written plainly when the first stands at `10 ^ -5` to `10 ^ 15`. -/
def writtenPlainly (exponent : Int) : Bool :=
  -5 ≤ exponent && exponent < 16

/-- The text of a finite double. -/
def finiteText (x : Float) : List Char :=
  let sign := if isNegative x then ['-'] else []
  let m := magnitude x
  if m.mantissa = 0 then sign ++ ['0', '.', '0']
  else
    let (digits, exponent) := leading (shortest m)
    sign ++ (if writtenPlainly exponent then plain digits exponent else scientific digits exponent)

/-- The text of a double, if it is finite. -/
def text? (x : Float) : Option (List Char) :=
  if isFinite x then some (finiteText x) else none

end JointQuery.Decimal
