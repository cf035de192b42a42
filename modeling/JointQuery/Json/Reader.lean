import JointQuery.Json.Basic

/-! Reading JSON text. The grammar is strict: no trailing comma, no leading zero or plus sign, no
raw control character in a string, and nothing but blanks after the value. -/
namespace JointQuery.Json

open Decimal (Literal)

/-- The blanks between tokens. -/
def isSpace (c : Char) : Bool :=
  c == ' ' || c == '\n' || c == '\t' || c == '\r'

/-- The text from its first token on. -/
def skipSpace (text : List Char) : List Char :=
  text.dropWhile isSpace

/-! ## Strings -/

/-- A part of a string: a character, or an escaped UTF-16 unit. -/
inductive Piece where
  | char (c : Char)
  | unit (n : Nat)
  deriving DecidableEq, Repr

/-- The value of a hexadecimal digit of either case. -/
def hexValue (c : Char) : Option Nat :=
  if '0' ≤ c ∧ c ≤ '9' then some (c.toNat - '0'.toNat)
  else if 'a' ≤ c ∧ c ≤ 'f' then some (c.toNat - 'a'.toNat + 10)
  else if 'A' ≤ c ∧ c ≤ 'F' then some (c.toNat - 'A'.toNat + 10)
  else none

/-- The unit written as four hexadecimal digits. -/
def unitOf (a b c d : Char) : Option Nat := do
  let a ← hexValue a
  let b ← hexValue b
  let c ← hexValue c
  let d ← hexValue d
  return ((a * 16 + b) * 16 + c) * 16 + d

/-- The character that a one-letter escape stands for. -/
def escapedChar (c : Char) : Option Char :=
  if c = '"' ∨ c = '\\' ∨ c = '/' then some c
  else if c = 'b' then some '\x08'
  else if c = 'f' then some '\x0c'
  else if c = 'n' then some '\n'
  else if c = 'r' then some '\r'
  else if c = 't' then some '\t'
  else none

/-- The pieces of a string after its opening quote, and the text after its closing one. -/
def scanString : List Char → Option (List Piece × List Char)
  | [] => none
  | '"' :: rest => some ([], rest)
  | '\\' :: 'u' :: a :: b :: c :: d :: rest => do
    let n ← unitOf a b c d
    let (pieces, after) ← scanString rest
    return (.unit n :: pieces, after)
  | '\\' :: e :: rest => do
    let c ← escapedChar e
    let (pieces, after) ← scanString rest
    return (.char c :: pieces, after)
  | c :: rest =>
    if c.toNat < 0x20 then none
    else do
      let (pieces, after) ← scanString rest
      return (.char c :: pieces, after)

/-- The first unit of a surrogate pair. -/
def isHighSurrogate (n : Nat) : Bool := 0xD800 ≤ n && n < 0xDC00

/-- The second unit of a surrogate pair. -/
def isLowSurrogate (n : Nat) : Bool := 0xDC00 ≤ n && n < 0xE000

/-- The characters of a string, unless it holds half of a surrogate pair. -/
def joinPieces : List Piece → Option (List Char)
  | [] => some []
  | .char c :: rest => (joinPieces rest).map (c :: ·)
  | .unit high :: .unit low :: rest =>
    if isHighSurrogate high then
      if isLowSurrogate low then
        (joinPieces rest).map
          (Char.ofNat (0x10000 + (high - 0xD800) * 0x400 + (low - 0xDC00)) :: ·)
      else none
    else if isLowSurrogate high then none
    else (joinPieces (.unit low :: rest)).map (Char.ofNat high :: ·)
  | .unit n :: rest =>
    if isHighSurrogate n || isLowSurrogate n then none
    else (joinPieces rest).map (Char.ofNat n :: ·)

/-- The string that pieces spell. -/
def stringOf (pieces : List Piece) : Option String :=
  (joinPieces pieces).map String.ofList

/-! ## Numbers -/

/-- The digits that a text starts with, and the rest. -/
def scanDigits (text : List Char) : List Nat × List Char :=
  ((text.takeWhile Char.isDigit).map (fun c => c.toNat - '0'.toNat), text.dropWhile Char.isDigit)

/-- The part after the point, if there is a point: at least one digit. -/
def scanFraction : List Char → Option (Option (List Nat) × List Char)
  | '.' :: rest =>
    let (digits, after) := scanDigits rest
    if digits.isEmpty then none else some (some digits, after)
  | text => some (none, text)

/-- The digits of an exponent after its sign: at least one. -/
def scanExponentDigits (negative : Bool) (text : List Char) :
    Option (Option (Bool × List Nat) × List Char) :=
  let (digits, after) := scanDigits text
  if digits.isEmpty then none else some (some (negative, digits), after)

/-- The exponent, if there is one. -/
def scanExponent : List Char → Option (Option (Bool × List Nat) × List Char)
  | c :: rest =>
    if c = 'e' ∨ c = 'E' then
      match rest with
      | '+' :: digits => scanExponentDigits false digits
      | '-' :: digits => scanExponentDigits true digits
      | digits => scanExponentDigits false digits
    else some (none, c :: rest)
  | [] => some (none, [])

/-- The literal after an optional minus sign; a leading zero stands alone. -/
def scanUnsigned (negative : Bool) (text : List Char) : Option (Literal × List Char) := do
  let (whole, rest) := scanDigits text
  if whole.isEmpty || (whole.head? == some 0 && whole.length != 1) then none
  else
    let (fraction, rest) ← scanFraction rest
    let (exponent, rest) ← scanExponent rest
    return (⟨negative, whole, fraction, exponent⟩, rest)

/-- The literal that a text starts with, and the rest. -/
def scanNumber : List Char → Option (Literal × List Char)
  | '-' :: rest => scanUnsigned true rest
  | text => scanUnsigned false text

/-! ## Values -/

/-- Arrays and objects nest at most this deep. -/
def maxDepth : Nat := 127

/-- A container that lies `depth` levels deep can be read only down to `maxDepth`. -/
def bounded (depth : Nat) (value : Json) : Json :=
  if depth ≤ maxDepth then value else .unreadable

/-- The value of a number literal. -/
def ofLiteral (literal : Literal) : Json :=
  match literal.number? with
  | some n => .number n
  | none => .unreadable

/-- The value of a string. -/
def ofPieces (pieces : List Piece) : Json :=
  match stringOf pieces with
  | some s => .string s
  | none => .unreadable

/-- An object, which can be read only if all its keys can. -/
def ofMembers (members : List (Option String × Json)) : Json :=
  if members.all (·.1.isSome) then .object (members.map fun m => (m.1.getD "", m.2))
  else .unreadable

mutual
/-- The value that a text starts with, and the rest; `fuel` bounds the number of steps. -/
def scanValue (fuel depth : Nat) (text : List Char) : Option (Json × List Char) :=
  match fuel with
  | 0 => none
  | fuel + 1 =>
    match skipSpace text with
    | 'n' :: 'u' :: 'l' :: 'l' :: rest => some (.null, rest)
    | 't' :: 'r' :: 'u' :: 'e' :: rest => some (.bool true, rest)
    | 'f' :: 'a' :: 'l' :: 's' :: 'e' :: rest => some (.bool false, rest)
    | '"' :: rest => (scanString rest).map fun (pieces, after) => (ofPieces pieces, after)
    | '[' :: rest =>
      match skipSpace rest with
      | ']' :: after => some (bounded (depth + 1) (.array []), after)
      | _ => (scanItems fuel (depth + 1) rest).map fun (items, after) =>
        (bounded (depth + 1) (.array items), after)
    | '\x7b' :: rest =>
      match skipSpace rest with
      | '\x7d' :: after => some (bounded (depth + 1) (.object []), after)
      | _ => (scanMembers fuel (depth + 1) rest).map fun (members, after) =>
        (bounded (depth + 1) (ofMembers members), after)
    | other => (scanNumber other).map fun (literal, after) => (ofLiteral literal, after)

/-- The items of an array up to its closing bracket: at least one. -/
def scanItems (fuel depth : Nat) (text : List Char) : Option (List Json × List Char) :=
  match fuel with
  | 0 => none
  | fuel + 1 => do
    let (item, rest) ← scanValue fuel depth text
    match skipSpace rest with
    | ']' :: after => return ([item], after)
    | ',' :: more =>
      let (items, after) ← scanItems fuel depth more
      return (item :: items, after)
    | _ => none

/-- The members of an object up to its closing brace: at least one. -/
def scanMembers (fuel depth : Nat) (text : List Char) :
    Option (List (Option String × Json) × List Char) :=
  match fuel with
  | 0 => none
  | fuel + 1 =>
    match skipSpace text with
    | '"' :: rest => do
      let (key, rest) ← scanString rest
      match skipSpace rest with
      | ':' :: rest =>
        let (value, rest) ← scanValue fuel depth rest
        match skipSpace rest with
        | '\x7d' :: after => return ([(stringOf key, value)], after)
        | ',' :: more =>
          let (members, after) ← scanMembers fuel depth more
          return ((stringOf key, value) :: members, after)
        | _ => none
      | _ => none
    | _ => none
end

/-- The value of a text that holds one value and nothing else. -/
def readChars (text : List Char) : Option Json := do
  let (value, rest) ← scanValue (2 * text.length + 1) 0 text
  if (skipSpace rest).isEmpty then some value else none

/-- The value of a text that holds one value and nothing else. -/
def read (text : String) : Option Json :=
  readChars text.toList

end JointQuery.Json
