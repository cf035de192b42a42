import JointQuery.Json.Basic
import JointQuery.Decimal.Shortest
import JointQuery.Text.Quoted

/-! The text of a JSON value: no blanks, members in their order, and only quotes, backslashes and
controls escaped in strings. No newline occurs in it. -/
namespace JointQuery.Json

open Decimal (Number)

/-- A character inside a string; controls below the space are escaped. -/
def escaped (c : Char) : List Char :=
  if c = '"' then ['\\', '"']
  else if c = '\\' then ['\\', '\\']
  else if c = '\x08' then ['\\', 'b']
  else if c = '\x0c' then ['\\', 'f']
  else if c = '\n' then ['\\', 'n']
  else if c = '\r' then ['\\', 'r']
  else if c = '\t' then ['\\', 't']
  else if c.toNat < 0x20 then
    ['\\', 'u', '0', '0', Text.hexDigit (c.toNat / 16), Text.hexDigit c.toNat]
  else [c]

/-- A string between quotes. -/
def quotedText (text : String) : List Char :=
  '"' :: text.toList.flatMap escaped ++ ['"']

/-- A number; a double that is not finite has no number and is written as `null`. -/
def numberText : Number → List Char
  | .int n => (if n < 0 then ['-'] else []) ++ Nat.toDigits 10 n.natAbs
  | .real x => (Decimal.text? x).getD ['n', 'u', 'l', 'l']

mutual
/-- The text of a value. -/
def write : Json → List Char
  | .null => ['n', 'u', 'l', 'l']
  | .bool true => ['t', 'r', 'u', 'e']
  | .bool false => ['f', 'a', 'l', 's', 'e']
  | .number n => numberText n
  | .string s => quotedText s
  | .array [] => ['[', ']']
  | .array (item :: rest) => '[' :: write item ++ writeItems rest
  | .object [] => ['\x7b', '\x7d']
  | .object ((key, value) :: rest) =>
    '\x7b' :: quotedText key ++ ':' :: write value ++ writeMembers rest
  | .unreadable => ['n', 'u', 'l', 'l']

/-- The items after the first, and the closing bracket. -/
def writeItems : List Json → List Char
  | [] => [']']
  | item :: rest => ',' :: write item ++ writeItems rest

/-- The members after the first, and the closing brace. -/
def writeMembers : List (String × Json) → List Char
  | [] => ['\x7d']
  | (key, value) :: rest => ',' :: quotedText key ++ ':' :: write value ++ writeMembers rest
end

/-- The text of a value as a string. -/
def render (value : Json) : String :=
  String.ofList (write value)

end JointQuery.Json
