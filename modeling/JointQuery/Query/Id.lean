import JointQuery.Text.Quoted
import JointQuery.Json.Decoder

/-! Query identifiers: sixteen bytes, written as 32 hexadecimal digits. -/
namespace JointQuery

/-- The bytes of an identifier, first byte first. -/
structure QueryId where
  bytes : Vector UInt8 16
  deriving DecidableEq, Repr, BEq, ReflBEq, LawfulBEq

/-- Why a text is no identifier. -/
inductive HexError where
  | oddLength
  | wrongLength
  | notHex (byte : UInt8) (position : Nat)
  deriving DecidableEq, Repr

/-- The wording of a failure; a byte is shown as the character with its number. -/
def HexError.message : HexError → String
  | .oddLength => "Odd number of digits"
  | .wrongLength => "Invalid string length"
  | .notHex byte position =>
    "Invalid character " ++ Text.quoted (Char.ofNat byte.toNat) ++ " at position " ++
      toString position

namespace QueryId

/-- Two lower-case digits of a byte. -/
def byteText (byte : UInt8) : List Char :=
  [Text.hexDigit (byte.toNat / 16), Text.hexDigit byte.toNat]

/-- The digits of an identifier. -/
def toChars (id : QueryId) : List Char :=
  id.bytes.toList.flatMap byteText

/-- `QueryId::fmt`: the text of an identifier. -/
def text (id : QueryId) : String :=
  String.ofList id.toChars

/-- The form of an identifier in reports about the node's own state. -/
def debugText (id : QueryId) : String :=
  "QueryId(" ++ id.text ++ ")"

/-- The value of a digit of either case. -/
def digitValue (byte : UInt8) (position : Nat) : Except HexError UInt8 :=
  if 0x30 ≤ byte ∧ byte ≤ 0x39 then .ok (byte - 0x30)
  else if 0x61 ≤ byte ∧ byte ≤ 0x66 then .ok (byte - 0x61 + 10)
  else if 0x41 ≤ byte ∧ byte ≤ 0x46 then .ok (byte - 0x41 + 10)
  else .error (.notHex byte position)

/-- The bytes spelled by pairs of digits, the first of which stands at `position`. -/
def readPairs (position : Nat) : List UInt8 → Except HexError (List UInt8)
  | high :: low :: rest => do
    let h ← digitValue high position
    let l ← digitValue low (position + 1)
    return (h * 16 + l) :: (← readPairs (position + 2) rest)
  | _ => .ok []

/-- `QueryId::from_str`: an odd number of bytes is refused before a wrong length, and that before a
byte that is no digit. -/
def parse (text : String) : Except HexError QueryId :=
  let bytes := text.toUTF8.toList
  if bytes.length % 2 ≠ 0 then .error .oddLength
  else if bytes.length ≠ 32 then .error .wrongLength
  else do
    let read ← readPairs 0 bytes
    if h : read.toArray.size = 16 then .ok ⟨read.toArray, h⟩ else .error .wrongLength

/-- The identifier of a text, if it is one. -/
def parse? (text : String) : Option QueryId :=
  (parse text).toOption

/-- The identifier whose bytes spell a number in base 256. -/
def ofNat (n : Nat) : QueryId :=
  ⟨Vector.ofFn fun i => UInt8.ofNat (n / Nat.pow 256 (15 - i.val) % 256)⟩

/-- A sequence of identifiers without a repetition, far from those that are chosen by hand. -/
def numbered (n : Nat) : QueryId := ofNat (0x9e3779b97f4a7c15f39cc0605cedc834 + n)

/-- The number that the bytes spell in base 256; identifiers are ordered by it. -/
def toNat (id : QueryId) : Nat :=
  id.bytes.toList.foldl (fun n byte => n * 256 + byte.toNat) 0

/-- Reads an identifier's text. -/
def decode : Json.Decoder QueryId
  | _, .string s => parse? s
  | _, _ => none

/-- Writes an identifier's text. -/
def toJson (id : QueryId) : Json := .string id.text

end QueryId

end JointQuery
