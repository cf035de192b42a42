import JointQuery.Text.Blank

/-! Whole numbers written in plain decimal digits. -/
namespace JointQuery.Text

/-- The value of a run of decimal digits: at least one, and nothing else. -/
def digitsValue? (text : List Char) : Option Nat :=
  if text.isEmpty then none
  else if text.all Char.isDigit then
    some (text.foldl (fun n c => n * 10 + (c.toNat - '0'.toNat)) 0)
  else none

/-- A whole number of 64 bits after blanks are taken off; one plus sign may stand in front. -/
def parseUInt64? (text : String) : Option UInt64 :=
  let digits := match trim text.toList with
    | '+' :: rest => rest
    | other => other
  match digitsValue? digits with
  | some n => if n < UInt64.size then some (UInt64.ofNat n) else none
  | none => none

end JointQuery.Text
