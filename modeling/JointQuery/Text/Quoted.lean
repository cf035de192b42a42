/-! A character named in an error text: between single quotes, with whatever
cannot be shown written as an escape. -/
namespace JointQuery.Text

/-- One hexadecimal digit in lower case. -/
def hexDigit (n : Nat) : Char :=
  (Nat.toDigits 16 (n % 16)).headD '0'

/-- Controls, blanks other than the space, and the soft hyphen have no shape of their own. -/
def isShapeless (c : Char) : Bool :=
  c.toNat < 0x20 || (0x7F ≤ c.toNat && c.toNat ≤ 0xA0) || c.toNat == 0xAD

/-- How a character of the first 256 is shown between single quotes. -/
def shown (c : Char) : List Char :=
  if c = '\x00' then ['\\', '0']
  else if c = '\t' then ['\\', 't']
  else if c = '\n' then ['\\', 'n']
  else if c = '\r' then ['\\', 'r']
  else if c = '\'' then ['\\', '\'']
  else if c = '\\' then ['\\', '\\']
  else if isShapeless c then
    ['\\', 'u', '\x7b'] ++ Nat.toDigits 16 c.toNat ++ ['\x7d']
  else [c]

/-- The character between single quotes. -/
def quoted (c : Char) : String :=
  String.ofList ('\'' :: shown c ++ ['\''])

end JointQuery.Text
