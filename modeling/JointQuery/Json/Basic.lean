import JointQuery.Decimal.Literal

/-! JSON values as they are exchanged: objects keep the order of their members, and a part of a
text that follows the grammar but has no value stays in its place as `unreadable`. -/
namespace JointQuery

open Decimal (Number)

/-- A JSON value. -/
inductive Json where
  | null
  | bool (value : Bool)
  | number (value : Number)
  | string (value : String)
  | array (items : List Json)
  | object (members : List (String × Json))
  /-- Well-formed text without a value: a number beyond every double, a string or key with half
  of a surrogate pair, or a value nested too deeply. -/
  | unreadable

namespace Json

mutual
/-- Whether every part of a value can be read. -/
def isReadable : Json → Bool
  | .unreadable => false
  | .array items => allReadable items
  | .object members => membersReadable members
  | _ => true

/-- Whether every item can be read. -/
def allReadable : List Json → Bool
  | [] => true
  | item :: rest => isReadable item && allReadable rest

/-- Whether every member's value can be read. -/
def membersReadable : List (String × Json) → Bool
  | [] => true
  | (_, value) :: rest => isReadable value && membersReadable rest
end

mutual
/-- The levels of a value: one more than the most of any part. -/
def height : Json → Nat
  | .array items => 1 + itemsHeight items
  | .object members => 1 + membersHeight members
  | _ => 1

/-- The most levels of any item. -/
def itemsHeight : List Json → Nat
  | [] => 0
  | item :: rest => max (height item) (itemsHeight rest)

/-- The most levels of any member's value. -/
def membersHeight : List (String × Json) → Nat
  | [] => 0
  | (_, value) :: rest => max (height value) (membersHeight rest)
end

/-- A whole number. -/
def int (n : Int) : Json := .number (.int n)

/-- A natural number. -/
def nat (n : Nat) : Json := .number (.int n)

/-- An array of strings. -/
def strings (texts : List String) : Json := .array (texts.map .string)

/-- The value, or `null` if there is none. -/
def nullable {α : Type} (write : α → Json) : Option α → Json
  | some a => write a
  | none => .null

end Json

end JointQuery
