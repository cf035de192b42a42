import JointQuery.Json.Basic

/-! Reading typed values out of JSON: records by name or by place, tagged records, names, bounded
integers and lists. -/
namespace JointQuery.Json

open Decimal (Number)

/-- A value comes straight from the text, or out of a tagged record, which is held back until its
tag is known. Names are read more freely from a held value. -/
inductive Stage where
  | direct
  | held
  deriving DecidableEq, Repr

/-- A reader of typed values; it fails on a value that does not fit. -/
abbrev Decoder (α : Type) := Stage → Json → Option α

/-! ## Simple values -/

/-- A string. -/
def asString : Decoder String
  | _, .string s => some s
  | _, _ => none

/-- A whole number of 64 bits. -/
def asUInt64 : Decoder UInt64
  | _, .number (.int n) => if 0 ≤ n ∧ n < UInt64.size then some (UInt64.ofNat n.toNat) else none
  | _, _ => none

/-- A whole number below `limit`. -/
def asNatBelow (limit : Nat) : Decoder Nat
  | _, .number (.int n) => if 0 ≤ n ∧ n < limit then some n.toNat else none
  | _, _ => none

/-- A signed whole number of 64 bits. -/
def asInt64 : Decoder Int
  | _, .number (.int n) => if -9223372036854775808 ≤ n ∧ n < 9223372036854775808 then some n else none
  | _, _ => none

/-- The double nearest to an integer of 64 bits. -/
def floatOfInt (n : Int) : Float :=
  if n < 0 then -(UInt64.ofNat n.natAbs).toFloat else (UInt64.ofNat n.natAbs).toFloat

/-- Any number as a double. -/
def asFloat : Decoder Float
  | _, .number (.int n) => some (floatOfInt n)
  | _, .number (.real x) => some x
  | _, _ => none

/-- A value that may be absent: `null` stands for none. -/
def asOption {α : Type} (decode : Decoder α) : Decoder (Option α)
  | _, .null => some none
  | stage, value => (decode stage value).map some

/-- A list. -/
def asList {α : Type} (decode : Decoder α) : Decoder (List α)
  | stage, .array items => items.mapM (decode stage)
  | _, _ => none

/-- One of a closed set of names. A name may also be the only key of an object, over `null`, or
over an empty object in a held value. -/
def asName {α : Type} (find : String → Option α) : Decoder α
  | _, .string s => find s
  | _, .object [(key, .null)] => find key
  | .held, .object [(key, .object [])] => find key
  | _, _ => none

/-! ## Records -/

/-- The fields of a record in the order of declaration, each with the value given for it. -/
structure Record where
  byName : Bool
  fields : List (Option Json)

/-- The value that an object gives for a key; giving it twice is a failure. -/
def uniqueMember (members : List (String × Json)) (key : String) : Option (Option Json) :=
  match members.filter (·.1 == key) with
  | [] => some none
  | [member] => some (some member.2)
  | _ => none

/-- A record is an object, or an array of its fields in the order of declaration. A strict record
refuses keys that it does not know. -/
def asRecord (strict : Bool) (keys : List String) : Json → Option Record
  | .object members =>
    if strict && members.any (fun member => !keys.contains member.1) then none
    else (keys.mapM (uniqueMember members)).map (⟨true, ·⟩)
  | .array items =>
    if items.length ≤ keys.length then
      some ⟨false, items.map some ++ List.replicate (keys.length - items.length) none⟩
    else none
  | _ => none

namespace Record

/-- The value given for a field, if any. -/
def given (record : Record) (place : Nat) : Option Json :=
  (record.fields[place]?).join

/-- A field that has to be given. -/
def required {α : Type} (record : Record) (place : Nat) (decode : Decoder α) (stage : Stage) :
    Option α :=
  match record.given place with
  | some value => decode stage value
  | none => none

/-- A field that an object may leave out, and an array may not. -/
def optional {α : Type} (record : Record) (place : Nat) (decode : Decoder α) (stage : Stage) :
    Option (Option α) :=
  match record.given place with
  | some value => asOption decode stage value
  | none => if record.byName then some none else none

/-- A field with a default, which an array may leave out at its end too. -/
def defaulted {α : Type} (record : Record) (place : Nat) (decode : Decoder α) (fallback : α)
    (stage : Stage) : Option α :=
  match record.given place with
  | some value => decode stage value
  | none => some fallback

end Record

/-! ## Tagged records -/

/-- A tag is one of the names of its set; a held value may also give its place in the set. -/
def asTag (tags : List String) : Decoder String
  | _, .string s => if tags.contains s then some s else none
  | .held, .number (.int n) => if 0 ≤ n then tags[n.toNat]? else none
  | _, _ => none

/-- The tag of a tagged record, and the record without it: an object with the tag anywhere, or an
array that starts with it. The whole record has to be readable. -/
def asTagged (key : String) (tags : List String) : Decoder (String × Json) :=
  fun stage value =>
    if !value.isReadable then none
    else
      match value with
      | .object members => do
        let tag ← (← uniqueMember members key)
        return (← asTag tags stage tag, .object (members.filter (·.1 != key)))
      | .array (tag :: rest) => do
        return (← asTag tags stage tag, .array rest)
      | _ => none

end JointQuery.Json
