import JointQuery.Text.Folding
import JointQuery.Json.Decoder

/-! The participants of the protocol: one hub and two parties that hold data. Their order is
fixed, and ports, budgets and answers follow it. -/
namespace JointQuery

/-- A named participant. -/
inductive Party where
  | ph
  | db1
  | db2
  deriving DecidableEq, Repr, BEq, ReflBEq, LawfulBEq

/-- What a connection is to the node: a client's front, the hub, or a data holder. -/
inductive Role where
  | front
  | hub
  | db
  deriving DecidableEq, Repr, BEq

/-- `Party::dbs`: one of the two parties that hold data. -/
inductive Holder where
  | db1
  | db2
  deriving DecidableEq, Repr, BEq

/-- `Role::as_str`: a role's name. -/
def Role.name : Role → String
  | .front => "front"
  | .hub => "hub"
  | .db => "db"

namespace Holder

/-- The data holder as a party. -/
def party : Holder → Party
  | .db1 => .db1
  | .db2 => .db2

/-- Both data holders, in order. -/
def all : List Holder := [.db1, .db2]

/-- The place of a holder in a pair of row counters. -/
def index : Holder → Nat
  | .db1 => 0
  | .db2 => 1

end Holder

namespace Party

/-- Every party, in order. -/
def all : List Party := [.ph, .db1, .db2]

/-- The form of a party in reports about the node's own state. -/
def debugName : Party → String
  | .ph => "Ph"
  | .db1 => "Db1"
  | .db2 => "Db2"

/-- `Party::index`: the place of a party in the order. -/
def index : Party → Nat
  | .ph => 0
  | .db1 => 1
  | .db2 => 2

/-- `Party::from_index`: the party at a place of the order. -/
def ofIndex? (n : Nat) : Option Party := all[n]?

/-- `Party::as_str`: a party's name. -/
def name : Party → String
  | .ph => "ph"
  | .db1 => "db1"
  | .db2 => "db2"

/-- `Party::from_str`: the party of a name written in any case. -/
def ofText? (text : String) : Option Party :=
  Text.findFolded name all text

/-- The party of a name as it stands in messages. -/
def ofName? (text : String) : Option Party :=
  Text.findNamed name all text

/-- `Party::role`: the hub is its own role; the others hold data. -/
def role : Party → Role
  | .ph => .hub
  | .db1 => .db
  | .db2 => .db

/-- `Party::db_slot`: the data holder that a party is, if it is one. -/
def holder? : Party → Option Holder
  | .ph => none
  | .db1 => some .db1
  | .db2 => some .db2

/-- `Party::is_db`: whether a party holds data. -/
def isDb (party : Party) : Bool := party.role == .db

/-- Reads a party's name. -/
def decode : Json.Decoder Party := Json.asName ofName?

/-- Writes a party's name. -/
def toJson (party : Party) : Json := .string party.name

end Party

/-- One value for each party. -/
structure PerParty (α : Type) where
  ph : α
  db1 : α
  db2 : α
  deriving DecidableEq, Repr

namespace PerParty

variable {α β : Type}

/-- The value of a party. -/
def get (values : PerParty α) : Party → α
  | .ph => values.ph
  | .db1 => values.db1
  | .db2 => values.db2

/-- The values with that of one party replaced. -/
def set (values : PerParty α) (party : Party) (value : α) : PerParty α :=
  match party with
  | .ph => { values with ph := value }
  | .db1 => { values with db1 := value }
  | .db2 => { values with db2 := value }

/-- The values with that of one party changed. -/
def modify (values : PerParty α) (party : Party) (f : α → α) : PerParty α :=
  values.set party (f (values.get party))

/-- The same value for every party. -/
def all (value : α) : PerParty α := ⟨value, value, value⟩

/-- A value for each party. -/
def ofFn (f : Party → α) : PerParty α := ⟨f .ph, f .db1, f .db2⟩

/-- Every value changed. -/
def map (f : α → β) (values : PerParty α) : PerParty β :=
  ⟨f values.ph, f values.db1, f values.db2⟩

/-- The values in the order of the parties. -/
def toList (values : PerParty α) : List α := [values.ph, values.db1, values.db2]

@[simp] theorem get_set_self (values : PerParty α) (party : Party) (value : α) :
    (values.set party value).get party = value := by
  cases party <;> rfl

theorem get_set_ne (values : PerParty α) {party other : Party} (value : α) (h : other ≠ party) :
    (values.set party value).get other = values.get other := by
  cases party <;> cases other <;> first | rfl | exact absurd rfl h

@[simp] theorem get_ofFn (f : Party → α) (party : Party) : (ofFn f).get party = f party := by
  cases party <;> rfl

@[simp] theorem get_map (f : α → β) (values : PerParty α) (party : Party) :
    (values.map f).get party = f (values.get party) := by
  cases party <;> rfl

end PerParty

end JointQuery
