import JointQuery.Domain.Basic

/-! Walking through a domain from its first tuple to its last. -/
namespace JointQuery

/-- `DomainTuples`: the places of the next tuple's values, and its index. -/
structure Walk where
  positions : List Nat
  next : Nat
  deriving DecidableEq, Repr

namespace Walk

/-- `DomainIterator::iter`: a walk starts at the first tuple. -/
def start (domain : Domain) : Walk :=
  ⟨domain.radices.map fun _ => 0, 0⟩

/-- Turns the odometer by one; the second part says whether every wheel has gone round. -/
def turn : List Nat → List Nat → List Nat × Bool
  | radix :: radices, place :: places =>
    let (rest, carry) := turn radices places
    if carry then
      if place + 1 < radix then ((place + 1) :: rest, false) else (0 :: rest, true)
    else (place :: rest, false)
  | _, _ => ([], true)

/-- How many tuples are still to come. -/
def remaining (domain : Domain) (walk : Walk) : Nat :=
  domain.count - walk.next

/-- `DomainTuples::size_hint`: the bounds on how many tuples are still to come, which are known
exactly. -/
def sizeHint (domain : Domain) (walk : Walk) : Nat × Option Nat :=
  (remaining domain walk, some (remaining domain walk))

/-- The next tuple with its index, and the walk after it; nothing after the last tuple. -/
def step (domain : Domain) (walk : Walk) : Option ((Nat × List GroupValue) × Walk) :=
  if walk.next < domain.count then
    some ((walk.next, Domain.valuesAt domain.dimensions walk.positions),
      ⟨(turn domain.radices walk.positions).1, walk.next + 1⟩)
  else none

/-- `DomainTuples::next`: asks for the next tuple. A walk that has come to the end stays there and
has no answer. -/
def ask (domain : Domain) (walk : Walk) : Option (Nat × List GroupValue) × Walk :=
  match step domain walk with
  | some (item, after) => (some item, after)
  | none => (none, walk)

/-- The walk after `n` more tuples, which need not be visited; it does not pass the end. -/
def skip (domain : Domain) (n : Nat) (walk : Walk) : Walk :=
  ⟨(Domain.digits domain.radices (walk.next + n)).1, min (walk.next + n) domain.count⟩

/-- The tuples of the next `n` steps, and the walk after them. -/
def take (domain : Domain) : Nat → Walk → List (Nat × List GroupValue) × Walk
  | 0, walk => ([], walk)
  | n + 1, walk =>
    match step domain walk with
    | none => ([], walk)
    | some (item, after) =>
      let (items, last) := take domain n after
      (item :: items, last)

end Walk

end JointQuery
