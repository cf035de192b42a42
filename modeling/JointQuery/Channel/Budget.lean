/-! A byte budget. Whoever needs more bytes than are free sets all free bytes aside and waits;
bytes that come back go to the longest waiting first. -/
namespace JointQuery

/-- Someone who waits for bytes, and the bytes already set aside for them. -/
structure Waiter (τ : Type) where
  task : τ
  want : Nat
  held : Nat
  deriving DecidableEq, Repr

/-- All bytes that are wanted are set aside. -/
def Waiter.isServed {τ : Type} (waiter : Waiter τ) : Bool := waiter.held == waiter.want

/-- The budget of one party in a `BackpressureController`: its size, the bytes that nobody has, and
who waits, longest first. -/
structure Budget (τ : Type) where
  limit : Nat
  free : Nat
  waiters : List (Waiter τ)
  deriving Repr

namespace Budget

variable {τ : Type} [BEq τ]

/-- `BackpressureController::new`: a budget of which nothing is taken. -/
def ofLimit (limit : Nat) : Budget τ := ⟨limit, limit, []⟩

/-- The bytes that a frame takes in `BackpressureController::reserve`: its length, but never nothing
and never more than there are. -/
def need (budget : Budget τ) (length : Nat) : Nat := max (min length budget.limit) 1

/-- Hands bytes to the waiters in order: the bytes left over, the waiters, and who has now all
that they want. -/
def fill : Nat → List (Waiter τ) → Nat × List (Waiter τ) × List τ
  | bytes, [] => (bytes, [], [])
  | bytes, waiter :: rest =>
    let given := min bytes (waiter.want - waiter.held)
    let filled := { waiter with held := waiter.held + given }
    let (left, others, served) := fill (bytes - given) rest
    (left, filled :: others,
      if !waiter.isServed && filled.isServed then waiter.task :: served else served)

/-- Gives bytes back, as a dropped `OutboundPermit` does; the second part names who can go on. -/
def give (budget : Budget τ) (bytes : Nat) : Budget τ × List τ :=
  let (left, waiters, served) := fill bytes budget.waiters
  ({ budget with free := budget.free + left, waiters := waiters }, served)

/-- `BackpressureController::reserve`: takes bytes if enough are free; otherwise sets the free bytes
aside and waits. -/
def reserve (budget : Budget τ) (task : τ) (bytes : Nat) : Budget τ × Bool :=
  if bytes ≤ budget.free then ({ budget with free := budget.free - bytes }, true)
  else
    ({ budget with free := 0, waiters := budget.waiters ++ [⟨task, bytes, budget.free⟩] }, false)

/-- The place of a task in the line. -/
def waiter? (budget : Budget τ) (task : τ) : Option (Waiter τ) :=
  budget.waiters.find? (·.task == task)

/-- Whether all bytes that a task waits for are set aside. -/
def isServed (budget : Budget τ) (task : τ) : Bool :=
  match budget.waiter? task with
  | some waiter => waiter.isServed
  | none => false

/-- Takes a task out of the line. -/
def leave (budget : Budget τ) (task : τ) : Budget τ :=
  { budget with waiters := budget.waiters.filter (·.task != task) }

/-- Takes a task out of the line and gives back what was set aside for it. -/
def abandon (budget : Budget τ) (task : τ) : Budget τ × List τ :=
  match budget.waiter? task with
  | some waiter => (budget.leave task).give waiter.held
  | none => (budget, [])

end Budget

end JointQuery
