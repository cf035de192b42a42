import JointQuery.Proofs.Node.Sending

/-! The shared channels as a table of cells. A cell is put into the table for whoever first asks for
a party, and filled by a dial that succeeds; a dial that is refused leaves it empty. A cell whose
channel has closed is taken out of the table, and there is a second round. Two rounds are enough, and
a cell that was never filled is as good as none. -/
namespace JointQuery

/-- A place for the channel to a party, and the channel once it was dialed. -/
inductive Cell where
  | empty
  | filled (channel : Nat)
  deriving DecidableEq, Repr

/-- The channel of a cell. -/
def Cell.channel? : Option Cell → Option Nat
  | some (.filled channel) => some channel
  | some .empty | none => none

private theorem PerParty.map_set {α β : Type} (f : α → β) (values : PerParty α) (party : Party)
    (value : α) : (values.set party value).map f = (values.map f).set party (f value) := by
  cases party <;> rfl

namespace Node

/-- Dials a party without noting the channel in any table. -/
def connect (node : Node) (endpoint : Endpoint) : Node × Except QueryError Nat :=
  let party := endpoint.party
  let dialed := node.modifyLink party fun link => { link with attempts := link.attempts + 1 }
  if (node.links.get party).refused then
    (dialed, .error (.connectFailed party (endpoint.address.text ++ " refused connection")))
  else
    let index := node.channels.length
    let mended := dialed.modifyLink party fun link => { link with broken := false }
    let joined : Node := { mended with channels := mended.channels ++ [.fresh party] }
    (joined.wake (.writer index), .ok index)

/-- The channel in the cell of a party. A cell that is missing is put there, and one that is empty
is filled by a dial. -/
def fillCell (node : Node) (cells : PerParty (Option Cell)) (endpoint : Endpoint) :
    Node × PerParty (Option Cell) × Except QueryError Nat :=
  match (cells.get endpoint.party).getD .empty with
  | .filled index => (node, cells, .ok index)
  | .empty =>
    match node.connect endpoint with
    | (refused, .error cause) => (refused, cells.set endpoint.party (some .empty), .error cause)
    | (connected, .ok index) =>
      (connected, cells.set endpoint.party (some (.filled index)), .ok index)

/-- Looks for an open channel for so many rounds. A closed one is taken out of the table. -/
def acquireWithin (endpoint : Endpoint) : Nat → Node → PerParty (Option Cell) →
    Node × PerParty (Option Cell) × Except QueryError Nat
  | 0, node, cells => (node, cells, .error (.channelClosed endpoint.party))
  | rounds + 1, node, cells =>
    match node.fillCell cells endpoint with
    | (refused, left, .error cause) => (refused, left, .error cause)
    | (found, left, .ok index) =>
      if found.isOpenAt index then (found, left, .ok index)
      else acquireWithin endpoint rounds found (left.set endpoint.party none)

/-- The table holds the channels that are shared. -/
def Tabled (node : Node) (cells : PerParty (Option Cell)) : Prop :=
  cells.map Cell.channel? = node.pooled

variable {node : Node} {cells : PerParty (Option Cell)} {endpoint : Endpoint} {index : Nat}

private theorem Tabled.get (tabled : node.Tabled cells) (party : Party) :
    node.pooled.get party = Cell.channel? (cells.get party) := by
  rw [← tabled, PerParty.get_map]

/-- Dialing notes the channel, or that there is none. -/
theorem dial_eq (node : Node) (endpoint : Endpoint) : node.dial endpoint =
    ({ (node.connect endpoint).1 with
        pooled := node.pooled.set endpoint.party (node.connect endpoint).2.toOption },
      (node.connect endpoint).2) := by
  unfold dial connect
  dsimp only
  split <;> rfl

/-- A channel that has just been dialed is open. -/
theorem isOpenAt_connect (connected : (node.connect endpoint).2 = .ok index) :
    (node.connect endpoint).1.isOpenAt index = true := by
  unfold connect at connected ⊢
  dsimp only at connected ⊢
  split at connected
  · cases connected
  · rename_i accepts
    obtain rfl := Except.ok.inj connected
    rw [if_neg accepts]
    simp [isOpenAt, wake, modifyLink, Channel.isOpen, Channel.fresh]

/-- An empty cell, or none, takes one round. -/
theorem acquireWithin_of_empty (empty : Cell.channel? (cells.get endpoint.party) = none)
    (rounds : Nat) : acquireWithin endpoint (rounds + 1) node cells =
      ((node.connect endpoint).1,
        cells.set endpoint.party (some ((node.connect endpoint).2.toOption.elim .empty .filled)),
        (node.connect endpoint).2) := by
  have missing : (cells.get endpoint.party).getD .empty = .empty := by
    revert empty
    cases cells.get endpoint.party with
    | none => exact fun _ => rfl
    | some cell => cases cell <;> simp [Cell.channel?]
  have opened (index : Nat) (connected : (node.connect endpoint).2 = .ok index) :
      (node.connect endpoint).1.isOpenAt index = true := isOpenAt_connect connected
  unfold acquireWithin fillCell
  rw [missing]
  generalize node.connect endpoint = result at opened
  obtain ⟨after, cause | index⟩ := result
  · rfl
  · simp only [opened index rfl, if_true]
    rfl

/-- Sharing a channel is what two rounds over the table come to; so none ends with the finding that
the channel is closed. After one round, or none, there is no channel in the table, and the next one
dials. -/
theorem acquire_eq_rounds (tabled : node.Tabled cells) {party : Party}
    (known : node.directory.find? party = some endpoint) :
    ∃ after left, acquireWithin endpoint 2 node cells = (after, left, (node.acquire party).2) ∧
      (node.acquire party).1 = { after with pooled := left.map Cell.channel? } := by
  obtain rfl := Directory.party_of_find? known
  have shared := tabled.get endpoint.party
  have dials (rounds : Nat) (cells : PerParty (Option Cell))
      (empty : Cell.channel? (cells.get endpoint.party) = none)
      (others : ∀ cell : Option Cell, (cells.set endpoint.party cell).map Cell.channel? =
        node.pooled.set endpoint.party (Cell.channel? cell)) :
      ∃ after left, acquireWithin endpoint (rounds + 1) node cells =
          (after, left, (node.dial endpoint).2) ∧
        (node.dial endpoint).1 = { after with pooled := left.map Cell.channel? } := by
    refine ⟨_, _, (acquireWithin_of_empty empty rounds).trans (by rw [dial_eq]), ?_⟩
    rw [dial_eq, others]
    cases (node.connect endpoint).2 <;> rfl
  have tables (cell : Option Cell) : (cells.set endpoint.party cell).map Cell.channel? =
      node.pooled.set endpoint.party (Cell.channel? cell) := by
    rw [PerParty.map_set, tabled]
  cases held : Cell.channel? (cells.get endpoint.party) with
  | none =>
    have closed : node.openChannel? endpoint.party = none := by simp [openChannel?, shared, held]
    simp only [acquire, known, closed]
    exact dials 1 cells held tables
  | some index =>
    have filled : cells.get endpoint.party = some (.filled index) := by
      revert held
      cases cells.get endpoint.party with
      | none => simp [Cell.channel?]
      | some cell => cases cell <;> simp [Cell.channel?]
    by_cases opened : node.isOpenAt index = true
    · have found : node.openChannel? endpoint.party = some index := by
        simp [openChannel?, shared, held, opened]
      simp only [acquire, known, found]
      refine ⟨node, cells, ?_, by rw [tabled]⟩
      simp [acquireWithin, fillCell, filled, opened]
    · have closed : node.openChannel? endpoint.party = none := by
        simp [openChannel?, shared, held, opened]
      have again : acquireWithin endpoint 2 node cells =
          acquireWithin endpoint 1 node (cells.set endpoint.party none) := by
        rw [acquireWithin, fillCell, filled]
        simp [opened]
      simp only [acquire, known, closed]
      rw [again]
      refine dials 0 (cells.set endpoint.party none) ?_ fun cell => ?_
      · rw [PerParty.get_set_self]
        rfl
      · rw [PerParty.map_set, tables]
        cases endpoint.party <;> rfl

end Node

end JointQuery
