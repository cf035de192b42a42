import JointQuery.Node.Connection

/-! Accepted connections, byte by byte. What arrives is cut into lines at newlines; a connection
from a party has to open with a line that names the party: `handle_front` and `handle_interserver`.
What stands around them is left out: the sockets, the loops of `serve` that accept connections, and
the end of the whole node in `run`. -/
namespace JointQuery

/-- `handle_front` and `handle_interserver` where they wait: who is at the other end of an accepted
connection, as far as that is known. -/
inductive Intake where
  | client (place : Nat)
  /-- A party that has not named itself yet. -/
  | opening
  | party (party : Party)
  | closed
  deriving DecidableEq, Repr

namespace Intake

/-- The connection behind an intake that is open and knows its other end. -/
def connection? : Intake → Option Connection
  | .client place => some (.client place)
  | .party peer => some (.party peer)
  | .opening | .closed => none

/-- Cuts bytes into the lines that are complete, without their ends, and the rest. -/
def cutLines : List UInt8 → List (List UInt8) × List UInt8
  | [] => ([], [])
  | byte :: bytes =>
    let (lines, rest) := cutLines bytes
    if byte = 0x0A then ([] :: lines, rest)
    else
      match lines with
      | line :: others => ((byte :: line) :: others, rest)
      | [] => ([], byte :: rest)

/-- The text of a line, unless it is not encoded as it should be. A carriage return at the end
belongs to the end of the line. -/
def lineText? (line : List UInt8) : Option String :=
  let bytes := if line.getLast? = some 0x0D then line.dropLast else line
  String.fromUTF8? ⟨bytes.toArray⟩

end Intake

namespace Node

/-- Closes an intake. -/
def closeIntake (node : Node) (intake : Intake) : Node × Intake :=
  (intake.connection?.elim node node.hangUp, .closed)

/-- Takes a line from an intake; the number is that of the request it has begun. A line that is no
text, or that stops the connection, closes it, and so does a first line of a party that does not
name it. -/
def takeLine (node : Node) (intake : Intake) (line : List UInt8) : Node × Intake × Option Nat :=
  match Intake.lineText? line, intake with
  | _, .closed => (node, .closed, none)
  | none, _ =>
    let (closed, intake) := node.closeIntake intake
    (closed, intake, none)
  | some text, .opening =>
    let named := (PartyMessage.ofLine? text).bind (·.openingParty?)
    (node, named.elim .closed .party, none)
  | some text, .client place =>
    match node.receiveClientLine place text with
    | (after, .proceed, request) => (after, .client place, request)
    | (after, .stop, request) => (after.hangUp (.client place), .closed, request)
  | some text, .party peer =>
    match node.receivePartyLine peer text with
    | (after, .proceed) => (after, .party peer, none)
    | (after, .stop) => (after.hangUp (.party peer), .closed, none)

/-- Takes what is left of an intake when its other end writes no more: an unfinished line counts
as a line, and then the intake is closed. -/
def endIntake (node : Node) (intake : Intake) (rest : List UInt8) : Node × Intake :=
  if rest.isEmpty then node.closeIntake intake
  else
    let (after, intake, _) := node.takeLine intake rest
    after.closeIntake intake

end Node

end JointQuery
