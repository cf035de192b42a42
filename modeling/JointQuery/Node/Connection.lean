import JointQuery.Node.Pool
import JointQuery.Node.Requests
import JointQuery.Text.Blank

/-! What arrives on connections. Clients send requests and parties send messages; whatever does
not belong on a connection closes it. On the wire each line is one of them. The stage that traces
what arrives is left out but for its name. -/
namespace JointQuery

/-- `ConnectionContext`: an accepted connection of a client, by its place, or of a party. -/
inductive Connection where
  | client (place : Nat)
  | party (party : Party)
  deriving DecidableEq, Repr

/-- `InboundEvent`: something that has arrived on a connection. -/
inductive Inbound where
  | request (request : ClientRequest)
  | message (message : PartyMessage)

/-- `StageFlow`: whether a connection stays open. -/
inductive Flow where
  | proceed
  | stop
  deriving DecidableEq, Repr

namespace Connection

/-- `Pipeline::role`: what a connection is to the node. -/
def role : Connection → Role
  | .client _ => .front
  | .party peer => peer.role

/-- `Pipeline::stage_names`: the stages that look at what arrives on a connection, in order. -/
def stages : Connection → List String
  | .client _ => ["trace", "client"]
  | .party _ => ["trace", "partial_result"]

end Connection

/-- The party that a message names when it opens a connection. -/
def PartyMessage.openingParty? : PartyMessage → Option Party
  | .hello party => some party
  | _ => none

namespace Node

/-- `ClientStage::on_event`: begins what a client asks for; the number is that of the request. -/
def receiveRequest (node : Node) (client : Nat) : ClientRequest → Node × Nat
  | .submit query => node.beginQuery client query true
  | .cancel id => node.beginCancel client id

/-- `PartialResultStage::on_event`: takes a message of a party. Only partial results matter; one
that is refused leaves the connection open. -/
def receiveMessage (node : Node) : PartyMessage → Node
  | .partialResult result => (node.receivePartial result).1
  | .hello _ | .startQuery _ _ _ => node

/-- `Pipeline::on_event`: takes what has arrived on a connection. The last part is the number of the
request that it has begun. -/
def receive (node : Node) : Connection → Inbound → Node × Flow × Option Nat
  | .client client, .request request =>
    let (begun, index) := node.receiveRequest client request
    (begun, .proceed, some index)
  | .party _, .message message => (node.receiveMessage message, .proceed, none)
  | .client _, .message _ | .party _, .request _ => (node, .stop, none)

/-- `Pipeline::on_close`: a connection has closed. The queries of its client are cancelled; the
channel to its party is not used any more. -/
def hangUp (node : Node) : Connection → Node
  | .client client =>
    ((node.markDisconnected client).clientLeft (node.clientRef client)).1
  | .party party => node.invalidate party

/-! ## Lines -/

/-- The loop in `handle_front`: takes a line of a client. The client is told when its line cannot be
read. -/
def receiveClientLine (node : Node) (client : Nat) (line : String) : Node × Flow × Option Nat :=
  if Text.isBlankText line then (node, .proceed, none)
  else
    match ClientRequest.ofLine? line with
    | some request => node.receive (.client client) (.request request)
    | none =>
      let (begun, index) := node.beginComplaint client
      (begun, .proceed, some index)

/-- The loop in `handle_interserver`: takes a line of a party. One that cannot be read is
skipped. -/
def receivePartyLine (node : Node) (party : Party) (line : String) : Node × Flow :=
  if Text.isBlankText line then (node, .proceed)
  else
    match PartyMessage.ofLine? line with
    | some message =>
      let (after, flow, _) := node.receive (.party party) (.message message)
      (after, flow)
    | none => (node, .proceed)

end Node

end JointQuery
