import JointQuery.Message.Wire

/-! Channels to parties. A channel keeps every frame that was ever put on it and how many of them
its link has written; the rest is on its way. The links are those of a `MemoryConnector`; what a
`TcpConnector` does is left out. -/
namespace JointQuery

/-- A message on a channel, the place of the session that it starts, the length of its line, and
the bytes reserved for it. -/
structure Frame where
  message : PartyMessage
  session : Option Nat
  length : Nat
  reserved : Nat

/-- `ChannelHandle`: a channel to a party. -/
structure Channel where
  party : Party
  /-- Every frame ever put on the channel. -/
  frames : List Frame
  /-- How many frames the link has written. -/
  written : Nat
  /-- A closed channel takes no new sender. -/
  closed : Bool
  /-- The writer runs until a write fails. -/
  running : Bool

namespace Channel

/-- A channel on a new link. -/
def fresh (party : Party) : Channel := ⟨party, [], 0, false, true⟩

/-- `ChannelHandle::is_closed`, negated: new senders may use the channel. -/
def isOpen (channel : Channel) : Bool := !channel.closed && channel.running

/-- The frames that are not written yet. -/
def pending (channel : Channel) : List Frame := channel.frames.drop channel.written

/-- The channel after a write has failed in `ChannelHandle::spawn`: what is pending is lost. -/
def fail (channel : Channel) : Channel := { channel with closed := true, running := false }

/-- The channel with one more frame. -/
def push (channel : Channel) (frame : Frame) : Channel :=
  { channel with frames := channel.frames ++ [frame] }

/-- A channel in a report about the node's own state. -/
def debugText (channel : Channel) : String :=
  "ChannelHandle \x7b party: " ++ channel.party.debugName ++ ", closed: " ++
    toString (!channel.isOpen) ++ " \x7d"

end Channel

/-- What a `MemoryConnector` knows of one party: whether it refuses connections, fails or holds
writes, and how often it was dialed. -/
structure Link where
  refused : Bool
  broken : Bool
  stalled : Bool
  attempts : Nat
  deriving DecidableEq, Repr

/-- A link that works and was never dialed. -/
def Link.idle : Link := ⟨false, false, false, 0⟩

end JointQuery
