import JointQuery.Node.Basic

/-! Channels to the parties. All senders to a party share one channel, which is dialed when there
is none that is open. -/
namespace JointQuery.Node

/-- The channel at a place is open. -/
def isOpenAt (node : Node) (index : Nat) : Bool :=
  match node.channels[index]? with
  | some channel => channel.isOpen
  | none => false

/-- The open channel that senders to a party share, if there is one: what the cell in
`ChannelPool::acquire` holds. -/
def openChannel? (node : Node) (party : Party) : Option Nat :=
  (node.pooled.get party).filter node.isOpenAt

/-- `ChannelPool::connected`: the parties to which there is an open channel. -/
def connected (node : Node) : List Party :=
  Party.all.filter fun party => (node.openChannel? party).isSome

/-- Dials a party, as `ChannelPool::acquire` does through `MemoryConnector::connect`. A refused dial
leaves no channel behind; a new channel clears what made writes fail. -/
def dial (node : Node) (endpoint : Endpoint) : Node × Except QueryError Nat :=
  let party := endpoint.party
  let dialed := node.modifyLink party fun link => { link with attempts := link.attempts + 1 }
  if (node.links.get party).refused then
    ({ dialed with pooled := dialed.pooled.set party none },
      .error (.connectFailed party (endpoint.address.text ++ " refused connection")))
  else
    let index := node.channels.length
    let mended := dialed.modifyLink party fun link => { link with broken := false }
    let joined : Node := { mended with
      channels := mended.channels ++ [.fresh party]
      pooled := mended.pooled.set party (some index) }
    (joined.wake (.writer index), .ok index)

/-- `ChannelPool::acquire`: the shared channel to a party if it is open, else a new one. -/
def acquire (node : Node) (party : Party) : Node × Except QueryError Nat :=
  match node.directory.find? party with
  | none => (node, .error (.connectFailed party "no endpoint configured"))
  | some endpoint =>
    match node.openChannel? party with
    | some index => (node, .ok index)
    | none => node.dial endpoint

/-- `ChannelHandle::close`: closes a channel to new senders. -/
def closeChannel (node : Node) (index : Nat) : Node :=
  match node.channels[index]? with
  | some channel => node.setChannel index { channel with closed := true }
  | none => node

/-- `ChannelPool::invalidate`: closes the channel that senders to a party share, so that the next
one dials. -/
def invalidate (node : Node) (party : Party) : Node :=
  match node.pooled.get party with
  | some index => { node.closeChannel index with pooled := node.pooled.set party none }
  | none => node

/-! ## Bytes -/

/-- Gives bytes toward a party back, as a dropped `OutboundPermit` does. -/
def giveBytes (node : Node) (party : Party) (bytes : Nat) : Node :=
  let (budget, served) := (node.budgets.get party).give bytes
  (node.setBudget party budget).wakeAll served

/-- `BackpressureController::reserve`: takes bytes toward a party for a task, or lets it wait. -/
def reserveBytes (node : Node) (task : TaskId) (party : Party) (bytes : Nat) : Node × Bool :=
  let (budget, granted) := (node.budgets.get party).reserve task bytes
  (node.setBudget party budget, granted)

/-- Ends a task's wait for bytes and gives back what was set aside. -/
def abandonBytes (node : Node) (task : TaskId) (party : Party) : Node :=
  let (budget, served) := (node.budgets.get party).abandon task
  (node.setBudget party budget).wakeAll served

/-! ## Sending -/

/-- How far the sending of a message has got. -/
inductive Sending where
  | sent
  | parked
  | failed (cause : QueryError)

/-- The bytes that a message takes of a party's budget. -/
def messageBytes (node : Node) (party : Party) (message : PartyMessage) : Nat :=
  (node.budgets.get party).need message.line.utf8ByteSize

/-- Puts a message whose bytes are reserved on a channel. If the writer has stopped, the bytes go
back and the channel is closed. -/
def putFrame (node : Node) (task : TaskId) (index : Nat) (channel : Channel)
    (message : PartyMessage) : Node × Sending :=
  let bytes := node.messageBytes channel.party message
  if channel.running then
    let frame : Frame := ⟨message, task.startedSession?, message.line.utf8ByteSize, bytes⟩
    ((node.setChannel index (channel.push frame)).wake (.writer index), .sent)
  else
    ((node.setChannel index { channel with closed := true }).giveBytes channel.party bytes,
      .failed (.channelClosed channel.party))

/-- `ChannelHandle::send`, until it waits: a closed channel refuses the message, and it waits for
bytes if there are not enough. -/
def send (node : Node) (task : TaskId) (index : Nat) (message : PartyMessage) : Node × Sending :=
  match node.channels[index]? with
  | none => (node, .parked)
  | some channel =>
    if channel.isOpen then
      match node.reserveBytes task channel.party (node.messageBytes channel.party message) with
      | (reserved, true) => reserved.putFrame task index channel message
      | (waiting, false) => (waiting, .parked)
    else (node, .failed (.channelClosed channel.party))

/-- `ChannelHandle::send`, after it has waited: goes on with a message that waits for bytes. -/
def resumeSend (node : Node) (task : TaskId) (index : Nat) (message : PartyMessage) :
    Node × Sending :=
  match node.channels[index]? with
  | none => (node, .parked)
  | some channel =>
    let budget := node.budgets.get channel.party
    if budget.isServed task then
      (node.setBudget channel.party (budget.leave task)).putFrame task index channel message
    else (node, .parked)

/-! ## Writing -/

/-- Gives back the bytes of frames that are lost. -/
def loseFrames (node : Node) (party : Party) (frames : List Frame) : Node :=
  frames.foldl (fun node frame => node.giveBytes party frame.reserved) node

/-- The loop in `ChannelHandle::spawn`: writes the pending frames of a channel in order. The first
write that fails closes the channel and loses the rest. -/
def writeFrames (node : Node) (index : Nat) : List Frame → Node
  | [] => node
  | frame :: rest =>
    match node.channels[index]? with
    | none => node
    | some channel =>
      let party := channel.party
      if (node.links.get party).broken || !node.listening then
        (node.setChannel index channel.fail).loseFrames party (frame :: rest)
      else
        let written := node.setChannel index { channel with written := channel.written + 1 }
        let noted : Node := { written with delivered := written.delivered ++ [(party, frame)] }
        writeFrames (noted.giveBytes party frame.reserved) index rest

/-- The task in `ChannelHandle::spawn`: runs the writer of a channel, unless its party holds
writes. -/
def pollWriter (node : Node) (index : Nat) : Node :=
  match node.channels[index]? with
  | none => node
  | some channel =>
    if channel.running && !(node.links.get channel.party).stalled then
      node.writeFrames index channel.pending
    else node

/-! ## Links -/

/-- `MemoryConnector::refuse`: a party refuses connections from now on. -/
def refuse (node : Node) (party : Party) : Node :=
  node.modifyLink party fun link => { link with refused := true }

/-- `MemoryConnector::accept`: a party takes connections again. -/
def accept (node : Node) (party : Party) : Node :=
  node.modifyLink party fun link => { link with refused := false }

/-- `MemoryConnector::stall`: writes to a party are held. -/
def stall (node : Node) (party : Party) : Node :=
  node.modifyLink party fun link => { link with stalled := true }

/-- `MemoryConnector::break_links`: writes to a party on channels that exist fail. -/
def breakLinks (node : Node) (party : Party) : Node :=
  node.modifyLink party fun link => { link with broken := true }

/-- The places of the channels to a party. -/
def channelsTo (node : Node) (party : Party) : List Nat :=
  (List.range node.channels.length).filter fun index =>
    (node.channels[index]?.map (·.party)) == some party

/-- `MemoryConnector::resume`: writes to a party go on. -/
def resume (node : Node) (party : Party) : Node :=
  (node.modifyLink party fun link => { link with stalled := false }).wakeAll
    ((node.channelsTo party).map .writer)

/-- Nobody takes what the links write any more, so that writes fail. -/
def stopListening (node : Node) : Node := { node with listening := false }

/-! ## Tasks of their own -/

/-- Adds a task that sends one message on a channel. -/
def addPost (node : Node) (channel : Nat) (message : PartyMessage) : Node × Nat :=
  let index := node.posts.length
  let added : Node := { node with posts := node.posts ++ [⟨channel, message, false, none⟩] }
  (added.wake (.post index), index)

/-- Notes how far a post has got. -/
def settlePost (node : Node) (index : Nat) (post : Post) : Sending → Node
  | .parked => { node with posts := node.posts.set index { post with parked := true } }
  | .sent =>
    { node with
      posts := node.posts.set index { post with result := some (.ok ()) }
      posted := node.posted ++ [index] }
  | .failed cause =>
    { node with
      posts := node.posts.set index { post with result := some (.error cause) }
      posted := node.posted ++ [index] }

/-- Runs a post. -/
def pollPost (node : Node) (index : Nat) : Node :=
  match node.posts[index]? with
  | none => node
  | some post =>
    match post.result with
    | some _ => node
    | none =>
      let (node, sending) :=
        if post.parked then node.resumeSend (.post index) post.channel post.message
        else node.send (.post index) post.channel post.message
      node.settlePost index post sending

/-- Adds a task that reserves bytes toward a party. -/
def addReservation (node : Node) (party : Party) (length : Nat) : Node × Nat :=
  let index := node.reservations.length
  let bytes := (node.budgets.get party).need length
  let added : Node :=
    { node with reservations := node.reservations ++ [⟨party, bytes, .unstarted⟩] }
  (added.wake (.reservation index), index)

/-- Replaces the reservation at a place. -/
def setReservation (node : Node) (index : Nat) (reservation : Reservation) : Node :=
  { node with reservations := node.reservations.set index reservation }

/-- Notes that a reservation is granted. -/
def grant (node : Node) (index : Nat) (reservation : Reservation) : Node :=
  let noted := node.setReservation index { reservation with state := .granted }
  { noted with grantedOrder := noted.grantedOrder ++ [index] }

/-- Runs a reservation. -/
def pollReservation (node : Node) (index : Nat) : Node :=
  match node.reservations[index]? with
  | none => node
  | some reservation =>
    let party := reservation.party
    let task := TaskId.reservation index
    match reservation.state with
    | .unstarted =>
      match node.reserveBytes task party reservation.bytes with
      | (reserved, true) => reserved.grant index reservation
      | (waiting, false) => waiting.setReservation index { reservation with state := .waiting }
    | .waiting =>
      let budget := node.budgets.get party
      if budget.isServed task then
        (node.setBudget party (budget.leave task)).grant index reservation
      else node
    | .granted | .ended => node

/-- Gives a granted reservation back. -/
def releaseReservation (node : Node) (index : Nat) : Node :=
  match node.reservations[index]? with
  | some reservation =>
    if reservation.state = .granted then
      (node.setReservation index { reservation with state := .ended }).giveBytes reservation.party
        reservation.bytes
    else node
  | none => node

/-- Gives up a reservation that waits. -/
def abandonReservation (node : Node) (index : Nat) : Node :=
  match node.reservations[index]? with
  | some reservation =>
    if reservation.state = .waiting then
      (node.setReservation index { reservation with state := .ended }).abandonBytes
        (.reservation index) reservation.party
    else node
  | none => node

end JointQuery.Node
