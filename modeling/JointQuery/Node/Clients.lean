import JointQuery.Node.Basic

/-! Queueing events for clients, and what clients do with their queues. -/
namespace JointQuery.Node

/-- Adds a client; an attended one reads whatever is queued for it. -/
def addClient (node : Node) (ref : String) (capacity patience : Nat) (attended : Bool) :
    Node × Nat :=
  let index := node.clients.length
  ({ node with
      clients := node.clients ++ [.fresh ref capacity patience]
      attended := if attended then node.attended ++ [index] else node.attended }, index)

/-- `ClientHandle::client_ref`: the reference of a client. -/
def clientRef (node : Node) (client : Nat) : String :=
  match node.clients[client]? with
  | some queue => queue.ref
  | none => ""

/-- `ClientHandle::is_connected`: whether events can still reach a client. -/
def isConnected (node : Node) (client : Nat) : Bool :=
  match node.clients[client]? with
  | some queue => queue.isConnected
  | none => false

/-- `ClientHandle::mark_disconnected`: a client counts as gone from now on. -/
def markDisconnected (node : Node) (client : Nat) : Node :=
  match node.clients[client]? with
  | some queue => node.setClient client queue.markDisconnected
  | none => node

/-- `ClientHandle::try_send`: queues an event without waiting. -/
def trySend (node : Node) (client : Nat) (notice : Notice) : Node × Bool :=
  match node.clients[client]? with
  | some queue =>
    let (changed, sent) := queue.trySend notice
    (node.setClient client changed, sent)
  | none => (node, false)

/-- `ClientHandle::send`, until it waits: queues an event for a task, or lets the task wait for
room. The time by which there has to be room is the last part. -/
def offer (node : Node) (task : TaskId) (client : Nat) (notice : Notice) :
    Node × Offer × Nat :=
  match node.clients[client]? with
  | none => (node, .refused, node.now)
  | some queue =>
    let (changed, offer) := queue.offer task notice
    let deadline := node.now + queue.patience
    let node := node.setClient client changed
    (if offer = .waiting then node.setTimer task .patience deadline else node, offer, deadline)

/-- `ClientHandle::send`, after it has waited: goes on with an event that waits for room. -/
def resumeOffer (node : Node) (task : TaskId) (client : Nat) (notice : Notice)
    (deadline : Nat) : Node × Offer :=
  match node.clients[client]? with
  | none => (node, .refused)
  | some queue =>
    let (changed, offer) := queue.resume task notice (deadline ≤ node.now)
    let node := node.setClient client changed
    (if offer = .waiting then node else node.cancelTimer task .patience, offer)

/-- A client reads its next event. -/
def readEvent (node : Node) (client : Nat) : Node × Option ClientEvent :=
  match node.clients[client]? with
  | none => (node, none)
  | some queue =>
    let (changed, notice, task) := queue.read
    ((node.setClient client changed).wakeAll task.toList, notice.map (·.event))

/-- A client stops reading. -/
def closeClient (node : Node) (client : Nat) : Node :=
  match node.clients[client]? with
  | none => node
  | some queue =>
    let (changed, tasks) := queue.close
    (node.setClient client changed).wakeAll tasks

/-- Adds a task that queues one event for a client. -/
def addDelivery (node : Node) (client : Nat) (event : ClientEvent) : Node × Nat :=
  let index := node.deliveries.length
  let added : Node :=
    { node with deliveries := node.deliveries ++ [⟨client, event, none, none⟩] }
  (added.wake (.delivery index), index)

/-- Notes what has become of a delivery. -/
def settleDelivery (node : Node) (index : Nat) (delivery : Delivery) (offer : Offer)
    (deadline : Nat) : Node :=
  let note (delivery : Delivery) (node : Node) : Node :=
    { node with deliveries := node.deliveries.set index delivery }
  match offer with
  | .waiting => note { delivery with deadline := some deadline } node
  | .sent | .refused =>
    note { delivery with result := some (offer == .sent) }
      { node with deliveredEvents := node.deliveredEvents ++ [index] }

/-- Runs a delivery. -/
def pollDelivery (node : Node) (index : Nat) : Node :=
  match node.deliveries[index]? with
  | none => node
  | some delivery =>
    match delivery.result, delivery.deadline with
    | some _, _ => node
    | none, none =>
      let (offered, offer, deadline) :=
        node.offer (.delivery index) delivery.client ⟨none, delivery.event⟩
      offered.settleDelivery index delivery offer deadline
    | none, some deadline =>
      let (offered, offer) :=
        node.resumeOffer (.delivery index) delivery.client ⟨none, delivery.event⟩ deadline
      offered.settleDelivery index delivery offer deadline

end JointQuery.Node
