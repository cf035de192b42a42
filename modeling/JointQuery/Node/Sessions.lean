import JointQuery.Node.Clients

/-! How sessions end. A session that enters a final state leaves the registry in the same step, and
whoever works for it is woken to see that. -/
namespace JointQuery.Node

/-- `QueryDispatcher::session`: the registered session of an identifier, with its place. -/
def find? (node : Node) (id : QueryId) : Option (Nat × Session) := do
  let index ← node.registry.get? id
  let session ← node.session? index
  return (index, session)

/-- The places of the registered sessions with a property. -/
def registered (node : Node) (property : Session → Bool) : List Nat :=
  node.registry.select fun index => (node.session? index).any property

/-- Wakes everyone who works for a session. -/
def wakeSession (node : Node) (index : Nat) : Node :=
  node.wakeAll (.reporter index :: node.directory.targets.map (.sender index))

/-- `QuerySession::finish` and `CorrelationRegistry::remove`: ends a session and takes it out of the
registry; only a live session can end. -/
def finish (node : Node) (index : Nat) (target : SessionState) : Node × Bool :=
  match node.session? index with
  | none => (node, false)
  | some session =>
    match session.finish target with
    | (_, false) => (node, false)
    | (ended, true) =>
      let marked := (node.setSession index ended).wakeSession index
      ({ marked with registry := marked.registry.remove session.id }, true)

/-- Tells the client of a session why it has ended, if the client can still be reached. -/
def tellEnd (node : Node) (index : Nat) (cause : QueryError) : Node :=
  match node.session? index with
  | none => node
  | some session =>
    if node.isConnected session.client then
      (node.trySend session.client ⟨some index, .ofError (some session.id) cause⟩).1
    else node

/-- `terminate`: ends a live session and, if there is a cause, tells the client. -/
def terminate (node : Node) (index : Nat) (target : SessionState) (cause : Option QueryError) :
    Node × Bool :=
  match node.finish index target, cause with
  | (ended, true), some cause => (ended.tellEnd index cause, true)
  | (ended, done), _ => (ended, done)

/-- Ends sessions one after another and counts those that were live. -/
def terminateAll (node : Node) (target : SessionState) (cause : Nat → Option QueryError) :
    List Nat → Node × Nat
  | [] => (node, 0)
  | index :: rest =>
    let (ended, done) := node.terminate index target (cause index)
    let (last, count) := terminateAll ended target cause rest
    (last, if done then count + 1 else count)

/-- The failure of an event whose query is not in flight. -/
def unknownQuery (id : QueryId) : QueryError := .violation (.unknownQuery id)

/-- `handle_partial_result` and `complete`: applies a partial result to the session that it
names. -/
def receivePartial (node : Node) (event : PartialResult) :
    Node × Except QueryError ApplyOutcome :=
  match node.find? event.queryId with
  | none => (node, .error (unknownQuery event.queryId))
  | some (index, session) =>
    let (applied, outcome) := session.apply event
    let updated := node.setSession index applied
    match outcome with
    | .error violation => (updated, .error (.violation violation))
    | .ok .applied => (updated, .ok .applied)
    | .ok (.tupleCompleted tuple) => (updated.wake (.reporter index), .ok (.tupleCompleted tuple))
    | .ok .sessionCompleted =>
      ((updated.wake (.reporter index)).finish index .completed |>.1, .ok .sessionCompleted)

/-- `QueryDispatcher::cancel`: cancels the query of an identifier. -/
def cancel (node : Node) (id : QueryId) : Node × Except QueryError Unit :=
  match node.find? id with
  | none => (node, .error (unknownQuery id))
  | some (index, _) => ((node.terminate index .cancelled (some (.cancelled id))).1, .ok ())

/-- The client of a session counts as gone from now on. -/
def markClientGone (node : Node) (index : Nat) : Node :=
  match node.session? index with
  | some session => node.markDisconnected session.client
  | none => node

/-- `client_gone`: cancels a session whose client is gone. -/
def loseClient (node : Node) (index : Nat) : Node :=
  ((node.markClientGone index).terminate index .cancelled none).1

/-- `client_disconnected`: cancels every query of a client that has left, and counts them. -/
def clientLeft (node : Node) (clientRef : String) : Node × Nat :=
  let owned := node.registered (·.clientRef == clientRef)
  (owned.foldl markClientGone node).terminateAll .cancelled (fun _ => none) owned

/-- Why a session has expired. -/
def expiryCause (node : Node) (index : Nat) : Option QueryError :=
  (node.session? index).map fun session => .sessionTimeout session.id

/-- `expire_sessions`: ends every session that is older than its lifetime, and counts them. -/
def expire (node : Node) : Node × Nat :=
  let lifetime := lifetimeMs node.config.maxSessionLifetimeSecs
  node.terminateAll .timedOut node.expiryCause
    (node.registered fun session => isExpired node.wall lifetime session.createdAt)

end JointQuery.Node
