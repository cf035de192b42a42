import JointQuery.Node.Pool
import JointQuery.Node.Sessions

/-! Bringing the start of a session to the parties. Each party has a sender of its own that tries
until its message is on a channel, its attempts are used up, or the session has ended. -/
namespace JointQuery

/-- The message of `fan_out`, which starts a session at a party. -/
def Session.startMessage (session : Session) : PartyMessage :=
  .startQuery session.id session.query.wire session.clientRef

/-- How `send_with_retry` reports a failure of the last attempt: a closed channel counts as a failed
connection. -/
def QueryError.afterLastAttempt : QueryError → QueryError
  | .channelClosed party => .connectFailed party "channel closed"
  | cause => cause

/-- The backoff of `send_with_retry`. -/
def Config.senderBackoff (config : Config) : Backoff :=
  .forAttempts config.connectRetryBudget config.connectRetryDelayMs config.connectRetryMaxDelayMs

/-- The failure of a sender, if it has ended with one. -/
def Sender.failure? : Sender → Option QueryError
  | .ended (.error cause) => some cause
  | _ => none

/-- Whether a sender has ended with its message on a channel. -/
def Sender.isSent : Sender → Bool
  | .ended (.ok ()) => true
  | _ => false

namespace Node

/-- Notes that a sender has ended, and wakes whoever waits for it. -/
def endSender (node : Node) (index : Nat) (party : Party) (result : Except QueryError Unit) :
    Node :=
  let ended := (node.setSender index party (.ended result)).modifyFlight index fun flight =>
    match flight.fanOut with
    | .joining others => { flight with fanOut := .joining (others ++ [party]) }
    | _ => flight
  (ended.cancelTimer (.sender index party) .retry).wake (.fanOut index)

/-- Forgets the channel on which an attempt has failed. -/
def forgetChannel (node : Node) (party : Party) : QueryError → Node
  | .channelClosed _ => node.invalidate party
  | _ => node

/-- A failed attempt in `send_with_retry`: pauses before the next one, or ends when there is none
left. -/
def retrySender (node : Node) (index : Nat) (party : Party) (backoff : Backoff)
    (cause : QueryError) : Node :=
  let forgotten := node.forgetChannel party cause
  match backoff.sleep with
  | none => forgotten.endSender index party (.error cause.afterLastAttempt)
  | some (delay, next) =>
    let due := node.now + delay.toNat
    let paused := forgotten.setSender index party (.pausing next due)
    if delay = 0 then paused.wakeFirst (.sender index party)
    else paused.setTimer (.sender index party) .retry due

/-- Goes on after the message was sent, has to wait for bytes, or has failed. -/
def settleSender (node : Node) (index : Nat) (party : Party) (backoff : Backoff) (channel : Nat) :
    Sending → Node
  | .sent => node.endSender index party (.ok ())
  | .parked => node.setSender index party (.parked backoff channel)
  | .failed cause => node.retrySender index party backoff cause

/-- An attempt in `send_with_retry`: finds the channel of a party, or dials, and sends the
message. -/
def attempt (node : Node) (index : Nat) (party : Party) (backoff : Backoff)
    (message : PartyMessage) : Node :=
  match node.acquire party with
  | (failed, .error cause) => failed.retrySender index party backoff cause
  | (acquired, .ok channel) =>
    let (sent, sending) := acquired.send (.sender index party) channel message
    sent.settleSender index party backoff channel sending

/-- `send_with_retry`: runs a sender. The end of its session ends it before anything else. -/
def pollSender (node : Node) (index : Nat) (party : Party) : Node :=
  match node.flights[index]? with
  | none => node
  | some flight =>
    let session := flight.session
    let task := TaskId.sender index party
    match flight.senders.get party with
    | .unstarted | .ended _ => node
    | .pausing backoff due =>
      if session.isTerminal then node.endSender index party (.error (.cancelled session.id))
      else if due ≤ node.now then node.attempt index party backoff session.startMessage
      else node
    | .parked backoff channel =>
      if session.isTerminal then
        (node.abandonBytes task party).endSender index party (.error (.cancelled session.id))
      else
        let (sent, sending) := node.resumeSend task channel session.startMessage
        sent.settleSender index party backoff channel sending

/-! ## Waiting for the senders -/

/-- The first loop in `fan_out`: starts the senders of a session. -/
def startSenders (node : Node) (index : Nat) (parties : List Party) : Node :=
  let started := parties.foldl (fun node party =>
    (node.setSender index party (.pausing node.config.senderBackoff node.now)).wake
      (.sender index party)) node
  started.setFanOut index (.joining [])

/-- The second loop in `fan_out`: looks at the senders that have ended, in order. The first failure
fails the session, and once all have sent their message the session awaits results. -/
def join (node : Node) (index : Nat) (flight : Flight) (ended : List Party) : Node :=
  let targets := node.directory.targets
  match ended.findSome? fun party => (flight.senders.get party).failure? with
  | some cause =>
    ((node.setFanOut index .over).terminate index .failed (some cause)).1.wakeAll
      (targets.map (.sender index))
  | none =>
    if targets.all fun party => (flight.senders.get party).isSent then
      (node.setFanOut index .over).setSession index
        (flight.session.transition .dispatched .awaitingResults).1
    else node.setFanOut index (.joining [])

/-- `fan_out`: runs the wait for the senders of a session. -/
def pollFanOut (node : Node) (index : Nat) : Node :=
  match node.flights[index]? with
  | none => node
  | some flight =>
    match flight.fanOut with
    | .unstarted | .over => node
    | .starting => node.startSenders index node.directory.targets
    | .joining ended => node.join index flight ended

end Node

end JointQuery
