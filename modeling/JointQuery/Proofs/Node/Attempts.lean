import JointQuery.Proofs.Node.Sharing
import JointQuery.Proofs.Node.Tries
import Mathlib.Data.List.ModifyLast

/-! The tries of a sender in a run of a node. A sender is run again and again, and each run of it is
one of a few turns. What agrees with its tries through each of them does so in every run. -/
namespace JointQuery

variable {config : Config} {starts : Nat → Nat → Prop} {party : Party} {tries : List Try}

namespace Node

variable {node after : Node} {place : Nat} {flight : Flight}

/-! ## Turns -/

/-- An attempt of a sender: it asks for a channel and sends the message on it. -/
def tryOnce (node : Node) (place : Nat) (party : Party) (message : PartyMessage) :
    Node × Sending :=
  match node.acquire party with
  | (failed, .error cause) => (failed, .failed cause)
  | (acquired, .ok channel) => acquired.send (.sender place party) channel message

/-- How often a party was dialed since. -/
def dials (node : Node) (party : Party) (after : Node) : Nat :=
  (after.links.get party).attempts - (node.links.get party).attempts

/-- The tries of the sender of a session after it is run. For a session that has ended no try is
made. -/
def tried (node : Node) (place : Nat) (party : Party) (tries : List Try) : List Try :=
  match node.flights[place]? with
  | none => tries
  | some flight =>
    let message := flight.session.startMessage
    match flight.session.isTerminal, flight.senders.get party with
    | false, .pausing _ due =>
      if due ≤ node.now then
        let (after, sending) := node.tryOnce place party message
        tries ++ [⟨node.now, node.dials party after, sending.outcome node.now⟩]
      else tries
    | false, .parked _ channel =>
      let (after, sending) := node.resumeSend (.sender place party) channel message
      tries.modifyLast fun one =>
        { one with
          dials := one.dials + node.dials party after
          outcome := sending.outcome node.now }
    | _, _ => tries

/-- A party refuses connections, and there is no open channel to it. -/
def Refuses (node : Node) (party : Party) : Prop :=
  (node.links.get party).refused = true ∧ node.openChannel? party = none

/-- What the run of a sender at a time makes of it and of its tries. -/
inductive Turn (now : Nat) (refuses : Prop) (party : Party) (session : Session)
    (tries : List Try) : Sender → Sender → List Try → Prop where
  | rests {sender : Sender} (rests : sender.isUnderway = false) :
      Turn now refuses party session tries sender sender tries
  | early {backoff : Backoff} {due : Nat} (live : session.isTerminal = false)
      (early : now < due) :
      Turn now refuses party session tries (.pausing backoff due) (.pausing backoff due) tries
  | cancelled {sender : Sender} (underway : sender.isUnderway = true)
      (ended : session.isTerminal = true) :
      Turn now refuses party session tries sender (.ended (.error (.cancelled session.id))) tries
  | tried {backoff : Backoff} {due dials channel : Nat} {sending : Sending}
      (live : session.isTerminal = false) (late : due ≤ now) (once : dials ≤ 1)
      (faults : ∀ cause, sending = .failed cause → cause.Retries party)
      (refused : refuses →
        dials = 1 ∧ ∃ reason, sending = .failed (.connectFailed party reason)) :
      Turn now refuses party session tries (.pausing backoff due)
        (.settled backoff channel now sending)
        (tries ++ [⟨now, dials, sending.outcome now⟩])
  | resumed {backoff : Backoff} {channel : Nat} {sending : Sending}
      (live : session.isTerminal = false)
      (faults : ∀ cause, sending = .failed cause → cause.Retries party) :
      Turn now refuses party session tries (.parked backoff channel)
        (.settled backoff channel now sending)
        (tries.modifyLast ({ · with outcome := sending.outcome now }))

theorem sender_of_flights (same : after.flights = node.flights) :
    after.sender place party = node.sender place party := by rw [sender, same, sender]

theorem sender_modifyFlight (held : node.flights[place]? = some flight) (f : Flight → Flight) :
    (node.modifyFlight place f).sender place party = (f flight).senders.get party :=
  sender_of_flight ((flights_modifyFlight held f place).trans (if_pos rfl))

theorem sender_endSender (held : node.flights[place]? = some flight)
    (result : Except QueryError Unit) :
    (node.endSender place party result).sender place party = .ended result := by
  rw [endSender_eq]
  exact (sender_modifyFlight held _).trans (PerParty.get_set_self ..)

theorem sender_setSender (held : node.flights[place]? = some flight) (sender : Sender) :
    (node.setSender place party sender).sender place party = sender :=
  (sender_modifyFlight held _).trans (PerParty.get_set_self ..)

private theorem Turn.account {now : Nat} {refuses : Prop} {session : Session} {sender next : Sender}
    {more : List Try} (turn : Turn now refuses party session tries sender next more)
    (account : Account config starts party tries sender)
    (start : ∀ backoff due, sender = .pausing backoff due → due ≤ now → starts due now) :
    Account config starts party more next := by
  cases turn with
  | rests | early => exact account
  | cancelled underway => exact .cancelled _ account underway
  | tried live late once faults =>
    cases account with
    | pausing before left => exact before.settled left (start _ _ rfl late) once faults
  | resumed live faults =>
    cases account with
    | parked before left began once channel =>
      rw [List.modifyLast_concat]
      exact before.settled left began once faults

/-- Each try has dialed the party, which has refused. -/
def Refused (party : Party) (tries : List Try) (sender : Sender) : Prop :=
  (∀ one ∈ tries, one.dials = 1 ∧ ∃ ended reason,
    one.Failed party ended (.connectFailed party reason)) ∧
  ∀ backoff channel, sender ≠ .parked backoff channel

private theorem Turn.refused {now : Nat} {refuses : Prop} {session : Session} {sender next : Sender}
    {more : List Try} (turn : Turn now refuses party session tries sender next more)
    (refused : Refused party tries sender) (refuse : refuses) : Refused party more next := by
  cases turn with
  | rests | early => exact refused
  | cancelled underway => exact ⟨refused.1, fun _ _ => nofun⟩
  | tried live late once faults dialed =>
    obtain ⟨one, reason, rfl⟩ := dialed refuse
    refine ⟨fun other member => ?_, fun backoff channel => ?_⟩
    · rcases List.mem_append.mp member with earlier | last
      · exact refused.1 other earlier
      · obtain rfl := List.mem_singleton.mp last
        exact ⟨one, now, reason, .connectFailed reason, rfl⟩
    · unfold Sender.settled
      dsimp only
      split <;> exact nofun
  | resumed live faults => exact absurd rfl (refused.2 _ _)

end Node

end JointQuery
