import JointQuery.Node.Sessions

/-! Telling clients about their sessions. The reporter of a session makes a pass at every tick of
its period, and whenever a tuple has been completed or the session has ended. -/
namespace JointQuery

/-- The tick after one that is seen at a given time. A tick that is seen late counts for all that
were missed; the next is then the next multiple of the period. -/
def nextTick (tick period now : Nat) : Nat :=
  if tick + 5 < now then now + period - (now - tick) % period else tick + period

/-- The event for the client when a tuple is completed. -/
def Session.tupleDone? (session : Session) (tuple scale : Nat) : Option ClientEvent :=
  if session.isTupleComplete tuple then
    (session.tupleRow? tuple scale).map fun row =>
      .tupleDone session.id (UInt64.ofNat tuple) row
  else none

/-- The event with which a pass ends, for the state that was read at its start: the answer of a
completed session, or the progress of the first tuple that is not reported as done. -/
def Session.closingEvent? (session : Session) (seen : SessionState) (next scale : Nat) :
    Option ClientEvent :=
  if seen = .completed then some (.allDone session.id (session.resultTable scale))
  else if seen.isTerminal then none
  else if next < session.tupleCount then
    some (.tupleProgress session.id (UInt64.ofNat next) (session.tupleFraction next))
  else none

namespace Node

/-- Goes back to waiting for the next tick or change. -/
def watch (node : Node) (index next tick : Nat) : Node :=
  let watching := node.setReporter index (.watching next tick)
  let changed := (node.session? index).any (·.changed)
  if changed || tick ≤ node.now then watching.wakeFirst (.reporter index)
  else watching.setTimer (.reporter index) .tick tick

/-- Ends the reporter of a session. -/
def endReporter (node : Node) (index : Nat) : Node :=
  (node.setReporter index .over).cancelTimer (.reporter index) .tick

/-- After a pass: a final state that was read at its start ends the reporter. -/
def endPass (node : Node) (index next tick : Nat) (seen : SessionState) : Node :=
  if seen.isTerminal then node.endReporter index else node.watch index next tick

/-- After an event was refused: the client is gone. For a completed session that changes nothing
any more. -/
def refuseReport (node : Node) (index : Nat) : ClientEvent → Node
  | .allDone _ _ => node.endReporter index
  | _ => (node.loseClient index).endReporter index

/-- Offers the client of a session an event, and says what has become of it. An event that waits
is kept by the reporter. -/
def offerReport (node : Node) (index : Nat) (session : Session) (next tick : Nat)
    (seen : SessionState) (event : ClientEvent) : Node × Offer :=
  match node.offer (.reporter index) session.client ⟨some index, event⟩ with
  | (sent, .sent, _) => (sent, .sent)
  | (refused, .refused, _) => (refused.refuseReport index event, .refused)
  | (waiting, .waiting, deadline) =>
    (waiting.setReporter index (.sending next tick seen event deadline), .waiting)

/-- The part of a pass after the completed tuples. -/
def closePass (node : Node) (index : Nat) (session : Session) (next tick : Nat)
    (seen : SessionState) : Node :=
  match session.closingEvent? seen next node.config.resultScale.toNat with
  | none => node.endPass index next tick seen
  | some event =>
    match node.offerReport index session next tick seen event with
    | (sent, .sent) => sent.endPass index next tick seen
    | (other, _) => other

/-- The inner loop in `report_progress`: reports the completed tuples from `next` on in order, at
most `count` of them, and then closes the pass. -/
def reportTuples (index : Nat) (session : Session) (tick : Nat) (seen : SessionState) :
    Nat → Nat → Node → Node
  | 0, next, node => node.closePass index session next tick seen
  | count + 1, next, node =>
    match session.tupleDone? next node.config.resultScale.toNat with
    | none => node.closePass index session next tick seen
    | some event =>
      match node.offerReport index session next tick seen event with
      | (sent, .sent) => reportTuples index session tick seen count (next + 1) sent
      | (other, _) => other

/-- A turn of the outer loop in `report_progress`: makes a pass from a tuple on. -/
def pass (node : Node) (index : Nat) (session : Session) (next tick : Nat)
    (seen : SessionState) : Node :=
  reportTuples index session tick seen (session.tupleCount - next) next node

/-- The wait in `report_progress`: starts a pass if a tick is due or the session has changed;
otherwise goes on waiting. -/
def lookAtSession (node : Node) (index : Nat) (session : Session) (next tick : Nat) : Node :=
  if tick ≤ node.now then
    let later := nextTick tick node.config.resultUpdateCooldownMs.toNat node.now
    (node.cancelTimer (.reporter index) .tick).pass index session next later session.state
  else if session.changed then
    (node.setSession index { session with changed := false }).pass index session next tick
      session.state
  else node.watch index next tick

/-- Goes on after an event that had waited is queued. -/
def resumePass (node : Node) (index : Nat) (session : Session) (next tick : Nat)
    (seen : SessionState) : ClientEvent → Node
  | .tupleDone _ _ _ => node.pass index session (next + 1) tick seen
  | _ => node.endPass index next tick seen

/-- `report_progress`: runs the reporter of a session. -/
def pollReporter (node : Node) (index : Nat) : Node :=
  match node.flights[index]? with
  | none => node
  | some flight =>
    let session := flight.session
    match flight.reporter with
    | .unstarted | .over => node
    | .watching next tick => node.lookAtSession index session next tick
    | .sending next tick seen event deadline =>
      match node.resumeOffer (.reporter index) session.client ⟨some index, event⟩ deadline with
      | (waiting, .waiting) => waiting
      | (sent, .sent) => sent.resumePass index session next tick seen event
      | (refused, .refused) => refused.refuseReport index event

end Node

end JointQuery
