import JointQuery.Proofs.Message.Lines
import JointQuery.Proofs.Node.Runs
import Mathlib.Data.List.TakeWhile

/-! What a party sends counts where it is a partial result, and only there. To serve a connection of
a party is to take its partial results one after another; nothing else on it does anything, and
nothing on it ends it before its end. -/
namespace JointQuery

/-- The partial result that a message brings. -/
def PartyMessage.partial? : PartyMessage → Option PartialResult
  | .partialResult result => some result
  | .hello _ | .startQuery _ _ _ => none

/-- A line of a party that is no partial result: it is blank, it cannot be read, it names the party
once more, or it starts a query. -/
inductive Noise (line : String) : Prop where
  | blank (blank : Text.isBlankText line = true)
  | unreadable (unread : PartyMessage.ofLine? line = none)
  | hello (party : Party) (read : PartyMessage.ofLine? line = some (.hello party))
  | startQuery (id : QueryId) (query clientRef : String)
      (read : PartyMessage.ofLine? line = some (.startQuery id query clientRef))

/-- The partial result that a line is read as. -/
def Intake.partial? (line : List UInt8) : Option PartialResult :=
  ((Intake.lineText? line).bind PartyMessage.ofLine?).bind PartyMessage.partial?

/-- What happens while a connection of a party is served: a line arrives on it, or something else
happens to the node. -/
inductive Arrival where
  | line (bytes : List UInt8)
  | meanwhile (operation : Operation)

namespace Arrival

/-- What an arrival comes to. -/
def operation? : Arrival → Option Operation
  | .line bytes => (Intake.partial? bytes).map .receivePartial
  | .meanwhile operation => some operation

/-- Every line that arrives is encoded as it should be. -/
def Legible (arrivals : List Arrival) : Prop :=
  ∀ bytes, .line bytes ∈ arrivals → (Intake.lineText? bytes).isSome = true

end Arrival

variable {text : String} {bytes rest : List UInt8} {arrivals : List Arrival}

/-! ## Lines -/

/-- A blank line is no message. -/
theorem PartyMessage.ofLine?_of_blank (blank : Text.isBlankText text = true) :
    PartyMessage.ofLine? text = none := by
  have trimmed : Text.trimEnd text.toList = [] := by
    rw [Text.isBlankText, List.all_eq_true] at blank
    rw [Text.trimEnd, List.reverse_eq_nil_iff, List.dropWhile_eq_nil_iff]
    exact fun c member => blank c (List.mem_reverse.mp member)
  have unread : Json.readLine text = none := by
    rw [Json.readLine, trimmed]
    rfl
  simp [PartyMessage.ofLine?, unread]

private theorem Intake.partial?_of_noise (read : Intake.lineText? bytes = some text)
    (noise : Noise text) : Intake.partial? bytes = none := by
  simp only [Intake.partial?, read, Option.bind_some]
  cases noise with
  | blank blank => simp [PartyMessage.ofLine?_of_blank blank]
  | unreadable unread => simp [unread]
  | hello party read => simp [read, PartyMessage.partial?]
  | startQuery id query clientRef read => simp [read, PartyMessage.partial?]

namespace Node

/-- The node and the intake of a connection after an arrival. -/
def arrive : Node × Intake → Arrival → Node × Intake
  | (node, intake), .line bytes =>
    let (after, left, _) := node.takeLine intake bytes
    (after, left)
  | (node, intake), .meanwhile operation => (node.perform operation, intake)

/-- The node and the intake of a connection after arrivals one after another. -/
def serve (node : Node) (intake : Intake) (arrivals : List Arrival) : Node × Intake :=
  arrivals.foldl arrive (node, intake)

/-- A line of a party leaves the connection open. -/
theorem receivePartyLine_eq (node : Node) (peer : Party) (line : String) :
    node.receivePartyLine peer line = (node.performAll
      (((PartyMessage.ofLine? line).bind PartyMessage.partial?).map .receivePartial).toList,
      .proceed) := by
  simp only [receivePartyLine]
  split
  · rename_i blank
    simp [PartyMessage.ofLine?_of_blank blank, performAll]
  · cases read : PartyMessage.ofLine? line with
    | none => rfl
    | some message => cases message <;> rfl

private theorem takeLine_party (node : Node) (peer : Party)
    (legible : (Intake.lineText? bytes).isSome = true) :
    node.takeLine (.party peer) bytes =
      (node.performAll (Arrival.line bytes).operation?.toList, .party peer, none) := by
  obtain ⟨text, read⟩ := Option.isSome_iff_exists.mp legible
  simp only [takeLine, read, receivePartyLine_eq, Arrival.operation?, Intake.partial?,
    Option.bind_some]

private theorem serve_party (node : Node) (peer : Party) (legible : Arrival.Legible arrivals) :
    node.serve (.party peer) arrivals =
      (node.performAll (arrivals.filterMap Arrival.operation?), .party peer) := by
  induction arrivals generalizing node with
  | nil => rfl
  | cons arrival rest ih =>
    have later : Arrival.Legible rest := fun bytes member => legible bytes (.tail _ member)
    have stays : arrive (node, .party peer) arrival =
        (node.performAll arrival.operation?.toList, .party peer) := by
      cases arrival with
      | line bytes => simp only [arrive, takeLine_party node peer (legible bytes (.head _))]
      | meanwhile operation => rfl
    rw [serve, List.foldl_cons, stays, ← serve, ih _ later, List.filterMap_cons]
    cases arrival.operation? <;> rfl

/-- A connection of a party is closed with what is left on it, which counts as a line. -/
theorem endIntake_party (node : Node) (peer : Party)
    (legible : (Intake.lineText? rest).isSome = true) :
    node.endIntake (.party peer) rest =
      ((node.performAll (Arrival.line rest).operation?.toList).invalidate peer, .closed) := by
  cases rest with
  | nil => rfl
  | cons byte rest =>
    simp only [endIntake, takeLine_party node peer legible]
    rfl

/-- Closing a channel does nothing to sessions. -/
theorem sessions_invalidate (node : Node) (peer : Party) :
    (node.invalidate peer).flights = node.flights ∧
      (node.invalidate peer).registry = node.registry := by
  unfold invalidate closeChannel
  split
  · split <;> exact ⟨rfl, rfl⟩
  · exact ⟨rfl, rfl⟩

/-- What a party sends matters only where it is a partial result, whatever the state of the node and
whatever else happens to it meanwhile. A connection that opens with the name of the party is served
as if each partial result on it, and nothing else, had been given to the node in its turn, and it
stays open. Any other line can be put in anywhere and makes no difference. When the connection ends,
sessions and what is registered stay as they are, but for a partial result on an unfinished line. -/
theorem counts_partial_results (node : Node) (peer : Party) (first : List UInt8)
    (arrivals : List Arrival)
    (named : (Intake.lineText? first).bind PartyMessage.ofLine? = some (.hello peer))
    (legible : Arrival.Legible arrivals) :
    node.serve .opening (.line first :: arrivals) =
      (node.performAll (arrivals.filterMap Arrival.operation?), .party peer) ∧
    (∀ earlier later bytes text, arrivals = earlier ++ later →
      Intake.lineText? bytes = some text → Noise text →
      node.serve .opening (.line first :: (earlier ++ .line bytes :: later)) =
        node.serve .opening (.line first :: arrivals)) ∧
    ∀ rest ended intake, (Intake.lineText? rest).isSome = true →
      (node.performAll (arrivals.filterMap Arrival.operation?)).endIntake (.party peer) rest =
        (ended, intake) →
      intake = .closed ∧
      ended.flights = (node.performAll
        ((arrivals ++ [Arrival.line rest]).filterMap Arrival.operation?)).flights ∧
      ended.registry = (node.performAll
        ((arrivals ++ [Arrival.line rest]).filterMap Arrival.operation?)).registry := by
  have serves {arrivals : List Arrival} (legible : Arrival.Legible arrivals) :
      node.serve .opening (.line first :: arrivals) =
        (node.performAll (arrivals.filterMap Arrival.operation?), .party peer) := by
    have opens : arrive (node, .opening) (.line first) = (node, .party peer) := by
      obtain ⟨text, read, opening⟩ := Option.bind_eq_some_iff.mp named
      simp only [arrive, takeLine, read, opening]
      rfl
    rw [serve, List.foldl_cons, opens, ← serve, serve_party node peer legible]
  refine ⟨serves legible, fun earlier later bytes text whole read noise => ?_,
    fun rest ended intake read ends => ?_⟩
  · subst whole
    have without : Arrival.operation? (.line bytes) = none := by
      simp [Arrival.operation?, Intake.partial?_of_noise read noise]
    rw [serves legible, serves fun other member => ?_]
    · simp [List.filterMap_append, without]
    · rw [List.mem_append, List.mem_cons] at member
      rcases member with before | same | after
      · exact legible other (List.mem_append_left _ before)
      · cases same
        simp [read]
      · exact legible other (List.mem_append_right _ after)
  · rw [endIntake_party _ peer read, Prod.mk.injEq] at ends
    obtain ⟨rfl, rfl⟩ := ends
    have last : (arrivals ++ [Arrival.line rest]).filterMap Arrival.operation? =
        arrivals.filterMap Arrival.operation? ++ (Arrival.line rest).operation?.toList := by
      rw [List.filterMap_append]
      cases found : (Arrival.line rest).operation? <;> simp [found]
    rw [last, performAll_append]
    exact ⟨rfl, sessions_invalidate ..⟩

/-- What is known of the rows of the first data party, for each tuple of a session. -/
def rowsKnown (node : Node) (place : Nat) : Option (List (Option UInt64 × UInt64)) :=
  (node.session? place).map fun session => session.slots.map fun slot =>
    (wordTotal slot.progress.db1, wordIndex slot.progress.db1)

/-- A connection that brings a blank line, the name of the party once more, and a partial result is
served as if it had brought the partial result: the party has scanned one of two rows. -/
theorem counts_partial_results_one : ∃ node after, ∃ hello result : List UInt8,
    (start (.ofParty .ph) (Config.ofParty .ph).outputLimits QueryId.numbered).performAll
      [.addClient "front" 8 0 false, .beginQuery 0 Session.oneCount true] = node ∧
    node.serve .opening [.line hello, .line [], .line hello, .line result] = (after, .party .db1) ∧
    node.rowsKnown 0 = some [(none, 0)] ∧ after.rowsKnown 0 = some [(some 2, 1)] := by
  have sent {message : PartyMessage} (plain : message.floats = []) :
      ∃ bytes, (Intake.lineText? bytes).isSome = true ∧
        (Intake.lineText? bytes).bind PartyMessage.ofLine? = some message := by
    obtain ⟨members, object⟩ := message.exists_members
    refine ⟨Text.bytes message.toJson.render, ?_, ?_⟩ <;> rw [object, Json.lineText?_render]
    · rfl
    · rw [Option.bind_some, ← object]
      exact PartyMessage.ofLine?_render (by simp [plain])
  obtain ⟨hello, opens, named⟩ := sent (rfl : (PartyMessage.hello .db1).floats = [])
  obtain ⟨result, brings, brought⟩ :=
    sent (rfl : (PartyMessage.partialResult ⟨.numbered 0, 0, [⟨.db1, some 2, 1⟩], []⟩).floats = [])
  have empty : Intake.partial? [] = none := Intake.partial?_of_noise rfl (.blank rfl)
  have again : Intake.partial? hello = none := by
    simp [Intake.partial?, named, PartyMessage.partial?]
  have last : Intake.partial? result = some ⟨.numbered 0, 0, [⟨.db1, some 2, 1⟩], []⟩ := by
    simp [Intake.partial?, brought, PartyMessage.partial?]
  have legible : Arrival.Legible [.line [], .line hello, .line result] := by
    intro bytes member
    simp only [List.mem_cons, Arrival.line.injEq, List.not_mem_nil, or_false] at member
    rcases member with rfl | rfl | rfl
    · rfl
    · exact opens
    · exact brings
  have served := (counts_partial_results ((start (.ofParty .ph) (Config.ofParty .ph).outputLimits
    QueryId.numbered).performAll [.addClient "front" 8 0 false,
      .beginQuery 0 Session.oneCount true]) .db1 hello _ named legible).1
  simp only [List.filterMap_cons, List.filterMap_nil, Arrival.operation?, empty, again, last,
    Option.map_none, Option.map_some] at served
  exact ⟨_, _, hello, result, rfl, served, by decide +kernel, by decide +kernel⟩

end Node

end JointQuery
