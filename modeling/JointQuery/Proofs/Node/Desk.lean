import JointQuery.Proofs.Session.Stream
import Mathlib.Logic.Function.Basic

/-! The desk of a session: how far its reporter has got, which requests wait to say that it is
accepted, and what each client was told on its behalf. Whatever happens at a desk keeps what the
client is told in order, and true. -/
namespace JointQuery

open ClientEvent

/-- How far the reporter of a session has got. -/
inductive Phase where
  | idle
  /-- Waiting, with so many tuples reported as done. -/
  | watching (next : Nat)
  /-- In a pass at whose start the state was `seen`. -/
  | passing (next : Nat) (seen : SessionState)
  /-- In a pass, with an event that is not queued yet. -/
  | sending (next : Nat) (seen : SessionState) (event : ClientEvent)
  | finished

namespace Phase

/-- After a pass the reporter waits, unless it has seen a final state. -/
def afterPass (next : Nat) (seen : SessionState) : Phase :=
  if seen.isTerminal then .finished else .watching next

/-- After a tuple is reported as done the pass goes on; any other event closes it. -/
def afterEvent (next : Nat) (seen : SessionState) : ClientEvent → Phase
  | .tupleDone _ _ _ => .passing (next + 1) seen
  | _ => afterPass next seen

end Phase

/-- The desk of a session. `asks` are the clients of the requests that wait to say that the session
is accepted; `told` is what each client was told. -/
structure Desk where
  phase : Phase
  asks : Nat → Option Nat
  told : Nat → List ClientEvent

namespace Desk

/-- Nothing has happened. -/
def blank : Desk := ⟨.idle, fun _ => none, fun _ => []⟩

/-- The reporter has got on. -/
def enter (desk : Desk) (phase : Phase) : Desk := { desk with phase := phase }

/-- A client is told of an event. -/
def tell (desk : Desk) (client : Nat) (event : ClientEvent) : Desk :=
  { desk with told := Function.update desk.told client (desk.told client ++ [event]) }

/-- A request of a client waits. -/
def ask (desk : Desk) (request client : Nat) : Desk :=
  { desk with asks := Function.update desk.asks request (some client) }

/-- A request waits no more. -/
def withdraw (desk : Desk) (request : Nat) : Desk :=
  { desk with asks := Function.update desk.asks request none }

@[simp] theorem enter_phase (desk : Desk) : desk.enter desk.phase = desk := rfl

@[simp] theorem told_enter (desk : Desk) (phase : Phase) :
    (desk.enter phase).told = desk.told := rfl

@[simp] theorem told_tell_self (desk : Desk) (client : Nat) (event : ClientEvent) :
    (desk.tell client event).told client = desk.told client ++ [event] :=
  Function.update_self ..

private theorem told_tell_of_ne (desk : Desk) {client other : Nat} (differ : other ≠ client)
    (event : ClientEvent) : (desk.tell client event).told other = desk.told other :=
  Function.update_of_ne differ ..

@[simp] theorem told_withdraw (desk : Desk) (request : Nat) :
    (desk.withdraw request).told = desk.told := rfl

private theorem asks_ask (desk : Desk) (request client other : Nat) :
    (desk.ask request client).asks other =
      if other = request then some client else desk.asks other :=
  Function.update_apply ..

theorem asks_withdraw (desk : Desk) (request other : Nat) :
    (desk.withdraw request).asks other = if other = request then none else desk.asks other :=
  Function.update_apply ..

theorem withdraw_of_silent {desk : Desk} {request : Nat} (silent : desk.asks request = none) :
    desk.withdraw request = desk := by
  rw [withdraw, ← silent, Function.update_eq_self]

/-- What a reporter does at the desk of a session. -/
inductive Step (scale : Nat) (session : Session) (desk : Desk) : Desk → Prop where
  /-- A pass begins with a look at the state. -/
  | begun (watching : desk.phase = .watching next) :
      Step scale session desk (desk.enter (.passing next session.state))
  | offered (passing : desk.phase = .passing next seen)
      (news : session.News scale next seen event) :
      Step scale session desk (desk.enter (.sending next seen event))
  | told (sending : desk.phase = .sending next seen event) :
      Step scale session desk
        ((desk.tell session.client event).enter (.afterEvent next seen event))
  /-- A pass ends with nothing to tell. -/
  | closed (passing : desk.phase = .passing next seen) :
      Step scale session desk (desk.enter (.afterPass next seen))
  | ceased (begun : desk.phase ≠ .idle) : Step scale session desk (desk.enter .finished)

end Desk

/-! ## Soundness -/

/-- What was told of a session whose reporter has begun and has not told the answer. -/
structure Underway (told : List ClientEvent) (next : Nat) : Prop where
  accepted : Tells told isAccepted
  unanswered : ¬ Tells told isAllDone
  count : dones told = next

/-- An event that a reporter may queue at any later time. -/
structure Pending (scale : Nat) (session : Session) (next : Nat) (seen : SessionState)
    (event : ClientEvent) : Prop where
  bears : session.Bears scale event
  reports : event.Reports session.tupleCount next
  final : event.isAllDone = true → seen.isTerminal = true

/-- How far a reporter has got agrees with what was told. -/
def Phase.Stands (scale : Nat) (session : Session) (told : List ClientEvent) : Phase → Prop
  | .idle => ¬ Tells told isAccepted
  | .watching next => Underway told next
  | .passing next seen => Underway told next ∧ (seen = .completed → session.state = .completed)
  | .sending next seen event => Underway told next ∧
      (seen = .completed → session.state = .completed) ∧ Pending scale session next seen event
  | .finished => Tells told isAccepted

private theorem Phase.Stands.accepted {phase : Phase} (stands : phase.Stands scale session told)
    (begun : phase ≠ .idle) : Tells told isAccepted := by
  cases phase with
  | idle => exact absurd rfl begun
  | watching next => exact Underway.accepted stands
  | passing | sending => exact stands.1.accepted
  | finished => exact stands

/-- An error moves no reporter. -/
theorem Phase.Stands.append_error {phase : Phase} (stands : phase.Stands scale session told)
    (id : Option QueryId) (kind message : String) :
    phase.Stands scale session (told ++ [.error id kind message]) := by
  have underway {next : Nat} (before : Underway told next) :
      Underway (told ++ [.error id kind message]) next := by
    obtain ⟨accepted, unanswered, count⟩ := before
    exact ⟨by simp [accepted], by simp [unanswered, isAllDone], by simp [count, doneTuple?]⟩
  cases phase with
  | idle => simpa [Phase.Stands, isAccepted] using stands
  | watching next => exact underway stands
  | passing next seen => exact ⟨underway stands.1, stands.2⟩
  | sending next seen event => exact ⟨underway stands.1, stands.2⟩
  | finished => exact (tells_append_iff _).mpr (.inl stands)

namespace Desk

/-- What holds of the desk of a session. Only its client is told anything, in order and truly, and
at most one request waits to say that it is accepted, as long as nobody has said so. -/
structure Sound (scale : Nat) (session : Session) (desk : Desk) : Prop where
  elsewhere : ∀ client, client ≠ session.client → desk.told client = []
  asked : ∀ request client, desk.asks request = some client →
    client = session.client ∧ desk.phase = .idle
  alone : ∀ first second, (desk.asks first).isSome = true → (desk.asks second).isSome = true →
    first = second
  orderly : Orderly session.tupleCount (desk.told session.client)
  bears : ∀ event ∈ desk.told session.client, session.Bears scale event
  stands : desk.phase.Stands scale session (desk.told session.client)

variable {scale : Nat} {session later : Session} {desk next : Desk} {phase : Phase}

theorem sound_blank (scale : Nat) (session : Session) : blank.Sound scale session where
  elsewhere _ _ := rfl
  asked _ _ asks := by simp [blank] at asks
  alone _ _ asks := by simp [blank] at asks
  orderly := .nil
  bears _ member := by simp [blank] at member
  stands := by simp [blank, Phase.Stands, Tells]

/-- Whoever is told anything is the client of the session. -/
theorem Sound.client_eq (sound : desk.Sound scale session) {client : Nat} {event : ClientEvent}
    (told : event ∈ desk.told client) : session.client = client := by
  by_cases same : client = session.client
  · exact same.symm
  · simp [sound.elsewhere client same] at told

theorem Sound.ask (sound : desk.Sound scale session) (idle : desk.phase = .idle)
    (silent : ∀ request, desk.asks request = none) (request : Nat) :
    (desk.ask request session.client).Sound scale session where
  elsewhere := sound.elsewhere
  asked other client asks := by
    rw [asks_ask, silent] at asks
    split at asks
    · exact ⟨(Option.some.inj asks).symm, idle⟩
    · simp at asks
  alone first second one two := by
    have named (other : Nat) (asks : ((desk.ask request session.client).asks other).isSome = true) :
        other = request := by
      by_cases same : other = request
      · exact same
      · simp [asks_ask, same, silent] at asks
    exact (named first one).trans (named second two).symm
  orderly := sound.orderly
  bears := sound.bears
  stands := sound.stands

theorem Sound.withdraw (sound : desk.Sound scale session) (request : Nat) :
    (desk.withdraw request).Sound scale session where
  elsewhere := sound.elsewhere
  asked other client asks := by
    rw [asks_withdraw] at asks
    split at asks
    · simp at asks
    · exact sound.asked other client asks
  alone first second one two := by
    rw [asks_withdraw] at one two
    split at one
    · simp at one
    · split at two
      · simp at two
      · exact sound.alone first second one two
  orderly := sound.orderly
  bears := sound.bears
  stands := sound.stands

/-- Once the reporter has begun no request waits. -/
theorem Sound.silent (sound : desk.Sound scale session) (begun : desk.phase ≠ .idle)
    (request : Nat) : desk.asks request = none := by
  cases asks : desk.asks request with
  | none => rfl
  | some client => exact absurd (sound.asked request client asks).2 begun

/-- Whoever may still ask does so before the reporter begins. -/
private theorem Sound.asked_or_silent (sound : desk.Sound scale session) :
    desk.phase = .idle ∨ ∀ request, desk.asks request = none := by
  by_cases idle : desk.phase = .idle
  · exact .inl idle
  · exact .inr (sound.silent idle)

private theorem Sound.enter (sound : desk.Sound scale session) (begun : desk.phase ≠ .idle)
    (stands : phase.Stands scale session (desk.told session.client)) :
    (desk.enter phase).Sound scale session where
  elsewhere := sound.elsewhere
  asked request client asks := by
    simp [Desk.enter, sound.silent begun] at asks
  alone := sound.alone
  orderly := sound.orderly
  bears := sound.bears
  stands := stands

/-- The client can be told what may follow and is true. -/
private theorem Sound.tell (sound : desk.Sound scale session)
    (quiet : phase = .idle ∨ ∀ request, desk.asks request = none)
    (unanswered : ¬ Tells (desk.told session.client) isAllDone)
    (follows : MayFollow session.tupleCount (desk.told session.client) event)
    (bears : session.Bears scale event)
    (stands : phase.Stands scale session (desk.told session.client ++ [event])) :
    ((desk.tell session.client event).enter phase).Sound scale session where
  elsewhere client other := by
    rw [told_enter, told_tell_of_ne desk other, sound.elsewhere client other]
  asked request client asks := by
    rcases quiet with idle | silent
    · exact ⟨(sound.asked request client asks).1, idle⟩
    · simp [Desk.enter, Desk.tell, silent] at asks
  alone := sound.alone
  orderly := by
    rw [told_enter, told_tell_self]
    exact .snoc sound.orderly unanswered follows
  bears event' member := by
    rw [told_enter, told_tell_self] at member
    rcases List.mem_append.mp member with old | new
    · exact sound.bears event' old
    · rw [List.mem_singleton] at new
      exact new ▸ bears
  stands := by
    rw [told_enter, told_tell_self]
    exact stands

end Desk

/-! ## The reporter -/

private theorem ClientEvent.Reports.mayFollow (reports : event.Reports tuples (dones told))
    (accepted : Tells told isAccepted) : MayFollow tuples told event := by
  cases event with
  | accepted | error => exact reports.elim
  | tupleProgress | tupleDone | allDone => exact ⟨accepted, reports⟩

private theorem Underway.stands_afterPass (accepted : Tells told isAccepted)
    (goes : seen.isTerminal = false → Underway told next) :
    (Phase.afterPass next seen).Stands scale session told := by
  simp only [Phase.afterPass]
  split
  · exact accepted
  · rename_i live
    exact goes (by simpa using live)

/-- Where the reporter stands once a pending event is told. -/
theorem Pending.stands {session : Session} (pending : Pending scale session next seen event)
    (reached : seen = .completed → session.state = .completed) (underway : Underway told next) :
    (Phase.afterEvent next seen event).Stands scale session (told ++ [event]) := by
  obtain ⟨accepted, unanswered, count⟩ := underway
  have opened : Tells (told ++ [event]) isAccepted := (tells_append_iff _).mpr (.inl accepted)
  cases event with
  | accepted | error => exact pending.reports.elim
  | tupleDone id tuple row =>
    refine ⟨⟨opened, ?_, ?_⟩, reached⟩
    · simpa [isAllDone] using unanswered
    · simp [doneTuple?, count]
  | tupleProgress id tuple fraction =>
    refine Underway.stands_afterPass opened fun _ => ⟨opened, ?_, ?_⟩
    · simpa [isAllDone] using unanswered
    · simp [doneTuple?, count]
  | allDone id table =>
    refine Underway.stands_afterPass opened fun live => ?_
    simp [pending.final rfl] at live

namespace Desk

variable {scale : Nat} {session later : Session} {desk next : Desk}

/-- A reporter tells its client what is true, in order. -/
theorem Step.sound (step : Step scale session desk next) (regular : session.Regular)
    (sound : desk.Sound scale session) : next.Sound scale session := by
  have stands := sound.stands
  cases step with
  | begun watching =>
    rw [watching] at stands
    exact sound.enter (by simp [watching]) ⟨stands, id⟩
  | offered passing news =>
    rw [passing] at stands
    obtain ⟨underway, reached⟩ := stands
    have within := Session.dones_le sound.orderly sound.bears
    rw [underway.count] at within
    obtain ⟨bears, reports⟩ := news.sound regular reached within
    exact sound.enter (by simp [passing]) ⟨underway, reached, bears, reports, news.final⟩
  | told sending =>
    rw [sending] at stands
    obtain ⟨underway, reached, pending⟩ := stands
    have follows := (underway.count ▸ pending.reports).mayFollow underway.accepted
    exact sound.tell (.inr (sound.silent (by simp [sending]))) underway.unanswered follows
      pending.bears (pending.stands reached underway)
  | closed passing =>
    rw [passing] at stands
    exact sound.enter (by simp [passing])
      (Underway.stands_afterPass stands.1.accepted fun _ => stands.1)
  | ceased begun => exact sound.enter begun (stands.accepted begun)

/-! ## The session -/

/-- What was told stays true as the session goes on. -/
theorem Sound.grows (sound : desk.Sound scale session) (grows : session.Grows later) :
    desk.Sound scale later where
  elsewhere client other := sound.elsewhere client (grows.client ▸ other)
  asked request client asks := by
    rw [grows.client]
    exact sound.asked request client asks
  alone := sound.alone
  orderly := by
    rw [grows.client, grows.tupleCount]
    exact sound.orderly
  bears event member := by
    rw [grows.client] at member
    exact (sound.bears event member).grows grows
  stands := by
    have stands := sound.stands
    rw [grows.client]
    cases phase : desk.phase with
    | idle | watching | finished => simpa only [phase, Phase.Stands] using stands
    | passing next seen =>
      rw [phase] at stands
      exact ⟨stands.1, fun ends => grows.completed (stands.2 ends)⟩
    | sending next seen event =>
      rw [phase] at stands
      obtain ⟨underway, reached, ⟨bears, reports, final⟩⟩ := stands
      exact ⟨underway, fun ends => grows.completed (reached ends),
        ⟨bears.grows grows, by rwa [grows.tupleCount], final⟩⟩

/-- A session that is ended for a cause has its client told of that. -/
theorem Sound.fail (sound : desk.Sound scale session) (live : session.isTerminal = false)
    (final : target.isTerminal = true) (early : target ≠ .completed) (cause : QueryError) :
    (desk.tell session.client (.ofError (some session.id) cause)).Sound scale
      (session.finish target).1 := by
  have never : ¬ Tells (desk.told session.client) isAllDone ∧
      ¬ Tells (desk.told session.client) isError := by
    constructor
    · rintro ⟨event, member, answer⟩
      simp [((sound.bears event member).not_final live).1] at answer
    · rintro ⟨event, member, error⟩
      simp [((sound.bears event member).not_final live).2] at error
  have grown := sound.grows (Session.grows_finish live final)
  rw [Session.finish_of_live live] at grown ⊢
  exact grown.tell sound.asked_or_silent never.1 never.2 ⟨rfl, final, early⟩
    (grown.stands.append_error _ _ _)

/-- The request that waits says that the session is accepted, and the reporter begins. -/
theorem Sound.open (sound : desk.Sound scale session) (asks : desk.asks request = some client) :
    (((desk.tell client session.acceptedEvent).enter (.watching 0)).withdraw request).Sound scale
      session := by
  obtain ⟨rfl, idle⟩ := sound.asked request client asks
  have unopened := sound.stands
  rw [idle] at unopened
  obtain ⟨unanswered, undone⟩ := sound.orderly.unreported unopened
  have silent (other : Nat) : (desk.withdraw request).asks other = none := by
    rw [asks_withdraw]
    split
    · rfl
    · rename_i differ
      cases held : desk.asks other with
      | none => rfl
      | some client =>
        exact absurd (sound.alone other request (by simp [held]) (by simp [asks])) differ
  refine (sound.withdraw request).tell (.inr silent) unanswered trivial ⟨rfl, rfl⟩ ?_
  constructor
  · simp [Session.acceptedEvent, isAccepted]
  · simpa [Session.acceptedEvent, isAllDone] using unanswered
  · simpa [Session.acceptedEvent, doneTuple?] using undone

end Desk

end JointQuery
