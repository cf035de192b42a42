import JointQuery.Proofs.Node.Desk
import JointQuery.Proofs.Node.Ledger

/-! What a node is to its clients: the ledger of its sessions, and a desk for every place of the
ledger. Whatever a node does is to its front a series of moves and of receipts of partial results,
and each of them keeps the ledger and the desks sound. -/
namespace JointQuery

/-- The front of a node. `scale` are the decimals of the values that clients are told. -/
structure Front where
  scale : Nat
  ledger : Ledger
  desks : Nat → Desk

namespace Front

/-- Changes the desk at a place. -/
def alter (front : Front) (place : Nat) (f : Desk → Desk) : Front :=
  { front with desks := Function.update front.desks place (f (front.desks place)) }

/-- Replaces the ledger. -/
def record (front : Front) (ledger : Ledger) : Front := { front with ledger := ledger }

/-- A request waits for the places that are given, and for no other. -/
def file (front : Front) (request : Nat) (asks : Nat → Option Nat) : Front :=
  { front with desks := fun place =>
    { front.desks place with
      asks := Function.update (front.desks place).asks request (asks place) } }

/-- A request waits no more, wherever it did. -/
def withdraw (front : Front) (request : Nat) : Front :=
  { front with desks := fun place => (front.desks place).withdraw request }

/-- What can happen to a front in one move. -/
inductive Move (front : Front) : Front → Prop where
  | moved {ledger : Ledger} (move : front.ledger.Move ledger) : Move front (front.record ledger)
  /-- A new session under an identifier that is not in flight. Its request waits. -/
  | entered {id : QueryId} (created : Session.create id query client ref now = .ok session)
      (unknown : front.ledger.registry.contains session.id = false) (request : Nat) :
      Move front ((front.record (front.ledger.enter session)).alter front.ledger.sessions.length
        (·.ask request session.client))
  | opened (present : front.ledger.sessions[place]? = some session)
      (asks : (front.desks place).asks request = some client) :
      Move front ((front.withdraw request).alter place
        fun desk => (desk.tell client session.acceptedEvent).enter (.watching 0))
  | withdrawn (request : Nat) : Move front (front.withdraw request)
  | worked (present : front.ledger.sessions[place]? = some session)
      (step : Desk.Step front.scale session (front.desks place) (f (front.desks place))) :
      Move front (front.alter place f)
  /-- A session is ended, and its client is told of the cause. -/
  | failed (present : front.ledger.sessions[place]? = some session)
      (live : session.isTerminal = false) (final : target.isTerminal = true)
      (early : target ≠ .completed) (cause : QueryError) :
      Move front ((front.record
          ((front.ledger.put place (session.finish target).1).forget session.id)).alter place
        (·.tell session.client (.ofError (some session.id) cause)))

/-- A series of moves. -/
abbrev Moves : Front → Front → Prop := Relation.ReflTransGen Move

/-- A move, or the receipt of a partial result. -/
inductive Step (front : Front) : Front → Prop where
  | moved (move : front.Move next) : Step front next
  | received {ledger : Ledger} (receipt : front.ledger.Receipt event ledger) :
      Step front (front.record ledger)

/-- A series of moves and receipts. -/
abbrev Steps : Front → Front → Prop := Relation.ReflTransGen Step

variable {front next last : Front} {ledger : Ledger} {place : Nat} {session before : Session}

@[simp] theorem desks_alter_self (front : Front) (place : Nat) (f : Desk → Desk) :
    (front.alter place f).desks place = f (front.desks place) := Function.update_self ..

theorem desks_alter_of_ne (front : Front) {place other : Nat} (differ : other ≠ place)
    (f : Desk → Desk) : (front.alter place f).desks other = front.desks other :=
  Function.update_of_ne differ ..

@[simp] theorem alter_alter (front : Front) (place : Nat) (f g : Desk → Desk) :
    (front.alter place f).alter place g = front.alter place fun desk => g (f desk) := by
  simp [alter]

theorem alter_record (front : Front) (ledger : Ledger) (place : Nat) (f : Desk → Desk) :
    (front.record ledger).alter place f = (front.alter place f).record ledger := rfl

theorem withdraw_record (front : Front) (ledger : Ledger) (request : Nat) :
    (front.record ledger).withdraw request = (front.withdraw request).record ledger := rfl

theorem alter_of_same {f : Desk → Desk} (same : f (front.desks place) = front.desks place) :
    front.alter place f = front := by
  rw [alter, same, Function.update_eq_self]

theorem withdraw_of_silent {request : Nat}
    (silent : ∀ place, (front.desks place).asks request = none) :
    front.withdraw request = front := by
  have same : (fun place => (front.desks place).withdraw request) = front.desks :=
    funext fun place => Desk.withdraw_of_silent (silent place)
  rw [withdraw, same]

theorem alter_withdraw {f : Desk → Desk} {request : Nat}
    (commutes : ∀ desk, (f desk).withdraw request = f (desk.withdraw request)) :
    (front.alter place f).withdraw request = (front.withdraw request).alter place f := by
  have same : (fun other => ((front.alter place f).desks other).withdraw request) =
      ((front.withdraw request).alter place f).desks := by
    funext other
    by_cases equal : other = place
    · subst equal
      rw [desks_alter_self, desks_alter_self, commutes]
      rfl
    · rw [desks_alter_of_ne _ equal, desks_alter_of_ne _ equal]
      rfl
  rw [withdraw, same]
  rfl

theorem file_of_same {request : Nat} {asks : Nat → Option Nat}
    (same : ∀ place, (front.desks place).asks request = asks place) :
    front.file request asks = front := by
  have desks : (fun place => ({ front.desks place with
      asks := Function.update (front.desks place).asks request (asks place) } : Desk)) =
      front.desks := by
    funext place
    rw [← same, Function.update_eq_self]
  rw [file, desks]

theorem file_withdraw (front : Front) (request : Nat) (asks : Nat → Option Nat) :
    (front.file request asks).withdraw request = front.withdraw request := by
  simp [file, withdraw, Desk.withdraw]

/-- A request that waits nowhere goes to wait at one place. -/
theorem file_of_silent {request client : Nat}
    (silent : ∀ place, (front.desks place).asks request = none) :
    front.file request (fun other => if other = place then some client else none) =
      front.alter place (·.ask request client) := by
  have desks : (front.file request fun other => if other = place then some client else none).desks =
      (front.alter place (·.ask request client)).desks := by
    funext other
    by_cases same : other = place
    · subst same
      simp only [file, desks_alter_self, if_pos]
      rfl
    · rw [desks_alter_of_ne _ same]
      simp only [file, if_neg same]
      exact Desk.withdraw_of_silent (silent other)
  exact congrArg (Front.mk front.scale front.ledger) desks

theorem Moves.of_eq (same : next = front) : Moves front next := same ▸ .refl

theorem Moves.steps (moves : Moves front last) : Steps front last :=
  Relation.ReflTransGen.mono (fun _ _ move => Step.moved move) _ _ moves

/-- A reporter gets from one phase to the next. -/
theorem move_enter {phase after : Phase} (present : front.ledger.sessions[place]? = some session)
    (step : Desk.Step front.scale session ((front.desks place).enter phase)
      ((front.desks place).enter after)) :
    Move (front.alter place (·.enter phase)) (front.alter place (·.enter after)) := by
  have same : (front.alter place (·.enter phase)).alter place (·.enter after) =
      front.alter place (·.enter after) := alter_alter ..
  rw [← same]
  refine .worked present ?_
  rw [desks_alter_self]
  exact step

/-- A reporter in a pass tells its client what is news. -/
theorem moves_told {tuple : Nat} (present : front.ledger.sessions[place]? = some session)
    (news : session.News front.scale tuple seen event) :
    Moves (front.alter place (·.enter (.passing tuple seen)))
      ((front.alter place (·.tell session.client event)).alter place
        (·.enter (.afterEvent tuple seen event))) := by
  have offered : Move (front.alter place (·.enter (.passing tuple seen)))
      (front.alter place (·.enter (.sending tuple seen event))) :=
    move_enter present (.offered rfl news)
  refine .head offered (.single ?_)
  have same : (front.alter place (·.enter (.sending tuple seen event))).alter place
        (fun desk => (desk.tell session.client event).enter (.afterEvent tuple seen event)) =
      (front.alter place (·.tell session.client event)).alter place
        (·.enter (.afterEvent tuple seen event)) := by
    rw [alter_alter, alter_alter]
    rfl
  rw [← same]
  refine .worked present (.told ?_)
  rw [desks_alter_self]
  rfl

/-! ## The ledger -/

/-- What a move does to the ledger. -/
theorem Move.ledger_cases (move : front.Move next) :
    next.ledger = front.ledger ∨ front.ledger.Move next.ledger ∨
      ∃ (session : Session) (id : QueryId) (query : Query) (client : Nat) (ref : String)
        (now : Int64), Session.create id query client ref now = .ok session ∧
        front.ledger.registry.contains session.id = false ∧
        next.ledger = front.ledger.enter session := by
  cases move with
  | moved move => exact .inr (.inl move)
  | entered created unknown request => exact .inr (.inr ⟨_, _, _, _, _, _, created, unknown, rfl⟩)
  | opened | withdrawn | worked => exact .inl rfl
  | failed present live final early cause => exact .inr (.inl (.ended present live final early))

private theorem Move.sound_ledger (move : front.Move next) (sound : front.ledger.Sound) :
    next.ledger.Sound := by
  rcases move.ledger_cases with same | move | ⟨session, _, _, _, _, _, created, unknown, same⟩
  · rwa [same]
  · exact move.sound sound
  · rw [same]
    refine sound.enter (Session.regular_create created) ?_ unknown
    obtain ⟨domain, -, rfl⟩ := Session.create_eq created
    rfl

/-- A session stays at its place, and changes only as sessions may. -/
theorem Move.grows (move : front.Move next) (found : front.ledger.sessions[place]? = some before) :
    ∃ after, next.ledger.sessions[place]? = some after ∧ before.Grows after := by
  rcases move.ledger_cases with same | move | ⟨session, _, _, _, _, _, created, unknown, same⟩
  · exact ⟨before, by rw [same, found], .refl before⟩
  · exact move.grows found
  · rw [same]
    have inside : place ≠ front.ledger.sessions.length :=
      Nat.ne_of_lt (List.getElem?_eq_some_iff.mp found).1
    exact ⟨before, by rw [Ledger.sessions_enter, if_neg inside, found], .refl before⟩

private theorem Step.sound_ledger (step : front.Step next) (sound : front.ledger.Sound) :
    next.ledger.Sound := by
  cases step with
  | moved move => exact move.sound_ledger sound
  | received receipt => exact receipt.sound sound

private theorem Step.grows (step : front.Step next) (sound : front.ledger.Sound)
    (found : front.ledger.sessions[place]? = some before) :
    ∃ after, next.ledger.sessions[place]? = some after ∧ before.Grows after := by
  cases step with
  | moved move => exact move.grows found
  | received receipt => exact receipt.grows sound found

theorem Steps.sound_ledger (steps : Steps front last) (sound : front.ledger.Sound) :
    last.ledger.Sound := by
  induction steps with
  | refl => exact sound
  | tail _ step ih => exact step.sound_ledger ih

theorem Steps.grows (steps : Steps front last) (sound : front.ledger.Sound)
    (found : front.ledger.sessions[place]? = some before) :
    ∃ after, last.ledger.sessions[place]? = some after ∧ before.Grows after := by
  induction steps with
  | refl => exact ⟨before, found, .refl before⟩
  | tail earlier step ih =>
    obtain ⟨middle, held, grows⟩ := ih
    obtain ⟨after, held, further⟩ := step.grows (Steps.sound_ledger earlier sound) held
    exact ⟨after, held, grows.trans further⟩

theorem Steps.scale_eq (steps : Steps front last) : last.scale = front.scale := by
  induction steps with
  | refl => rfl
  | tail _ step ih =>
    rw [← ih]
    cases step with
    | moved move => cases move <;> rfl
    | received => rfl

/-! ## The desks -/

/-- The ledger is sound, the desk of every session is sound for it, and nothing has happened at any
other. -/
structure Sound (front : Front) : Prop where
  ledger : front.ledger.Sound
  desks : ∀ place session, front.ledger.sessions[place]? = some session →
    (front.desks place).Sound front.scale session
  blank : ∀ place, front.ledger.sessions[place]? = none → front.desks place = .blank

/-- What is told anywhere is told to the client of the session there, and true of it. -/
theorem Sound.bears (sound : front.Sound) {event : ClientEvent} {client : Nat}
    (told : event ∈ (front.desks place).told client) :
    ∃ session, front.ledger.sessions[place]? = some session ∧ session.client = client ∧
      session.Bears front.scale event := by
  cases present : front.ledger.sessions[place]? with
  | none =>
    rw [sound.blank place present] at told
    simp [Desk.blank] at told
  | some session =>
    have desk := sound.desks place session present
    obtain rfl := desk.client_eq told
    exact ⟨session, rfl, rfl, desk.bears event told⟩

/-- A front stays sound when its sessions go on as they may. -/
private theorem Sound.record (sound : front.Sound) (kept : ledger.Sound)
    (length : ledger.sessions.length = front.ledger.sessions.length)
    (grows : ∀ (place : Nat) (before : Session), front.ledger.sessions[place]? = some before →
      ∃ after, ledger.sessions[place]? = some after ∧ before.Grows after) :
    (front.record ledger).Sound where
  ledger := kept
  desks place session found := by
    have inside : place < front.ledger.sessions.length :=
      length ▸ (List.getElem?_eq_some_iff.mp found).1
    have present := List.getElem?_eq_getElem inside
    obtain ⟨after, held, grown⟩ := grows place _ present
    obtain rfl := Option.some.inj (held.symm.trans found)
    exact (sound.desks place _ present).grows grown
  blank place beyond := by
    refine sound.blank place (List.getElem?_eq_none_iff.mpr ?_)
    rw [← length]
    exact List.getElem?_eq_none_iff.mp beyond

private theorem Sound.alter (sound : front.Sound)
    (present : front.ledger.sessions[place]? = some session)
    (kept : (f (front.desks place)).Sound front.scale session) : (front.alter place f).Sound where
  ledger := sound.ledger
  desks other found_session found := by
    by_cases same : other = place
    · subst same
      obtain rfl := Option.some.inj (present.symm.trans found)
      rw [desks_alter_self]
      exact kept
    · rw [desks_alter_of_ne front same]
      exact sound.desks other found_session found
  blank other beyond := by
    have differ : other ≠ place := by
      rintro rfl
      exact absurd (present.symm.trans beyond) (by simp)
    rw [desks_alter_of_ne front differ]
    exact sound.blank other beyond

private theorem Sound.withdraw (sound : front.Sound) (request : Nat) :
    (front.withdraw request).Sound where
  ledger := sound.ledger
  desks place session found := (sound.desks place session found).withdraw request
  blank place beyond := by
    have blank : front.desks place = .blank := sound.blank place beyond
    have same : (front.desks place).withdraw request = front.desks place :=
      Desk.withdraw_of_silent (by rw [blank]; rfl)
    exact same.trans blank

/-- A new session finds its desk blank. -/
private theorem Sound.enter (sound : front.Sound) (kept : (front.ledger.enter session).Sound)
    (request : Nat) :
    ((front.record (front.ledger.enter session)).alter front.ledger.sessions.length
      (·.ask request session.client)).Sound := by
  have blank : front.desks front.ledger.sessions.length = .blank :=
    sound.blank _ (List.getElem?_eq_none_iff.mpr (Nat.le_refl _))
  have entered : (front.record (front.ledger.enter session)).Sound := by
    refine ⟨kept, ?_, ?_⟩
    · intro place other found
      rw [Front.record, Ledger.sessions_enter] at found
      by_cases last : place = front.ledger.sessions.length
      · exact last ▸ blank ▸ Desk.sound_blank _ _
      · rw [if_neg last] at found
        exact sound.desks place other found
    · intro place beyond
      rw [Front.record, Ledger.sessions_enter] at beyond
      by_cases last : place = front.ledger.sessions.length
      · rw [if_pos last] at beyond
        cases beyond
      · rw [if_neg last] at beyond
        exact sound.blank place beyond
  have present : (front.record (front.ledger.enter session)).ledger.sessions[
      front.ledger.sessions.length]? = some session := List.getElem?_concat_length ..
  refine entered.alter present ((entered.desks _ _ present).ask ?_ (fun other => ?_) request)
  · exact congrArg Desk.phase blank
  · exact congrFun (congrArg Desk.asks blank) other

private theorem Move.sound (move : front.Move next) (sound : front.Sound) : next.Sound := by
  have kept := move.sound_ledger sound.ledger
  cases move with
  | moved move => exact sound.record kept move.length_eq fun _ _ => move.grows
  | entered created unknown request => exact sound.enter kept request
  | opened present asks =>
    exact (sound.withdraw _).alter present ((sound.desks _ _ present).open asks)
  | withdrawn request => exact sound.withdraw request
  | worked present step =>
    exact sound.alter present
      (step.sound (sound.ledger.regular_at present) (sound.desks _ _ present))
  | failed present live final early cause =>
    have move : front.ledger.Move _ := .ended present live final early
    have ended := sound.record kept move.length_eq fun _ _ => move.grows
    refine ended.alter ?_ ((sound.desks _ _ present).fail live final early cause)
    exact Ledger.sessions_put_self present _

private theorem Step.sound (step : front.Step next) (sound : front.Sound) : next.Sound := by
  cases step with
  | moved move => exact move.sound sound
  | received receipt =>
    exact sound.record (receipt.sound sound.ledger) receipt.length_eq fun _ _ =>
      receipt.grows sound.ledger

theorem Steps.sound (steps : Steps front last) (sound : front.Sound) : last.Sound := by
  induction steps with
  | refl => exact sound
  | tail _ step ih => exact step.sound ih

end Front

end JointQuery
