import JointQuery.Node.Basic
import JointQuery.Proofs.Session.Lifecycle
import JointQuery.Proofs.Session.Registry

/-! The part of a node that its sessions live in. Whatever a node does to its sessions is a move,
the receipt of a partial result or the entry of a new session, and each of them keeps in step what
is registered and what is live. -/
namespace JointQuery

theorem getElem?_concat_of_ne {α : Type} {entries : List α} {last : α} {index : Nat}
    (differ : index ≠ entries.length) : (entries ++ [last])[index]? = entries[index]? := by
  rcases Nat.lt_or_gt_of_ne differ with inside | outside
  · exact List.getElem?_append_left inside
  · rw [List.getElem?_eq_none_iff.mpr (Nat.le_of_lt outside), List.getElem?_eq_none_iff,
      List.length_append, List.length_singleton]
    omega

/-- The sessions of a node, each at its place, and the registry of those in flight. -/
structure Ledger where
  sessions : List Session
  registry : Registry Nat

namespace Ledger

/-- Replaces the session at a place. -/
def put (ledger : Ledger) (place : Nat) (session : Session) : Ledger :=
  { ledger with sessions := ledger.sessions.set place session }

/-- Takes an identifier out of the registry. -/
def forget (ledger : Ledger) (id : QueryId) : Ledger :=
  { ledger with registry := ledger.registry.remove id }

/-- Adds a session and registers it. -/
def enter (ledger : Ledger) (session : Session) : Ledger :=
  ⟨ledger.sessions ++ [session], (ledger.registry.insert session.id ledger.sessions.length).1⟩

/-- What can happen to one of the sessions of a ledger in one move. -/
inductive Move (ledger : Ledger) : Ledger → Prop where
  | advanced (present : ledger.sessions[place]? = some session)
      (next : SessionState.Next source target) (early : target.isTerminal = false) :
      Move ledger (ledger.put place (session.transition source target).1)
  /-- The reporter has seen what has changed. -/
  | seen (present : ledger.sessions[place]? = some session) :
      Move ledger (ledger.put place { session with changed := false })
  | ended (present : ledger.sessions[place]? = some session) (live : session.isTerminal = false)
      (final : target.isTerminal = true) (early : target ≠ .completed) :
      Move ledger ((ledger.put place (session.finish target).1).forget session.id)

/-- What a partial result can do to a ledger: it is applied to the session that it names, which
ends if that completes it. -/
inductive Receipt (ledger : Ledger) (event : PartialResult) : Ledger → Prop where
  | received (held : ledger.registry.get? event.queryId = some place)
      (present : ledger.sessions[place]? = some session)
      (unfinished : (session.apply event).2 ≠ .ok .sessionCompleted) :
      Receipt ledger event (ledger.put place (session.apply event).1)
  | completed (held : ledger.registry.get? event.queryId = some place)
      (present : ledger.sessions[place]? = some session)
      (finishes : (session.apply event).2 = .ok .sessionCompleted) :
      Receipt ledger event
        ((ledger.put place ((session.apply event).1.finish .completed).1).forget session.id)

/-- The registry holds the sessions that are live, each under its identifier. -/
structure Sound (ledger : Ledger) : Prop where
  regular : ∀ session ∈ ledger.sessions, session.Regular
  distinct : ledger.registry.Distinct
  registered : ∀ id place, (id, place) ∈ ledger.registry.entries ↔
    ∃ session, ledger.sessions[place]? = some session ∧ session.id = id ∧
      session.isTerminal = false

variable {place other : Nat} {session before : Session}

theorem sound_empty : (⟨[], .empty⟩ : Ledger).Sound :=
  ⟨by simp, List.nodup_nil, by simp [Registry.empty]⟩

theorem Sound.get?_eq_some_iff {ledger : Ledger} (sound : ledger.Sound)
    (present : ledger.sessions[place]? = some session) :
    ledger.registry.get? session.id = some place ↔ session.isTerminal = false := by
  rw [sound.distinct.get?_eq_some_iff, sound.registered]
  simp [present]

theorem Sound.live_of_held {ledger : Ledger} {id : QueryId} (sound : ledger.Sound)
    (held : ledger.registry.get? id = some place)
    (present : ledger.sessions[place]? = some session) :
    session.id = id ∧ session.isTerminal = false := by
  obtain ⟨other, same, named, live⟩ := (sound.registered id place).mp (Registry.mem_of_get? held)
  obtain rfl := Option.some.inj (same.symm.trans present)
  exact ⟨named, live⟩

theorem sessions_put {ledger : Ledger} (present : ledger.sessions[place]? = some before)
    (next : Session) (other : Nat) : (ledger.put place next).sessions[other]? =
      if other = place then some next else ledger.sessions[other]? := by
  obtain ⟨inside, -⟩ := List.getElem?_eq_some_iff.mp present
  by_cases same : other = place
  · simp [put, same, inside]
  · simp [put, same, List.getElem?_set_ne (Ne.symm same)]

theorem sessions_put_self {ledger : Ledger} (present : ledger.sessions[place]? = some before)
    (next : Session) : (ledger.put place next).sessions[place]? = some next :=
  (sessions_put present next place).trans (if_pos rfl)

theorem sessions_enter (ledger : Ledger) (session : Session) (place : Nat) :
    (ledger.enter session).sessions[place]? =
      if place = ledger.sessions.length then some session else ledger.sessions[place]? := by
  split
  · rename_i last
    exact last ▸ List.getElem?_concat_length ..
  · rename_i differ
    exact getElem?_concat_of_ne differ

theorem put_self {ledger : Ledger} (present : ledger.sessions[place]? = some session) :
    ledger.put place session = ledger := by
  obtain ⟨inside, rfl⟩ := List.getElem?_eq_some_iff.mp present
  rw [put, List.set_getElem_self]

theorem put_put (ledger : Ledger) (place : Nat) (first second : Session) :
    (ledger.put place first).put place second = ledger.put place second := by
  simp [put]

/-! ## Moves keep a ledger sound -/

private theorem regular_put {ledger : Ledger} (sound : ledger.Sound) (regular : next.Regular) :
    ∀ session ∈ (ledger.put place next).sessions, session.Regular := by
  intro session member
  rcases List.mem_or_eq_of_mem_set member with old | rfl
  · exact sound.regular session old
  · exact regular

/-- A session can be replaced by one that is live if it was. -/
private theorem Sound.put {ledger : Ledger} (sound : ledger.Sound)
    (present : ledger.sessions[place]? = some session) (follows : session.Follows next)
    (regular : next.Regular) (alike : next.isTerminal = session.isTerminal) :
    (ledger.put place next).Sound := by
  refine ⟨regular_put sound regular, sound.distinct, fun id other => ?_⟩
  rw [sessions_put present]
  by_cases same : other = place
  · subst same
    simpa [Ledger.put, present, follows.id, alike] using sound.registered id other
  · simpa [Ledger.put, same] using sound.registered id other

/-- A live session can be replaced by one that has ended if its identifier is taken out. -/
private theorem Sound.retire {ledger : Ledger} (sound : ledger.Sound)
    (present : ledger.sessions[place]? = some session) (live : session.isTerminal = false)
    (regular : next.Regular) (final : next.isTerminal = true) :
    ((ledger.put place next).forget session.id).Sound := by
  refine ⟨regular_put sound regular, sound.distinct.remove, fun id other => ?_⟩
  have held : (session.id, place) ∈ ledger.registry.entries :=
    (sound.registered _ _).mpr ⟨session, present, rfl, live⟩
  simp only [Ledger.forget, Registry.mem_remove, sessions_put present]
  by_cases same : other = place
  · subst same
    have gone : (id, other) ∈ ledger.registry.entries → id = session.id := by
      intro member
      obtain ⟨found, at_, named, -⟩ := (sound.registered id other).mp member
      rw [← named, Option.some.inj (at_.symm.trans present)]
    simp only [if_pos, Option.some.injEq, exists_eq_left', final, Bool.true_eq_false, and_false,
      iff_false, not_and, not_not]
    exact gone
  · have apart : (id, other) ∈ ledger.registry.entries → id ≠ session.id := by
      rintro member rfl
      exact same (sound.distinct.eq_of_mem member held)
    rw [if_neg same, ← sound.registered]
    exact and_iff_left_of_imp apart

/-- A live session can be added under an identifier that is not in flight. -/
theorem Sound.enter {ledger : Ledger} (sound : ledger.Sound) (regular : session.Regular)
    (live : session.isTerminal = false)
    (unknown : ledger.registry.contains session.id = false) : (ledger.enter session).Sound := by
  refine ⟨fun other member => ?_, sound.distinct.insert unknown, fun id place => ?_⟩
  · rcases List.mem_append.mp member with old | last
    · exact sound.regular other old
    · rw [List.mem_singleton] at last
      exact last ▸ regular
  · rw [sessions_enter]
    simp only [Ledger.enter, Registry.insert_eq unknown, List.mem_append, List.mem_singleton,
      Prod.mk.injEq, sound.registered]
    split
    · rename_i last
      simp [last, live, eq_comm (a := id)]
    · rename_i differ
      simp [differ]

theorem Sound.regular_at {ledger : Ledger} (sound : ledger.Sound)
    (present : ledger.sessions[place]? = some session) : session.Regular :=
  sound.regular session (List.mem_of_getElem? present)

theorem Move.sound {ledger next : Ledger} (move : Move ledger next) (sound : ledger.Sound) :
    next.Sound := by
  cases move with
  | advanced present step early =>
    obtain ⟨kept, alike⟩ := (sound.regular_at present).transition step early
    exact sound.put present (Session.grows_transition _ step).toFollows kept alike
  | seen present =>
    obtain ⟨built, ⟨slots, remaining⟩, settled, path⟩ := sound.regular_at present
    exact sound.put present ⟨rfl, .refl, fun _ => ⟨rfl, rfl, rfl⟩⟩
      ⟨⟨built.domain, built.tupleCount⟩, ⟨slots, remaining⟩, settled, path⟩ rfl
  | ended present live final early =>
    have regular := sound.regular_at present
    have settled : _ ↔ _ := iff_of_false early (mt regular.settled.mpr fun same => by
      simp [Session.isTerminal, same, SessionState.isTerminal] at live)
    obtain ⟨kept, ended⟩ := regular.finish live final settled
    exact sound.retire present live kept ended

theorem Receipt.sound {ledger next : Ledger} (receipt : Receipt ledger event next)
    (sound : ledger.Sound) : next.Sound := by
  cases receipt with
  | received held present unfinished =>
    obtain ⟨-, live⟩ := sound.live_of_held held present
    have regular := sound.regular_at present
    exact sound.put present (Session.grows_apply regular.sound live _).toFollows
      (regular.apply live unfinished) (Session.isTerminal_apply regular.sound _)
  | completed held present finishes =>
    obtain ⟨-, live⟩ := sound.live_of_held held present
    obtain ⟨kept, final⟩ := (sound.regular_at present).complete live finishes
    exact sound.retire present live kept final

/-! ## What becomes of a session -/

private theorem grows_put {ledger : Ledger} (present : ledger.sessions[place]? = some session)
    (grows : session.Grows next) (found : ledger.sessions[other]? = some before) :
    ∃ after, (ledger.put place next).sessions[other]? = some after ∧ before.Grows after := by
  rw [sessions_put present]
  by_cases same : other = place
  · subst same
    obtain rfl := Option.some.inj (present.symm.trans found)
    exact ⟨next, by simp, grows⟩
  · exact ⟨before, by rw [if_neg same, found], .refl before⟩

/-- A session stays at its place, and changes only as sessions may. -/
theorem Move.grows {ledger next : Ledger} (move : Move ledger next)
    (found : ledger.sessions[place]? = some before) :
    ∃ after, next.sessions[place]? = some after ∧ before.Grows after := by
  cases move with
  | advanced present step early => exact grows_put present (Session.grows_transition _ step) found
  | seen present =>
    exact grows_put present (Session.Follows.grows ⟨rfl, .refl, fun _ => ⟨rfl, rfl, rfl⟩⟩) found
  | ended present live final early =>
    exact grows_put present (Session.grows_finish live final) found

theorem Receipt.grows {ledger next : Ledger} (receipt : Receipt ledger event next)
    (sound : ledger.Sound) (found : ledger.sessions[place]? = some before) :
    ∃ after, next.sessions[place]? = some after ∧ before.Grows after := by
  cases receipt with
  | received held present unfinished =>
    obtain ⟨-, live⟩ := sound.live_of_held held present
    exact grows_put present (Session.grows_apply (sound.regular_at present).sound live _) found
  | completed held present finishes =>
    obtain ⟨-, live⟩ := sound.live_of_held held present
    have regular := sound.regular_at present
    have still := (Session.isTerminal_apply regular.sound event).trans live
    exact grows_put present ((Session.grows_apply regular.sound live _).trans
      (Session.grows_finish still rfl)) found

theorem Move.length_eq {ledger next : Ledger} (move : Move ledger next) :
    next.sessions.length = ledger.sessions.length := by
  cases move with
  | advanced | seen | ended => exact List.length_set

theorem Receipt.length_eq {ledger next : Ledger} (receipt : Receipt ledger event next) :
    next.sessions.length = ledger.sessions.length := by
  cases receipt with
  | received | completed => exact List.length_set

end Ledger

end JointQuery
