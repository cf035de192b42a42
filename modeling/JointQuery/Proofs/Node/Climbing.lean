import JointQuery.Proofs.Node.Runs
import JointQuery.Proofs.Session.Fractions

/-! The progress that clients are told, over every run of a node. What a client is told of a tuple
was read off its slot one after another while that grew, whatever time has passed between the
reading and the telling. A reading that has to wait for its place in a queue is the last one until
it is told, so that it is kept together with those that were told. -/
namespace JointQuery

/-- The progress of a tuple that an event tells. -/
def ClientEvent.progressOf? (tuple : ℕ) : ClientEvent → Option Float
  | .tupleProgress _ index fraction => if index.toNat = tuple then some fraction else none
  | _ => none

namespace Session

variable {session before after : Session} {told more : List ClientEvent}

/-- The progress that is told of each tuple was read off its slot. -/
def Climbs (session : Session) (told : List ClientEvent) : Prop :=
  ∀ tuple, (session.progressAt tuple).Read (told.filterMap (ClientEvent.progressOf? tuple))

private theorem climbs_nil (session : Session) :
    session.Climbs [] := fun _ => ProgressSlot.read_nil _

private theorem Climbs.advances (climbs : before.Climbs told) (advances : before.Advances after) :
    after.Climbs told := fun tuple => (climbs tuple).grows (advances.progressAt tuple)

private theorem Climbs.of_append (climbs : session.Climbs (told ++ more)) :
    session.Climbs told := by
  intro tuple
  have read := climbs tuple
  rw [List.filterMap_append] at read
  exact read.of_append

/-- An event that is not about progress may be told at any time. -/
theorem Climbs.insert (climbs : session.Climbs (told ++ more))
    (silent : ∀ tuple, event.progressOf? tuple = none) :
    session.Climbs (told ++ [event] ++ more) := by
  intro tuple
  simpa [silent tuple] using climbs tuple

private theorem fraction_of_closingEvent? {id : QueryId} {index : UInt64} {fraction : Float}
    (closing : session.closingEvent? seen next scale = some (.tupleProgress id index fraction)) :
    index = UInt64.ofNat next ∧ fraction = session.tupleFraction next ∧
      next < session.tupleCount := by
  rcases eq_of_closingEvent? closing with ⟨-, answer⟩ | ⟨inside, -⟩
  · cases answer
  · have live : seen ≠ .completed ∧ ¬ seen.isTerminal = true := by
      constructor <;> intro ends <;> simp [closingEvent?, ends] at closing
    simp only [closingEvent?, if_neg live.1, if_neg live.2, if_pos inside] at closing
    cases closing
    exact ⟨rfl, rfl, inside⟩

/-- What is news of the progress of a tuple is what its slot says. -/
theorem Climbs.news (climbs : session.Climbs told) (regular : session.Regular)
    (news : session.News scale next seen event) : session.Climbs (told ++ [event]) := by
  intro tuple
  rw [List.filterMap_append]
  have reading := climbs tuple
  cases event with
  | accepted | tupleDone | allDone | error =>
    simpa only [List.filterMap_cons, List.filterMap_nil, ClientEvent.progressOf?, List.append_nil]
      using reading
  | tupleProgress id index fraction =>
    have closing : session.closingEvent? seen next scale =
        some (.tupleProgress id index fraction) := by
      rcases news with done | ⟨-, closing⟩
      · obtain ⟨row, other, -⟩ := eq_of_tupleDone? done
        cases other
      · exact closing
    obtain ⟨rfl, rfl, inside⟩ := fraction_of_closingEvent? closing
    simp only [List.filterMap_cons, List.filterMap_nil, ClientEvent.progressOf?,
      regular.built.toNat_ofNat inside]
    by_cases same : next = tuple
    · subst same
      rw [if_pos rfl, tupleFraction_eq]
      exact reading.snoc (regular.sound.tracked_progressAt next)
    · rw [if_neg same, List.append_nil]
      exact reading

end Session

/-- The event that a reporter has not queued yet. -/
def Phase.pending : Phase → List ClientEvent
  | .sending _ _ event => [event]
  | _ => []

private theorem Phase.pending_afterPass (next : ℕ) (seen : SessionState) :
    (Phase.afterPass next seen).pending = [] := by
  unfold Phase.afterPass
  split <;> rfl

private theorem Phase.pending_afterEvent (next : ℕ) (seen : SessionState) (event : ClientEvent) :
    (Phase.afterEvent next seen event).pending = [] := by
  cases event with
  | tupleDone => rfl
  | accepted | tupleProgress | allDone | error => exact pending_afterPass next seen

namespace Desk

variable {desk next : Desk} {session before after : Session}

/-- What is told at a desk, and what is to be told next, was read off the slots. -/
def Climbs (session : Session) (desk : Desk) : Prop :=
  session.Climbs (desk.told session.client ++ desk.phase.pending)

private theorem climbs_enter {phase : Phase} (told : session.Climbs (desk.told session.client))
    (quiet : phase.pending = []) : (desk.enter phase).Climbs session := by
  rw [Climbs, told_enter, enter, quiet, List.append_nil]
  exact told

/-- A reporter reads progress off the slot when it is about to tell it. -/
theorem Step.climbs (step : Step scale session desk next) (regular : session.Regular)
    (climbs : desk.Climbs session) : next.Climbs session := by
  have told : session.Climbs (desk.told session.client) := Session.Climbs.of_append climbs
  cases step with
  | begun watching => exact climbs_enter told rfl
  | offered passing news => exact told.news regular news
  | told sending =>
    refine climbs_enter ?_ (Phase.pending_afterEvent ..)
    rw [told_tell_self]
    simpa only [Climbs, sending, Phase.pending] using climbs
  | closed passing => exact climbs_enter told (Phase.pending_afterPass ..)
  | ceased begun => exact climbs_enter told rfl

/-- What the client is told beside the reports leaves them as they are. -/
theorem Climbs.tell (climbs : desk.Climbs session)
    (silent : ∀ tuple, event.progressOf? tuple = none) :
    (desk.tell session.client event).Climbs session := by
  rw [Climbs, told_tell_self]
  exact Session.Climbs.insert climbs silent

private theorem Climbs.advances (climbs : desk.Climbs before) (advances : before.Advances after)
    (client : after.client = before.client) : desk.Climbs after := by
  rw [Climbs, client]
  exact Session.Climbs.advances climbs advances

end Desk

/-! ## Sessions that go on -/

namespace Ledger

variable {ledger next : Ledger} {place other : ℕ} {session before later : Session}

/-- A session that has become another: its client is the same, and nothing is taken away. -/
private theorem advances_put (present : ledger.sessions[place]? = some session)
    (sound : session.Sound) (reaches : session.Reaches later)
    (found : ledger.sessions[other]? = some before) :
    ∃ after, (ledger.put place later).sessions[other]? = some after ∧ before.Advances after := by
  rw [sessions_put present]
  by_cases same : other = place
  · subst same
    obtain rfl := Option.some.inj (present.symm.trans found)
    exact ⟨later, by simp, (reaches.sound_advances sound).2⟩
  · exact ⟨before, by rw [if_neg same, found], .refl before⟩

private theorem Move.advances (move : ledger.Move next) (sound : ledger.Sound)
    (found : ledger.sessions[place]? = some before) :
    ∃ after, next.sessions[place]? = some after ∧ before.Advances after := by
  cases move with
  | advanced present =>
    exact advances_put present (sound.regular_at present).sound (.moved .here _ _) found
  | seen present => exact advances_put present (sound.regular_at present).sound (.seen .here) found
  | ended present =>
    exact advances_put present (sound.regular_at present).sound (.finished .here _) found

private theorem Receipt.advances (receipt : ledger.Receipt event next) (sound : ledger.Sound)
    (found : ledger.sessions[place]? = some before) :
    ∃ after, next.sessions[place]? = some after ∧ before.Advances after := by
  cases receipt with
  | received _ present =>
    exact advances_put present (sound.regular_at present).sound (.applied .here _) found
  | completed _ present =>
    exact advances_put present (sound.regular_at present).sound
      (.finished (.applied .here _) _) found

end Ledger

namespace Front

variable {front next last : Front} {ledger : Ledger} {place : ℕ} {session : Session}

/-- What is told at every desk was read off the slots of its session. -/
def Climbs (front : Front) : Prop :=
  ∀ place session, front.ledger.sessions[place]? = some session →
    (front.desks place).Climbs session

/-- Sessions that go on keep what was told of them. -/
private theorem Climbs.record (climbs : front.Climbs)
    (length : ledger.sessions.length = front.ledger.sessions.length)
    (goes : ∀ (place : ℕ) (before : Session), front.ledger.sessions[place]? = some before →
      ∃ after, ledger.sessions[place]? = some after ∧ before.Advances after ∧
        after.client = before.client) : (front.record ledger).Climbs := by
  intro place session found
  have inside : place < front.ledger.sessions.length :=
    length ▸ (List.getElem?_eq_some_iff.mp found).1
  have present := List.getElem?_eq_getElem inside
  obtain ⟨after, held, advances, client⟩ := goes place _ present
  obtain rfl := Option.some.inj (held.symm.trans found)
  exact (climbs place _ present).advances advances client

private theorem Climbs.alter (climbs : front.Climbs)
    (present : front.ledger.sessions[place]? = some session)
    (kept : (f (front.desks place)).Climbs session) : (front.alter place f).Climbs := by
  intro other later found
  by_cases same : other = place
  · subst same
    obtain rfl := Option.some.inj (present.symm.trans found)
    rw [desks_alter_self]
    exact kept
  · rw [desks_alter_of_ne front same]
    exact climbs other later found

private theorem goes_on {next : Ledger} {before : Session}
    (grows : ∃ after, next.sessions[place]? = some after ∧ before.Grows after)
    (advances : ∃ after, next.sessions[place]? = some after ∧ before.Advances after) :
    ∃ after, next.sessions[place]? = some after ∧ before.Advances after ∧
      after.client = before.client := by
  obtain ⟨after, held, grows⟩ := grows
  obtain ⟨other, again, advances⟩ := advances
  obtain rfl := Option.some.inj (held.symm.trans again)
  exact ⟨after, held, advances, grows.client⟩

/-- At the desk of a new session nothing has been told. -/
private theorem Climbs.enter (climbs : front.Climbs) (sound : front.Sound) (request : ℕ) :
    ((front.record (front.ledger.enter session)).alter front.ledger.sessions.length
      (·.ask request session.client)).Climbs := by
  have blank : front.desks front.ledger.sessions.length = .blank :=
    sound.blank _ (List.getElem?_eq_none_iff.mpr (Nat.le_refl _))
  have entered : (front.record (front.ledger.enter session)).Climbs := by
    intro place other found
    rw [Front.record, Ledger.sessions_enter] at found
    by_cases last : place = front.ledger.sessions.length
    · subst last
      change (front.desks front.ledger.sessions.length).Climbs other
      rw [blank]
      exact other.climbs_nil
    · rw [if_neg last] at found
      exact climbs place other found
  have present : (front.record (front.ledger.enter session)).ledger.sessions[
      front.ledger.sessions.length]? = some session := List.getElem?_concat_length ..
  exact entered.alter present (entered _ _ present)

private theorem Move.climbs (move : front.Move next) (sound : front.Sound) (climbs : front.Climbs) :
    next.Climbs := by
  cases move with
  | moved move =>
    exact climbs.record move.length_eq fun _ _ found =>
      goes_on (move.grows found) (move.advances sound.ledger found)
  | entered created unknown request => exact climbs.enter sound request
  | @opened place session request client present asks =>
    obtain ⟨rfl, -⟩ := (sound.desks place session present).asked request client asks
    have withdrawn : (front.withdraw request).Climbs := climbs
    refine withdrawn.alter present (Desk.climbs_enter ?_ rfl)
    exact Session.Climbs.of_append
      (Desk.Climbs.tell (withdrawn place session present) fun _ => rfl)
  | withdrawn request => exact climbs
  | worked present step =>
    exact climbs.alter present (step.climbs (sound.ledger.regular_at present)
      (climbs _ _ present))
  | @failed place session target present live final early cause =>
    have move : front.ledger.Move _ := .ended present live final early
    have ended := climbs.record move.length_eq fun _ _ found =>
      goes_on (move.grows found) (move.advances sound.ledger found)
    have after := Ledger.sessions_put_self present (session.finish target).1
    have client : (session.finish target).1.client = session.client :=
      (Session.grows_finish live final).client
    refine ended.alter after ?_
    rw [← client]
    exact Desk.Climbs.tell (ended place _ after) fun _ => rfl

private theorem Step.climbs (step : front.Step next) (sound : front.Sound) (climbs : front.Climbs) :
    next.Climbs := by
  cases step with
  | moved move => exact move.climbs sound climbs
  | received receipt =>
    exact climbs.record receipt.length_eq fun _ _ found =>
      goes_on (receipt.grows sound.ledger found) (receipt.advances sound.ledger found)

private theorem Steps.climbs (steps : Steps front last) (sound : front.Sound)
    (climbs : front.Climbs) : last.Climbs := by
  induction steps with
  | refl => exact climbs
  | tail earlier step ih => exact step.climbs (Steps.sound earlier sound) ih

end Front

namespace Node

variable (config : Config) (limits : OutputLimits) (identifiers : ℕ → QueryId)
  (operations : List Operation)

/-- In every run what clients are told of a tuple was read off its slot. -/
theorem climbs_performAll :
    ((start config limits identifiers).performAll operations).front.Climbs := by
  have ledger := sound_start config limits identifiers
  have sound := sound_front_performAll config limits identifiers []
  refine (steps_performAll ledger operations).climbs sound fun place session found => ?_
  exact absurd ((sessions_start config limits identifiers place).symm.trans found) (by simp)

/-- What any client is told of the progress of a tuple on behalf of a session was read off slots, each
of which grew to the next. -/
theorem read_told (place client tuple : ℕ) : ∃ history : List ProgressSlot,
    (((start config limits identifiers).performAll operations).told place client).filterMap
      (ClientEvent.progressOf? tuple) = history.map ProgressSlot.fraction ∧
    (∀ slot ∈ history, slot.Tracked) ∧ history.Pairwise ProgressSlot.Grows := by
  have sound := sound_front_performAll config limits identifiers operations
  have climbs := climbs_performAll config limits identifiers operations
  generalize (start config limits identifiers).performAll operations = node at sound climbs ⊢
  change ∃ history : List ProgressSlot, ((node.front.desks place).told client).filterMap _ = _ ∧ _
  have silent (quiet : (node.front.desks place).told client = []) :
      ∃ history : List ProgressSlot, ((node.front.desks place).told client).filterMap
          (ClientEvent.progressOf? tuple) = history.map ProgressSlot.fraction ∧
        (∀ slot ∈ history, slot.Tracked) ∧ history.Pairwise ProgressSlot.Grows :=
    ⟨[], by rw [quiet]; rfl, by simp, .nil⟩
  cases present : node.front.ledger.sessions[place]? with
  | none =>
    refine silent ?_
    rw [sound.blank place present]
    rfl
  | some session =>
    by_cases same : client = session.client
    · subst same
      obtain ⟨history, read, tracked, ordered⟩ :=
        Session.Climbs.of_append (climbs place session present) tuple
      exact ⟨history, read, tracked, (List.pairwise_append.mp ordered).1⟩
    · exact silent ((sound.desks place session present).elsewhere client same)

/-- Progress fractions are sound. Whatever calls are made on a slot, taken or refused, the sums are
exact, the ratio of scanned rows lies between zero and one and is one exactly when all rows are
scanned, no later call lowers it, and all this holds of the double that is reported as well. And so
what a client is told of the progress of a tuple, in any run, was read off slots of which each is no
less than those before, and the doubles that it receives never decrease. -/
theorem fractions_sound :
    (∀ calls : List RowCall,
      (ProgressSlot.fresh.performed calls).SoundFraction ∧
      ∀ more, (ProgressSlot.fresh.performed calls).NoLess
        ((ProgressSlot.fresh.performed calls).performed more)) ∧
    ∀ (config : Config) (limits : OutputLimits) (identifiers : ℕ → QueryId)
      (operations : List Operation) (place client tuple : ℕ) (told : List Float),
      (((start config limits identifiers).performAll operations).told place client).filterMap
        (ClientEvent.progressOf? tuple) = told →
      (∃ history : List ProgressSlot, told = history.map ProgressSlot.fraction ∧
        (∀ slot ∈ history, slot.SoundFraction) ∧ history.Pairwise ProgressSlot.NoLess) ∧
      (∀ fraction ∈ told, Decimal.isFinite fraction = true ∧ 0 ≤ Decimal.exactValue fraction ∧
        Decimal.exactValue fraction ≤ 1) ∧
      told.Pairwise fun earlier later =>
        Decimal.exactValue earlier ≤ Decimal.exactValue later := by
  constructor
  · intro calls
    have tracked := ProgressSlot.tracked_fresh.performed calls
    exact ⟨tracked.soundFraction, fun more =>
      (ProgressSlot.grows_performed tracked more).noLess tracked (tracked.performed more)⟩
  · rintro config limits identifiers operations place client tuple told rfl
    obtain ⟨history, same, tracked, ordered⟩ :=
      read_told config limits identifiers operations place client tuple
    rw [same]
    have noLess : history.Pairwise ProgressSlot.NoLess :=
      ordered.imp_of_mem fun first second grows =>
        grows.noLess (tracked _ first) (tracked _ second)
    have sound (slot : ProgressSlot) (member : slot ∈ history) :=
      (tracked slot member).soundFraction
    refine ⟨⟨history, rfl, sound, noLess⟩, ?_, List.pairwise_map.mpr (noLess.imp And.right)⟩
    intro fraction member
    obtain ⟨slot, past, rfl⟩ := List.mem_map.mp member
    exact ⟨(sound slot past).rounds.1, (sound slot past).fraction_nonneg,
      (sound slot past).fraction_le_one⟩

/-- Two of four rows and then three of them are told. -/
theorem fractions_sound_quarters : ∃ told : List Float,
    (((start (.ofParty .ph) (Config.ofParty .ph).outputLimits QueryId.numbered).performAll
      [.addClient "front" 8 0 false, .beginQuery 0 Session.oneCount true,
        .receivePartial ⟨QueryId.numbered 0, 0, [⟨.db1, some 2, 1⟩, ⟨.db2, some 2, 1⟩], []⟩,
        .run (.reporter 0),
        .receivePartial ⟨QueryId.numbered 0, 0, [⟨.db1, none, 1⟩], []⟩,
        .moveTo 10000, .run (.reporter 0)]).told 0 0).filterMap
      (ClientEvent.progressOf? 0) = told ∧
    told.map Decimal.magnitude = [⟨2 ^ 52, -53⟩, ⟨3 * 2 ^ 51, -53⟩] ∧
    told.Pairwise fun earlier later => Decimal.exactValue earlier ≤ Decimal.exactValue later := by
  obtain ⟨-, -, ordered⟩ := fractions_sound.2 (.ofParty .ph) (Config.ofParty .ph).outputLimits
    QueryId.numbered
    [.addClient "front" 8 0 false, .beginQuery 0 Session.oneCount true,
      .receivePartial ⟨QueryId.numbered 0, 0, [⟨.db1, some 2, 1⟩, ⟨.db2, some 2, 1⟩], []⟩,
      .run (.reporter 0),
      .receivePartial ⟨QueryId.numbered 0, 0, [⟨.db1, none, 1⟩], []⟩,
      .moveTo 10000, .run (.reporter 0)] 0 0 0 _ rfl
  exact ⟨_, rfl, by decide +kernel, ordered⟩

end Node

end JointQuery
