import JointQuery.Proofs.Node.Confined
import JointQuery.Proofs.Node.Working

/-! Sessions share a node, but what an operation does to sessions it does to those that it selects:
by an identifier, by the reference of a client, by their age, or by the task that it runs. -/
namespace JointQuery

namespace Node

/-- The session at a place is registered under its identifier, and has a property. -/
def InFlight (node : Node) (place : Nat) (property : Session → Prop) : Prop :=
  ∃ session, node.session? place = some session ∧
    node.registry.get? session.id = some place ∧ property session

/-- A session is older than sessions get. -/
def Outlived (node : Node) (session : Session) : Prop :=
  isExpired node.wall (lifetimeMs node.config.maxSessionLifetimeSecs) session.createdAt = true

/-- The sessions that an operation selects. -/
def Selects (node : Node) (place : Nat) : Operation → Prop
  | .receivePartial event => node.InFlight place (·.id = event.queryId)
  | .cancel id => node.InFlight place (·.id = id)
  | .beginCancel client id => node.InFlight place fun session =>
      session.id = id ∧ session.clientRef = node.clientRef client
  | .clientLeft ref => node.InFlight place (·.clientRef = ref)
  | .expire => node.InFlight place node.Outlived
  | .run .sweeper => (∃ due, node.sweepDue = some due ∧ due ≤ node.now) ∧
      node.InFlight place node.Outlived
  | .loseClient index => place = index
  | .terminate index _ _ => place = index
  | .run (.fanOut index) => place = index
  | .run (.sender index _) => place = index
  | .run (.reporter index) => place = index
  | .run (.request index) => node.Awaits index place
  | _ => False

/-- No operation of a run selects the session at a place. -/
def Skips (node : Node) (place : Nat) : List Operation → Prop
  | [] => True
  | operation :: rest => ¬ node.Selects place operation ∧ (node.perform operation).Skips place rest

/-- The sessions in flight with a property have ended and are registered no more. They are as many
as the result says. -/
def Retires (node : Node) (property : Session → Prop) (target : SessionState)
    (result : Node × Nat) : Prop :=
  ∃ places : List Nat, places.Nodup ∧ (∀ place, place ∈ places ↔ node.InFlight place property) ∧
    result.2 = places.length ∧
    ∀ place ∈ places, ∀ session, node.session? place = some session →
      result.1.session? place = some { session with state := target, changed := true } ∧
      result.1.registry.contains session.id = false

variable {places : Set Nat} {opens : Prop} {node after : Node} {place index : Nat}

/-! ## What is selected -/

private theorem inFlight_of_held (sound : node.ledger.Sound) {id : QueryId} {session : Session}
    (held : node.ledger.registry.get? id = some place)
    (present : node.ledger.sessions[place]? = some session) {property : Session → Prop}
    (holds : property session) : node.InFlight place property := by
  obtain ⟨named, -⟩ := sound.live_of_held held present
  exact ⟨session, (node.session?_eq place).trans present, by rw [named]; exact held, holds⟩

theorem inFlight_of_find? (sound : node.ledger.Sound) {id : QueryId} {session : Session}
    (sought : node.find? id = some (place, session)) {property : Session → Prop}
    (holds : session.id = id → property session) : node.InFlight place property := by
  obtain ⟨held, present⟩ := find?_eq_some_iff.mp sought
  exact inFlight_of_held sound held present (holds (sound.live_of_held held present).1)

private theorem mem_registered_iff (sound : node.ledger.Sound) (property : Session → Bool) :
    place ∈ node.registered property ↔ node.InFlight place (property · = true) := by
  simp only [registered, Registry.select, List.mem_filter, List.mem_map, Option.any_eq_true]
  constructor
  · rintro ⟨⟨⟨id, other⟩, member, rfl⟩, session, present, holds⟩
    have held := sound.distinct.get?_eq_some_iff.mpr member
    exact inFlight_of_held sound held ((node.session?_eq other).symm.trans present) holds
  · rintro ⟨session, present, held, holds⟩
    exact ⟨⟨_, Registry.mem_of_get? held, rfl⟩, session, present, holds⟩

/-- A place is registered under one identifier only. -/
theorem nodup_registered (sound : node.ledger.Sound) (property : Session → Bool) :
    (node.registered property).Nodup := by
  have entries : node.registry.entries.Nodup := List.Nodup.of_map _ sound.distinct
  refine List.Nodup.filter _ (entries.map_on ?_)
  rintro ⟨id, place⟩ one ⟨other, _⟩ two rfl
  obtain ⟨session, present, named, -⟩ := (sound.registered id place).mp one
  obtain ⟨again, found, known, -⟩ := (sound.registered other place).mp two
  obtain rfl := Option.some.inj (present.symm.trans found)
  rw [← named, ← known]

/-- Whether the session at a place is registered can be seen from the session. -/
theorem registered_alike (sound : node.ledger.Sound) (still : after.ledger.Sound)
    (same : after.flights[place]? = node.flights[place]?) (id : QueryId) :
    after.registry.get? id = some place ↔ node.registry.get? id = some place := by
  have sessions : after.ledger.sessions[place]? = node.ledger.sessions[place]? := by
    rw [← session?_eq, ← session?_eq, session?, session?, same]
  have now : after.registry.get? id = some place ↔ (id, place) ∈ after.ledger.registry.entries :=
    still.distinct.get?_eq_some_iff
  have before : node.registry.get? id = some place ↔ (id, place) ∈ node.ledger.registry.entries :=
    sound.distinct.get?_eq_some_iff
  rw [now, before, still.registered, sound.registered, sessions]

/-! ## What is done -/

/-- Whatever is known of the sessions that an operation involves is why it selects them. -/
theorem selects_of_involved (sound : node.ledger.Sound) {operation : Operation}
    (member : place ∈ node.involved operation) : node.Selects place operation := by
  have outlived (member : place ∈ node.overaged) : node.InFlight place node.Outlived :=
    (mem_registered_iff sound _).mp member
  cases operation with
  | receivePartial event =>
    obtain ⟨session, sought⟩ := member
    exact inFlight_of_find? sound sought id
  | cancel id =>
    obtain ⟨session, sought⟩ := member
    exact inFlight_of_find? sound sought fun named => named
  | beginCancel client id =>
    obtain ⟨session, sought, owned⟩ := member
    exact inFlight_of_find? sound sought fun named => ⟨named, owned⟩
  | clientLeft ref =>
    simpa only [Selects, beq_iff_eq] using (mem_registered_iff sound _).mp member
  | expire => exact outlived member
  | loseClient | terminate => exact member
  | run task =>
    cases task with
    | sweeper =>
      obtain ⟨due, sweeps, reached, old⟩ := member
      exact ⟨⟨due, sweeps, reached⟩, outlived old⟩
    | fanOut | sender | reporter | request => exact member
    | writer | post | delivery | reservation => exact member.elim
  | _ => exact member.elim

/-- An operation does nothing but to the sessions that it selects, and to a new one if it may open
one. -/
theorem confined_perform (sound : node.ledger.Sound) (operation : Operation) :
    node.Confined {place | node.Selects place operation ∨ place = node.flights.length}
      operation.opens (node.perform operation) := by
  have admits : (amid {place | node.Selects place operation ∨ place = node.flights.length}
      operation.opens).Admits node operation := {
    shown := trivial
    opens := fun opens => ⟨opens, .inr rfl⟩
    places := fun _ member => .inl (selects_of_involved sound member)
    tasks := fun _ _ => trivial
    parties := fun _ _ => trivial
    shares := fun _ _ _ _ _ _ => trivial }
  cases operation with
  | run task =>
    have begun : node.Confined {place | node.Selects place (.run task) ∨
        place = node.flights.length} (Operation.run task).opens
        { node with agenda := { node.agenda with ready := node.agenda.ready.erase task } } :=
      confined_of_same rfl rfl
    exact begun.trans (confined_of_edits (edits_poll ⟨trivial, admits.opens, admits.places,
      admits.tasks, admits.parties, fun _ _ _ _ _ _ => trivial⟩))
  | moveTo => exact confined_of_same rfl rfl
  | _ => exact confined_of_edits (edits_perform admits (by simp) (by simp))

/-- A session that is not selected stays, with all that is done for it, and is registered if it
was. -/
theorem unselected_perform (sound : node.ledger.Sound) {flight : Flight}
    (held : node.flights[place]? = some flight) {operation : Operation}
    (unselected : ¬ node.Selects place operation) :
    (node.perform operation).flights[place]? = some flight ∧
      ∀ id, (node.perform operation).registry.get? id = some place ↔
        node.registry.get? id = some place := by
  have outside : ¬ (node.Selects place operation ∨ place = node.flights.length) := by
    have inside := (List.getElem?_eq_some_iff.mp held).1
    exact not_or.mpr ⟨unselected, Nat.ne_of_lt inside⟩
  have same := (confined_perform sound operation).flights place outside
  exact ⟨same.trans held, registered_alike sound
    ((steps_perform sound operation).sound_ledger sound) same⟩

private theorem unselected_performAll (sound : node.ledger.Sound) {flight : Flight}
    (held : node.flights[place]? = some flight) {operations : List Operation}
    (skips : node.Skips place operations) :
    (node.performAll operations).flights[place]? = some flight ∧
      ∀ id, (node.performAll operations).registry.get? id = some place ↔
        node.registry.get? id = some place := by
  induction operations generalizing node with
  | nil => exact ⟨held, fun _ => .rfl⟩
  | cons operation rest ih =>
    obtain ⟨unselected, later⟩ := skips
    obtain ⟨still, registered⟩ := unselected_perform sound held unselected
    obtain ⟨stays, kept⟩ := ih ((steps_perform sound operation).sound_ledger sound) still later
    exact ⟨stays, fun id => (kept id).trans (registered id)⟩

/-! ## Many at once -/

/-- Live sessions end one after another, whatever is told about them. -/
theorem terminateAll_of_live {indices : List Nat} (distinct : indices.Nodup)
    (live : ∀ index ∈ indices, ∃ session, node.session? index = some session ∧
      session.isTerminal = false) {target : SessionState} (final : target.isTerminal = true)
    (cause : Nat → Option QueryError) :
    (node.terminateAll target cause indices).2 = indices.length ∧
      ∀ index ∈ indices, ∀ session, node.session? index = some session →
        (node.terminateAll target cause indices).1.session? index =
          some { session with state := target, changed := true } := by
  induction indices generalizing node with
  | nil => exact ⟨rfl, by simp⟩
  | cons index rest ih =>
    obtain ⟨absent, others⟩ := List.nodup_cons.mp distinct
    obtain ⟨session, present, begun⟩ := live index List.mem_cons_self
    obtain ⟨wins, ends⟩ := finish_of_live present begun target
    have chosen : index ∈ ({index} : Set Nat) := rfl
    have first : node.Confined {index} False (node.terminate index target (cause index)).1 :=
      confined_of_edits (edits_terminate trivial chosen final)
    have unlike (other : Nat) (member : other ∈ rest) :
        (node.terminate index target (cause index)).1.session? other = node.session? other := by
      have outside : other ≠ index := fun same => absent (same ▸ member)
      rw [session?, session?, first.flights other outside]
    have alive : ∀ other ∈ rest, ∃ session,
        (node.terminate index target (cause index)).1.session? other = some session ∧
          session.isTerminal = false := by
      intro other member
      rw [unlike other member]
      exact live other (List.mem_cons_of_mem _ member)
    obtain ⟨count, ended⟩ := ih others alive
    have counted := node.terminate_snd index target (cause index)
    constructor
    · simp only [terminateAll, counted, wins, count, if_pos, List.length_cons]
    · intro other member before found
      rcases List.mem_cons.mp member with rfl | later
      · obtain rfl := Option.some.inj (present.symm.trans found)
        have after : (node.terminate other target (cause other)).1.session? other =
            some { session with state := target, changed := true } := by
          rw [session?_eq, terminate_fst, ← session?_eq, session?_of_front ends,
            Session.finish_of_live begun]
          exact Ledger.sessions_put_self ((node.session?_eq other).symm.trans present) _
        have stays : Confined {place | place ∈ rest} False _
            ((node.terminate other target (cause other)).1.terminateAll target cause rest).1 :=
          confined_of_edits (edits_terminateAll trivial (fun _ => id) final)
        simp only [terminateAll]
        rw [session?, stays.flights other absent]
        exact after
      · exact ended other later before ((unlike other later).trans found)

/-- The sessions in flight with a property end, whoever is marked as gone before that. -/
theorem retires_terminateAll {marked : Node} (sound : node.ledger.Sound)
    (same : marked.ledger = node.ledger) (property : Session → Bool) (ending : Ending)
    (cause : Nat → Option QueryError) :
    node.Retires (property · = true) ending.state
      (marked.terminateAll ending.state cause (node.registered property)) := by
  have sessions (place : Nat) : marked.session? place = node.session? place := by
    rw [session?_eq, session?_eq, same]
  have live : ∀ place ∈ node.registered property, ∃ session,
      marked.session? place = some session ∧ session.isTerminal = false := by
    intro place member
    obtain ⟨session, present, held, -⟩ := (mem_registered_iff sound property).mp member
    have found := (node.session?_eq place).symm.trans present
    exact ⟨session, (sessions place).trans present, (sound.get?_eq_some_iff found).mp held⟩
  have distinct := nodup_registered sound property
  have kept : marked.front.ledger.Sound := by
    rw [show marked.front.ledger = node.ledger from same]
    exact sound
  obtain ⟨count, ended⟩ := terminateAll_of_live distinct live ending.isTerminal_state cause
  have still := (marked.moves_terminateAll cause (node.registered property) ending.isTerminal_state
    ending.state_ne_completed).steps.sound_ledger kept
  have others : marked.Confined {place | place ∈ node.registered property} False
      (marked.terminateAll ending.state cause (node.registered property)).1 :=
    confined_of_edits (edits_terminateAll trivial (fun _ => id) ending.isTerminal_state)
  generalize marked.terminateAll ending.state cause (node.registered property) = result at *
  refine ⟨node.registered property, distinct, fun place => mem_registered_iff sound property, count,
    fun place member session present => ?_⟩
  refine ⟨ended place member session ((sessions place).trans present), ?_⟩
  by_contra known
  rw [Bool.not_eq_false] at known
  obtain ⟨other, held⟩ := Option.isSome_iff_exists.mp known
  obtain ⟨found, there, named, alive⟩ :=
    (still.registered session.id other).mp (Registry.mem_of_get? held)
  have unselected : other ∉ node.registered property := by
    intro selected
    obtain ⟨before, here, -⟩ := live other selected
    have final := (session?_eq ..).symm.trans (ended other selected before here)
    obtain rfl := Option.some.inj (there.symm.trans final)
    simp [Session.isTerminal, ending.isTerminal_state] at alive
  have before : node.ledger.sessions[other]? = some found := by
    rw [← session?_eq, ← sessions, session?, ← others.flights other unselected]
    exact (session?_eq ..).trans there
  have again := sound.distinct.get?_eq_some_iff.mpr
    ((sound.registered session.id other).mpr ⟨found, before, named, alive⟩)
  obtain ⟨same, now, once, -⟩ := (mem_registered_iff sound property).mp member
  obtain rfl := Option.some.inj (present.symm.trans now)
  exact unselected (Option.some.inj (once.symm.trans again) ▸ member)

theorem retires_clientLeft (sound : node.ledger.Sound) (ref : String) :
    node.Retires (·.clientRef = ref) .cancelled (node.clientLeft ref) := by
  have marked := congrArg Front.ledger
    (node.front_markClientsGone (node.registered (·.clientRef == ref)))
  have retires := retires_terminateAll sound marked (·.clientRef == ref) .cancelled fun _ => none
  simp only [beq_iff_eq] at retires
  exact retires

/-- Operations do something to no sessions but to those that they select, in every run. Any other
session stays as it is, with all that is done for it, and is registered if it was. A partial result
whose identifier is not registered has no effect at all. When a client has left, exactly the
sessions in flight of its reference end, and when sessions expire, exactly those that have outlived
their time; either says how many. -/
theorem selected_only (config : Config) (limits : OutputLimits) (identifiers : Nat → QueryId)
    (earlier : List Operation) (node : Node)
    (reached : (start config limits identifiers).performAll earlier = node) :
    (∀ operation place flight, node.flights[place]? = some flight →
      ¬ node.Selects place operation →
      (node.perform operation).flights[place]? = some flight ∧
      ∀ id, (node.perform operation).registry.get? id = some place ↔
        node.registry.get? id = some place) ∧
    (∀ later place flight, node.flights[place]? = some flight → node.Skips place later →
      (node.performAll later).flights[place]? = some flight ∧
      ∀ id, (node.performAll later).registry.get? id = some place ↔
        node.registry.get? id = some place) ∧
    (∀ event, node.registry.contains event.queryId = false →
      node.receivePartial event = (node, .error (unknownQuery event.queryId))) ∧
    (∀ ref, node.Retires (·.clientRef = ref) .cancelled (node.clientLeft ref)) ∧
    node.Retires node.Outlived .timedOut node.expire := by
  have sound : node.ledger.Sound := reached ▸ sound_performAll config limits identifiers earlier
  refine ⟨fun operation place flight held => unselected_perform sound held,
    fun later place flight held => unselected_performAll sound held, fun event unknown => ?_,
    retires_clientLeft sound, retires_terminateAll sound rfl _ .timedOut _⟩
  have absent : node.find? event.queryId = none := by
    simp [find?, Option.not_isSome_iff_eq_none.mp (Bool.not_eq_true _ ▸ unknown)]
  simp only [receivePartial, absent]

/-- When the first of two clients leaves, the session of the second stays in flight. -/
theorem selected_only_other : ∃ node flight,
    (start (.ofParty .ph) (Config.ofParty .ph).outputLimits QueryId.numbered).performAll
      [.addClient "front" 8 0 false, .addClient "back" 8 0 false,
        .beginQuery 0 Session.oneCount true, .beginQuery 1 Session.oneCount true] = node ∧
    node.flights[1]? = some flight ∧
    (node.perform (.clientLeft "front")).flights[1]? = some flight ∧
    (node.perform (.clientLeft "front")).registry.get? flight.session.id = some 1 := by
  obtain ⟨alone, -⟩ := selected_only (.ofParty .ph) (Config.ofParty .ph).outputLimits
    QueryId.numbered [.addClient "front" 8 0 false, .addClient "back" 8 0 false,
      .beginQuery 0 Session.oneCount true, .beginQuery 1 Session.oneCount true] _ rfl
  have kept := alone (.clientLeft "front") 1 _ rfl <| by
    rintro ⟨session, present, -, left⟩
    cases present
    exact absurd left (by decide)
  exact ⟨_, _, rfl, rfl, kept.1, (kept.2 _).mpr rfl⟩

end Node

end JointQuery
