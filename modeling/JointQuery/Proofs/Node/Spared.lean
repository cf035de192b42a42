import JointQuery.Proofs.Node.Serving

/-! A party that nothing happens to is served whatever happens to the others. Its channel stays open,
its bytes come back, and whatever there is to do toward it can be done; so when nothing can be done
any more, every session that is under way has been brought to it. -/
namespace JointQuery

namespace Node

/-- The way to a party is clear: it can be dialed, and takes what is written. -/
structure Clear (node : Node) (party : Party) : Prop where
  found : ∃ endpoint, node.directory.find? party = some endpoint
  accepts : (node.links.get party).refused = false
  works : (node.links.get party).broken = false
  takes : (node.links.get party).stalled = false
  listening : node.listening = true
  dialed : (node.pooled.get party = none ∧ (node.links.get party).attempts = 0) ∨
    (∃ index, node.pooled.get party = some index) ∧ (node.links.get party).attempts = 1
  opened : ∀ (index : Nat) (channel : Channel), node.channels[index]? = some channel →
    channel.party = party → channel.isOpen = true

/-- How a session stands with a party to which the way is clear. Its sender only fails with the
session; it is started with the others, tries at once, and is in line for bytes when it waits. -/
structure Tended (node : Node) (party : Party) (place : Nat) (flight : Flight) : Prop where
  failed : ∀ cause, flight.senders.get party = .ended (.error cause) →
    flight.session.isTerminal = true
  begun : flight.fanOut.isBegun = true → flight.senders.get party ≠ .unstarted
  idle : flight.fanOut = .unstarted →
    flight.session.state = .created ∨ flight.session.isTerminal = true
  due : ∀ backoff due, flight.senders.get party = .pausing backoff due → due ≤ node.now
  parked : ∀ backoff index, flight.senders.get party = .parked backoff index →
    node.InLine party (.sender place party)

/-- Every session stands with a party as it should. -/
def Tends (node : Node) (party : Party) : Prop :=
  ∀ place flight, node.flights[place]? = some flight → node.Tended party place flight

/-- What there is to do toward a party can be done. -/
def Alert (node : Node) (party : Party) : Prop :=
  ∀ task, node.Due party task → task ∈ node.agenda.ready

variable {party : Party} {node middle after : Node} {index place : Nat} {channel : Channel}
  {task : TaskId} {flight next : Flight} {bound : Nat}

/-! ## What happens elsewhere -/

theorem Clear.apart (clear : node.Clear party) (apart : node.Apart party after) :
    after.Clear party where
  found := apart.directory ▸ clear.found
  accepts := apart.link ▸ clear.accepts
  works := apart.link ▸ clear.works
  takes := apart.link ▸ clear.takes
  listening := apart.listening ▸ clear.listening
  dialed := apart.link ▸ apart.pooled ▸ clear.dialed
  opened index channel held toward :=
    clear.opened index channel ((apart.channels index channel toward).mp held) toward

private theorem Tended.goesOn {ready : List TaskId} (tended : node.Tended party place flight)
    (goes : flight.GoesOn party ready place next) (now : node.now ≤ after.now)
    (line : node.InLine party (.sender place party) → after.InLine party (.sender place party)) :
    after.Tended party place next where
  failed cause ended := goes.ended (tended.failed cause (goes.sender ▸ ended))
  begun begun := by
    rw [goes.sender]
    rcases goes.fanOut with ⟨same, -⟩ | ⟨starting, -⟩ | ⟨before, -⟩
    · exact tended.begun (same ▸ begun)
    · simp [starting, FanOut.isBegun] at begun
    · exact tended.begun before
  idle unstarted := by
    rcases goes.fanOut with ⟨same, state⟩ | ⟨starting, -⟩ | ⟨-, begun⟩
    · rcases state with kept | final
      · exact (tended.idle (same.symm.trans unstarted)).imp kept.trans goes.ended
      · exact .inr final
    · exact absurd (starting.symm.trans unstarted) (by simp)
    · simp [unstarted, FanOut.isBegun] at begun
  due backoff due pausing := Nat.le_trans (tended.due backoff due (goes.sender ▸ pausing)) now
  parked backoff index parked := line (tended.parked backoff index (goes.sender ▸ parked))

private theorem Tended.keeps (tended : node.Tended party place flight) (now : node.now ≤ after.now)
    (line : node.InLine party (.sender place party) → after.InLine party (.sender place party)) :
    after.Tended party place flight :=
  have same : flight.GoesOn party [] place flight := .refl flight
  tended.goesOn same now line

private theorem tended_fresh (node : Node) (party : Party) (place : Nat) {session : Session}
    (created : session.state = .created) : node.Tended party place (.fresh session) := by
  have unstarted : (Flight.fresh session).senders.get party = .unstarted := by cases party <;> rfl
  refine ⟨fun cause ended => ?_, fun begun => ?_, fun _ => .inl created,
    fun backoff due pausing => ?_, fun backoff index parked => ?_⟩
  · simp [unstarted] at ended
  · simp [Flight.fresh, FanOut.isBegun] at begun
  · simp [unstarted] at pausing
  · simp [unstarted] at parked

theorem Tends.apart (tends : node.Tends party) (apart : node.Apart party after) :
    after.Tends party := by
  have now : node.now ≤ after.now := Nat.le_of_eq apart.agenda.now.symm
  have line (task : TaskId) (waits : node.InLine party task) : after.InLine party task := by
    unfold InLine at waits ⊢
    rwa [apart.budget]
  intro place next found
  rcases apart.grown found with ⟨flight, held, goes⟩ | ⟨session, created, goes⟩
  · exact (tends place flight held).goesOn goes now (line _)
  · exact (tended_fresh node party place created).goesOn goes now (line _)

theorem Tends.of_same (tends : node.Tends party) (flights : after.flights = node.flights)
    (budgets : after.budgets = node.budgets) (now : node.now ≤ after.now) : after.Tends party := by
  intro place flight held
  refine (tends place flight (flights ▸ held)).keeps now fun waits => ?_
  unfold InLine at waits ⊢
  rwa [budgets]

/-! ## What is done toward the party -/

theorem Clear.serves (clear : node.Clear party) (serves : node.Serves party task after) :
    after.Clear party where
  found := serves.directory ▸ clear.found
  accepts := serves.links ▸ clear.accepts
  works := serves.links ▸ clear.works
  takes := serves.links ▸ clear.takes
  listening := serves.listening ▸ clear.listening
  dialed := serves.links ▸ serves.pooled ▸ clear.dialed
  opened index next held toward := by
    obtain ⟨channel, present, leads, same⟩ := serves.channels index next held toward
    exact same.trans (clear.opened index channel present leads)

/-- Whoever else waits is in line still. -/
theorem Tended.serves (tended : node.Tended party place flight)
    (serves : node.Serves party task after) (differs : .sender place party ≠ task) :
    after.Tended party place flight :=
  tended.keeps (Nat.le_of_eq serves.now.symm) (serves.line _ differs)

theorem Tends.serves (tends : node.Tends party) (serves : node.Serves party task after)
    (differs : ∀ place, .sender place party ≠ task) : after.Tends party := fun place flight held =>
  (tends place flight (serves.flights ▸ held)).serves serves (differs place)

/-- A task has run, and the party is as well off as before. The task could not do more. -/
structure Fares (party : Party) (task : TaskId) (node after : Node) : Prop where
  clear : after.Clear party
  tends : after.Tends party
  rouses : node.Rouses party after
  done : after.Due party task → task ∈ after.agenda.ready

private theorem Fares.head (fares : middle.Fares party task after)
    (rouses : node.Rouses party middle) : node.Fares party task after :=
  { fares with rouses := rouses.trans fares.rouses }

/-- Nothing was done toward the party, and there was nothing that the task could do. -/
theorem fares_of_apart (clear : node.Clear party) (tends : node.Tends party)
    (apart : node.Apart party after) (nothing : ¬ node.Due party task) :
    node.Fares party task after where
  clear := clear.apart apart
  tends := tends.apart apart
  rouses := apart.rouses
  done due := (apart.rouses.due task due).resolve_left nothing

/-- Whoever waits for nothing is not in line. -/
theorem not_inLine (balances : node.Balances party bound)
    (idle : ∀ want, ¬ node.Waits party bound task want) : ¬ node.InLine party task := by
  rintro ⟨waiter, member, named⟩
  exact idle waiter.want
    (balances.waits task waiter.want (Budget.mem_line.mpr ⟨waiter, member, named, rfl⟩))

private theorem unserved_of_not_inLine (absent : ¬ node.InLine party task) :
    node.Unserved party task :=
  fun waiter member named => absurd ⟨waiter, member, named⟩ absent

/-! ## The channel of the party -/

private theorem clear_dial (clear : node.Clear party) (never : (node.links.get party).attempts = 0)
    {endpoint : Endpoint} (named : endpoint.party = party) :
    (node.dial endpoint).1.Clear party ∧ node.Rouses party (node.dial endpoint).1 ∧
      (node.dial endpoint).1.flights = node.flights ∧
      (node.dial endpoint).1.budgets = node.budgets ∧ (node.dial endpoint).1.now = node.now ∧
      (node.dial endpoint).2 = .ok node.channels.length ∧
      (node.dial endpoint).1.channels = node.channels ++ [.fresh party] := by
  subst named
  unfold dial
  dsimp only
  rw [if_neg (by simp [clear.accepts])]
  have place (index : Nat) (channel : Channel)
      (held : (node.channels ++ [.fresh endpoint.party])[index]? = some channel) :
      node.channels[index]? = some channel ∨ channel = .fresh endpoint.party := by
    by_cases last : index = node.channels.length
    · simp only [last, List.getElem?_concat_length, Option.some.injEq] at held
      exact .inr held.symm
    · rw [getElem?_concat_of_ne last] at held
      exact .inl held
  refine ⟨?_, ⟨?_, fun task due => ?_⟩, rfl, rfl, ?_, rfl, rfl⟩
  · refine ⟨clear.found, ?_, ?_, ?_, clear.listening, .inr ⟨⟨node.channels.length, ?_⟩, ?_⟩,
      fun index channel held toward => ?_⟩
    · simp [wake, modifyLink, PerParty.modify, clear.accepts]
    · simp [wake, modifyLink, PerParty.modify]
    · simp [wake, modifyLink, PerParty.modify, clear.takes]
    · simp [wake, modifyLink, PerParty.modify]
    · simp [wake, modifyLink, PerParty.modify, never]
    · rcases place index channel held with before | rfl
      · exact clear.opened index channel before toward
      · rfl
  · exact (node.agenda.extends_wake _).ready
  · cases due with
    | served member full => exact .inl (.served member full)
    | starts held starting => exact .inl (.starts held starting)
    | tries held pausing => exact .inl (.tries held pausing)
    | @writes index channel held toward pending =>
      rcases place index channel held with before | rfl
      · exact .inl (.writes before toward pending)
      · exact absurd rfl pending
  · exact (node.agenda.extends_wake _).now

/-- A party is dialed once. -/
theorem clear_acquire (clear : node.Clear party) (pools : node.Pools) :
    (node.acquire party).1.Clear party ∧ node.Rouses party (node.acquire party).1 ∧
      (node.acquire party).1.flights = node.flights ∧
      (node.acquire party).1.budgets = node.budgets ∧ (node.acquire party).1.now = node.now ∧
      ∃ index channel, (node.acquire party).2 = .ok index ∧
        (node.acquire party).1.channels[index]? = some channel ∧ channel.party = party ∧
        channel.isOpen = true := by
  obtain ⟨endpoint, found⟩ := clear.found
  unfold acquire
  rw [found]
  dsimp only
  rcases clear.dialed with ⟨absent, never⟩ | ⟨⟨index, shared⟩, once⟩
  · have closed : node.openChannel? party = none := by
      unfold openChannel?
      rw [absent]
      rfl
    obtain ⟨reached, rouses, flights, budgets, now, dialed, channels⟩ :=
      clear_dial clear never (Directory.party_of_find? found)
    rw [closed]
    refine ⟨reached, rouses, flights, budgets, now, _, .fresh party, dialed, ?_, rfl, rfl⟩
    rw [channels, List.getElem?_concat_length]
  · obtain ⟨channel, held, toward⟩ := pools party index shared
    have opened := clear.opened index channel held toward
    have same : node.openChannel? party = some index := by
      unfold openChannel? isOpenAt
      rw [shared]
      simp [held, opened]
    rw [same]
    exact ⟨clear, .refl party node, rfl, rfl, rfl, index, channel, rfl, held, toward, opened⟩

/-! ## Senders -/

/-- A session has been modified by a task of its own, which could not do more. Its sender to the
party can run if it has still to try. -/
theorem fares_moved {f : Flight → Flight} (clear : node.Clear party)
    (held : node.flights[place]? = some flight)
    (others : ∀ other found, other ≠ place → node.flights[other]? = some found →
      node.Tended party other found)
    (own : task = .sender place party ∨ task = .fanOut place)
    (same : after.ports = node.ports) (flights : after.flights = (node.modifyFlight place f).flights)
    (agenda : node.agenda.Extends after.agenda) (tended : node.Tended party place (f flight))
    (starting : (f flight).fanOut = .starting → flight.fanOut = .starting ∧ task ≠ .fanOut place)
    (tries : ∀ backoff due, (f flight).senders.get party = .pausing backoff due →
      .sender place party ∈ after.agenda.ready)
    (unserved : node.Unserved party task) : Fares party task node after := by
  simp only [ports, Ports.mk.injEq] at same
  obtain ⟨directory, links, listening, budgets, channels, pooled, -, -⟩ := same
  have placed (other : Nat) (found : Flight) (present : after.flights[other]? = some found) :
      (other = place ∧ found = f flight) ∨
        (other ≠ place ∧ node.flights[other]? = some found) := by
    rw [flights, flights_modifyFlight held] at present
    split at present
    · rename_i here
      exact .inl ⟨here, (Option.some.inj present).symm⟩
    · rename_i differs
      exact .inr ⟨differs, present⟩
  refine ⟨⟨directory ▸ clear.found, links ▸ clear.accepts, links ▸ clear.works, links ▸ clear.takes,
    listening ▸ clear.listening, links ▸ pooled ▸ clear.dialed, channels ▸ clear.opened⟩,
    fun other found present => ?_, ⟨agenda.ready, fun other due => ?_⟩, fun due => ?_⟩
  · have kept : node.Tended party other found := by
      rcases placed other found present with ⟨rfl, rfl⟩ | ⟨differs, before⟩
      · exact tended
      · exact others other found differs before
    refine kept.keeps (Nat.le_of_eq agenda.now.symm) fun waits => ?_
    unfold InLine at waits ⊢
    rwa [budgets]
  · cases due with
    | served member full => exact .inl (.served (budgets ▸ member) full)
    | writes held toward pending => exact .inl (.writes (channels ▸ held) toward pending)
    | starts present begins =>
      rcases placed _ _ present with ⟨rfl, rfl⟩ | ⟨-, before⟩
      · exact .inl (.starts held (starting begins).1)
      · exact .inl (.starts before begins)
    | tries present pausing =>
      rcases placed _ _ present with ⟨rfl, rfl⟩ | ⟨-, before⟩
      · exact .inr (tries _ _ pausing)
      · exact .inl (.tries before pausing)
  · cases due with
    | served member full => exact absurd full (unserved _ (budgets ▸ member) rfl)
    | writes => simp at own
    | starts present begins =>
      rcases placed _ _ present with ⟨rfl, rfl⟩ | ⟨differs, -⟩
      · exact absurd rfl (starting begins).2
      · simp [differs] at own
    | tries present pausing =>
      rcases placed _ _ present with ⟨rfl, rfl⟩ | ⟨differs, -⟩
      · exact tries _ _ pausing
      · simp [differs] at own

/-- A sender has ended, with its session or with its message on the channel. -/
theorem fares_endSender (clear : node.Clear party) (held : node.flights[place]? = some flight)
    (others : ∀ other found, other ≠ place → node.flights[other]? = some found →
      node.Tended party other found)
    (idle : flight.fanOut = .unstarted →
      flight.session.state = .created ∨ flight.session.isTerminal = true)
    (unserved : node.Unserved party (.sender place party)) (result : Except QueryError Unit)
    (fails : ∀ cause, result = .error cause → flight.session.isTerminal = true) :
    Fares party (.sender place party) node (node.endSender place party result) := by
  have sender : (flight.noteEnded party result).senders.get party = .ended result :=
    PerParty.get_set_self ..
  rw [endSender_eq]
  refine fares_moved (f := (·.noteEnded party result)) clear held others (.inl rfl) rfl rfl
    ((node.agenda.extends_cancelTimer ..).trans (Agenda.extends_wake ..)) ⟨?_, ?_, ?_, ?_, ?_⟩
    (fun starting => ⟨?_, by simp⟩) (by simp [sender]) unserved
  · intro cause failed
    exact fails cause (Sender.ended.inj (sender.symm.trans failed))
  · simp [sender]
  · intro unstarted
    rcases flight.fanOut_noteEnded party result with same | ⟨-, begun⟩
    · exact idle (same.symm.trans unstarted)
    · simp [unstarted, FanOut.isBegun] at begun
  · simp [sender]
  · simp [sender]
  · rcases flight.fanOut_noteEnded party result with same | ⟨-, begun⟩
    · exact same.symm.trans starting
    · simp [starting, FanOut.isBegun] at begun

/-- A sender waits in line for bytes. -/
theorem fares_park (clear : node.Clear party) (held : node.flights[place]? = some flight)
    (others : ∀ other found, other ≠ place → node.flights[other]? = some found →
      node.Tended party other found)
    (idle : flight.fanOut = .unstarted →
      flight.session.state = .created ∨ flight.session.isTerminal = true)
    (unserved : node.Unserved party (.sender place party))
    (line : node.InLine party (.sender place party)) (backoff : Backoff) (index : Nat) :
    Fares party (.sender place party) node (node.setSender place party (.parked backoff index)) := by
  have sender : (flight.senders.set party (.parked backoff index)).get party =
      .parked backoff index := PerParty.get_set_self ..
  refine fares_moved clear held others (.inl rfl) rfl rfl (.refl _)
    ⟨?_, ?_, idle, ?_, fun _ _ _ => line⟩ (fun starting => ⟨starting, by simp⟩) ?_ unserved <;>
    simp [sender]

/-- A sender has tried to send its message on the channel of the party. -/
theorem fares_settleSender {result : Node × Sending} (clear : node.Clear party)
    (tends : node.Tends party) (held : node.flights[place]? = some flight)
    (serves : node.Serves party (.sender place party) result.1)
    (unserved : result.1.Unserved party (.sender place party))
    (sent : result.2 = .sent ∨ result.2 = .parked ∧ result.1.InLine party (.sender place party))
    (backoff : Backoff) (index : Nat) : Fares party (.sender place party) node
      (result.1.settleSender place party backoff index result.2) := by
  have still : result.1.flights[place]? = some flight := serves.flights ▸ held
  have others (other : Nat) (found : Flight) (differs : other ≠ place)
      (present : result.1.flights[other]? = some found) : result.1.Tended party other found :=
    (tends other found (serves.flights ▸ present)).serves serves (by simpa using differs)
  have idle := (tends place flight held).idle
  refine Fares.head ?_ serves.toRouses
  rcases sent with sent | ⟨waits, line⟩
  · rw [sent]
    exact fares_endSender (clear.serves serves) still others idle unserved _ (by simp)
  · rw [waits]
    exact fares_park (clear.serves serves) still others idle unserved line backoff index

private theorem fares_attempt (clear : node.Clear party) (tends : node.Tends party)
    (pools : node.Pools) (held : node.flights[place]? = some flight)
    (absent : ¬ node.InLine party (.sender place party)) (backoff : Backoff)
    (message : PartyMessage) : Fares party (.sender place party) node
      (node.attempt place party backoff message) := by
  obtain ⟨reached, rouses, flights, budgets, now, index, channel, acquired, present, toward,
    opened⟩ := clear_acquire clear pools
  have tends' : (node.acquire party).1.Tends party :=
    tends.of_same flights budgets (Nat.le_of_eq now.symm)
  have absent' : ¬ (node.acquire party).1.InLine party (.sender place party) := by
    unfold InLine at absent ⊢
    rwa [budgets]
  obtain ⟨serves, unserved, sent⟩ := serves_send absent' present toward opened message
  have fares := fares_settleSender reached tends' (flights ▸ held) serves unserved sent backoff index
  unfold Node.attempt
  split <;> rename_i result <;> rw [result] at acquired rouses fares
  · cases acquired
  · obtain rfl := Except.ok.inj acquired
    exact fares.head rouses

/-- A sender that waits for bytes gives up, since its session has ended. -/
theorem fares_giveUp (clear : node.Clear party) (tends : node.Tends party)
    (sound : (node.budgets.get party).Sound) (held : node.flights[place]? = some flight)
    (final : flight.session.isTerminal = true) (cause : QueryError) :
    Fares party (.sender place party) node
      ((node.abandonBytes (.sender place party) party).endSender place party (.error cause)) := by
  obtain ⟨serves, unserved⟩ := serves_abandonBytes sound (.sender place party)
  refine (fares_endSender (clear.serves serves) (serves.flights ▸ held) ?_
    (tends place flight held).idle unserved _ fun _ _ => final).head serves.toRouses
  intro other found differs present
  exact (tends other found (serves.flights ▸ present)).serves serves (by simpa using differs)

/-- A sender that waits for bytes sends its message once it has them. -/
theorem fares_resume (clear : node.Clear party) (tends : node.Tends party)
    (sound : (node.budgets.get party).Sound) (held : node.flights[place]? = some flight)
    {backoff : Backoff} (parked : flight.senders.get party = .parked backoff index)
    (leads : node.LeadsTo index party) :
    Fares party (.sender place party) node
      ((node.resumeSend (.sender place party) index flight.session.startMessage).1.settleSender
        place party backoff index
        (node.resumeSend (.sender place party) index flight.session.startMessage).2) := by
  obtain ⟨channel, present, toward⟩ := leads
  have running := Channel.running_of_isOpen (clear.opened index channel present toward)
  obtain ⟨serves, unserved, sent⟩ := serves_resumeSend (.sender place party) sound present toward
    running flight.session.startMessage
  refine fares_settleSender clear tends held serves unserved (sent.imp_right ?_) backoff index
  rintro ⟨waits, same⟩
  exact ⟨waits, same.symm ▸ (tends place flight held).parked backoff index parked⟩

theorem fares_pollSender (clear : node.Clear party) (tends : node.Tends party)
    (balances : node.Balances party bound) (dispatches : node.Dispatches) (place : Nat) :
    Fares party (.sender place party) node (node.pollSender place party) := by
  have outside (unparked : ∀ flight backoff index, node.flights[place]? = some flight →
      flight.senders.get party ≠ .parked backoff index) :
      ¬ node.InLine party (.sender place party) := by
    refine not_inLine balances fun want waits => ?_
    obtain ⟨-, flight, backoff, index, held, parked, -⟩ := waits
    exact unparked flight backoff index held parked
  have still (quiet : ∀ flight backoff due, node.flights[place]? = some flight →
      flight.senders.get party ≠ .pausing backoff due) (absent : node.Unserved party
        (.sender place party)) : Fares party (.sender place party) node node := by
    refine fares_of_apart clear tends (.refl node) (not_due absent (by simp) ?_ (by simp))
    intro other found backoff due task present
    obtain ⟨rfl, -⟩ := TaskId.sender.inj task
    exact quiet found backoff due present
  unfold Node.pollSender
  split
  · rename_i missing
    exact still (by simp [missing]) (unserved_of_not_inLine (outside (by simp [missing])))
  · rename_i flight held
    have tended := tends place flight held
    have others (other : Nat) (found : Flight) (_ : other ≠ place)
        (present : node.flights[other]? = some found) : node.Tended party other found :=
      tends other found present
    have only (found : Flight) (present : node.flights[place]? = some found) : found = flight :=
      Option.some.inj (present.symm.trans held)
    dsimp only
    split
    · rename_i unstarted
      exact still (fun found _ _ present => by simp [only found present, unstarted])
        (unserved_of_not_inLine
          (outside fun found _ _ present => by simp [only found present, unstarted]))
    · rename_i ended
      exact still (fun found _ _ present => by simp [only found present, ended])
        (unserved_of_not_inLine
          (outside fun found _ _ present => by simp [only found present, ended]))
    · rename_i backoff due pausing
      have absent := outside fun found _ _ present => by simp [only found present, pausing]
      split
      · rename_i final
        exact fares_endSender clear held others tended.idle (unserved_of_not_inLine absent) _
          fun _ _ => final
      · rw [if_pos (tended.due backoff due pausing)]
        exact fares_attempt clear tends dispatches.pools held absent backoff _
    · rename_i backoff index parked
      split
      · rename_i final
        exact fares_giveUp clear tends balances.sound held final _
      · exact fares_resume clear tends balances.sound held parked
          (dispatches.parks place flight party backoff index held parked)

/-! ## Other tasks -/

/-- A task that is no sender has done something with the channels and the bytes of the party. -/
theorem fares_of_serves (clear : node.Clear party) (tends : node.Tends party)
    (serves : node.Serves party task after) (differs : ∀ place, .sender place party ≠ task)
    (done : ¬ after.Due party task) : Fares party task node after where
  clear := clear.serves serves
  tends := tends.serves serves differs
  rouses := serves.toRouses
  done due := absurd due done

/-- The senders of a session are started; the one to the party can try at once. -/
theorem fares_startSenders (clear : node.Clear party) (tends : node.Tends party)
    (held : node.flights[place]? = some flight) (unserved : node.Unserved party (.fanOut place))
    (listed : party ∈ node.directory.targets) :
    Fares party (.fanOut place) node (node.startSenders place node.directory.targets) := by
  have sender : (node.directory.targets.foldl (fun senders party =>
      senders.set party (.pausing node.config.senderBackoff node.now)) flight.senders).get party =
        .pausing node.config.senderBackoff node.now := by
    rw [get_foldl_set, if_pos listed]
  have tries := node.agenda.mem_wakeAll (List.mem_map_of_mem (f := (.sender place)) listed)
  rw [startSenders_eq]
  refine fares_moved clear held (fun other found _ present => tends other found present) (.inr rfl)
    rfl rfl (node.agenda.extends_wakeAll _) ⟨?_, ?_, ?_, fun backoff due pausing => ?_, ?_⟩ (by simp)
    (fun _ _ _ => tries) unserved
  · simp [sender]
  · simp [sender]
  · simp
  · simp only [sender, Sender.pausing.injEq] at pausing
    exact Nat.le_of_eq pausing.2.symm
  · simp [sender]

theorem fares_pollFanOut (clear : node.Clear party) (tends : node.Tends party)
    (balances : node.Balances party bound) (dispatches : node.Dispatches) (place : Nat) :
    Fares party (.fanOut place) node (node.pollFanOut place) := by
  have unserved : node.Unserved party (.fanOut place) :=
    unserved_of_not_inLine (not_inLine balances fun want waits => waits)
  have quiet (begun : ∀ flight, node.flights[place]? = some flight → flight.fanOut ≠ .starting) :
      ¬ node.Due party (.fanOut place) := by
    refine not_due unserved (fun other flight task held => ?_) (by simp) (by simp)
    obtain rfl := TaskId.fanOut.inj task
    exact begun flight held
  unfold Node.pollFanOut
  split
  · rename_i missing
    exact fares_of_apart clear tends (.refl node) (quiet (by simp [missing]))
  · rename_i flight held
    have only (found : Flight) (present : node.flights[place]? = some found) : found = flight :=
      Option.some.inj (present.symm.trans held)
    split
    · rename_i unstarted
      exact fares_of_apart clear tends (.refl node)
        (quiet fun found present => by simp [only found present, unstarted])
    · rename_i finished
      exact fares_of_apart clear tends (.refl node)
        (quiet fun found present => by simp [only found present, finished])
    · exact fares_startSenders clear tends held unserved (dispatches.everyone party)
    · rename_i ended joining
      exact fares_of_apart clear tends (apart_join held joining)
        (quiet fun found present => by simp [only found present, joining])

theorem fares_pollWriter (clear : node.Clear party) (tends : node.Tends party)
    (balances : node.Balances party bound) (leads : node.LeadsTo index party) :
    Fares party (.writer index) node (node.pollWriter index) := by
  have after := balances.pollWriter leads
  obtain ⟨channel, held, toward⟩ := leads
  have running := Channel.running_of_isOpen (clear.opened index channel held toward)
  have fits := balances.channels index channel held toward
  have length : channel.written + channel.pending.length = channel.frames.length := by
    have within := fits.within
    simp only [Channel.pending, List.length_drop]
    omega
  obtain ⟨serves, last, found, written⟩ := serves_writeFrames balances.sound clear.works
    clear.listening held toward length (.writer index)
  have polled : node.pollWriter index = node.writeFrames index channel.pending := by
    unfold Node.pollWriter
    rw [held]
    simp [running, toward, clear.takes]
  have unserved : (node.pollWriter index).Unserved party (.writer index) :=
    unserved_of_not_inLine (not_inLine after fun want waits => waits)
  refine fares_of_serves clear tends (polled ▸ serves) (by simp) (not_due unserved (by simp)
    (by simp) fun other next task present _ => ?_)
  obtain rfl := TaskId.writer.inj task
  rw [polled, found] at present
  exact Option.some.inj present ▸ written

/-- A task that wants nothing of a party but bytes. -/
def WantsBytes : TaskId → Prop
  | .post _ | .reservation _ => True
  | _ => False

private theorem WantsBytes.not_due (wants : WantsBytes task) (unserved : node.Unserved party task) :
    ¬ node.Due party task := by
  refine Node.not_due unserved ?_ ?_ ?_
  · rintro place flight rfl
    exact wants.elim
  · rintro place flight backoff due rfl
    exact wants.elim
  · rintro index channel rfl
    exact wants.elim

/-- A task that wants bytes has been given them or lacks some, and notes what has become of it. -/
theorem fares_noted (clear : node.Clear party) (tends : node.Tends party) (wants : WantsBytes task)
    (serves : node.Serves party task middle) (unserved : middle.Unserved party task)
    (notes : middle.Serves party task after) (budgets : after.budgets = middle.budgets) :
    Fares party task node after := by
  refine fares_of_serves clear tends (serves.trans notes) ?_ (wants.not_due ?_)
  · rintro place rfl
    exact wants.elim
  · unfold Unserved
    rwa [budgets]

/-- A task that wants bytes and waits for none has done nothing toward the party. -/
theorem fares_aside (clear : node.Clear party) (tends : node.Tends party)
    (balances : node.Balances party bound) (wants : WantsBytes task)
    (idle : ∀ want, ¬ node.Waits party bound task want) (apart : node.Apart party after) :
    Fares party task node after :=
  fares_of_apart clear tends apart
    (wants.not_due (unserved_of_not_inLine (not_inLine balances idle)))

/-- A message of a post has been sent, or the post is in line for bytes. -/
theorem fares_settlePost {result : Node × Sending} (clear : node.Clear party)
    (tends : node.Tends party) (serves : node.Serves party (.post index) result.1)
    (unserved : result.1.Unserved party (.post index)) (post : Post) :
    Fares party (.post index) node (result.1.settlePost index post result.2) := by
  refine fares_noted clear tends trivial serves unserved ?_ ?_ <;> cases result.2
  · exact serves_of_same rfl rfl rfl rfl rfl rfl rfl rfl
  · exact serves_of_same rfl rfl rfl rfl rfl rfl rfl rfl
  · exact serves_of_same rfl rfl rfl rfl rfl rfl rfl rfl
  · rfl
  · rfl
  · rfl

theorem fares_pollPost {post : Post} (clear : node.Clear party) (tends : node.Tends party)
    (balances : node.Balances party bound) (held : node.posts[index]? = some post)
    (leads : node.LeadsTo post.channel party) :
    Fares party (.post index) node (node.pollPost index) := by
  have only (found : Post) (present : node.posts[index]? = some found) : found = post :=
    Option.some.inj (present.symm.trans held)
  obtain ⟨channel, present, toward⟩ := leads
  have opened := clear.opened post.channel channel present toward
  unfold Node.pollPost
  rw [held]
  dsimp only
  split
  · rename_i ended
    refine fares_aside clear tends balances trivial (fun want waits => ?_) (.refl node)
    obtain ⟨found, there, -, runs, -⟩ := waits
    simp [only found there, ended] at runs
  · split
    · obtain ⟨serves, unserved, -⟩ := serves_resumeSend (.post index) balances.sound present
        toward (Channel.running_of_isOpen opened) post.message
      exact fares_settlePost clear tends serves unserved post
    · rename_i unparked
      have absent : ¬ node.InLine party (.post index) := by
        refine not_inLine balances fun want waits => ?_
        obtain ⟨found, there, parked, -⟩ := waits
        exact unparked (only found there ▸ parked)
      obtain ⟨serves, unserved, -⟩ := serves_send absent present toward opened post.message
      exact fares_settlePost clear tends serves unserved post

theorem fares_pollReservation {reservation : Reservation} (clear : node.Clear reservation.party)
    (tends : node.Tends reservation.party) (balances : node.Balances reservation.party bound)
    (held : node.reservations[index]? = some reservation) :
    Fares reservation.party (.reservation index) node (node.pollReservation index) := by
  have idle (differs : reservation.state ≠ .waiting) (want : Nat) :
      ¬ node.Waits reservation.party bound (.reservation index) want :=
    fun waits => differs (waits.reservation held).1
  unfold Node.pollReservation
  rw [held]
  dsimp only
  split
  · rename_i unstarted
    obtain ⟨serves, unserved, -⟩ := serves_reserveBytes node
      (not_inLine balances (idle (by simp [unstarted]))) reservation.bytes
    split <;> rename_i reserving <;> rw [reserving] at serves unserved
    · exact fares_noted clear tends trivial serves unserved
        (serves_of_same rfl rfl rfl rfl rfl rfl rfl rfl) rfl
    · exact fares_noted clear tends trivial serves unserved
        (serves_of_same rfl rfl rfl rfl rfl rfl rfl rfl) rfl
  · split
    · obtain ⟨serves, unserved⟩ := serves_leave node reservation.party (.reservation index)
      exact fares_noted clear tends trivial serves unserved
        (serves_of_same rfl rfl rfl rfl rfl rfl rfl rfl) rfl
    · rename_i unserved
      refine fares_of_apart clear tends (.refl node) (WantsBytes.not_due trivial ?_)
      exact fun waiter => not_full_of_not_served balances.sound (by simpa using unserved)
  · rename_i granted
    exact fares_aside clear tends balances trivial (idle (by simp [granted])) (.refl node)
  · rename_i ended
    exact fares_aside clear tends balances trivial (idle (by simp [ended])) (.refl node)

/-! ## Tasks that deal with other parties -/

private theorem Waits.mem_partners {want : Nat} (waits : node.Waits party bound task want) :
    party ∈ node.partners (.run task) := by
  cases task with
  | sender => exact .inl waits.1.symm
  | post =>
    obtain ⟨post, held, -, -, leads, -⟩ := waits
    exact ⟨post, held, leads⟩
  | reservation => exact ⟨_, waits, rfl⟩
  | fanOut | reporter | writer | sweeper | delivery | request => exact waits.elim

/-- A task that does not deal with a party has nothing to do toward it. -/
theorem not_due_aside (balances : node.Balances party bound)
    (aside : party ∉ node.partners (.run task)) (starts : ∀ place, task ≠ .fanOut place) :
    ¬ node.Due party task := by
  refine not_due (unserved_of_not_inLine (not_inLine balances fun _ waits =>
    aside waits.mem_partners)) (fun place _ same => absurd same (starts place)) ?_ ?_
  · rintro place flight backoff due rfl
    exact absurd (.inl rfl) aside
  · rintro index channel rfl held toward
    exact absurd ⟨channel, held, toward⟩ aside

end Node

end JointQuery
