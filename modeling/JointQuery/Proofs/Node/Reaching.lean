import JointQuery.Proofs.Node.Spared

/-! Suspension is scoped to the party that causes it. Toward a party that nothing is done to,
whatever can be done can run, after every operation; so a node that can do nothing any more has
brought to it each session that is under way, however the other parties behave. -/
namespace JointQuery.Node

variable {party : Party} {node after : Node} {index place bound : Nat} {task : TaskId}
  {flight : Flight} {part : Channel → List Frame}

/-- Nothing keeps anyone from a party: the way to it is clear, every session stands with it as it
should, and what there is to do toward it can be done. -/
structure Flows (node : Node) (party : Party) : Prop where
  clear : node.Clear party
  tends : node.Tends party
  alert : node.Alert party

/-- An operation does nothing to a party that could keep anyone from it, and takes no time back. -/
def Spares (node : Node) (party : Party) : Operation → Prop
  | .refuse other | .stall other | .breakLinks other | .invalidate other => other ≠ party
  | .closeChannel index => ¬ node.LeadsTo index party
  | .stopListening => False
  | .moveTo time => node.now ≤ time
  | _ => True

private theorem Alert.rouses (alert : node.Alert party) (rouses : node.Rouses party after) :
    after.Alert party := fun task due =>
  (rouses.due task due).elim (fun before => rouses.ready task (alert task before)) id

namespace Flows

private theorem apart (flows : node.Flows party) (apart : node.Apart party after) :
    after.Flows party :=
  ⟨flows.clear.apart apart, flows.tends.apart apart, flows.alert.rouses apart.rouses⟩

private theorem serves (flows : node.Flows party) (serves : node.Serves party task after)
    (differs : ∀ place, .sender place party ≠ task) : after.Flows party :=
  ⟨flows.clear.serves serves, flows.tends.serves serves differs, flows.alert.rouses serves.toRouses⟩

/-- The state of the party is the same, and time may have passed. -/
theorem of_same (flows : node.Flows party) (directory : after.directory = node.directory)
    (link : after.links.get party = node.links.get party)
    (listening : after.listening = node.listening) (pooled : after.pooled = node.pooled)
    (budgets : after.budgets = node.budgets) (channels : after.channels = node.channels)
    (flights : after.flights = node.flights)
    (ready : ∀ task ∈ node.agenda.ready, task ∈ after.agenda.ready) (now : node.now ≤ after.now) :
    after.Flows party where
  clear := ⟨directory ▸ flows.clear.found, link ▸ flows.clear.accepts, link ▸ flows.clear.works,
    link ▸ flows.clear.takes, listening ▸ flows.clear.listening,
    link ▸ pooled ▸ flows.clear.dialed, channels ▸ flows.clear.opened⟩
  tends := flows.tends.of_same flights budgets now
  alert task due := ready task (flows.alert task (due.of_same budgets channels flights))

/-- A link changes, but that of the party stays as it is. -/
theorem modifyLink (flows : node.Flows party) (other : Party) {f : Link → Link}
    (same : other = party → f (node.links.get party) = node.links.get party) :
    (node.modifyLink other f).Flows party := by
  refine flows.of_same rfl ?_ rfl rfl rfl rfl rfl (fun _ => id) (Nat.le_refl _)
  by_cases here : other = party
  · subst here
    exact (PerParty.get_set_self ..).trans (same rfl)
  · exact PerParty.get_set_ne _ _ (Ne.symm here)

end Flows

/-! ## Tasks -/

private theorem fares_poll (clear : node.Clear party) (tends : node.Tends party)
    (balances : node.Balances party bound) (dispatches : node.Dispatches) (task : TaskId) :
    Fares party task node (node.poll task) := by
  by_cases starts : ∃ place, task = .fanOut place
  · obtain ⟨place, rfl⟩ := starts
    exact fares_pollFanOut clear tends balances dispatches place
  · by_cases aside : party ∈ node.partners (.run task)
    · cases task with
      | sender place other =>
        obtain rfl := (mem_partners_sender_iff dispatches).mp aside
        exact fares_pollSender clear tends balances dispatches place
      | writer index => exact fares_pollWriter clear tends balances aside
      | post index =>
        obtain ⟨post, held, leads⟩ := aside
        exact fares_pollPost clear tends balances held leads
      | reservation index =>
        obtain ⟨reservation, held, rfl⟩ := aside
        exact fares_pollReservation clear tends balances held
      | fanOut | reporter | sweeper | delivery | request => exact aside.elim
    · have idle := not_due_aside balances aside (not_exists.mp starts)
      exact fares_of_apart clear tends
        (apart_poll dispatches.pools aside (not_exists.mp starts)) idle

private theorem Flows.runTask (flows : node.Flows party) (balances : node.Balances party bound)
    (dispatches : node.Dispatches) (task : TaskId) : (node.runTask task).Flows party := by
  obtain ⟨clear, tends, alert⟩ := flows
  have before : Clear
      { node with agenda := { node.agenda with ready := node.agenda.ready.erase task } } party :=
    ⟨clear.found, clear.accepts, clear.works, clear.takes, clear.listening, clear.dialed,
      clear.opened⟩
  have fares : Fares party task _ (node.runTask task) :=
    fares_poll before (tends.of_same rfl rfl (Nat.le_refl _))
      (balances.of_same rfl rfl rfl rfl rfl) (dispatches.of_same rfl rfl rfl rfl) task
  refine ⟨fares.clear, fares.tends, fun other due => ?_⟩
  by_cases same : other = task
  · exact same ▸ fares.done (same ▸ due)
  · refine (fares.rouses.due other due).elim (fun before => fares.rouses.ready other ?_) id
    exact (List.mem_erase_of_ne same).mpr (alert other (before.of_same rfl rfl rfl))

/-! ## Operations -/

private theorem Flows.acquire (flows : node.Flows party) (pools : node.Pools) :
    (node.acquire party).1.Flows party := by
  obtain ⟨clear, rouses, flights, budgets, now, -⟩ := clear_acquire flows.clear pools
  exact ⟨clear, flows.tends.of_same flights budgets (Nat.le_of_eq now.symm),
    flows.alert.rouses rouses⟩

private theorem Flows.addReservation (flows : node.Flows party) (other : Party) (length : Nat) :
    (node.addReservation other length).1.Flows party :=
  flows.of_same rfl rfl rfl rfl rfl rfl rfl (node.agenda.extends_wake _).ready
    (Nat.le_of_eq (node.agenda.extends_wake _).now.symm)

private theorem Flows.endReservation {reservation : Reservation}
    (flows : node.Flows reservation.party) (balances : node.Balances reservation.party bound)
    (held : node.reservations[index]? = some reservation) :
    (node.releaseReservation index).Flows reservation.party ∧
      (node.abandonReservation index).Flows reservation.party := by
  have ended : node.Serves reservation.party (.reservation index)
      (node.setReservation index { reservation with state := .ended }) :=
    serves_of_same rfl rfl rfl rfl rfl rfl rfl rfl
  unfold releaseReservation abandonReservation
  rw [held]
  dsimp only
  constructor <;> split
  · exact flows.serves (ended.trans (serves_giveBytes (by exact balances.sound) _ _)) (by simp)
  · exact flows
  · exact flows.serves (ended.trans (serves_abandonBytes (by exact balances.sound) _).1) (by simp)
  · exact flows

private theorem flows_perform (flows : node.Flows party) (order : node.InOrder false)
    (balances : node.Balances party bound) {operation : Operation}
    (spares : node.Spares party operation) : (node.perform operation).Flows party := by
  have pools := order.dispatches.pools
  by_cases aside : party ∈ node.partners operation
  · cases operation with
    | run task => exact flows.runTask balances order.dispatches task
    | acquire other =>
      obtain rfl : party = other := aside
      exact flows.acquire pools
    | addReservation other length => exact flows.addReservation other length
    | releaseReservation index =>
      obtain ⟨reservation, held, rfl⟩ := aside
      exact (flows.endReservation balances held).1
    | abandonReservation index =>
      obtain ⟨reservation, held, rfl⟩ := aside
      exact (flows.endReservation balances held).2
    | accept other => exact flows.modifyLink other fun _ => by simp [← flows.clear.accepts]
    | resume other =>
      have takes : (node.modifyLink other fun link => { link with stalled := false }).Flows party :=
        flows.modifyLink other fun _ => by simp [← flows.clear.takes]
      exact takes.apart (apart_of_edits edits_wakeAll)
    | refuse | stall | breakLinks | invalidate => exact absurd aside.symm spares
    | closeChannel index => exact absurd aside spares
    | stopListening => exact absurd spares id
    | _ => exact aside.elim
  · cases operation with
    | run task => exact flows.runTask balances order.dispatches task
    | moveTo time =>
      have fires := Agenda.extends_wakeAll
        { node.agenda with now := time, timers := node.agenda.timers.dropWhile (·.due ≤ time) }
        ((node.agenda.timers.takeWhile (·.due ≤ time)).map (·.task))
      exact flows.of_same rfl rfl rfl rfl rfl rfl rfl fires.ready
        (Nat.le_trans spares (Nat.le_of_eq fires.now.symm))
    | _ => exact flows.apart (apart_perform pools aside (by simp) (by simp))

/-! ## Runs -/

private theorem flows_performAll (flows : node.Flows party) (order : node.InOrder false)
    (balances : node.Balances party bound) (operations : List Operation)
    (spared : ∀ before operation rest, operations = before ++ operation :: rest →
      (node.performAll before).Spares party operation) :
    (node.performAll operations).Flows party := by
  induction operations generalizing node with
  | nil => exact flows
  | cons operation rest ih =>
    have first : node.Spares party operation := spared [] operation rest rfl
    refine ih (flows_perform flows order balances first) (inOrder_perform order (by simp))
      (balances_perform order balances operation) fun before next others split => ?_
    exact spared (operation :: before) next others (congrArg (operation :: ·) split)

private theorem flows_start (config : Config) (limits : OutputLimits) (identifiers : Nat → QueryId)
    (party : Party) : (start config limits identifiers).Flows party := by
  have link : (start config limits identifiers).links.get party = .idle := by cases party <;> rfl
  have pooled : (start config limits identifiers).pooled.get party = none := by
    cases party <;> rfl
  have budget : (start config limits identifiers).budgets.get party =
      Budget.ofLimit (limits.get party) := PerParty.get_map ..
  refine ⟨⟨?_, congrArg (·.refused) link, congrArg (·.broken) link, congrArg (·.stalled) link, rfl,
    .inl ⟨pooled, congrArg (·.attempts) link⟩, fun _ _ held => ?_⟩, fun _ _ held => ?_,
    fun task due => ?_⟩
  · cases party <;> exact ⟨_, rfl⟩
  · cases held
  · cases held
  · cases due with
    | served member =>
      rw [budget] at member
      cases member
    | starts held | tries held | writes held => cases held

/-! ## At rest -/

private theorem framesTo_eq_nil (none : ∀ (index : Nat) (channel : Channel),
    node.channels[index]? = some channel → channel.party = party → part channel = []) :
    node.framesTo party part = [] := by
  refine List.flatMap_eq_nil_iff.mpr fun channel member => ?_
  obtain ⟨index, held⟩ := List.getElem?_of_mem member
  split
  · rename_i toward
    exact none index channel held toward
  · rfl

/-- Toward a party that nothing keeps anyone from, no frame is left to write when a node is at
rest. -/
theorem Flows.written (flows : node.Flows party) (rest : node.isAtRest = true) :
    node.queued party = [] ∧ ∀ place, node.waitingStarts place party = [] ∧
      node.lostStarts place party = [] := by
  have idle : node.agenda.ready = [] := List.isEmpty_iff.mp rest
  have written (index : Nat) (channel : Channel) (held : node.channels[index]? = some channel)
      (toward : channel.party = party) : channel.waiting = [] ∧ channel.lost = [] := by
    have running := Channel.running_of_isOpen (flows.clear.opened index channel held toward)
    refine ⟨?_, if_pos running⟩
    rw [Channel.waiting, if_pos running]
    by_contra pending
    have member := flows.alert _ (.writes held toward pending)
    rw [idle] at member
    cases member
  refine ⟨framesTo_eq_nil fun index channel held toward => (written index channel held toward).1,
    fun place => ⟨framesTo_eq_nil fun index channel held toward => ?_,
      framesTo_eq_nil fun index channel held toward => ?_⟩⟩
  · simp [startsOf, (written index channel held toward).1]
  · simp [startsOf, (written index channel held toward).2]

/-- Nobody waits for bytes toward the party any more, unless a reservation keeps some. -/
theorem Flows.nobody_waits (flows : node.Flows party) (balances : node.Balances party bound)
    (rest : node.isAtRest = true) (kept : node.keptBytes party = 0) :
    (node.budgets.get party).waiters = [] := by
  have idle : node.agenda.ready = [] := List.isEmpty_iff.mp rest
  by_contra waits
  have total := balances.total
  have queued : node.queuedBytes party = 0 := by
    rw [queuedBytes, (flows.written rest).1]
    rfl
  obtain ⟨waiter, member, full⟩ := Budget.exists_served balances.sound
    (by rw [balances.limit]; omega) waits
  have ready := flows.alert _ (.served member full)
  rw [idle] at ready
  cases ready

/-- A session that is under way has been brought to the party. -/
theorem Flows.sent (flows : node.Flows party) (balances : node.Balances party bound)
    (rest : node.isAtRest = true) (kept : node.keptBytes party = 0)
    (held : node.flights[place]? = some flight) (live : flight.session.isTerminal = false)
    (accepted : flight.session.state ≠ .created) : (flight.senders.get party).isSent = true := by
  have nobody := flows.nobody_waits balances rest kept
  have idle : node.agenda.ready = [] := List.isEmpty_iff.mp rest
  have undone (task : TaskId) : ¬ node.Due party task := fun due => by
    have ready := flows.alert task due
    rw [idle] at ready
    cases ready
  have tended := flows.tends place flight held
  have begun : flight.fanOut.isBegun = true := by
    cases phase : flight.fanOut with
    | unstarted =>
      rcases tended.idle phase with created | final
      · exact absurd created accepted
      · simp [live] at final
    | starting => exact absurd (.starts held phase) (undone _)
    | _ => rfl
  cases sender : flight.senders.get party with
  | unstarted => exact absurd sender (tended.begun begun)
  | pausing backoff due => exact absurd (.tries held sender) (undone _)
  | parked backoff index =>
    obtain ⟨waiter, member, -⟩ := tended.parked backoff index sender
    rw [nobody] at member
    cases member
  | ended result =>
    cases result with
    | ok => rfl
    | error cause =>
      have final := tended.failed cause sender
      simp [live] at final

/-- A party to which nothing is done, in every run, whatever is done to the others and however many
sessions there are. It is dialed at most once; and whenever no task can run, and no reservation made
from outside keeps bytes of it, each session that is live and was accepted has had its start written
to the party, exactly once. -/
theorem spared_started (config : Config) (given : PerParty (Option Int)) (limits : OutputLimits)
    (built : OutputLimits.ofKib given = .ok limits) (identifiers : Nat → QueryId)
    (operations : List Operation) (node : Node)
    (reached : (start config limits identifiers).performAll operations = node) (party : Party)
    (spared : ∀ before operation rest, operations = before ++ operation :: rest →
      ((start config limits identifiers).performAll before).Spares party operation) :
    (node.links.get party).attempts ≤ 1 ∧
    (node.isAtRest = true → node.keptBytes party = 0 →
      ∀ place session, node.session? place = some session → session.isTerminal = false →
        session.state ≠ .created → ∃ frame, node.writtenStarts place party = [frame] ∧
          frame.message = .startQuery session.id session.query.wire session.clientRef) := by
  have begins := inOrder_start false config limits identifiers
  have balanced := balances_start config limits identifiers (OutputLimits.get_pos built party)
  have order : node.InOrder false := reached ▸ inOrder_performAll begins (by simp)
  have balances : node.Balances party (limits.get party) :=
    reached ▸ balances_performAll begins balanced operations
  have accounted : node.Accounted := reached ▸
    accounted_performAll begins (accounted_start config limits identifiers) operations
  have flows : node.Flows party := reached ▸
    flows_performAll (flows_start config limits identifiers party) begins balanced operations spared
  refine ⟨?_, fun rest kept place session found live accepted => ?_⟩
  · rcases flows.clear.dialed with ⟨-, never⟩ | ⟨-, once⟩ <;> omega
  · obtain ⟨flight, held, rfl⟩ := Option.map_eq_some_iff.mp found
    have sent := flows.sent balances rest kept held live accepted
    obtain ⟨frame, one, message⟩ :=
      ((order.dispatches.flights place flight held).starts_cases party).resolve_left
        fun ⟨unsent, _⟩ => by simp [sent] at unsent
    obtain ⟨-, others⟩ := flows.written rest
    have written := accounted.starts place party
    rw [one, (others place).1, (others place).2, List.append_nil, List.append_nil] at written
    exact ⟨frame, List.perm_singleton.mp written.symm, message⟩

/-- A query whose senders to two of the parties are refused and pause, until nothing can run. -/
def refusedRun : List Operation :=
  [.refuse .ph, .refuse .db2, .addClient "front" 8 0 false, .beginQuery 0 Session.oneCount true,
    .run (.fanOut 0), .run (.reporter 0), .run (.sender 0 .ph), .run (.sender 0 .db1),
    .run (.sender 0 .db2), .run (.fanOut 0), .run (.writer 0)]

/-- The query has reached the third. -/
theorem spared_started_refused : ∃ node session frame,
    (start (.ofParty .ph) .standard QueryId.numbered).performAll refusedRun = node ∧
    node.isAtRest = true ∧ node.session? 0 = some session ∧ session.state = .dispatched ∧
    (node.links.get .db1).attempts ≤ 1 ∧ node.writtenStarts 0 .db1 = [frame] ∧
    frame.message = .startQuery session.id session.query.wire session.clientRef := by
  have run :
      let node := (start (.ofParty .ph) .standard QueryId.numbered).performAll refusedRun
      node.isAtRest = true ∧ node.keptBytes .db1 = 0 ∧
        (node.session? 0).map (·.state) = some .dispatched := by decide +kernel
  obtain ⟨rest, kept, state⟩ := run
  obtain ⟨session, found, dispatched⟩ := Option.map_eq_some_iff.mp state
  obtain ⟨once, started⟩ := spared_started (.ofParty .ph) (.all none) .standard rfl
    QueryId.numbered refusedRun _ rfl .db1 fun before operation rest split => by
      have member : operation ∈ refusedRun := split ▸ by simp
      simp only [refusedRun, List.mem_cons, List.not_mem_nil, or_false] at member
      rcases member with rfl | rfl | rfl | rfl | rfl | rfl | rfl | rfl | rfl | rfl | rfl <;>
        simp [Spares]
  obtain ⟨frame, one, message⟩ := started rest kept 0 session found
    (by simp [Session.isTerminal, dispatched, SessionState.isTerminal]) (by simp [dispatched])
  exact ⟨_, session, frame, rfl, rest, found, dispatched, once, one, message⟩

end JointQuery.Node
