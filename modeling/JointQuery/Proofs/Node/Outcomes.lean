import JointQuery.Proofs.Node.Working

/-! How the client of a session learns of its end, over every run. Whoever ends a session early
tells its client; the answer of a completed session is told by its reporter, whose remaining runs
are counted down. -/
namespace JointQuery

open ClientEvent

namespace Reporter

/-- The time at which the reporter can go on at the latest. -/
def due : Reporter → Nat
  | .watching _ tick => tick
  | .sending _ _ _ _ deadline => deadline
  | .unstarted | .over => 0

/-- How many more runs the reporter of an ended session with so many tuples can make use of. A pass
that has not seen the end is followed by one that sees it. -/
def left (tuples : Nat) : Reporter → Nat
  | .watching next _ => tuples - next + 2
  | .sending next _ seen _ _ => tuples - next + if seen.isTerminal then 1 else 3
  | .unstarted | .over => 0

/-- Where a pass can leave the reporter that goes on from a tuple and has seen a state. -/
inductive After (next : Nat) (seen : SessionState) : Reporter → Prop where
  | ceased : After next seen .over
  | sending (later : next ≤ further) :
      After next seen (.sending further tick seen event deadline)
  | watching (live : seen.isTerminal = false) (later : next ≤ further) :
      After next seen (.watching further tick)

variable {reporter : Reporter} {next earlier : Nat} {seen : SessionState}

private theorem After.mono (after : reporter.After next seen) (later : earlier ≤ next) :
    reporter.After earlier seen := by
  cases after with
  | ceased => exact .ceased
  | sending further => exact .sending (Nat.le_trans later further)
  | watching live further => exact .watching live (Nat.le_trans later further)

private theorem After.left_le (after : reporter.After next seen) (tuples : Nat) :
    reporter.left tuples ≤ tuples - next + if seen.isTerminal then 1 else 3 := by
  cases after with
  | ceased => exact Nat.zero_le _
  | sending later =>
    simp only [left]
    omega
  | watching live later =>
    simp only [left, live]
    simp
    omega

private theorem left_pos (begun : reporter.phase ≠ .idle) (going : reporter ≠ .over)
    (tuples : Nat) : 0 < reporter.left tuples := by
  cases reporter with
  | unstarted => exact absurd rfl begun
  | watching next tick => exact Nat.succ_pos _
  | sending next tick seen event deadline =>
    simp only [left]
    split <;> omega
  | _ => exact absurd rfl going

end Reporter

namespace Node

variable {told : Bool} {active : Nat → Prop} {node after : Node} {place next tick : Nat}
  {session : Session} {seen : SessionState} {event : ClientEvent} {flight : Flight}

/-! ## Runs of a reporter -/

/-- The reporter of the session at a place. -/
def reporter? (node : Node) (place : Nat) : Option Reporter :=
  node.flights[place]?.map (·.reporter)

/-- The reporter of the session at a place is where a pass can leave it. -/
def Leaves (node : Node) (place next : Nat) (seen : SessionState) : Prop :=
  ∃ reporter, node.reporter? place = some reporter ∧ reporter.After next seen

private theorem reporter?_setReporter (present : node.session? place = some session)
    (reporter : Reporter) : (node.setReporter place reporter).reporter? place = some reporter := by
  obtain ⟨flight, held, rfl⟩ := Option.map_eq_some_iff.mp present
  simp [reporter?, setReporter, modifyFlight, held]

private theorem reporter?_watch (present : node.session? place = some session) (next tick : Nat) :
    (node.watch place next tick).reporter? place = some (.watching next tick) := by
  have watching := reporter?_setReporter present (.watching next tick)
  simp only [watch]
  split
  · exact watching
  · exact watching

private theorem reporter?_endReporter (present : node.session? place = some session) :
    (node.endReporter place).reporter? place = some .over :=
  reporter?_setReporter present .over

private theorem leaves_endPass (present : node.session? place = some session) (next tick : Nat)
    (seen : SessionState) : (node.endPass place next tick seen).Leaves place next seen := by
  simp only [endPass]
  split
  · exact ⟨_, reporter?_endReporter present, .ceased⟩
  · rename_i live
    exact ⟨_, reporter?_watch present next tick, .watching (by simpa using live) (Nat.le_refl _)⟩

private theorem reporter?_refuseReport (present : node.session? place = some session)
    (event : ClientEvent) : (node.refuseReport place event).reporter? place = some .over := by
  simp only [refuseReport]
  split
  · exact reporter?_endReporter present
  · obtain ⟨ended, held, -, -⟩ := session?_loseClient present
    exact reporter?_endReporter held

/-- An event that is offered is queued, or the reporter stops there. -/
theorem leaves_offerReport (present : node.session? place = some session) (offering : Session)
    (next tick : Nat) (seen : SessionState) (event : ClientEvent) {reported : Node} {fate : Offer}
    (offered : node.offerReport place offering next tick seen event = (reported, fate)) :
    fate = .sent ∧ reported.session? place = some session ∨
      fate ≠ .sent ∧ reported.Leaves place next seen := by
  have goes : (node.offer (.reporter place) offering.client ⟨some place, event⟩).1.session? place =
      some session := by
    obtain ⟨agenda, clients, same⟩ :=
      node.offer_eq (.reporter place) offering.client ⟨some place, event⟩
    rw [same]
    exact present
  simp only [offerReport] at offered
  split at offered <;> rename_i queued <;> rw [queued] at goes <;> obtain ⟨rfl, rfl⟩ := offered
  · exact .inl ⟨rfl, goes⟩
  · exact .inr ⟨by simp, _, reporter?_refuseReport goes event, .ceased⟩
  · exact .inr ⟨by simp, _, reporter?_setReporter goes _, .sending (Nat.le_refl _)⟩

private theorem leaves_closePass (present : node.session? place = some session) (closing : Session)
    (next tick : Nat) (seen : SessionState) :
    (node.closePass place closing next tick seen).Leaves place next seen := by
  simp only [closePass]
  split
  · exact leaves_endPass present next tick seen
  · split
    · rename_i offered
      rcases leaves_offerReport present closing next tick seen _ offered with
        ⟨-, goes⟩ | ⟨unsent, -⟩
      · exact leaves_endPass goes next tick seen
      · exact absurd rfl unsent
    · rename_i other offered
      rcases leaves_offerReport present closing next tick seen _ offered with
        ⟨sent, -⟩ | ⟨-, stopped⟩
      · exact absurd sent other
      · exact stopped

private theorem leaves_reportTuples (present : node.session? place = some session)
    (reporting : Session) (tick : Nat) (seen : SessionState) (count next : Nat) :
    (reportTuples place reporting tick seen count next node).Leaves place next seen := by
  induction count generalizing next node with
  | zero => exact leaves_closePass present reporting next tick seen
  | succ count ih =>
    simp only [reportTuples]
    split
    · exact leaves_closePass present reporting next tick seen
    · split
      · rename_i offered
        rcases leaves_offerReport present reporting next tick seen _ offered with
          ⟨-, goes⟩ | ⟨unsent, -⟩
        · obtain ⟨reporter, left, after⟩ := ih goes (next + 1)
          exact ⟨reporter, left, after.mono (Nat.le_succ next)⟩
        · exact absurd rfl unsent
      · rename_i other offered
        rcases leaves_offerReport present reporting next tick seen _ offered with
          ⟨sent, -⟩ | ⟨-, stopped⟩
        · exact absurd sent other
        · exact stopped

private theorem leaves_pass (present : node.session? place = some session) (reporting : Session)
    (next tick : Nat) (seen : SessionState) :
    (node.pass place reporting next tick seen).Leaves place next seen :=
  leaves_reportTuples present reporting tick seen _ next

/-! ## What is left of a reporter -/

/-- A reporter that goes on after an event has less left. -/
theorem left_resumePass (present : node.session? place = some session) (tick : Nat)
    (seen : SessionState) {tuples : Nat} (inside : event.doneTuple?.isSome = true → next < tuples) :
    ∃ reporter, (node.resumePass place session next tick seen event).reporter? place =
      some reporter ∧ reporter.left tuples < tuples - next + if seen.isTerminal then 1 else 3 := by
  have ends : ∃ reporter, (node.endPass place next tick seen).reporter? place = some reporter ∧
      reporter.left tuples < tuples - next + if seen.isTerminal then 1 else 3 := by
    simp only [endPass]
    split
    · exact ⟨_, reporter?_endReporter present, Nat.succ_pos _⟩
    · exact ⟨_, reporter?_watch present next tick, Nat.lt_succ_self _⟩
  cases event with
  | tupleDone id tuple row =>
    have further := inside rfl
    obtain ⟨reporter, left, after⟩ := leaves_pass present session (next + 1) tick seen
    have bound := after.left_le tuples
    exact ⟨reporter, left, by omega⟩
  | accepted | tupleProgress | allDone | error => exact ends

/-- A reporter that looks at an ended session goes on waiting before its tick, or has less left. -/
theorem left_lookAtSession (present : node.session? place = some session)
    (final : session.isTerminal = true) (tuples next tick : Nat) : ∃ reporter,
    (node.lookAtSession place session next tick).reporter? place = some reporter ∧
      (reporter = .watching next tick ∧ node.now < tick ∨
        reporter.left tuples < tuples - next + 2) := by
  have less {looked : Node} (leaves : looked.Leaves place next session.state) : ∃ reporter,
      looked.reporter? place = some reporter ∧ (reporter = .watching next tick ∧ node.now < tick ∨
        reporter.left tuples < tuples - next + 2) := by
    obtain ⟨reporter, left, after⟩ := leaves
    have bound := after.left_le tuples
    have seen : session.state.isTerminal = true := final
    rw [seen, if_pos rfl] at bound
    exact ⟨reporter, left, .inr (Nat.lt_succ_of_le bound)⟩
  simp only [lookAtSession]
  split
  · have still : (node.cancelTimer (.reporter place) .tick).session? place = some session := present
    exact less (leaves_pass still session next _ session.state)
  · rename_i early
    split
    · obtain ⟨flight, held, rfl⟩ := Option.map_eq_some_iff.mp present
      have noted : (node.setSession place { flight.session with changed := false }).session? place =
          some { flight.session with changed := false } :=
        (session?_modifyFlight held _ place).trans (if_pos rfl)
      exact less (leaves_pass noted flight.session next tick flight.session.state)
    · exact ⟨_, reporter?_watch present next tick, .inl ⟨rfl, Nat.lt_of_not_le early⟩⟩

/-- An event waits for room only as long as its time is not up. -/
theorem early_of_waiting {task : TaskId} {client deadline : Nat} {notice : Notice}
    (waiting : (node.resumeOffer task client notice deadline).2 = .waiting) :
    node.now < deadline := by
  simp only [resumeOffer] at waiting
  split at waiting
  · cases waiting
  · by_contra late
    simp only [ClientQueue.resume, decide_eq_true (Nat.le_of_not_lt late)] at waiting
    split at waiting
    · cases waiting
    · split at waiting
      · cases waiting
      · cases waiting

/-- A tuple that is still to be reported as done is one of the session. -/
theorem inside_of_pending {scale : Nat} (pending : Pending scale session next seen event)
    (done : event.doneTuple?.isSome = true) : next < session.tupleCount := by
  cases event with
  | tupleDone id tuple row =>
    obtain ⟨-, complete, -⟩ := pending.bears
    obtain ⟨slot, found, -⟩ := Session.isTupleComplete_iff.mp complete
    rw [← (pending.reports : tuple.toNat = next)]
    exact (List.getElem?_eq_some_iff.mp found).1
  | accepted | tupleProgress | allDone | error => simp [doneTuple?] at done

/-- A run of the reporter of an ended session leaves it with less, unless it waits or has ended. -/
theorem left_pollReporter (sound : node.front.Sound) (held : node.flights[place]? = some flight)
    (final : flight.session.isTerminal = true) : ∃ reporter,
    (node.pollReporter place).reporter? place = some reporter ∧
      (reporter = flight.reporter ∧
          (reporter.left flight.session.tupleCount = 0 ∨ node.now < reporter.due) ∨
        reporter.left flight.session.tupleCount <
          flight.reporter.left flight.session.tupleCount) := by
  have present := session?_of_flight held
  have same : node.reporter? place = some flight.reporter := by simp [reporter?, held]
  simp only [pollReporter, held]
  split
  · rename_i unstarted
    exact ⟨flight.reporter, same, .inl ⟨rfl, .inl (by simp [unstarted, Reporter.left])⟩⟩
  · rename_i ceased
    exact ⟨flight.reporter, same, .inl ⟨rfl, .inl (by simp [ceased, Reporter.left])⟩⟩
  · rename_i next tick watching
    obtain ⟨reporter, looked, early | less⟩ :=
      left_lookAtSession present final flight.session.tupleCount next tick
    · exact ⟨reporter, looked, .inl ⟨early.1.trans watching.symm, .inr (early.1 ▸ early.2)⟩⟩
    · exact ⟨reporter, looked, .inr (watching ▸ less)⟩
  · rename_i next tick seen event deadline sending
    have phase : (node.front.desks place).phase = .sending next seen event := by
      simp [front, desk, held, sending, Reporter.phase]
    have stands := (sound.desks place flight.session
      ((node.session?_eq place).symm.trans present)).stands
    rw [phase] at stands
    have goes : (node.resumeOffer (.reporter place) flight.session.client ⟨some place, event⟩
        deadline).1.session? place = some flight.session ∧ (node.resumeOffer (.reporter place)
        flight.session.client ⟨some place, event⟩ deadline).1.reporter? place =
          some flight.reporter := by
      obtain ⟨agenda, clients, resumed⟩ := node.resumeOffer_eq (.reporter place)
        flight.session.client ⟨some place, event⟩ deadline
      rw [resumed]
      exact ⟨present, same⟩
    split <;> rename_i resumed <;> rw [resumed] at goes
    · have early : node.now < deadline := early_of_waiting (congrArg Prod.snd resumed)
      have waits : node.now < flight.reporter.due := by simpa [sending, Reporter.due] using early
      exact ⟨flight.reporter, goes.2, .inl ⟨rfl, .inr waits⟩⟩
    · obtain ⟨reporter, told, less⟩ :=
        left_resumePass goes.1 tick seen (inside_of_pending stands.2.2)
      exact ⟨reporter, told, .inr (by simpa only [sending, Reporter.left] using less)⟩
    · refine ⟨.over, reporter?_refuseReport goes.1 event, .inr ?_⟩
      simp only [sending, Reporter.left]
      split <;> omega

/-! ## Operations -/

/-- Only the reporter of an active session goes on. -/
theorem Flies.reporter_eq {next : Flight} (flies : Flies told active node place flight next)
    (begun : flight.reporter.phase ≠ .idle) (inactive : ¬ active place) :
    next.reporter = flight.reporter := by
  cases flies with
  | launched idle => exact absurd idle begun
  | reported runs => exact absurd runs inactive
  | grew | awaited | ended | tried | started | joined => rfl

private theorem Change.reporter?_eq (change : Change told active node after) {reporter : Reporter}
    (held : node.reporter? place = some reporter) (begun : reporter.phase ≠ .idle)
    (inactive : ¬ active place) : after.reporter? place = some reporter := by
  obtain ⟨flight, present, rfl⟩ := Option.map_eq_some_iff.mp held
  have kept {other : Nat} {found : Flight} {f : Flight → Flight}
      (here : node.flights[other]? = some found)
      (same : other = place → (f found).reporter = found.reporter) :
      (node.modifyFlight other f).reporter? place = some flight.reporter := by
    rw [reporter?, flights_modifyFlight here]
    split
    · rename_i place
      subst place
      obtain rfl := Option.some.inj (here.symm.trans present)
      simp [same rfl]
    · exact held
  cases change with
  | beside same => rwa [reporter?, same.flights]
  | joined | queued | filed | settled | opened | unpooled | closed | posted => exact held
  | entered session fresh blank =>
    have inside : place < node.flights.length := (List.getElem?_eq_some_iff.mp present).1
    rw [reporter?, List.getElem?_append_left inside]
    exact held
  | flew here flies =>
    refine kept here ?_
    rintro rfl
    obtain rfl := Option.some.inj (here.symm.trans present)
    exact flies.reporter_eq begun inactive
  | sent here => exact kept here fun _ => rfl

private theorem Changes.reporter?_eq (changes : Changes told active node after)
    {reporter : Reporter}
    (held : node.reporter? place = some reporter) (begun : reporter.phase ≠ .idle)
    (inactive : ¬ active place) : after.reporter? place = some reporter := by
  induction changes with
  | refl => exact held
  | tail _ change ih => exact change.reporter?_eq ih begun inactive

/-- Whatever happens but a run of the reporter itself leaves it as it is. -/
theorem reporter?_perform (order : node.InOrder told) {operation : Operation}
    (caused : told = true → operation.givesCause = true)
    (held : node.flights[place]? = some flight) (begun : flight.reporter.phase ≠ .idle)
    (elsewhere : operation ≠ .run (.reporter place)) :
    (node.perform operation).reporter? place = some flight.reporter := by
  have present : node.reporter? place = some flight.reporter := by simp [reporter?, held]
  cases writer : operation.writer? with
  | none => exact (changes_perform order writer caused).reporter?_eq present begun elsewhere
  | some index =>
    obtain ⟨-, -, flights⟩ := (writes_perform writer : Writes node index _).others
    rwa [reporter?, flights]

/-- No operation adds to what is left of the reporter of an ended session, and a run of it that is
due takes something off. -/
theorem left_perform (order : node.InOrder told) {operation : Operation}
    (caused : told = true → operation.givesCause = true)
    (held : node.flights[place]? = some flight) (final : flight.session.isTerminal = true)
    (begun : flight.reporter.phase ≠ .idle) : ∃ reporter,
    (node.perform operation).reporter? place = some reporter ∧
      reporter.left flight.session.tupleCount ≤ flight.reporter.left flight.session.tupleCount ∧
      (operation = .run (.reporter place) → flight.reporter.due ≤ node.now →
        flight.reporter ≠ .over → reporter.left flight.session.tupleCount <
          flight.reporter.left flight.session.tupleCount) := by
  by_cases runs : operation = .run (.reporter place)
  · subst runs
    have sound : Front.Sound (front { node with agenda := { node.agenda with
      ready := node.agenda.ready.erase (.reporter place) } }) := order.front
    obtain ⟨reporter, ran, ⟨same, stays⟩ | less⟩ := left_pollReporter sound held final
    · subst same
      refine ⟨_, ran, Nat.le_refl _, fun _ due going => ?_⟩
      rcases stays with none | early
      · exact absurd none (Nat.ne_of_gt (Reporter.left_pos begun going _))
      · exact absurd due (Nat.not_le_of_lt early)
    · exact ⟨reporter, ran, Nat.le_of_lt less, fun _ _ _ => less⟩
  · exact ⟨flight.reporter, reporter?_perform order caused held begun runs, Nat.le_refl _,
      fun same => absurd same runs⟩

/-! ## Schedules -/

/-- The node after so many operations of a schedule. -/
def follow (node : Node) (schedule : Nat → Operation) : Nat → Node
  | 0 => node
  | steps + 1 => (node.follow schedule steps).perform (schedule steps)

/-- Every operation of a schedule says why it ends a session, and the reporter of the session at a
place is run again and again when it is due. -/
structure Fair (node : Node) (schedule : Nat → Operation) (place : Nat) : Prop where
  caused : ∀ step, (schedule step).givesCause = true
  reports : ∀ step, ∃ later, step ≤ later ∧ schedule later = .run (.reporter place) ∧
    ∀ reporter, (node.follow schedule later).reporter? place = some reporter →
      reporter.due ≤ (node.follow schedule later).now

private theorem inOrder_follow (order : node.InOrder true) {schedule : Nat → Operation}
    (caused : ∀ step, (schedule step).givesCause = true) (steps : Nat) :
    (node.follow schedule steps).InOrder true := by
  induction steps with
  | zero => exact order
  | succ steps ih => exact inOrder_perform ih fun _ => caused steps

/-- The session of a flight has ended, and its client was told that it is accepted. -/
structure Winds (node : Node) (place : Nat) (flight : Flight) : Prop where
  held : node.flights[place]? = some flight
  final : flight.session.isTerminal = true
  accepted : Tells (node.told place flight.session.client) isAccepted

private theorem Winds.stands (winds : node.Winds place flight) (order : node.InOrder told) :
    (node.desk place).Sound node.front.scale flight.session ∧
      (node.desk place).phase = flight.reporter.phase ∧ flight.reporter.phase ≠ .idle := by
  have present := session?_of_flight winds.held
  have sound := order.front.desks place flight.session ((node.session?_eq place).symm.trans present)
  have phase : (node.desk place).phase = flight.reporter.phase := by simp [desk, winds.held]
  refine ⟨sound, phase, fun idle => ?_⟩
  have stands := sound.stands
  rw [show (node.front.desks place).phase = .idle from phase.trans idle] at stands
  exact stands winds.accepted

/-- An ended session stays as it is, and less and less is left of its reporter. -/
structure Wanes (place : Nat) (flight : Flight) (after : Node) (next : Flight) : Prop
    extends after.Winds place next where
  client : next.session.client = flight.session.client
  count : next.session.tupleCount = flight.session.tupleCount
  state : next.session.state = flight.session.state
  fewer : next.reporter.left flight.session.tupleCount ≤
    flight.reporter.left flight.session.tupleCount

private theorem wanes_perform (order : node.InOrder told) {operation : Operation}
    (caused : told = true → operation.givesCause = true) (winds : node.Winds place flight) :
    ∃ next, Wanes place flight (node.perform operation) next ∧
      (operation = .run (.reporter place) → flight.reporter.due ≤ node.now →
        flight.reporter ≠ .over → next.reporter.left flight.session.tupleCount <
          flight.reporter.left flight.session.tupleCount) := by
  obtain ⟨-, -, begun⟩ := winds.stands order
  obtain ⟨reporter, left, fewer, less⟩ := left_perform order caused winds.held winds.final begun
  obtain ⟨next, held, rfl⟩ := Option.map_eq_some_iff.mp left
  have present := session?_of_flight winds.held
  rw [session?_eq] at present
  obtain ⟨session, found, grows⟩ :=
    (steps_perform order.front.ledger operation).grows order.front.ledger present
  have later := ((node.perform operation).session?_eq place).trans found
  obtain rfl := Option.some.inj ((session?_of_flight held).symm.trans later)
  have state := (grows.frozen winds.final).1
  refine ⟨next, ⟨⟨held, ?_, ?_⟩, grows.client, grows.tupleCount, state, fewer⟩, less⟩
  · rw [Session.isTerminal, state]
    exact winds.final
  · rw [grows.client]
    exact (keeps_perform order caused).tells winds.accepted

private theorem Wanes.trans {middle last : Flight} (earlier : Wanes place flight node middle)
    (later : Wanes place middle after last) : Wanes place flight after last where
  toWinds := later.toWinds
  client := later.client.trans earlier.client
  count := later.count.trans earlier.count
  state := later.state.trans earlier.state
  fewer := by
    have fewer := later.fewer
    rw [earlier.count] at fewer
    exact Nat.le_trans fewer earlier.fewer

private theorem wanes_follow (order : node.InOrder true) {schedule : Nat → Operation}
    (caused : ∀ step, (schedule step).givesCause = true) {step : Nat}
    (winds : (node.follow schedule step).Winds place flight) (more : Nat) :
    ∃ next, Wanes place flight (node.follow schedule (step + more)) next := by
  induction more with
  | zero => exact ⟨flight, winds, rfl, rfl, rfl, Nat.le_refl _⟩
  | succ more ih =>
    obtain ⟨middle, wanes⟩ := ih
    obtain ⟨next, later, -⟩ := wanes_perform (inOrder_follow order caused (step + more))
      (fun _ => caused (step + more)) wanes.toWinds
    exact ⟨next, wanes.trans later⟩

/-- In a fair schedule the reporter of an ended session comes to its end. -/
theorem Fair.ceases {schedule : Nat → Operation} (fair : node.Fair schedule place)
    (order : node.InOrder true) (bound step : Nat)
    (winds : (node.follow schedule step).Winds place flight)
    (bounded : flight.reporter.left flight.session.tupleCount ≤ bound) :
    ∃ later next, Wanes place flight (node.follow schedule later) next ∧
      next.reporter = .over := by
  induction bound generalizing step flight with
  | zero =>
    obtain ⟨-, -, begun⟩ := winds.stands (inOrder_follow order fair.caused step)
    refine ⟨step, flight, ⟨winds, rfl, rfl, rfl, Nat.le_refl _⟩, ?_⟩
    by_contra going
    exact absurd bounded (Nat.not_le_of_gt (Reporter.left_pos begun going _))
  | succ bound ih =>
    obtain ⟨later, further, runs, due⟩ := fair.reports step
    obtain ⟨more, rfl⟩ := Nat.exists_eq_add_of_le further
    obtain ⟨middle, wanes⟩ := wanes_follow order fair.caused winds more
    by_cases ceased : middle.reporter = .over
    · exact ⟨_, middle, wanes, ceased⟩
    · obtain ⟨next, waned, less⟩ := wanes_perform
        (inOrder_follow order fair.caused (step + more)) (fun _ => fair.caused (step + more))
        wanes.toWinds
      have ready := due middle.reporter (by simp [reporter?, wanes.held])
      have fewer := less runs ready ceased
      have waning := wanes.trans waned
      have shrinks : next.reporter.left next.session.tupleCount ≤ bound := by
        have before := wanes.fewer
        rw [wanes.count] at fewer
        rw [waning.count]
        omega
      obtain ⟨last, final, wanes', ceases⟩ := ih (step + more + 1) waning.toWinds shrinks
      exact ⟨last, final, waning.trans wanes', ceases⟩

/-! ## The end -/

private theorem countP_eq_one {events : List ClientEvent} {kind : ClientEvent → Bool}
    (atMostOne : events.countP kind ≤ 1) (tells : Tells events kind) : events.countP kind = 1 := by
  have some : events.countP kind ≠ 0 := fun none => (not_tells_iff kind).mpr none tells
  omega

private theorem lost_of_connected {client : Nat} (connected : node.isConnected client = true) :
    ¬ node.Lost client := by
  rintro ⟨queue, held, gone⟩
  simp [isConnected, held, gone] at connected

/-- Once the reporter of a completed session is over, its connected client was told the answer. -/
theorem Winds.answered (winds : node.Winds place flight) (order : node.InOrder told)
    (completed : flight.session.state = .completed) (ceased : flight.reporter = .over)
    (connected : node.isConnected flight.session.client = true) :
    (node.told place flight.session.client).countP isAllDone = 1 := by
  obtain ⟨sound, phase, begun⟩ := winds.stands order
  have present := session?_of_flight winds.held
  rw [← phase] at begun
  have agrees := (order.informed place flight.session present).agrees begun
  rw [phase, ceased] at agrees
  have tells := (agrees.2 completed).resolve_left (lost_of_connected connected)
  exact countP_eq_one sound.orderly.countP_isAllDone_le tells

/-- Before the reporter is over it has told no answer. -/
theorem Winds.unanswered (winds : node.Winds place flight) (order : node.InOrder told)
    (going : flight.reporter ≠ .over) :
    (node.told place flight.session.client).countP isAllDone = 0 := by
  obtain ⟨sound, phase, begun⟩ := winds.stands order
  have stands := sound.stands
  rw [phase] at stands
  rw [← not_tells_iff]
  cases reporter : flight.reporter with
  | unstarted => exact absurd (congrArg Reporter.phase reporter) begun
  | watching next tick =>
    rw [reporter] at stands
    exact Underway.unanswered stands
  | sending next tick seen event deadline =>
    rw [reporter] at stands
    exact stands.1.unanswered
  | _ => exact absurd reporter going

/-- The client has been told once that a session has failed, timed out or was cancelled. -/
structure ToldFailure (node : Node) (place : Nat) (session : Session) : Prop where
  state : session.state ∈ [.failed, .timedOut, .cancelled]
  once : (node.told place session.client).countP isError = 1
  named : ∀ event ∈ node.told place session.client,
    event.isError = true → event.queryId? = some session.id
  unanswered : (node.told place session.client).countP isAllDone = 0

/-- The client of a completed session has been told its answer once, or is still to be told. -/
structure ToldAnswer (node : Node) (place : Nat) (flight : Flight) : Prop where
  state : flight.session.state = .completed
  faultless : (node.told place flight.session.client).countP isError = 0
  once : flight.reporter = .over → (node.told place flight.session.client).countP isAllDone = 1
  unanswered : flight.reporter ≠ .over →
    (node.told place flight.session.client).countP isAllDone = 0
  /-- In every schedule that is fair to the reporter the answer is told, unless the client is gone
  before. -/
  answers : flight.reporter ≠ .over → ∀ schedule, node.Fair schedule place → ∃ step,
    (node.follow schedule step).isConnected flight.session.client = false ∨
    ((node.follow schedule step).told place flight.session.client).countP isAllDone = 1

private theorem Winds.toldFailure (winds : node.Winds place flight) (order : node.InOrder true)
    (completed : flight.session.state ≠ .completed)
    (connected : node.isConnected flight.session.client = true) :
    node.ToldFailure place flight.session := by
  obtain ⟨sound, phase, begun⟩ := winds.stands order
  have informs := order.informed place flight.session (session?_of_flight winds.held)
  have pursued : (node.desk place).Pursued := .inl (phase ▸ begun)
  have tells := (informs.heard rfl winds.final completed pursued).resolve_left
    (lost_of_connected connected)
  refine ⟨?_, countP_eq_one sound.orderly.countP_isError_le tells,
    fun event member _ => (sound.bears event member).queryId?, ?_⟩
  · have final := winds.final
    rw [Session.isTerminal] at final
    cases state : flight.session.state <;> simp_all [SessionState.isTerminal]
  · rw [← not_tells_iff]
    rintro ⟨event, member, answer⟩
    have bears := sound.bears event member
    cases event with
    | allDone id table => exact completed bears.2.1
    | accepted | tupleProgress | tupleDone | error => simp [isAllDone] at answer

private theorem Winds.toldAnswer (winds : node.Winds place flight) (order : node.InOrder true)
    (completed : flight.session.state = .completed)
    (connected : node.isConnected flight.session.client = true) :
    node.ToldAnswer place flight := by
  obtain ⟨sound, phase, begun⟩ := winds.stands order
  refine ⟨completed, ?_, fun ceased => winds.answered order completed ceased connected,
    fun going => winds.unanswered order going, fun _ schedule fair => ?_⟩
  · rw [← not_tells_iff]
    rintro ⟨event, member, error⟩
    have bears := sound.bears event member
    cases event with
    | error id kind message => exact bears.2.2 completed
    | accepted | tupleProgress | tupleDone | allDone => simp [isError] at error
  · obtain ⟨step, next, wanes, ended⟩ := fair.ceases order _ 0 winds (Nat.le_refl _)
    refine ⟨step, ?_⟩
    rw [← wanes.client]
    cases still : (node.follow schedule step).isConnected next.session.client with
    | false => exact .inl rfl
    | true =>
      have later := inOrder_follow order fair.caused step
      exact .inr (wanes.answered later (wanes.state.trans completed) ended still)

/-- In every run, the client of a session that was accepted and has ended learns of the end once, as
long as it is connected. Of a session that has failed, timed out or was cancelled it is told one
error, under the identifier of the session, and no answer. Of a completed session it is told no
error. The reporter is over and has told one answer, or goes on and has told none; and then it
tells the answer in every schedule that is fair to it, unless the client is gone before. -/
theorem learns_of_end (config : Config) (limits : OutputLimits) (identifiers : Nat → QueryId)
    (operations : List Operation)
    (caused : ∀ operation ∈ operations, operation.givesCause = true) (node : Node)
    (reached : (start config limits identifiers).performAll operations = node)
    (place : Nat) (flight : Flight) (found : node.flights[place]? = some flight)
    (accepted : Tells (node.told place flight.session.client) isAccepted)
    (final : flight.session.isTerminal = true)
    (connected : node.isConnected flight.session.client = true) :
    node.ToldFailure place flight.session ∨ node.ToldAnswer place flight := by
  have order : node.InOrder true := reached ▸
    inOrder_performAll (inOrder_start true config limits identifiers) fun _ => caused
  have winds : node.Winds place flight := ⟨found, final, accepted⟩
  by_cases completed : flight.session.state = .completed
  · exact .inr (winds.toldAnswer order completed connected)
  · exact .inl (winds.toldFailure order completed connected)

/-- The client of a query that is complete is told so in every fair schedule, unless it is gone. -/
theorem learns_of_end_completed : ∃ node flight,
    (start (.ofParty .ph) (Config.ofParty .ph).outputLimits QueryId.numbered).performAll
      [.addClient "front" 8 0 false, .beginQuery 0 Session.oneCount true,
        .receivePartial ⟨QueryId.numbered 0, 0, [⟨.db1, some 0, 0⟩, ⟨.db2, some 0, 0⟩],
          [⟨0, 1⟩]⟩] = node ∧
    node.flights[0]? = some flight ∧ flight.session.state = .completed ∧
    (node.told 0 flight.session.client).countP isAllDone = 0 ∧
    ∀ schedule, node.Fair schedule 0 → ∃ step,
      (node.follow schedule step).isConnected flight.session.client = false ∨
      ((node.follow schedule step).told 0 flight.session.client).countP isAllDone = 1 := by
  have learns := learns_of_end (.ofParty .ph) (Config.ofParty .ph).outputLimits QueryId.numbered
    [.addClient "front" 8 0 false, .beginQuery 0 Session.oneCount true,
      .receivePartial ⟨QueryId.numbered 0, 0, [⟨.db1, some 0, 0⟩, ⟨.db2, some 0, 0⟩], [⟨0, 1⟩]⟩]
    (by simp [Operation.givesCause]) _ rfl 0 _ rfl ⟨_, List.mem_cons_self, rfl⟩ rfl rfl
  rcases learns with failure | answer
  · have named : SessionState.completed ∈ [.failed, .timedOut, .cancelled] := failure.state
    simp at named
  · exact ⟨_, _, rfl, rfl, answer.state, answer.unanswered (by simp), answer.answers (by simp)⟩

end Node

end JointQuery
