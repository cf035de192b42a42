import JointQuery.Proofs.Config.Accepted
import JointQuery.Proofs.Node.Bytes

/-! The byte budgets, over every run. Whatever happens, the bytes of a party add up to its limit:
those that are free, those set aside for whoever waits, those of the frames on their way, and those
that reservations keep. -/
namespace JointQuery

namespace Node

variable {party : Party} {bound hand bytes want : Nat} {node after : Node} {index place : Nat}
  {task : TaskId} {own : Option Nat} {message : PartyMessage} {flight : Flight}

/-! ## Senders -/

private theorem Waits.modifyFlight (waits : node.Waits party bound task want) {f : Flight → Flight}
    (keeps : ∀ flight, node.flights[place]? = some flight → task = .sender place party →
      (f flight).senders.get party = flight.senders.get party ∧
        (f flight).session.startMessage = flight.session.startMessage) :
    (node.modifyFlight place f).Waits party bound task want := by
  cases task with
  | sender other toward =>
    obtain ⟨rfl, flight, backoff, index, held, parked, wants⟩ := waits
    by_cases same : other = place
    · subst same
      obtain ⟨sender, message⟩ := keeps flight held rfl
      refine ⟨rfl, f flight, backoff, index, ?_, sender.trans parked, by rw [wants, message]⟩
      rw [flights_modifyFlight held, if_pos rfl]
    · refine ⟨rfl, flight, backoff, index, ?_, parked, wants⟩
      simpa [Node.modifyFlight, Ne.symm same] using held
  | post | reservation | fanOut | reporter | writer | sweeper | delivery | request => exact waits

private theorem Working.modifyFlight (working : node.Working party bound task own hand)
    (place : Nat) {f : Flight → Flight} (keeps : ∀ flight, node.flights[place]? = some flight →
      (task = .sender place party ∨ (f flight).senders.get party = flight.senders.get party) ∧
        (f flight).session.startMessage = flight.session.startMessage) :
    (node.modifyFlight place f).Working party bound task own hand := by
  have still : (node.modifyFlight place f).Balanced party bound hand
      (node.WaitsBut party bound task own) := Balanced.of_same working rfl rfl rfl
  refine still.imp fun other want waits => waits.imp fun differs waits => ?_
  refine waits.modifyFlight fun flight held named => ?_
  obtain ⟨sender, message⟩ := keeps flight held
  exact ⟨sender.resolve_left fun mine => differs (named.trans mine.symm), message⟩

private theorem Working.setSender
    (working : node.Working party bound (.sender place party) own hand) (sender : Sender) :
    (node.setSender place party sender).Working party bound (.sender place party) own hand :=
  working.modifyFlight place fun _ _ => ⟨.inl rfl, rfl⟩

private theorem Working.endSender
    (working : node.Working party bound (.sender place party) own hand)
    (result : Except QueryError Unit) :
    (node.endSender place party result).Working party bound (.sender place party) own hand := by
  have noted := working.modifyFlight place (f := (·.noteEnded party result))
    fun _ _ => ⟨.inl rfl, rfl⟩
  rw [endSender_eq]
  exact noted.of_same rfl rfl rfl rfl rfl

private theorem Working.retrySender
    (working : node.Working party bound (.sender place party) own hand)
    (pools : node.Pools) (backoff : Backoff) (cause : QueryError) :
    (node.retrySender place party backoff cause).Working party bound (.sender place party) own
      hand := by
  have forgotten : (node.forgetChannel party cause).Working party bound (.sender place party) own
      hand := by
    unfold forgetChannel
    split
    · exact working.invalidate pools
    · exact working
  unfold Node.retrySender
  dsimp only
  split
  · exact forgotten.endSender _
  · split
    · exact (forgotten.setSender _).of_same rfl rfl rfl rfl rfl
    · have paused := fun sender => forgotten.setSender sender
      unfold setTimer
      exact (paused _).of_same rfl rfl rfl rfl rfl

/-- A sender that has tried to send its message waits for what it owes. -/
theorem Working.settleSender {sending : Sending} (held : node.flights[place]? = some flight)
    (pools : node.Pools) (backoff : Backoff) (index : Nat)
    (working : node.Working party bound (.sender place party)
      (sending.owes (flight.session.startMessage.bytesWithin bound)) 0) :
    (node.settleSender place party backoff index sending).Balances party bound := by
  cases sending with
  | sent => exact (Working.endSender working (.ok ())).balances (by simp [Sending.owes])
  | parked =>
    refine (Working.setSender working (.parked backoff index)).balances fun want owed => ?_
    refine ⟨rfl, { flight with senders := flight.senders.set party (.parked backoff index) }, backoff,
      index, ?_, PerParty.get_set_self .., (Option.some.inj owed).symm⟩
    exact (flights_modifyFlight held _ place).trans (if_pos rfl)
  | failed cause =>
    exact (Working.retrySender working pools backoff cause).balances (by simp [Sending.owes])

/-- Sending takes no channel away. -/
theorem Sends.pools {result : Node × Sending} (sends : Sends node task index message result)
    (pools : node.Pools) : result.1.Pools := by
  have kept {after : Node} (pooled : after.pooled = node.pooled)
      (leads : ∀ index party, node.LeadsTo index party → after.LeadsTo index party) :
      after.Pools := fun party shared held => leads _ _ (pools party shared (pooled ▸ held))
  cases sends with
  | put held running carries starts same =>
    refine kept same.pooled fun _ _ leads => LeadsTo.of_channels ?_ same.channels
    exact leads.setChannel held rfl
  | closed held same cause =>
    refine kept same.pooled fun _ _ leads => LeadsTo.of_channels ?_ same.channels
    exact leads.setChannel held rfl
  | refused same | parked same =>
    exact kept same.pooled fun _ _ leads => leads.of_channels same.channels

private theorem Working.attempt (working : node.Working party bound (.sender place party) none 0)
    (dispatches : node.Dispatches) (held : node.flights[place]? = some flight) (backoff : Backoff) :
    (node.attempt place party backoff flight.session.startMessage).Balances party bound := by
  have acquired := working.acquire
  have pools : (node.acquire party).1.Pools :=
    ((node.changes_acquire party : Changes false (fun _ => False) _ _).dispatches dispatches).pools
  have leads (index : Nat) : (node.acquire party).2 = .ok index →
      (node.acquire party).1.LeadsTo index party := leadsTo_acquire dispatches.pools
  rw [← node.flights_acquire party] at held
  unfold Node.attempt
  split <;> rename_i result <;> rw [result] at acquired pools leads held
  · exact (acquired.retrySender pools backoff _).balances (by simp)
  · rename_i reached index
    have taken : reached.Working party bound (.sender place party) none 0 := acquired
    have sent := taken.send (leads index rfl) flight.session.startMessage
    have sends := sends_send reached (.sender place party) index flight.session.startMessage
    exact Working.settleSender ((congrArg (·[place]?) sends.flights).trans held) (sends.pools pools)
      backoff index sent

private theorem Balances.pollSender (balances : node.Balances party bound)
    (dispatches : node.Dispatches)
    (place : Nat) : (node.pollSender place party).Balances party bound := by
  unfold Node.pollSender
  split
  · exact balances
  · rename_i flight held
    dsimp only
    split
    · exact balances
    · exact balances
    · rename_i backoff due pausing
      have working : node.Working party bound (.sender place party) none 0 := by
        refine balances.working fun want waits => ?_
        obtain ⟨-, other, _, _, found, parked, -⟩ := waits
        obtain rfl := Option.some.inj (held.symm.trans found)
        simp [pausing] at parked
      split
      · exact (working.endSender _).balances (by simp)
      · split
        · exact working.attempt dispatches held backoff
        · exact balances
    · rename_i backoff index parked
      have working : node.Working party bound (.sender place party)
          (some (flight.session.startMessage.bytesWithin bound)) 0 := by
        refine balances.working fun want waits => ?_
        obtain ⟨-, other, _, _, found, -, wants⟩ := waits
        obtain rfl := Option.some.inj (held.symm.trans found)
        exact congrArg some wants.symm
      split
      · exact (working.abandonBytes.endSender _).balances (by simp)
      · have leads := dispatches.parks place flight party backoff index held parked
        have sends := sends_resumeSend node (.sender place party) index flight.session.startMessage
        exact Working.settleSender ((congrArg (·[place]?) sends.flights).trans held)
          (sends.pools dispatches.pools) backoff index (working.resumeSend leads)

/-! ## Posts -/

private theorem Working.setPost (working : node.Working party bound (.post index) own hand)
    (next : Post) :
    Working { node with posts := node.posts.set index next } party bound (.post index) own hand := by
  have still : Balanced { node with posts := node.posts.set index next } party bound hand
      (node.WaitsBut party bound (.post index) own) := Balanced.of_same working rfl rfl rfl
  refine still.imp fun other want waits => waits.imp fun differs waits => ?_
  refine waits.mono (fun _ _ _ held => held) (fun place post named held => ?_)
    (fun _ leads => leads) fun _ _ _ held => held
  have elsewhere : index ≠ place := fun same => differs (named.trans (congrArg _ same.symm))
  exact (List.getElem?_set_ne elsewhere).trans held

private theorem Working.settlePost {post : Post} {sending : Sending}
    (held : node.posts[index]? = some post)
    (runs : post.result = none) (leads : node.LeadsTo post.channel party)
    (working : node.Working party bound (.post index)
      (sending.owes (post.message.bytesWithin bound)) 0) :
    (node.settlePost index post sending).Balances party bound := by
  cases sending with
  | parked =>
    have inside := (List.getElem?_eq_some_iff.mp held).1
    refine (Working.setPost working { post with parked := true }).balances fun want owed => ?_
    exact ⟨_, List.getElem?_set_self inside, rfl, runs, leads, (Option.some.inj owed).symm⟩
  | sent =>
    have noted := Working.setPost working { post with result := some (.ok ()) }
    refine Working.balances (?_ : Working _ party bound (.post index) none 0) (by simp)
    exact noted.of_same rfl rfl rfl rfl rfl
  | failed cause =>
    have noted := Working.setPost working { post with result := some (.error cause) }
    refine Working.balances (?_ : Working _ party bound (.post index) none 0) (by simp)
    exact noted.of_same rfl rfl rfl rfl rfl

private theorem Sends.leads {result : Node × Sending} (sends : Sends node task index message result)
    {other : Nat} (leads : node.LeadsTo other party) : result.1.LeadsTo other party := by
  cases sends with
  | put held running carries starts same =>
    refine LeadsTo.of_channels ?_ same.channels
    exact leads.setChannel held rfl
  | closed held same cause =>
    refine LeadsTo.of_channels ?_ same.channels
    exact leads.setChannel held rfl
  | refused same | parked same => exact leads.of_channels same.channels

private theorem Balances.pollPost {post : Post} (balances : node.Balances party bound)
    (held : node.posts[index]? = some post) (leads : node.LeadsTo post.channel party) :
    (node.pollPost index).Balances party bound := by
  unfold Node.pollPost
  rw [held]
  dsimp only
  split
  · exact balances
  · rename_i runs
    split
    · have working : node.Working party bound (.post index)
          (some (post.message.bytesWithin bound)) 0 := by
        refine balances.working fun want waits => ?_
        obtain ⟨other, found, -, -, -, wants⟩ := waits
        obtain rfl := Option.some.inj (held.symm.trans found)
        exact congrArg some wants.symm
      have sends := sends_resumeSend node (.post index) post.channel post.message
      exact Working.settlePost ((congrArg (·[index]?) (posts_resumeSend ..)).trans held) runs
        (sends.leads leads) (working.resumeSend leads)
    · rename_i unparked
      have working : node.Working party bound (.post index) none 0 := by
        refine balances.working fun want waits => ?_
        obtain ⟨other, found, parked, -⟩ := waits
        obtain rfl := Option.some.inj (held.symm.trans found)
        exact absurd parked unparked
      have sends := sends_send node (.post index) post.channel post.message
      exact Working.settlePost ((congrArg (·[index]?) (posts_send ..)).trans held) runs
        (sends.leads leads) (working.send leads post.message)

/-! ## Reservations -/

/-- A reservation moves on; the bytes that it does not keep are in hand. -/
theorem Working.setReservation {reservation : Reservation}
    (working : node.Working party bound (.reservation index) own hand)
    (held : node.reservations[index]? = some reservation) (toward : reservation.party = party)
    (state : ReservationState) (left : Nat)
    (total : (if state = .granted then reservation.bytes else 0) + left =
      (if reservation.state = .granted then reservation.bytes else 0) + hand) :
    (node.setReservation index { reservation with state := state }).Working party bound
      (.reservation index) own left := by
  refine ⟨working.positive, working.limit, working.sound, ?_, fun other want listed => ?_,
    working.channels, fun place found present leads => ?_⟩
  · have kept : (node.setReservation index { reservation with state := state }).keptBytes party +
        (if reservation.state = .granted then reservation.bytes else 0) =
          node.keptBytes party + if state = .granted then reservation.bytes else 0 := by
      have kept := keptBytes_setReservation held { reservation with state := state } party
      simpa only [toward, true_and] using kept
    have before := working.total
    have budgets : (node.setReservation index { reservation with state := state }).budgets =
        node.budgets := rfl
    have queued : (node.setReservation index { reservation with state := state }).queuedBytes party =
        node.queuedBytes party := rfl
    rw [budgets, queued]
    omega
  · refine (working.waits other want listed).imp fun differs waits => waits.mono ?_ ?_ ?_ ?_
    · exact fun _ _ _ held => held
    · exact fun _ _ _ held => held
    · exact fun _ leads => leads
    · intro place found named present
      have elsewhere : index ≠ place := fun same => differs (named.trans (congrArg _ same.symm))
      exact (List.getElem?_set_ne elsewhere).trans present
  · have bounds := working.reservations
    rw [Node.setReservation, List.getElem?_set] at present
    split at present
    · split at present
      · obtain rfl := Option.some.inj present
        exact bounds index reservation held toward
      · cases present
    · exact bounds place found present leads

private theorem Working.grant {reservation : Reservation}
    (working : node.Working party bound (.reservation index) none reservation.bytes)
    (held : node.reservations[index]? = some reservation) (toward : reservation.party = party)
    (kept : reservation.state ≠ .granted) :
    (node.grant index reservation).Balances party bound := by
  have granted := working.setReservation held toward .granted 0 (by simp [kept])
  have noted : (node.grant index reservation).Working party bound (.reservation index) none 0 :=
    granted.of_same rfl rfl rfl rfl rfl
  exact noted.balances (by simp)

theorem Waits.reservation {reservation : Reservation}
    (held : node.reservations[index]? = some reservation)
    (waits : node.Waits party bound (.reservation index) want) :
    reservation.state = .waiting ∧ reservation.bytes = want := by
  have same : reservation = ⟨party, want, .waiting⟩ := Option.some.inj (held.symm.trans waits)
  rw [same]
  exact ⟨rfl, rfl⟩

private theorem Balances.pollReservation {reservation : Reservation}
    (balances : node.Balances reservation.party bound)
    (held : node.reservations[index]? = some reservation) :
    (node.pollReservation index).Balances reservation.party bound := by
  obtain ⟨positive, least⟩ := balances.reservations index reservation held rfl
  unfold Node.pollReservation
  rw [held]
  dsimp only
  split
  · rename_i unstarted
    have working : node.Working reservation.party bound (.reservation index) none 0 := by
      refine balances.working fun want waits => ?_
      have state := (waits.reservation held).1
      simp [unstarted] at state
    have granted := working.reserveBytes_granted reservation.bytes
    have refused := working.reserveBytes_refused positive least
    split <;> rename_i reserving <;> rw [reserving] at granted refused <;>
      have still := (congrArg (fun result => result.1.reservations[index]?) reserving).symm.trans
        held
    · have taken := granted rfl
      rw [Nat.zero_add] at taken
      exact taken.grant still rfl (by simp [unstarted])
    · have waiting := (refused rfl).setReservation still rfl .waiting 0 (by simp [unstarted])
      refine waiting.balances fun want owed => ?_
      have inside := (List.getElem?_eq_some_iff.mp still).1
      obtain rfl := Option.some.inj owed
      exact List.getElem?_set_self inside
  · rename_i waiting
    have working : node.Working reservation.party bound (.reservation index)
        (some reservation.bytes) 0 := by
      exact balances.working fun want waits => congrArg some (waits.reservation held).2
    split
    · rename_i served
      obtain ⟨want, same, left⟩ := working.leave served
      rw [← Option.some.inj same, Nat.zero_add] at left
      exact left.grant held rfl (by simp [waiting])
    · exact balances
  · exact balances
  · exact balances

private theorem Balances.releaseReservation {reservation : Reservation}
    (balances : node.Balances reservation.party bound)
    (held : node.reservations[index]? = some reservation) :
    (node.releaseReservation index).Balances reservation.party bound := by
  unfold Node.releaseReservation
  rw [held]
  dsimp only
  split
  · rename_i granted
    have working : node.Working reservation.party bound (.reservation index) none 0 := by
      refine balances.working fun want waits => ?_
      have state := (waits.reservation held).1
      simp [granted] at state
    have ended := working.setReservation held rfl .ended (0 + reservation.bytes)
      (by simp [granted])
    exact ended.giveBytes.balances (by simp)
  · exact balances

private theorem Balances.abandonReservation {reservation : Reservation}
    (balances : node.Balances reservation.party bound)
    (held : node.reservations[index]? = some reservation) :
    (node.abandonReservation index).Balances reservation.party bound := by
  unfold Node.abandonReservation
  rw [held]
  dsimp only
  split
  · rename_i waiting
    have working : node.Working reservation.party bound (.reservation index)
        (some reservation.bytes) 0 :=
      balances.working fun want waits => congrArg some (waits.reservation held).2
    have ended := working.setReservation held rfl .ended 0 (by simp [waiting])
    exact ended.abandonBytes.balances (by simp)
  · exact balances

private theorem Balances.addReservation (balances : node.Balances party bound) (length : Nat) :
    (node.addReservation party length).1.Balances party bound := by
  have limit := balances.limit
  have positive := balances.positive
  refine ⟨positive, limit, balances.sound, ?_, fun task want listed => ?_, balances.channels,
    fun place found present toward => ?_⟩
  · have kept : (node.addReservation party length).1.keptBytes party = node.keptBytes party := by
      simp [keptBytes_eq, Node.addReservation, wake]
    have queued : (node.addReservation party length).1.queuedBytes party =
        node.queuedBytes party := rfl
    rw [kept, queued]
    exact balances.total
  · refine (balances.waits task want listed).mono ?_ ?_ ?_ ?_
    · exact fun _ _ _ held => held
    · exact fun _ _ _ held => held
    · exact fun _ leads => leads
    · exact fun _ _ _ held =>
        (List.getElem?_append_left (List.getElem?_eq_some_iff.mp held).1).trans held
  · by_cases last : place = node.reservations.length
    · simp only [Node.addReservation, wake, last, List.getElem?_concat_length,
        Option.some.injEq] at present
      subst present
      rw [← limit]
      exact ⟨Budget.need_pos .., Budget.need_le (limit.symm ▸ positive) length⟩
    · simp only [Node.addReservation, wake, getElem?_concat_of_ne last] at present
      exact balances.reservations place found present toward

/-! ## Runs -/

theorem Balances.of_same (balances : node.Balances party bound)
    (budgets : after.budgets = node.budgets) (channels : after.channels = node.channels)
    (reservations : after.reservations = node.reservations) (flights : after.flights = node.flights)
    (posts : after.posts = node.posts) : after.Balances party bound := by
  refine (Balanced.of_same balances budgets channels reservations).imp fun task want waits => ?_
  exact waits.mono (fun _ _ _ held => flights ▸ held) (fun _ _ _ held => posts ▸ held)
    (fun _ leads => leads.of_channels channels) fun _ _ _ held => reservations ▸ held

private theorem Balances.pollFanOut (balances : node.Balances party bound)
    (dispatches : node.Dispatches)
    (place : Nat) : (node.pollFanOut place).Balances party bound := by
  unfold Node.pollFanOut
  split
  · exact balances
  · rename_i flight held
    split
    · exact balances
    · exact balances
    · rename_i starting
      have unbegun := (dispatches.flights place flight held).unbegun (.inr starting) party
      have working : node.Working party bound (.sender place party) none 0 := by
        refine balances.working fun want waits => ?_
        obtain ⟨-, other, _, _, found, parked, -⟩ := waits
        obtain rfl := Option.some.inj (held.symm.trans found)
        simp [unbegun] at parked
      rw [startSenders_eq]
      have started := working.modifyFlight place (f := fun flight =>
        { flight with
          senders := node.directory.targets.foldl (fun senders party =>
            senders.set party (.pausing node.config.senderBackoff node.now)) flight.senders
          fanOut := .joining [] }) fun _ _ => ⟨.inl rfl, rfl⟩
      refine Working.balances (?_ : Working _ party bound (.sender place party) none 0) (by simp)
      exact started.of_same rfl rfl rfl rfl rfl
    · rename_i ended joining
      exact balances.apart (apart_join held joining)

private theorem Balances.poll (balances : node.Balances party bound) (dispatches : node.Dispatches)
    (task : TaskId) : (node.poll task).Balances party bound := by
  by_cases starts : ∃ place, task = .fanOut place
  · obtain ⟨place, rfl⟩ := starts
    exact balances.pollFanOut dispatches place
  · by_cases aside : party ∈ node.partners (.run task)
    · cases task with
      | sender place other =>
        obtain rfl := (mem_partners_sender_iff dispatches).mp aside
        exact balances.pollSender dispatches place
      | writer index => exact balances.pollWriter aside
      | post index =>
        obtain ⟨post, held, leads⟩ := aside
        exact balances.pollPost held leads
      | reservation index =>
        obtain ⟨reservation, held, rfl⟩ := aside
        exact balances.pollReservation held
      | fanOut | reporter | sweeper | delivery | request => exact aside.elim
    · exact balances.apart (apart_poll dispatches.pools aside (not_exists.mp starts))

/-- The operations on the channels of a party itself. -/
theorem Balances.pools (balances : node.Balances party bound) (dispatches : node.Dispatches) :
    (node.acquire party).1.Balances party bound ∧ (node.invalidate party).Balances party bound ∧
      ∀ index, node.LeadsTo index party → (node.closeChannel index).Balances party bound := by
  have working : node.Working party bound .sweeper none 0 :=
    balances.working fun want waits => waits.elim
  refine ⟨?_, ?_, fun index leads => ?_⟩
  · exact working.acquire.balances (by simp)
  · exact (working.invalidate dispatches.pools).balances (by simp)
  · exact (working.closeChannel leads).balances (by simp)

theorem balances_perform (order : node.InOrder false) (balances : node.Balances party bound)
    (operation : Operation) : (node.perform operation).Balances party bound := by
  have ran (task : TaskId) : (node.runTask task).Balances party bound := by
    have dispatches : Dispatches
        { node with agenda := { node.agenda with ready := node.agenda.ready.erase task } } :=
      order.dispatches.of_same rfl rfl rfl rfl
    have erased : Balances
        { node with agenda := { node.agenda with ready := node.agenda.ready.erase task } } party
        bound := balances.of_same rfl rfl rfl rfl rfl
    exact erased.poll dispatches task
  obtain ⟨acquired, invalidated, closed⟩ := balances.pools order.dispatches
  by_cases aside : party ∈ node.partners operation
  · cases operation with
    | run task => exact ran task
    | acquire other =>
      obtain rfl : party = other := aside
      exact acquired
    | invalidate other =>
      obtain rfl : party = other := aside
      exact invalidated
    | closeChannel index => exact closed index aside
    | addReservation other length =>
      obtain rfl : party = other := aside
      exact balances.addReservation length
    | releaseReservation index =>
      obtain ⟨reservation, held, rfl⟩ := aside
      exact balances.releaseReservation held
    | abandonReservation index =>
      obtain ⟨reservation, held, rfl⟩ := aside
      exact balances.abandonReservation held
    | refuse | accept | stall | resume | breakLinks | stopListening =>
      exact balances.of_same rfl rfl rfl rfl rfl
    | _ => exact aside.elim
  · cases operation with
    | run task => exact ran task
    | moveTo => exact balances.of_same rfl rfl rfl rfl rfl
    | _ =>
      exact balances.apart (apart_perform order.dispatches.pools aside (by simp) (by simp))

theorem balances_performAll (order : node.InOrder false) (balances : node.Balances party bound)
    (operations : List Operation) : (node.performAll operations).Balances party bound := by
  induction operations generalizing node with
  | nil => exact balances
  | cons operation rest ih =>
    exact ih (inOrder_perform order (by simp)) (balances_perform order balances operation)

theorem balances_start (config : Config) (limits : OutputLimits) (identifiers : Nat → QueryId)
    (positive : 0 < limits.get party) :
    (start config limits identifiers).Balances party (limits.get party) := by
  have budget : (start config limits identifiers).budgets.get party =
      Budget.ofLimit (limits.get party) := PerParty.get_map ..
  refine ⟨positive, ?_, ?_, ?_, fun task want listed => ?_, fun index channel held => ?_,
    fun index reservation held => ?_⟩
  · rw [budget]
    rfl
  · rw [budget]
    exact Budget.sound_ofLimit _
  · rw [budget]
    rfl
  · rw [budget] at listed
    cases listed
  · cases held
  · cases held

end Node

/-- Every budget that can be configured has bytes. -/
theorem OutputLimits.get_pos {given : PerParty (Option Int)} {limits : OutputLimits}
    (built : ofKib given = .ok limits) (party : Party) : 0 < limits.get party := by
  have least := ((sized_ofKib built).bytes party).2.1
  omega

namespace Node

/-- The bytes toward a party are accounted for. -/
structure Conserves (node : Node) (party : Party) (bound : Nat) : Prop where
  /-- Each frame that is queued or being written has taken those of its line, but never nothing and
  never more than the limit. -/
  taken : ∀ frame ∈ node.queued party,
    frame.reserved = min (max frame.message.line.utf8ByteSize 1) bound
  within : ((node.queued party).map (·.reserved)).sum ≤ bound
  /-- Nothing else has any but whoever waits and the reservations that were granted. -/
  total : (node.budgets.get party).free + Budget.aside (node.budgets.get party).waiters +
    ((node.queued party).map (·.reserved)).sum + node.keptBytes party = bound
  /-- Whoever waits is a sender or a post or a reservation, and has no more than it wants. -/
  waiters : ∀ waiter ∈ (node.budgets.get party).waiters, waiter.held ≤ waiter.want ∧
    node.Waits party bound waiter.task waiter.want
  /-- All are free when nobody waits and nothing is on the way. -/
  freed : node.queued party = [] → node.keptBytes party = 0 →
    (∀ task want, ¬ node.Waits party bound task want) → (node.budgets.get party).free = bound
  /-- When all are free every reservation is granted at once. -/
  granted : (node.budgets.get party).free = bound → ∀ task length,
    (node.reserveBytes task party ((node.budgets.get party).need length)).2 = true

private theorem Balances.conserves {node : Node} (balances : node.Balances party bound) :
    node.Conserves party bound := by
  have total := balances.total
  have sum : node.queuedBytes party = ((node.queued party).map (·.reserved)).sum := rfl
  have waits (waiter : Waiter TaskId) (member : waiter ∈ (node.budgets.get party).waiters) :
      node.Waits party bound waiter.task waiter.want :=
    balances.waits _ _ (Budget.mem_line.mpr ⟨waiter, member, rfl, rfl⟩)
  refine ⟨fun frame member => ?_, by omega, by omega, fun waiter member => ?_, fun none kept quiet => ?_,
    fun free task length => ?_⟩
  · obtain ⟨channel, inside, found⟩ := List.mem_flatMap.mp member
    obtain ⟨index, held⟩ := List.getElem?_of_mem inside
    split at found
    · rename_i toward
      have put : frame ∈ channel.frames := by
        rw [channel.frames_eq]
        simp [found]
      have reserved := (balances.channels index channel held toward).reserved frame put
      rwa [PartyMessage.bytesWithin] at reserved
    · cases found
  · exact ⟨balances.sound.within waiter member, waits waiter member⟩
  · have nobody : (node.budgets.get party).waiters = [] := by
      refine List.eq_nil_iff_forall_not_mem.mpr fun waiter member => ?_
      exact quiet _ _ (waits waiter member)
    rw [sum, none, nobody, kept] at total
    simpa [Budget.aside] using total
  · have enough : (node.budgets.get party).need length ≤ (node.budgets.get party).free := by
      rw [free, ← balances.limit]
      exact Budget.need_le (balances.limit.symm ▸ balances.positive) length
    unfold reserveBytes Budget.reserve
    simp [enough]

/-- The bytes toward a party are accounted for in every run, under any budgets that can be
configured. -/
theorem bytes_conserved (config : Config) (given : PerParty (Option Int)) (limits : OutputLimits)
    (built : OutputLimits.ofKib given = .ok limits) (identifiers : Nat → QueryId)
    (operations : List Operation) (node : Node)
    (reached : (start config limits identifiers).performAll operations = node) (party : Party) :
    node.Conserves party (limits.get party) := by
  subst reached
  have started := inOrder_start false config limits identifiers
  have balances := balances_start config limits identifiers (OutputLimits.get_pos built party)
  exact (balances_performAll started balances operations).conserves

/-- A query that is brought to a party, whose frame is not written yet. -/
def queuedRun : List Operation :=
  [.addClient "front" 8 0 false, .beginQuery 0 Session.oneCount true, .run (.fanOut 0),
    .run (.sender 0 .db1)]

/-- The bytes of the frame are missing from the budget until it is written. -/
theorem bytes_conserved_queued : ∃ node frame,
    (start (.ofParty .ph) .standard QueryId.numbered).performAll queuedRun = node ∧
    node.queued .db1 = [frame] ∧ frame.reserved ≤ OutputLimits.standard.get .db1 ∧
    (node.budgets.get .db1).free + Budget.aside (node.budgets.get .db1).waiters + frame.reserved +
      node.keptBytes .db1 = OutputLimits.standard.get .db1 := by
  have run : ((start (.ofParty .ph) .standard QueryId.numbered).performAll queuedRun |>.queued
      .db1).length = 1 := by decide +kernel
  obtain ⟨frame, one⟩ := List.length_eq_one_iff.mp run
  have conserves := bytes_conserved (.ofParty .ph) (.all none) .standard rfl QueryId.numbered
    queuedRun _ rfl .db1
  have within := conserves.within
  have total := conserves.total
  rw [one] at within total
  simp only [List.map_singleton, List.sum_singleton] at within total
  exact ⟨_, frame, rfl, one, within, total⟩

end Node

end JointQuery
