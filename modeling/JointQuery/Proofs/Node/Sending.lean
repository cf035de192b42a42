import JointQuery.Proofs.Node.Telling

/-! The changes that make up the work toward the parties: dialing and closing channels, putting
messages on them, and the senders of a session. A frame starts a session only if the sender of that
session has put it on a channel to its party. -/
namespace JointQuery

/-- The work for a session after a sender has ended, which whoever waits for the senders sees. -/
def Flight.noteEnded (flight : Flight) (party : Party) (result : Except QueryError Unit) : Flight :=
  { flight with
    senders := flight.senders.set party (.ended result)
    fanOut := match flight.fanOut with
      | .joining others => .joining (others ++ [party])
      | other => other }

theorem Flight.fanOut_noteEnded (flight : Flight) (party : Party)
    (result : Except QueryError Unit) :
    (flight.noteEnded party result).fanOut = flight.fanOut ∨
      flight.fanOut.isBegun = true ∧ (flight.noteEnded party result).fanOut.isBegun = true := by
  unfold noteEnded
  cases flight.fanOut with
  | joining others => exact .inr ⟨rfl, rfl⟩
  | _ => exact .inl rfl

namespace Node

variable {told : Bool} {active : Nat → Prop} {node : Node} {index place : Nat} {party : Party}
  {flight : Flight}
  {task : TaskId} {message : PartyMessage}

/-- The shared channels are channels to their parties. -/
def Pools (node : Node) : Prop :=
  ∀ party index, node.pooled.get party = some index → node.LeadsTo index party

/-- A sender that waits for bytes does so on a channel to its party. -/
def Parks (node : Node) : Prop :=
  ∀ (place : Nat) (flight : Flight) (party : Party) (backoff : Backoff) (index : Nat),
    node.flights[place]? = some flight → flight.senders.get party = .parked backoff index →
      node.LeadsTo index party

/-! ## Channels -/

private theorem changes_dial (node : Node) (endpoint : Endpoint) :
    Changes told active node (node.dial endpoint).1 := by
  simp only [dial]
  split
  · exact (Change.unpooled endpoint.party).upTo ⟨rfl, rfl, rfl, rfl, rfl, rfl, rfl⟩
  · exact (Change.opened endpoint.party).upTo ⟨rfl, rfl, rfl, rfl, rfl, rfl, rfl⟩

theorem changes_acquire (node : Node) (party : Party) :
    Changes told active node (node.acquire party).1 := by
  simp only [acquire]
  split
  · exact .refl
  · split
    · exact .refl
    · exact node.changes_dial _

theorem flights_acquire (node : Node) (party : Party) :
    (node.acquire party).1.flights = node.flights := by
  simp only [acquire]
  split
  · rfl
  · split
    · rfl
    · simp only [dial]
      split <;> rfl

private theorem leadsTo_dial {endpoint : Endpoint} (dialed : (node.dial endpoint).2 = .ok index) :
    (node.dial endpoint).1.LeadsTo index endpoint.party := by
  by_cases refused : (node.links.get endpoint.party).refused = true
  · simp only [dial, if_pos refused] at dialed
    cases dialed
  · simp only [dial, if_neg refused] at dialed ⊢
    obtain rfl := Except.ok.inj dialed
    exact ⟨.fresh endpoint.party, List.getElem?_concat_length .., rfl⟩

theorem leadsTo_acquire (pools : node.Pools) (acquired : (node.acquire party).2 = .ok index) :
    (node.acquire party).1.LeadsTo index party := by
  simp only [acquire] at acquired ⊢
  split at acquired
  · cases acquired
  · rename_i endpoint found
    have named : endpoint.party = party := Directory.party_of_find? found
    split at acquired
    · rename_i shared opened
      obtain rfl := Except.ok.inj acquired
      obtain ⟨pooled, -⟩ := Option.filter_eq_some_iff.mp opened
      exact pools party shared pooled
    · exact named ▸ leadsTo_dial acquired

theorem changes_closeChannel (node : Node) (index : Nat) :
    Changes told active node (node.closeChannel index) := by
  simp only [closeChannel]
  split
  · rename_i channel held
    exact .single (.closed held)
  · exact .refl

theorem changes_invalidate (node : Node) (party : Party) :
    Changes told active node (node.invalidate party) := by
  simp only [invalidate]
  split
  · rename_i index _
    have closed : Changes told active node (node.closeChannel index) :=
      node.changes_closeChannel index
    refine closed.trans ((Change.unpooled party).upTo ?_)
    have same : (node.closeChannel index).pooled = node.pooled := by
      simp only [closeChannel]
      split <;> rfl
    exact ⟨rfl, rfl, rfl, by rw [same], rfl, rfl, rfl⟩
  · exact .refl

/-! ## Bytes -/

theorem beside_giveBytes (node : Node) (party : Party) (bytes : Nat) :
    node.Beside (node.giveBytes party bytes) := ⟨rfl, rfl, rfl, rfl, rfl, rfl, rfl⟩

private theorem beside_reserveBytes (node : Node) (task : TaskId) (party : Party) (bytes : Nat) :
    node.Beside (node.reserveBytes task party bytes).1 := ⟨rfl, rfl, rfl, rfl, rfl, rfl, rfl⟩

private theorem beside_abandonBytes (node : Node) (task : TaskId) (party : Party) :
    node.Beside (node.abandonBytes task party) := ⟨rfl, rfl, rfl, rfl, rfl, rfl, rfl⟩

/-! ## Messages -/

/-- What can come of sending a message on the channel at a place. -/
inductive Sends (node : Node) (task : TaskId) (index : Nat) (message : PartyMessage) :
    Node × Sending → Prop where
  | put (held : node.channels[index]? = some channel) (running : channel.running = true)
      (carries : frame.message = message) (starts : frame.session = task.startedSession?)
      (same : (node.setChannel index (channel.push frame)).Beside after) :
      Sends node task index message (after, .sent)
  | closed (held : node.channels[index]? = some channel)
      (same : (node.setChannel index { channel with closed := true }).Beside after)
      (cause : QueryError) : Sends node task index message (after, .failed cause)
  | refused (same : node.Beside after) (cause : QueryError) :
      Sends node task index message (after, .failed cause)
  | parked (same : node.Beside after) : Sends node task index message (after, .parked)

/-- Bytes that were reserved before make no difference. -/
private theorem sends_putFrame {reserved : Node} {channel : Channel}
    (held : node.channels[index]? = some channel) (same : node.Beside reserved) :
    Sends node task index message (reserved.putFrame task index channel message) := by
  have put (next : Channel) :
      (node.setChannel index next).Beside (reserved.setChannel index next) :=
    ⟨same.directory, same.delivered, congrArg (·.set index next) same.channels, same.pooled,
      same.clients, same.flights, same.requests⟩
  simp only [putFrame]
  split
  · rename_i running
    exact .put held running rfl rfl ((put _).trans ⟨rfl, rfl, rfl, rfl, rfl, rfl, rfl⟩)
  · exact .closed held ((put _).trans (beside_giveBytes ..)) _

theorem sends_send (node : Node) (task : TaskId) (index : Nat) (message : PartyMessage) :
    Sends node task index message (node.send task index message) := by
  simp only [send]
  split
  · exact .parked (.refl node)
  · rename_i channel held
    split
    · have same := node.beside_reserveBytes task channel.party
        (node.messageBytes channel.party message)
      split <;> rename_i reserving <;> rw [reserving] at same
      · exact sends_putFrame held same
      · exact .parked same
    · exact .refused (.refl node) _

theorem sends_resumeSend (node : Node) (task : TaskId) (index : Nat) (message : PartyMessage) :
    Sends node task index message (node.resumeSend task index message) := by
  simp only [resumeSend]
  split
  · exact .parked (.refl node)
  · rename_i channel held
    split
    · exact sends_putFrame held ⟨rfl, rfl, rfl, rfl, rfl, rfl, rfl⟩
    · exact .parked (.refl node)

theorem Sends.flights {result : Node × Sending} (sends : Sends node task index message result) :
    result.1.flights = node.flights := by
  cases sends with
  | put held running carries starts same => exact same.flights
  | closed held same cause => exact same.flights
  | refused same | parked same => exact same.flights

/-- A message that starts no session. -/
theorem Sends.changes {result : Node × Sending} (sends : Sends node task index message result)
    (apart : task.startedSession? = none) : Changes told active node result.1 := by
  cases sends with
  | put held running carries starts same =>
    exact (Change.posted held running (starts.trans apart)).upTo same
  | closed held same cause => exact (Change.closed held).upTo same
  | refused same | parked same => exact same.changes

theorem changes_pollPost (node : Node) (index : Nat) :
    Changes told active node (node.pollPost index) := by
  have settled (node : Node) (post : Post) (sending : Sending) :
      node.Beside (node.settlePost index post sending) := by
    cases sending <;> exact ⟨rfl, rfl, rfl, rfl, rfl, rfl, rfl⟩
  simp only [pollPost]
  split
  · exact .refl
  · split
    · exact .refl
    · refine Changes.beside ?_ (settled ..)
      split
      · exact (sends_resumeSend ..).changes rfl
      · exact (sends_send ..).changes rfl

/-! ## Reservations -/

theorem beside_pollReservation (node : Node) (index : Nat) :
    node.Beside (node.pollReservation index) := by
  simp only [pollReservation]
  split
  · exact .refl node
  · rename_i reservation _
    split
    · have same := node.beside_reserveBytes (.reservation index) reservation.party
        reservation.bytes
      split <;> rename_i reserving <;> rw [reserving] at same
      · exact same.trans ⟨rfl, rfl, rfl, rfl, rfl, rfl, rfl⟩
      · exact same.trans ⟨rfl, rfl, rfl, rfl, rfl, rfl, rfl⟩
    · split
      · exact ⟨rfl, rfl, rfl, rfl, rfl, rfl, rfl⟩
      · exact .refl node
    · exact .refl node
    · exact .refl node

theorem beside_releaseReservation (node : Node) (index : Nat) :
    node.Beside (node.releaseReservation index) := by
  simp only [releaseReservation]
  split
  · split
    · exact ⟨rfl, rfl, rfl, rfl, rfl, rfl, rfl⟩
    · exact .refl node
  · exact .refl node

theorem beside_abandonReservation (node : Node) (index : Nat) :
    node.Beside (node.abandonReservation index) := by
  simp only [abandonReservation]
  split
  · split
    · exact ⟨rfl, rfl, rfl, rfl, rfl, rfl, rfl⟩
    · exact .refl node
  · exact .refl node

/-! ## Senders -/

private theorem Beside.modifyFlight {after : Node} (same : node.Beside after) (place : Nat)
    (f : Flight → Flight) : (node.modifyFlight place f).Beside (after.modifyFlight place f) :=
  ⟨same.directory, same.delivered, same.channels, same.pooled, same.clients,
    congrArg (·.modify place f) same.flights, same.requests⟩

private theorem modifyFlight_modifyFlight (node : Node) (place : Nat) (f g : Flight → Flight) :
    (node.modifyFlight place f).modifyFlight place g =
      node.modifyFlight place fun flight => g (f flight) := by
  simp only [modifyFlight, List.modify_modify_eq]
  rfl

theorem endSender_eq (node : Node) (place : Nat) (party : Party)
    (result : Except QueryError Unit) : node.endSender place party result =
      ((node.modifyFlight place (·.noteEnded party result)).cancelTimer (.sender place party)
        .retry).wake (.fanOut place) := by
  have noted (flight : Flight) : flight.noteEnded party result =
      match flight.fanOut with
      | .joining others => { flight with
          senders := flight.senders.set party (.ended result)
          fanOut := .joining (others ++ [party]) }
      | _ => { flight with senders := flight.senders.set party (.ended result) } := by
    obtain ⟨session, fanOut, senders, reporter⟩ := flight
    cases fanOut <;> rfl
  have twice := node.modifyFlight_modifyFlight place
    (fun flight => { flight with senders := flight.senders.set party (.ended result) })
    fun flight => match flight.fanOut with
      | .joining others => { flight with fanOut := .joining (others ++ [party]) }
      | _ => flight
  have same : node.modifyFlight place (·.noteEnded party result) = _ :=
    (congrArg (node.modifyFlight place) (funext noted)).trans twice.symm
  rw [same]
  rfl

/-- A sender goes on, or ends, without having sent its message. -/
theorem changes_setSender (held : node.flights[place]? = some flight)
    (underway : (flight.senders.get party).isUnderway = true) {sender : Sender}
    (begun : sender ≠ .unstarted) (unsent : sender.isSent = false)
    (leads : ∀ backoff index, sender = .parked backoff index → node.LeadsTo index party) :
    Changes told active node (node.setSender place party sender) :=
  .single (.flew held (.tried underway begun unsent leads))

private theorem changes_modifyFlight (node : Node) (place : Nat) {f : Flight → Flight}
    (flies : ∀ flight, node.flights[place]? = some flight →
      f flight = flight ∨ Flies told active node place flight (f flight)) :
    Changes told active node (node.modifyFlight place f) := by
  cases held : node.flights[place]? with
  | none =>
    rw [modifyFlight_of_same fun flight found => absurd (held.symm.trans found) (by simp)]
  | some flight =>
    rcases flies flight held with same | flies
    · rw [modifyFlight_of_same fun other found => Option.some.inj (held.symm.trans found) ▸ same]
    · exact .single (.flew held flies)

/-- Once a sender has ended, whoever waits for it is told. -/
theorem changes_endSender {reached : Node} {result : Except QueryError Unit}
    (ends : Changes told active node (reached.setSender place party (.ended result))) :
    Changes told active node (reached.endSender place party result) := by
  simp only [endSender]
  refine (ends.trans (changes_modifyFlight _ place fun flight _ => ?_)).trans
    (Beside.changes ⟨rfl, rfl, rfl, rfl, rfl, rfl, rfl⟩)
  cases fanOut : flight.fanOut with
  | joining others => exact .inr (.joined fanOut (.inr ⟨_, rfl⟩))
  | _ => exact .inl rfl

private theorem changes_forgetChannel (node : Node) (party : Party) (cause : QueryError) :
    Changes told active node (node.forgetChannel party cause) := by
  simp only [forgetChannel]
  split
  · exact node.changes_invalidate party
  · exact .refl

theorem flights_forgetChannel (node : Node) (party : Party) (cause : QueryError) :
    (node.forgetChannel party cause).flights = node.flights := by
  simp only [forgetChannel]
  split
  · simp only [invalidate]
    split
    · simp only [closeChannel]
      split <;> rfl
    · rfl
  · rfl

private theorem changes_retrySender (held : node.flights[place]? = some flight)
    (underway : (flight.senders.get party).isUnderway = true) (backoff : Backoff)
    (cause : QueryError) :
    Changes told active node (node.retrySender place party backoff cause) := by
  have forgets : Changes told active node (node.forgetChannel party cause) :=
    node.changes_forgetChannel party cause
  rw [← node.flights_forgetChannel party cause] at held
  refine forgets.trans ?_
  simp only [retrySender]
  split
  · exact changes_endSender (changes_setSender held underway (by simp) rfl (by simp))
  · rename_i delay next _
    have paused : Changes told active _ ((node.forgetChannel party cause).setSender place party
        (.pausing next (node.now + delay.toNat))) :=
      changes_setSender held underway (by simp) rfl (by simp)
    split
    · exact paused.beside ⟨rfl, rfl, rfl, rfl, rfl, rfl, rfl⟩
    · exact paused.beside ⟨rfl, rfl, rfl, rfl, rfl, rfl, rfl⟩

/-- What comes of an attempt to send the message that starts a live session. -/
theorem changes_settleSender (held : node.flights[place]? = some flight)
    (live : flight.session.isTerminal = false)
    (underway : (flight.senders.get party).isUnderway = true) (leads : node.LeadsTo index party)
    {result : Node × Sending}
    (sends : Sends node (.sender place party) index flight.session.startMessage result)
    (backoff : Backoff) :
    Changes told active node (result.1.settleSender place party backoff index result.2) := by
  obtain ⟨channel, found, rfl⟩ := leads
  cases sends with
  | put present running carries starts same =>
    obtain rfl := Option.some.inj (present.symm.trans found)
    exact changes_endSender ((Change.sent held found running live underway carries starts).upTo
      (same.modifyFlight place _))
  | closed present same cause =>
    have closes : Changes told active node _ := (Change.closed present).upTo same
    exact closes.trans (changes_retrySender (same.flights ▸ held) underway backoff cause)
  | refused same cause =>
    exact same.changes.trans (changes_retrySender (same.flights ▸ held) underway backoff cause)
  | parked same =>
    refine same.changes.trans (changes_setSender (same.flights ▸ held) underway (by simp) rfl ?_)
    intro other index waits
    obtain ⟨-, rfl⟩ := Sender.parked.inj waits
    exact ⟨channel, same.channels ▸ found, rfl⟩

private theorem changes_attempt (pools : node.Pools) (held : node.flights[place]? = some flight)
    (live : flight.session.isTerminal = false)
    (underway : (flight.senders.get party).isUnderway = true) (backoff : Backoff) :
    Changes told active node (node.attempt place party backoff flight.session.startMessage) := by
  have acquires : Changes told active node (node.acquire party).1 := node.changes_acquire party
  have leads (index : Nat) : (node.acquire party).2 = .ok index →
      (node.acquire party).1.LeadsTo index party := leadsTo_acquire pools
  rw [← node.flights_acquire party] at held
  simp only [attempt]
  split <;> rename_i acquired <;> rw [acquired] at acquires leads held
  · exact acquires.trans (changes_retrySender held underway backoff _)
  · exact acquires.trans
      (changes_settleSender held live underway (leads _ rfl) (sends_send ..) backoff)

theorem changes_pollSender (pools : node.Pools) (parks : node.Parks) (place : Nat)
    (party : Party) : Changes told active node (node.pollSender place party) := by
  simp only [pollSender]
  split
  · exact .refl
  · rename_i flight held
    split
    · exact .refl
    · exact .refl
    · rename_i backoff due pausing
      have underway : (flight.senders.get party).isUnderway = true := by rw [pausing]; rfl
      split
      · exact changes_endSender (changes_setSender held underway (by simp) rfl (by simp))
      · rename_i unended
        split
        · exact changes_attempt pools held (by simpa using unended) underway backoff
        · exact .refl
    · rename_i backoff index parked
      have underway : (flight.senders.get party).isUnderway = true := by rw [parked]; rfl
      split
      · have abandoned := node.beside_abandonBytes (.sender place party) party
        exact abandoned.changes.trans (changes_endSender
          (changes_setSender (abandoned.flights ▸ held) underway (by simp) rfl (by simp)))
      · rename_i unended
        exact changes_settleSender held (by simpa using unended) underway
          (parks place flight party backoff index held parked) (sends_resumeSend ..) backoff

/-! ## Waiting for the senders -/

private theorem now_wake (node : Node) (task : TaskId) : (node.wake task).now = node.now := by
  unfold wake now Agenda.wake
  split <;> rfl

theorem get_foldl_set (senders : PerParty Sender) (parties : List Party) (sender : Sender)
    (party : Party) :
    (parties.foldl (fun senders party => senders.set party sender) senders).get party =
      if party ∈ parties then sender else senders.get party := by
  induction parties generalizing senders with
  | nil => rfl
  | cons first rest ih =>
    rw [List.foldl_cons, ih]
    by_cases later : party ∈ rest
    · simp [later]
    · by_cases same : party = first
      · simp [same]
      · simp [later, same, PerParty.get_set_ne senders sender same]

/-- Starting senders makes each of them pause, and lets it run. -/
theorem startSenders_eq (node : Node) (place : Nat) (parties : List Party) :
    node.startSenders place parties = (node.modifyFlight place fun flight =>
      { flight with
        senders := parties.foldl (fun senders party =>
          senders.set party (.pausing node.config.senderBackoff node.now)) flight.senders
        fanOut := .joining [] }).wakeAll (parties.map (.sender place)) := by
  have each (node : Node) : parties.foldl (fun node party =>
      (node.setSender place party (.pausing node.config.senderBackoff node.now)).wake
        (.sender place party)) node =
      (node.modifyFlight place fun flight =>
        { flight with
          senders := parties.foldl (fun senders party =>
            senders.set party (.pausing node.config.senderBackoff node.now)) flight.senders }).wakeAll
        (parties.map (.sender place)) := by
    induction parties generalizing node with
    | nil => exact (modifyFlight_of_same fun _ _ => rfl).symm
    | cons party rest ih =>
      have now : ((node.setSender place party (.pausing node.config.senderBackoff node.now)).wake
          (.sender place party)).now = node.now := now_wake ..
      have twice := node.modifyFlight_modifyFlight place
        (fun flight => { flight with
          senders := flight.senders.set party (.pausing node.config.senderBackoff node.now) })
        fun flight => { flight with
          senders := rest.foldl (fun senders party =>
            senders.set party (.pausing node.config.senderBackoff node.now)) flight.senders }
      rw [List.foldl_cons, ih, now]
      simp only [List.foldl_cons, List.map_cons]
      rw [← twice]
      rfl
  have twice := node.modifyFlight_modifyFlight place
    (fun flight => { flight with
      senders := parties.foldl (fun senders party =>
        senders.set party (.pausing node.config.senderBackoff node.now)) flight.senders })
    fun flight => { flight with fanOut := .joining [] }
  simp only [startSenders, each]
  rw [← twice]
  rfl

private theorem changes_startSenders (held : node.flights[place]? = some flight)
    (starting : flight.fanOut = .starting) (parties : List Party) :
    Changes told active node (node.startSenders place parties) := by
  rw [startSenders_eq]
  refine (Change.flew held (.started starting fun party => ?_)).upTo
    ⟨rfl, rfl, rfl, rfl, rfl, rfl, rfl⟩
  rw [get_foldl_set]
  split
  · exact .inr ⟨_, _, rfl⟩
  · exact .inl rfl

private theorem changes_setFanOut {ended : List Party} (held : node.flights[place]? = some flight)
    (joining : flight.fanOut = .joining ended) {fanOut : FanOut}
    (still : fanOut = .over ∨ ∃ others, fanOut = .joining others) :
    Changes told active node (node.setFanOut place fanOut) :=
  .single (.flew held (.joined joining still))

private theorem changes_join (informed : node.Informed told)
    (everyone : ∀ party, party ∈ node.directory.targets) {ended : List Party}
    (held : node.flights[place]? = some flight) (joining : flight.fanOut = .joining ended) :
    Changes told active node (node.join place flight ended) := by
  have joined : Changes told active node (node.setFanOut place .over) :=
    changes_setFanOut held joining (.inl rfl)
  simp only [join]
  split
  · rename_i cause _
    have failed : Changes told active (node.setFanOut place .over)
        ((node.setFanOut place .over).terminate place .failed (some cause)).1 :=
      changes_terminate (joined.informed informed) place rfl cause
    exact joined.trans (failed.beside ⟨rfl, rfl, rfl, rfl, rfl, rfl, rfl⟩)
  · split
    · rename_i all
      have sent (party : Party) : (flight.senders.get party).isSent = true :=
        List.all_eq_true.mp all party (everyone party)
      have still : (node.setFanOut place .over).flights[place]? =
          some { flight with fanOut := .over } :=
        (flights_modifyFlight held _ place).trans (if_pos rfl)
      exact joined.trans (.single (.flew still (.awaited sent)))
    · exact changes_setFanOut held joining (.inr ⟨[], rfl⟩)

theorem changes_pollFanOut (informed : node.Informed told)
    (everyone : ∀ party, party ∈ node.directory.targets) (place : Nat) :
    Changes told active node (node.pollFanOut place) := by
  simp only [pollFanOut]
  split
  · exact .refl
  · rename_i flight held
    split
    · exact .refl
    · exact .refl
    · rename_i starting
      exact changes_startSenders held starting _
    · rename_i ended joining
      exact changes_join informed everyone held joining

end Node

end JointQuery
