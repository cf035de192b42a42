import JointQuery.Proofs.Node.Sending

/-! The frames that start a session at its parties, kept in step with its senders by every change.
There is one for each sender that has sent its message, and no other; and a session awaits results
only once all of its senders have. -/
namespace JointQuery

private theorem perm_flatMap_set {α β : Type} {entries : List α} {index : Nat} {before next : α}
    {f : α → List β} {added : List β} (held : entries[index]? = some before)
    (grows : (f next).Perm (f before ++ added)) :
    ((entries.set index next).flatMap f).Perm (entries.flatMap f ++ added) := by
  obtain ⟨inside, here⟩ := List.getElem?_eq_some_iff.mp held
  have split : entries = entries.take index ++ before :: entries.drop (index + 1) := by
    rw [← here, List.getElem_cons_drop, List.take_append_drop]
  rw [List.set_eq_take_append_cons_drop, if_pos inside]
  conv => rhs; rw [split]
  simp only [List.flatMap_append, List.flatMap_cons, List.append_assoc]
  refine List.Perm.append_left _ ((grows.append_right _).trans ?_)
  rw [List.append_assoc]
  exact List.Perm.append_left _ List.perm_append_comm

theorem Session.startMessage_transition (session : Session) (source target : SessionState) :
    (session.transition source target).1.startMessage = session.startMessage := by
  obtain ⟨state, moved⟩ := session.transition_eq source target
  rw [moved]
  rfl

namespace Node

variable {told : Bool} {active : Nat → Prop} {node after : Node} {index place : Nat} {party : Party}
  {flight : Flight} {channel next : Channel}

/-- A part of the frames of each channel to a party. -/
def framesTo (node : Node) (party : Party) (part : Channel → List Frame) : List Frame :=
  node.channels.flatMap fun channel => if channel.party = party then part channel else []

/-- The frames that start the session at a place. -/
def startsOf (place : Nat) (frames : List Frame) : List Frame :=
  frames.filter (·.session = some place)

/-- The frames that start the session at a place, put on any channel to a party. -/
def starts (node : Node) (place : Nat) (party : Party) : List Frame :=
  node.framesTo party fun channel => startsOf place channel.frames

theorem framesTo_setChannel (part : Channel → List Frame)
    (held : node.channels[index]? = some channel) (same : next.party = channel.party)
    {added : List Frame}
    (grows : (part next).Perm (part channel ++ added)) :
    ((node.setChannel index next).framesTo party part).Perm
      (node.framesTo party part ++ if channel.party = party then added else []) := by
  refine perm_flatMap_set held ?_
  rw [same]
  split
  · exact grows
  · exact .refl _

theorem framesTo_open (node : Node) (opened party : Party) {part : Channel → List Frame}
    (nothing : part (.fresh opened) = []) :
    framesTo { node with
      channels := node.channels ++ [.fresh opened]
      pooled := node.pooled.set opened (some node.channels.length) } party part =
      node.framesTo party part := by
  simp only [framesTo, List.flatMap_append, List.flatMap_singleton, nothing, ite_self,
    List.append_nil]

theorem starts_of_channels (same : after.channels = node.channels) (place : Nat) (party : Party) :
    after.starts place party = node.starts place party := by
  simp only [Node.starts, framesTo, same]

/-- A channel that is replaced by one to the same party with the same part makes no difference. -/
theorem framesTo_setChannel_of_same (part : Channel → List Frame)
    (held : node.channels[index]? = some channel) (toward : next.party = channel.party)
    (same : part next = part channel) :
    ((node.setChannel index next).framesTo party part).Perm (node.framesTo party part) := by
  have grows : (part next).Perm (part channel ++ []) := by rw [same, List.append_nil]
  have framed : ((node.setChannel index next).framesTo party part).Perm
      (node.framesTo party part ++ if channel.party = party then [] else []) :=
    framesTo_setChannel part held toward grows
  simpa using framed

theorem starts_setChannel (held : node.channels[index]? = some channel)
    (toward : next.party = channel.party)
    (same : startsOf place next.frames = startsOf place channel.frames) (party : Party) :
    ((node.setChannel index next).starts place party).Perm (node.starts place party) :=
  framesTo_setChannel_of_same (fun channel => startsOf place channel.frames) held toward same

theorem starts_push (held : node.channels[index]? = some channel) (frame : Frame) (party : Party) :
    ((node.setChannel index (channel.push frame)).starts place party).Perm
      (node.starts place party ++
        if channel.party = party then startsOf place [frame] else []) := by
  refine framesTo_setChannel (fun channel => startsOf place channel.frames) held
    (by rfl : (channel.push frame).party = channel.party) (List.Perm.of_eq ?_)
  simp only [startsOf, Channel.push, List.filter_append]

/-! ## Channels -/

theorem LeadsTo.of_channels (leads : node.LeadsTo index party)
    (same : after.channels = node.channels) : after.LeadsTo index party := by
  obtain ⟨channel, held, toward⟩ := leads
  exact ⟨channel, same ▸ held, toward⟩

theorem LeadsTo.setChannel {other : Nat} (leads : node.LeadsTo other party)
    (held : node.channels[index]? = some channel) (same : next.party = channel.party) :
    (node.setChannel index next).LeadsTo other party := by
  obtain ⟨found, present, toward⟩ := leads
  by_cases here : other = index
  · subst here
    obtain rfl := Option.some.inj (held.symm.trans present)
    obtain ⟨inside, -⟩ := List.getElem?_eq_some_iff.mp held
    exact ⟨next, by simp [Node.setChannel, inside], same.trans toward⟩
  · refine ⟨found, ?_, toward⟩
    rw [Node.setChannel, List.getElem?_set_ne (Ne.symm here), present]

theorem LeadsTo.append (leads : node.LeadsTo index party) {more : List Channel}
    (same : after.channels = node.channels ++ more) : after.LeadsTo index party := by
  obtain ⟨channel, held, toward⟩ := leads
  refine ⟨channel, ?_, toward⟩
  rw [same, List.getElem?_append_left (List.getElem?_eq_some_iff.mp held).1, held]

/-! ## The invariant -/

/-- The work for a session begins in order, and the frames that start it are those that its senders
have sent. -/
structure Dispatched (node : Node) (place : Nat) (flight : Flight) : Prop where
  idle : flight.reporter.phase = .idle → flight.fanOut = .unstarted
  unbegun : flight.fanOut = .unstarted ∨ flight.fanOut = .starting →
    ∀ party, flight.senders.get party = .unstarted
  parked : ∀ party backoff index, flight.senders.get party = .parked backoff index →
    node.LeadsTo index party
  starts : ∀ party, ((node.starts place party).map (·.message)).Perm
    (if (flight.senders.get party).isSent then [flight.session.startMessage] else [])
  awaiting : flight.session.state = .awaitingResults →
    ∀ party, (flight.senders.get party).isSent = true

/-- The work toward the parties is in order. -/
structure Dispatches (node : Node) : Prop where
  everyone : ∀ party, party ∈ node.directory.targets
  pools : node.Pools
  flights : ∀ place flight, node.flights[place]? = some flight → node.Dispatched place flight
  beyond : ∀ place, node.flights[place]? = none → ∀ party, node.starts place party = []

theorem Dispatches.parks (dispatches : node.Dispatches) : node.Parks :=
  fun place flight party backoff index held =>
    (dispatches.flights place flight held).parked party backoff index

private theorem Dispatched.of_channels (dispatched : node.Dispatched place flight)
    (leads : ∀ index party, node.LeadsTo index party → after.LeadsTo index party)
    (starts : ∀ party, (after.starts place party).Perm (node.starts place party)) :
    after.Dispatched place flight where
  idle := dispatched.idle
  unbegun := dispatched.unbegun
  parked party backoff index waits := leads _ _ (dispatched.parked party backoff index waits)
  starts party := ((starts party).map _).trans (dispatched.starts party)
  awaiting := dispatched.awaiting

/-- Whatever happens elsewhere leaves the work toward the parties in order. -/
theorem Dispatches.of_same (dispatches : node.Dispatches)
    (directory : after.directory = node.directory) (pooled : after.pooled = node.pooled)
    (channels : after.channels = node.channels) (flights : after.flights = node.flights) :
    after.Dispatches := by
  have starts := starts_of_channels channels
  refine ⟨directory ▸ dispatches.everyone, ?_, ?_, ?_⟩
  · intro party index shared
    exact (dispatches.pools party index (pooled ▸ shared)).of_channels channels
  · intro place flight held
    exact (dispatches.flights place flight (flights ▸ held)).of_channels
      (fun _ _ leads => leads.of_channels channels) fun party => .of_eq (starts place party)
  · intro place absent party
    rw [starts]
    exact dispatches.beyond place (flights ▸ absent) party

/-- The channels can change as long as each leads where it did and no frame that starts a session
comes or goes. -/
theorem Dispatches.of_channels (dispatches : node.Dispatches)
    (directory : after.directory = node.directory) (flights : after.flights = node.flights)
    (leads : ∀ index party, node.LeadsTo index party → after.LeadsTo index party)
    (pools : after.Pools)
    (starts : ∀ place party, (after.starts place party).Perm (node.starts place party)) :
    after.Dispatches := by
  refine ⟨directory ▸ dispatches.everyone, pools, ?_, ?_⟩
  · intro place flight held
    exact (dispatches.flights place flight (flights ▸ held)).of_channels leads (starts place)
  · intro place absent party
    have none := dispatches.beyond place (flights ▸ absent) party
    exact List.perm_nil.mp (none ▸ starts place party)

theorem not_sent_of_underway {sender : Sender} (underway : sender.isUnderway = true) :
    sender.isSent = false ∧ sender ≠ .unstarted := by
  cases sender with
  | unstarted => simp [Sender.isUnderway] at underway
  | pausing | parked => exact ⟨rfl, by simp⟩
  | ended => simp [Sender.isUnderway] at underway

/-- What can happen to a session and the work done for it keeps that work in order. -/
theorem Dispatched.flies {next : Flight} (dispatched : node.Dispatched place flight)
    (flies : Flies told active node place flight next) : node.Dispatched place next := by
  obtain ⟨idle, unbegun, parked, starts, awaiting⟩ := dispatched
  cases flies with
  | grew continues =>
    refine ⟨idle, unbegun, parked, fun party => ?_, fun waits => ?_⟩
    · rw [continues.startMessage]
      exact starts party
    · exact awaiting (continues.state ▸ waits)
  | awaited sent =>
    refine ⟨idle, unbegun, parked, fun party => ?_, fun _ => sent⟩
    rw [Session.startMessage_transition]
    exact starts party
  | @ended target live final heard =>
    rw [Session.finish_of_live live]
    refine ⟨idle, unbegun, parked, starts, fun waits => ?_⟩
    have state : target = .awaitingResults := waits
    rw [state] at final
    simp [SessionState.isTerminal] at final
  | launched still may now =>
    refine ⟨by simp [Reporter.phase], fun _ => unbegun (.inl (idle still)), parked,
      fun party => ?_, fun waits => ?_⟩
    · rw [Session.startMessage_transition]
      exact starts party
    · simp only [Session.transition] at waits
      split at waits
      · cases waits
      · exact awaiting waits
  | @reported reporter runs begun agrees =>
    refine ⟨fun ceased => ?_, unbegun, parked, starts, awaiting⟩
    have phase : reporter.phase = .idle := ceased
    rw [phase] at agrees
    exact agrees.elim
  | @tried party sender underway begun unsent leads =>
    obtain ⟨before, moved⟩ := not_sent_of_underway underway
    refine ⟨idle, fun early => absurd (unbegun early party) moved, ?_, ?_, ?_⟩
    · intro other backoff index waits
      by_cases same : other = party
      · subst same
        rw [PerParty.get_set_self] at waits
        exact leads backoff index waits
      · rw [PerParty.get_set_ne _ _ same] at waits
        exact parked other backoff index waits
    · intro other
      by_cases same : other = party
      · subst same
        rw [PerParty.get_set_self, unsent]
        simpa [before] using starts other
      · rw [PerParty.get_set_ne _ _ same]
        exact starts other
    · intro waits
      have sent := awaiting waits party
      simp [before] at sent
  | @started senders starting fresh =>
    have unsent (party : Party) : (senders.get party).isSent = false ∧
        (∀ backoff index, senders.get party ≠ .parked backoff index) := by
      rcases fresh party with same | ⟨backoff, due, pausing⟩
      · rw [same, unbegun (.inr starting) party]
        exact ⟨rfl, by simp⟩
      · rw [pausing]
        exact ⟨rfl, by simp⟩
    have before (party : Party) := unbegun (.inr starting) party
    refine ⟨fun ceased => ?_, by simp, fun party backoff index waits => ?_, fun party => ?_,
      fun waits => ?_⟩
    · exact absurd ((idle ceased).symm.trans starting) (by simp)
    · exact absurd waits ((unsent party).2 backoff index)
    · have none := starts party
      rw [before party] at none
      rw [(unsent party).1]
      exact none
    · have sent := awaiting waits .ph
      simp [before, Sender.isSent] at sent
  | @joined ended fanOut joining still =>
    refine ⟨fun ceased => ?_, fun early => ?_, parked, starts, awaiting⟩
    · exact absurd ((idle ceased).symm.trans joining) (by simp)
    · rcases still with rfl | ⟨others, rfl⟩ <;> simp at early

private theorem Dispatches.flew (dispatches : node.Dispatches)
    (held : node.flights[place]? = some flight) {f : Flight → Flight}
    (flies : Flies told active node place flight (f flight)) :
    (node.modifyFlight place f).Dispatches := by
  have elsewhere {other : Nat} {found : Flight} (dispatched : node.Dispatched other found) :
      (node.modifyFlight place f).Dispatched other found :=
    dispatched.of_channels (fun _ _ leads => leads.of_channels rfl) fun _ => .refl _
  refine ⟨dispatches.everyone, dispatches.pools, fun other found present => ?_,
    fun other absent => ?_⟩
  · rw [flights_modifyFlight held] at present
    by_cases same : other = place
    · subst same
      rw [if_pos rfl] at present
      obtain rfl := Option.some.inj present
      exact elsewhere ((dispatches.flights other flight held).flies flies)
    · rw [if_neg same] at present
      exact elsewhere (dispatches.flights other found present)
  · rw [flights_modifyFlight held] at absent
    by_cases same : other = place
    · simp [same] at absent
    · rw [if_neg same] at absent
      exact dispatches.beyond other absent

/-- A channel can be replaced by one to the same party with the same frames that start sessions. -/
theorem Dispatches.setChannel (dispatches : node.Dispatches)
    (held : node.channels[index]? = some channel) (toward : next.party = channel.party)
    (same : ∀ place, startsOf place next.frames = startsOf place channel.frames) :
    (node.setChannel index next).Dispatches := by
  refine dispatches.of_channels rfl rfl (fun _ _ leads => leads.setChannel held toward)
    (fun party shared pooled => (dispatches.pools party shared pooled).setChannel held toward)
    fun place party => starts_setChannel held toward (same place) party

private theorem Dispatches.opened (dispatches : node.Dispatches) (party : Party) :
    Dispatches { node with
      channels := node.channels ++ [.fresh party]
      pooled := node.pooled.set party (some node.channels.length) } := by
  refine dispatches.of_channels rfl rfl (fun _ _ leads => leads.append rfl) ?_ fun place other => ?_
  · intro other index shared
    by_cases same : other = party
    · subst same
      have last : index = node.channels.length := by
        rw [PerParty.get_set_self] at shared
        exact (Option.some.inj shared).symm
      subst last
      exact ⟨.fresh other, List.getElem?_concat_length .., rfl⟩
    · simp only [PerParty.get_set_ne _ _ same] at shared
      exact (dispatches.pools other index shared).append rfl
  · exact List.Perm.of_eq (node.framesTo_open party other rfl)

/-- A sender that has sent its message, which is on a channel to its party now. -/
theorem Dispatched.sent (dispatched : node.Dispatched place flight)
    (underway : (flight.senders.get party).isUnderway = true) {frame : Frame}
    (message : frame.message = flight.session.startMessage)
    (leads : ∀ index party, node.LeadsTo index party → after.LeadsTo index party)
    (grows : (after.starts place party).Perm (node.starts place party ++ [frame]))
    (others : ∀ other, other ≠ party →
      (after.starts place other).Perm (node.starts place other)) :
    after.Dispatched place
      { flight with senders := flight.senders.set party (.ended (.ok ())) } := by
  obtain ⟨unsent, begun⟩ := not_sent_of_underway underway
  refine ⟨dispatched.idle, fun early => absurd (dispatched.unbegun early _) begun, ?_, ?_, ?_⟩
  · intro other backoff index waits
    by_cases same : other = party
    · rw [same, PerParty.get_set_self] at waits
      cases waits
    · rw [PerParty.get_set_ne _ _ same] at waits
      exact leads _ _ (dispatched.parked other backoff index waits)
  · intro other
    by_cases same : other = party
    · subst same
      have none := dispatched.starts other
      rw [unsent] at none
      have one := grows.map (·.message)
      rw [List.map_append] at one
      refine one.trans ((none.append_right _).trans (.of_eq ?_))
      simp [Sender.isSent, message]
    · rw [PerParty.get_set_ne _ _ same]
      exact ((others other same).map _).trans (dispatched.starts other)
  · intro waits
    have sent := dispatched.awaiting waits party
    simp [unsent] at sent

private theorem Dispatches.sent (dispatches : node.Dispatches)
    (present : node.flights[place]? = some flight)
    (held : node.channels[index]? = some channel)
    (underway : (flight.senders.get channel.party).isUnderway = true) {frame : Frame}
    (message : frame.message = flight.session.startMessage) (starts : frame.session = some place) :
    ((node.setChannel index (channel.push frame)).setSender place channel.party
      (.ended (.ok ()))).Dispatches := by
  have one : startsOf place [frame] = [frame] := by simp [startsOf, starts]
  have grows : ((node.setChannel index (channel.push frame)).starts place channel.party).Perm
      (node.starts place channel.party ++ [frame]) := by
    refine (starts_push held frame channel.party).trans (.of_eq ?_)
    rw [if_pos rfl, one]
  have still (other : Nat) (party : Party) (differ : channel.party = party → other ≠ place) :
      ((node.setChannel index (channel.push frame)).starts other party).Perm
        (node.starts other party) := by
    refine (starts_push held frame party).trans (.of_eq ?_)
    split
    · rename_i same
      have none : startsOf other [frame] = [] := by
        simp [startsOf, starts, Ne.symm (differ same)]
      rw [none, List.append_nil]
    · rw [List.append_nil]
  have leads (other : Nat) (party : Party) (leads : node.LeadsTo other party) :
      (node.setChannel index (channel.push frame)).LeadsTo other party :=
    leads.setChannel held rfl
  have present' : (node.setChannel index (channel.push frame)).flights[place]? = some flight :=
    present
  refine ⟨dispatches.everyone, fun party shared pooled => leads _ _ (dispatches.pools _ _ pooled),
    fun other found held' => ?_, fun other absent party => ?_⟩
  · rw [setSender, flights_modifyFlight present'] at held'
    by_cases same : other = place
    · subst same
      rw [if_pos rfl] at held'
      obtain rfl := Option.some.inj held'
      exact (dispatches.flights other flight present).sent underway message leads grows
        fun party differ => still other party fun same => absurd same.symm differ
    · rw [if_neg same] at held'
      exact (dispatches.flights other found held').of_channels leads fun party =>
        still other party fun _ => same
  · rw [setSender, flights_modifyFlight present'] at absent
    by_cases same : other = place
    · simp [same] at absent
    · rw [if_neg same] at absent
      have none := dispatches.beyond other absent party
      exact List.perm_nil.mp (none ▸ still other party fun _ => same)

private theorem Dispatches.entered {session : Session} (dispatches : node.Dispatches)
    (fresh : session.state = .created) :
    Dispatches { node with flights := node.flights ++ [.fresh session] } := by
  refine ⟨dispatches.everyone, dispatches.pools, fun place flight held => ?_,
    fun place absent => ?_⟩
  · by_cases last : place = node.flights.length
    · have none := dispatches.beyond place (List.getElem?_eq_none_iff.mpr (Nat.le_of_eq last.symm))
      subst last
      simp only [List.getElem?_concat_length, Option.some.injEq] at held
      subst held
      have unstarted (party : Party) : (Flight.fresh session).senders.get party = .unstarted := by
        cases party <;> rfl
      refine ⟨fun _ => rfl, fun _ => unstarted, fun party backoff index waits => ?_,
        fun party => ?_, fun waits => ?_⟩
      · rw [unstarted] at waits
        cases waits
      · rw [unstarted]
        exact List.Perm.of_eq (congrArg (List.map _) (none party))
      · exact absurd (fresh.symm.trans waits) (by simp)
    · rw [getElem?_concat_of_ne last] at held
      exact (dispatches.flights place flight held).of_channels
        (fun _ _ leads => leads.of_channels rfl) fun _ => .refl _
  · refine dispatches.beyond place ?_
    rw [List.getElem?_eq_none_iff, List.length_append] at absent
    exact List.getElem?_eq_none_iff.mpr (Nat.le_of_add_right_le absent)

/-- Every change keeps the work toward the parties in order. -/
theorem Change.dispatches (change : Change told active node after) (dispatches : node.Dispatches) :
    after.Dispatches := by
  cases change with
  | beside same => exact dispatches.of_same same.directory same.pooled same.channels same.flights
  | joined | queued | filed | settled => exact dispatches.of_same rfl rfl rfl rfl
  | entered session fresh blank => exact dispatches.entered fresh
  | flew held flies => exact dispatches.flew held flies
  | opened party => exact dispatches.opened party
  | unpooled party =>
    refine dispatches.of_channels rfl rfl (fun _ _ => id) (fun other index shared => ?_)
      fun _ _ => .refl _
    by_cases same : other = party
    · subst same
      rw [PerParty.get_set_self] at shared
      cases shared
    · rw [PerParty.get_set_ne _ _ same] at shared
      exact dispatches.pools other index shared
  | closed held => exact dispatches.setChannel held rfl fun _ => rfl
  | posted held running apart =>
    exact dispatches.setChannel held rfl fun place => by simp [startsOf, Channel.push, apart]
  | sent present held running live underway message starts =>
    exact dispatches.sent present held underway message starts

theorem Changes.dispatches (changes : Changes told active node after)
    (dispatches : node.Dispatches) : after.Dispatches := by
  induction changes with
  | refl => exact dispatches
  | tail _ change ih => exact change.dispatches ih

end Node

end JointQuery
