import JointQuery.Proofs.Channel.Budget
import JointQuery.Proofs.Node.Apart
import JointQuery.Proofs.Node.Losses

/-! The bytes toward a party, over every run. They are free, set aside for whoever waits, on the way
with a frame, or kept by a reservation, and no step makes or loses any. A task that takes bytes has
them in hand until it has put them somewhere; a task that is in line waits for something. -/
namespace JointQuery

/-- The bytes of a budget that a message takes: those of its line, but never nothing and never more
than there are. -/
@[irreducible]
def PartyMessage.bytesWithin (message : PartyMessage) (bound : Nat) : Nat :=
  min (max message.line.utf8ByteSize 1) bound

namespace Channel

/-- The bytes of the frames that a channel has still to write. -/
def waitingBytes (channel : Channel) : Nat := (channel.waiting.map (·.reserved)).sum

/-- A channel has written no more than was put on it, and each frame has taken its bytes. -/
structure Fits (channel : Channel) (bound : Nat) : Prop where
  within : channel.written ≤ channel.frames.length
  reserved : ∀ frame ∈ channel.frames, frame.reserved = frame.message.bytesWithin bound

variable {channel : Channel} {bound : Nat} {frame : Frame} {rest : List Frame}

theorem running_of_isOpen (opened : channel.isOpen = true) : channel.running = true :=
  (Bool.and_eq_true_iff.mp opened).2

private theorem fits_fresh (party : Party) (bound : Nat) : (fresh party).Fits bound :=
  ⟨Nat.le_refl _, by simp [fresh]⟩

private theorem Fits.push (fits : channel.Fits bound)
    (reserved : frame.reserved = frame.message.bytesWithin bound) :
    (channel.push frame).Fits bound := by
  refine ⟨?_, fun other member => ?_⟩
  · simp only [Channel.push, List.length_append]
    exact Nat.le_add_right_of_le fits.within
  · rcases List.mem_append.mp member with before | last
    · exact fits.reserved other before
    · rw [List.mem_singleton.mp last]
      exact reserved

private theorem waitingBytes_push (fits : channel.Fits bound) (running : channel.running = true)
    (frame : Frame) : (channel.push frame).waitingBytes = channel.waitingBytes + frame.reserved := by
  simp [waitingBytes, waiting, Channel.push, pending, running,
    List.drop_append_of_le_length fits.within]

private theorem waitingBytes_fail (channel : Channel) : channel.fail.waitingBytes = 0 := rfl

/-- A channel that has written the first of the frames that were pending. -/
theorem Fits.write (fits : channel.Fits bound) (pending : channel.pending = frame :: rest) :
    ({ channel with written := channel.written + 1 } : Channel).Fits bound ∧
      ({ channel with written := channel.written + 1 } : Channel).pending = rest := by
  have left : channel.frames.length - channel.written = rest.length + 1 := by
    rw [← List.length_drop, ← List.length_cons (a := frame), ← pending]
    rfl
  refine ⟨⟨?_, fits.reserved⟩, ?_⟩
  · simp only
    omega
  · have dropped : channel.frames.drop channel.written = frame :: rest := pending
    simp only [Channel.pending]
    rw [← List.drop_drop, dropped, List.drop_succ_cons, List.drop_zero]

end Channel

/-- What the task waits for that has tried to send a message of so many bytes. -/
def Node.Sending.owes (bytes : Nat) : Node.Sending → Option Nat
  | .parked => some bytes
  | .sent | .failed _ => none

namespace Node

variable {party : Party} {bound hand bytes want : Nat} {waits others : TaskId → Nat → Prop}
  {node after : Node} {index place : Nat} {channel next : Channel} {task : TaskId}
  {own : Option Nat} {message : PartyMessage} {flight : Flight}

/-- The frames to a party that are queued or being written. -/
def queued (node : Node) (party : Party) : List Frame := node.framesTo party Channel.waiting

/-- The bytes of the frames to a party that are queued or being written. -/
def queuedBytes (node : Node) (party : Party) : Nat := ((node.queued party).map (·.reserved)).sum

/-- Who waits for bytes toward a party, and for how many: senders and posts whose message is not on
a channel yet, and reservations. -/
def Waits (node : Node) (party : Party) (bound : Nat) : TaskId → Nat → Prop
  | .sender place other, want => other = party ∧ ∃ flight backoff index,
      node.flights[place]? = some flight ∧ flight.senders.get party = .parked backoff index ∧
      want = flight.session.startMessage.bytesWithin bound
  | .post index, want => ∃ post, node.posts[index]? = some post ∧ post.parked = true ∧
      post.result = none ∧ node.LeadsTo post.channel party ∧ want = post.message.bytesWithin bound
  | .reservation index, want => node.reservations[index]? = some ⟨party, want, .waiting⟩
  | _, _ => False

/-- Who waits for bytes while a task runs that waits for no more than `own` itself. -/
def WaitsBut (node : Node) (party : Party) (bound : Nat) (task : TaskId) (own : Option Nat)
    (other : TaskId) (want : Nat) : Prop :=
  if other = task then own = some want else node.Waits party bound other want

/-- The bytes toward a party add up, with some of them in hand, and whoever is in line waits. -/
structure Balanced (node : Node) (party : Party) (bound hand : Nat)
    (waits : TaskId → Nat → Prop) : Prop where
  positive : 0 < bound
  limit : (node.budgets.get party).limit = bound
  sound : (node.budgets.get party).Sound
  total : (node.budgets.get party).free + Budget.aside (node.budgets.get party).waiters +
    node.queuedBytes party + node.keptBytes party + hand = bound
  waits : ∀ task want, (task, want) ∈ Budget.line (node.budgets.get party).waiters → waits task want
  channels : ∀ (index : Nat) (channel : Channel), node.channels[index]? = some channel →
    channel.party = party → channel.Fits bound
  reservations : ∀ (index : Nat) (reservation : Reservation),
    node.reservations[index]? = some reservation → reservation.party = party →
      0 < reservation.bytes ∧ reservation.bytes ≤ bound

/-- The bytes toward a party add up between two tasks. -/
def Balances (node : Node) (party : Party) (bound : Nat) : Prop :=
  node.Balanced party bound 0 (node.Waits party bound)

/-- The bytes toward a party add up while a task runs. It has some in hand, and waits itself for no
more than `own`. -/
def Working (node : Node) (party : Party) (bound : Nat) (task : TaskId) (own : Option Nat)
    (hand : Nat) : Prop :=
  node.Balanced party bound hand (node.WaitsBut party bound task own)

/-! ## What is on the way -/

private theorem queuedBytes_eq (node : Node) (party : Party) : node.queuedBytes party =
    (node.channels.map fun channel =>
      if channel.party = party then channel.waitingBytes else 0).sum := by
  unfold queuedBytes queued framesTo
  induction node.channels with
  | nil => rfl
  | cons channel rest ih =>
    simp only [List.flatMap_cons, List.map_append, List.sum_append, List.map_cons, List.sum_cons, ih]
    split <;> rfl

private theorem queuedBytes_setChannel (held : node.channels[index]? = some channel)
    (same : next.party = channel.party) (party : Party) :
    (node.setChannel index next).queuedBytes party +
        (if channel.party = party then channel.waitingBytes else 0) =
      node.queuedBytes party + if channel.party = party then next.waitingBytes else 0 := by
  rw [queuedBytes_eq, queuedBytes_eq, setChannel]
  have bytes := sum_map_set (fun channel : Channel =>
    if channel.party = party then channel.waitingBytes else 0) held next
  simpa only [same] using bytes

/-! ## Who waits -/

private theorem Waits.apart (waits : node.Waits party bound task want)
    (apart : node.Apart party after) : after.Waits party bound task want := by
  cases task with
  | sender place other =>
    obtain ⟨same, flight, backoff, index, held, parked, wants⟩ := waits
    obtain ⟨next, found, goes⟩ := apart.flights place flight held
    exact ⟨same, next, backoff, index, found, goes.sender.trans parked, by rw [wants, goes.message]⟩
  | post index =>
    obtain ⟨post, held, parked, running, leads, wants⟩ := waits
    exact ⟨post, apart.posts index post held leads, parked, running, apart.leadsTo_iff.mpr leads,
      wants⟩
  | reservation index =>
    have held : node.reservations[index]? = some ⟨party, want, .waiting⟩ := waits
    exact (apart.reservations index ⟨party, want, .waiting⟩ rfl).mpr held
  | fanOut | reporter | writer | sweeper | delivery | request => exact waits

/-- Whoever waits goes on waiting if nothing has come of it. -/
theorem Waits.mono (waits : node.Waits party bound task want)
    (flights : ∀ place flight, task = .sender place party →
      node.flights[place]? = some flight → after.flights[place]? = some flight)
    (posts : ∀ index post, task = .post index →
      node.posts[index]? = some post → after.posts[index]? = some post)
    (leads : ∀ index, node.LeadsTo index party → after.LeadsTo index party)
    (reservations : ∀ index reservation, task = .reservation index →
      node.reservations[index]? = some reservation →
        after.reservations[index]? = some reservation) :
    after.Waits party bound task want := by
  cases task with
  | sender place other =>
    obtain ⟨rfl, flight, backoff, index, held, parked, wants⟩ := waits
    exact ⟨rfl, flight, backoff, index, flights place flight rfl held, parked, wants⟩
  | post index =>
    obtain ⟨post, held, parked, running, toward, wants⟩ := waits
    exact ⟨post, posts index post rfl held, parked, running, leads _ toward, wants⟩
  | reservation index => exact reservations index _ rfl waits
  | fanOut | reporter | writer | sweeper | delivery | request => exact waits

theorem WaitsBut.imp (waits : node.WaitsBut party bound task own other want)
    (still : other ≠ task → node.Waits party bound other want → after.Waits party bound other want) :
    after.WaitsBut party bound task own other want := by
  unfold WaitsBut at waits ⊢
  split
  · rename_i same
    rwa [if_pos same] at waits
  · rename_i differs
    rw [if_neg differs] at waits
    exact still differs waits

private theorem waitsBut_self : node.WaitsBut party bound task own task want ↔ own = some want := by
  unfold WaitsBut
  rw [if_pos rfl]

/-! ## The balance -/

theorem Balanced.imp (balanced : node.Balanced party bound hand waits)
    (weaker : ∀ task want, waits task want → others task want) :
    node.Balanced party bound hand others :=
  { balanced with waits := fun task want listed => weaker task want (balanced.waits task want listed) }

theorem Balanced.of_same (balanced : node.Balanced party bound hand waits)
    (budgets : after.budgets = node.budgets) (channels : after.channels = node.channels)
    (reservations : after.reservations = node.reservations) :
    after.Balanced party bound hand waits := by
  have queued : after.queuedBytes party = node.queuedBytes party := by
    unfold queuedBytes Node.queued framesTo
    rw [channels]
  have kept : after.keptBytes party = node.keptBytes party := by
    unfold keptBytes
    rw [reservations]
  refine ⟨balanced.positive, ?_, ?_, ?_, ?_, ?_, ?_⟩
  · rw [budgets]
    exact balanced.limit
  · rw [budgets]
    exact balanced.sound
  · rw [budgets, queued, kept]
    exact balanced.total
  · rw [budgets]
    exact balanced.waits
  · rw [channels]
    exact balanced.channels
  · rw [reservations]
    exact balanced.reservations

theorem Balances.apart (balances : node.Balances party bound) (apart : node.Apart party after) :
    after.Balances party bound where
  positive := balances.positive
  limit := apart.budget ▸ balances.limit
  sound := apart.budget ▸ balances.sound
  total := by
    have queued : after.queuedBytes party = node.queuedBytes party := by
      unfold queuedBytes Node.queued
      rw [apart.frames]
    rw [apart.budget, queued, apart.kept]
    exact balances.total
  waits task want listed := (balances.waits task want (apart.budget ▸ listed)).apart apart
  channels index channel held toward :=
    balances.channels index channel ((apart.channels index _ toward).mp held) toward
  reservations index reservation held toward :=
    balances.reservations index reservation ((apart.reservations index _ toward).mp held) toward

/-- A task runs that waits for no more than `own`. -/
theorem Balances.working (balances : node.Balances party bound)
    (waits : ∀ want, node.Waits party bound task want → own = some want) :
    node.Working party bound task own 0 := by
  refine balances.imp fun other want waiting => ?_
  unfold WaitsBut
  split
  · rename_i same
    exact waits want (same ▸ waiting)
  · exact waiting

/-- A task has run that waits for what it owes. -/
theorem Working.balances (working : node.Working party bound task own 0)
    (waits : ∀ want, own = some want → node.Waits party bound task want) :
    node.Balances party bound := by
  refine Balanced.imp working fun other want waiting => ?_
  unfold WaitsBut at waiting
  split at waiting
  · rename_i same
    exact same ▸ waits want waiting
  · exact waiting

theorem Working.of_same (working : node.Working party bound task own hand)
    (budgets : after.budgets = node.budgets) (channels : after.channels = node.channels)
    (reservations : after.reservations = node.reservations) (flights : after.flights = node.flights)
    (posts : after.posts = node.posts) : after.Working party bound task own hand := by
  refine (Balanced.of_same working budgets channels reservations).imp fun other want waits => ?_
  refine waits.imp fun _ waits => waits.mono ?_ ?_ (fun _ leads => leads.of_channels channels) ?_
  · exact fun _ _ _ held => flights ▸ held
  · exact fun _ _ _ held => posts ▸ held
  · exact fun _ _ _ held => reservations ▸ held

/-! ## Taking bytes and giving them back -/

private theorem Balanced.setBudget (balanced : node.Balanced party bound hand waits)
    (budget : Budget TaskId) {left : Nat} (limit : budget.limit = (node.budgets.get party).limit)
    (sound : budget.Sound)
    (total : budget.free + Budget.aside budget.waiters + left =
      (node.budgets.get party).free + Budget.aside (node.budgets.get party).waiters + hand)
    (line : ∀ task want, (task, want) ∈ Budget.line budget.waiters → others task want) :
    (node.setBudget party budget).Balanced party bound left others := by
  have here : (node.setBudget party budget).budgets.get party = budget := PerParty.get_set_self ..
  refine ⟨balanced.positive, ?_, ?_, ?_, ?_, balanced.channels, balanced.reservations⟩
  · rw [here, limit]
    exact balanced.limit
  · rw [here]
    exact sound
  · rw [here]
    have before := balanced.total
    have queued : (node.setBudget party budget).queuedBytes party = node.queuedBytes party := rfl
    have kept : (node.setBudget party budget).keptBytes party = node.keptBytes party := rfl
    omega
  · rw [here]
    exact line

private theorem Balanced.giveBytes (balanced : node.Balanced party bound (hand + bytes) waits) :
    (node.giveBytes party bytes).Balanced party bound hand waits := by
  obtain ⟨limit, total, sound, line, -⟩ := Budget.regains_give balanced.sound bytes
  have given : (node.setBudget party ((node.budgets.get party).give bytes).1).Balanced party bound
      hand waits := by
    refine balanced.setBudget _ limit sound (by omega) fun task want listed => ?_
    exact balanced.waits task want (line ▸ listed)
  exact given.of_same rfl rfl rfl

theorem Working.giveBytes (working : node.Working party bound task own (hand + bytes)) :
    (node.giveBytes party bytes).Working party bound task own hand :=
  Balanced.giveBytes working

theorem Working.reserveBytes_granted (working : node.Working party bound task own hand)
    (bytes : Nat) (granted : (node.reserveBytes task party bytes).2 = true) :
    (node.reserveBytes task party bytes).1.Working party bound task own (hand + bytes) := by
  obtain ⟨limit, waiters, free, sound⟩ := Budget.reserve_granted working.sound granted
  refine Balanced.setBudget working ((node.budgets.get party).reserve task bytes).1 limit sound ?_
    fun other want listed => ?_
  · rw [waiters]
    omega
  · exact working.waits other want (waiters ▸ listed)

theorem Working.reserveBytes_refused (working : node.Working party bound task none hand)
    (positive : 0 < bytes) (least : bytes ≤ bound)
    (refused : (node.reserveBytes task party bytes).2 = false) :
    (node.reserveBytes task party bytes).1.Working party bound task (some bytes) hand := by
  have fresh : task ∉ (node.budgets.get party).waiters.map (·.task) := by
    intro listed
    obtain ⟨waiter, member, named⟩ := List.mem_map.mp listed
    have waits := working.waits task waiter.want (Budget.mem_line.mpr ⟨waiter, member, named, rfl⟩)
    simp [waitsBut_self] at waits
  obtain ⟨limit, waiters, free, -, sound⟩ := Budget.reserve_refused working.sound refused fresh
    positive (working.limit ▸ least)
  refine Balanced.setBudget working ((node.budgets.get party).reserve task bytes).1 limit sound ?_
    fun other want listed => ?_
  · rw [waiters, free]
    simp only [Budget.aside, List.map_append, List.sum_append, List.map_cons, List.map_nil,
      List.sum_cons, List.sum_nil]
    omega
  · rw [waiters, Budget.line, List.map_append, List.mem_append] at listed
    rcases listed with before | last
    · have waits := working.waits other want before
      unfold WaitsBut at waits ⊢
      split
      · rename_i same
        simp [same] at waits
      · rename_i differs
        rwa [if_neg differs] at waits
    · obtain ⟨rfl, rfl⟩ : other = task ∧ want = bytes := by simpa using last
      exact waitsBut_self.mpr rfl

/-- Whoever leaves the line is not in it. -/
theorem Working.without (working : node.Working party bound task own hand) {budget : Budget TaskId}
    (listed : ∀ entry, entry ∈ Budget.line budget.waiters →
      entry ∈ Budget.line (node.budgets.get party).waiters ∧ entry.1 ≠ task) (other : TaskId)
    (want : Nat) (member : (other, want) ∈ Budget.line budget.waiters) :
    node.WaitsBut party bound task none other want := by
  obtain ⟨before, differs⟩ := listed _ member
  have waits := working.waits other want before
  unfold WaitsBut at waits ⊢
  rw [if_neg differs] at waits ⊢
  exact waits

theorem Working.leave (working : node.Working party bound task own hand)
    (served : (node.budgets.get party).isServed task = true) : ∃ want, own = some want ∧
      (node.setBudget party ((node.budgets.get party).leave task)).Working party bound task none
        (hand + want) := by
  obtain ⟨waiter, member, named, total⟩ := Budget.leave_served working.sound served
  refine ⟨waiter.want, ?_, ?_⟩
  · exact waitsBut_self.mp
      (working.waits task waiter.want (Budget.mem_line.mpr ⟨waiter, member, named, rfl⟩))
  · refine Balanced.setBudget working _ rfl (Budget.sound_leave working.sound task) (by omega)
      (working.without fun entry listed => ?_)
    obtain ⟨other, inside, same, wants⟩ := Budget.mem_line.mp listed
    obtain ⟨before, differs⟩ := Budget.mem_leave.mp inside
    exact ⟨Budget.mem_line.mpr ⟨other, before, same, wants⟩, same ▸ differs⟩

theorem Working.abandonBytes (working : node.Working party bound task own hand) :
    (node.abandonBytes task party).Working party bound task none hand := by
  obtain ⟨limit, total, sound, line, -⟩ := Budget.abandon_eq working.sound task
  have abandoned : (node.setBudget party ((node.budgets.get party).abandon task).1).Working party
      bound task none hand :=
    Balanced.setBudget working _ limit sound (by omega)
      (working.without fun entry listed => (line entry).mp listed)
  exact abandoned.of_same rfl rfl rfl rfl rfl

/-! ## Channels -/

private theorem bytesWithin_pos (positive : 0 < bound) (message : PartyMessage) :
    0 < message.bytesWithin bound := by
  unfold PartyMessage.bytesWithin
  omega

private theorem bytesWithin_le (message : PartyMessage) (bound : Nat) :
    message.bytesWithin bound ≤ bound := by
  unfold PartyMessage.bytesWithin
  exact Nat.min_le_right ..

private theorem Balanced.messageBytes_eq (balanced : node.Balanced party bound hand waits)
    (message : PartyMessage) : node.messageBytes party message = message.bytesWithin bound := by
  have positive := balanced.positive
  unfold messageBytes Budget.need PartyMessage.bytesWithin
  rw [balanced.limit]
  omega

/-- A channel to the party is replaced; the bytes that it does not keep are in hand. -/
theorem Working.setChannel (working : node.Working party bound task own hand)
    (held : node.channels[index]? = some channel) (toward : channel.party = party) (next : Channel)
    (same : next.party = channel.party) (left : Nat)
    (total : next.waitingBytes + left = channel.waitingBytes + hand) (fits : next.Fits bound) :
    (node.setChannel index next).Working party bound task own left := by
  refine ⟨working.positive, working.limit, working.sound, ?_, fun other want listed => ?_,
    fun place found present leads => ?_, working.reservations⟩
  · have queued := queuedBytes_setChannel held same party
    rw [if_pos toward, if_pos toward] at queued
    have before := working.total
    have budgets : (node.setChannel index next).budgets = node.budgets := rfl
    have kept : (node.setChannel index next).keptBytes party = node.keptBytes party := rfl
    rw [budgets]
    omega
  · refine (working.waits other want listed).imp fun _ waits => waits.mono ?_ ?_ ?_ ?_
    · exact fun _ _ _ held => held
    · exact fun _ _ _ held => held
    · exact fun _ leads => leads.setChannel held same
    · exact fun _ _ _ held => held
  · rw [Node.setChannel, List.getElem?_set] at present
    split at present
    · split at present
      · rwa [← Option.some.inj present]
      · cases present
    · exact working.channels place found present leads

private theorem Working.opened (working : node.Working party bound task own hand)
    (shared : Option Nat) : Working { node with
      channels := node.channels ++ [.fresh party]
      pooled := node.pooled.set party shared } party bound task own hand := by
  have queued : queuedBytes { node with
      channels := node.channels ++ [.fresh party]
      pooled := node.pooled.set party shared } party = node.queuedBytes party := by
    rw [queuedBytes_eq, queuedBytes_eq, List.map_append, List.sum_append]
    simp [Channel.waitingBytes, Channel.waiting, Channel.pending, Channel.fresh]
  refine ⟨working.positive, working.limit, working.sound, ?_, fun other want listed => ?_,
    fun place found present toward => ?_, working.reservations⟩
  · rw [queued]
    exact working.total
  · refine (working.waits other want listed).imp fun _ waits => waits.mono ?_ ?_ ?_ ?_
    · exact fun _ _ _ held => held
    · exact fun _ _ _ held => held
    · exact fun _ leads => leads.append rfl
    · exact fun _ _ _ held => held
  · by_cases last : place = node.channels.length
    · simp only [last, List.getElem?_concat_length, Option.some.injEq] at present
      exact present ▸ Channel.fits_fresh party bound
    · rw [getElem?_concat_of_ne last] at present
      exact working.channels place found present toward

theorem Working.acquire (working : node.Working party bound task own hand) :
    (node.acquire party).1.Working party bound task own hand := by
  unfold Node.acquire
  split
  · exact working
  · rename_i endpoint found
    have named : endpoint.party = party := Directory.party_of_find? found
    split
    · exact working
    · unfold dial
      dsimp only
      split
      · exact working.of_same rfl rfl rfl rfl rfl
      · have mended : Working ((node.modifyLink endpoint.party fun link =>
            { link with attempts := link.attempts + 1 }).modifyLink endpoint.party fun link =>
              { link with broken := false }) party bound task own hand :=
          working.of_same rfl rfl rfl rfl rfl
        rw [named] at mended ⊢
        exact (mended.opened (some node.channels.length)).of_same rfl rfl rfl rfl rfl

theorem Working.closeChannel (working : node.Working party bound task own hand)
    (leads : node.LeadsTo index party) :
    (node.closeChannel index).Working party bound task own hand := by
  obtain ⟨channel, held, toward⟩ := leads
  unfold Node.closeChannel
  rw [held]
  have fits := working.channels index channel held toward
  exact working.setChannel held toward { channel with closed := true } rfl hand rfl
    ⟨fits.within, fits.reserved⟩

theorem Working.invalidate (working : node.Working party bound task own hand) (pools : node.Pools) :
    (node.invalidate party).Working party bound task own hand := by
  unfold Node.invalidate
  split
  · rename_i index shared
    exact (working.closeChannel (pools party index shared)).of_same rfl rfl rfl rfl rfl
  · exact working

/-! ## Messages -/

/-- The bytes in hand go with the frame, or back. -/
theorem Working.putFrame (held : node.channels[index]? = some channel)
    (toward : channel.party = party)
    (working : node.Working party bound task own (hand + message.bytesWithin bound)) :
    (node.putFrame task index channel message).1.Working party bound task own hand := by
  subst toward
  have fits := working.channels index channel held rfl
  unfold Node.putFrame
  dsimp only
  rw [Balanced.messageBytes_eq working message]
  split
  · rename_i running
    have pushed := working.setChannel held rfl (channel.push
      ⟨message, task.startedSession?, message.line.utf8ByteSize, message.bytesWithin bound⟩) rfl hand
      (by rw [Channel.waitingBytes_push fits running]; simp only; omega) (fits.push rfl)
    exact pushed.of_same rfl rfl rfl rfl rfl
  · have closed := working.setChannel held rfl { channel with closed := true } rfl _ rfl
      ⟨fits.within, fits.reserved⟩
    exact closed.giveBytes

private theorem owes_putFrame (node : Node) (task : TaskId) (index : Nat) (channel : Channel)
    (message : PartyMessage) (bytes : Nat) :
    (node.putFrame task index channel message).2.owes bytes = none := by
  unfold Node.putFrame
  dsimp only
  split <;> rfl

theorem Working.send (working : node.Working party bound task none 0)
    (leads : node.LeadsTo index party) (message : PartyMessage) :
    (node.send task index message).1.Working party bound task
      ((node.send task index message).2.owes (message.bytesWithin bound)) 0 := by
  obtain ⟨channel, held, toward⟩ := leads
  have bytes : node.messageBytes channel.party message = message.bytesWithin bound :=
    toward ▸ Balanced.messageBytes_eq working message
  unfold Node.send
  rw [held]
  dsimp only
  split
  · rw [bytes, toward]
    have granted := working.reserveBytes_granted (message.bytesWithin bound)
    have refused := working.reserveBytes_refused (bytesWithin_pos working.positive message)
      (bytesWithin_le message bound)
    split <;> rename_i reserving <;> rw [reserving] at granted refused
    · have still := congrArg (fun result => result.1.channels[index]?) reserving
      have reserved := granted rfl
      rw [owes_putFrame]
      exact Working.putFrame (still.symm.trans held) toward reserved
    · exact refused rfl
  · exact working

theorem Working.resumeSend
    (working : node.Working party bound task (some (message.bytesWithin bound)) 0)
    (leads : node.LeadsTo index party) :
    (node.resumeSend task index message).1.Working party bound task
      ((node.resumeSend task index message).2.owes (message.bytesWithin bound)) 0 := by
  obtain ⟨channel, held, toward⟩ := leads
  unfold Node.resumeSend
  rw [held]
  dsimp only
  rw [toward]
  split
  · rename_i served
    obtain ⟨want, same, left⟩ := working.leave served
    rw [owes_putFrame]
    refine Working.putFrame held toward ?_
    rwa [← Option.some.inj same] at left
  · exact working

/-! ## Writers -/

private theorem Working.loseFrames (frames : List Frame)
    (working : node.Working party bound task own (hand + (frames.map (·.reserved)).sum)) :
    (node.loseFrames party frames).Working party bound task own hand := by
  unfold Node.loseFrames
  induction frames generalizing node with
  | nil => exact working
  | cons frame rest ih =>
    have total : hand + ((frame :: rest).map (·.reserved)).sum =
        hand + (rest.map (·.reserved)).sum + frame.reserved := by
      simp only [List.map_cons, List.sum_cons]
      omega
    rw [total] at working
    exact ih working.giveBytes

/-- Frames that are written, or lost, give their bytes back. -/
theorem Working.writeFrames {frames : List Frame}
    (working : node.Working party bound task own hand)
    (held : node.channels[index]? = some channel) (toward : channel.party = party)
    (running : channel.running = true) (pending : channel.pending = frames) :
    (node.writeFrames index frames).Working party bound task own hand := by
  induction frames generalizing node channel with
  | nil => exact working
  | cons frame rest ih =>
    subst toward
    have fits := working.channels index channel held rfl
    have waiting : channel.waiting = frame :: rest := by rw [Channel.waiting, if_pos running, pending]
    unfold Node.writeFrames
    rw [held]
    dsimp only
    split
    · have failed := working.setChannel held rfl channel.fail rfl
        (hand + ((frame :: rest).map (·.reserved)).sum)
        (by rw [Channel.waitingBytes_fail, Channel.waitingBytes, waiting]; omega)
        ⟨fits.within, fits.reserved⟩
      exact failed.loseFrames
    · obtain ⟨fits', pending'⟩ := fits.write pending
      have waiting' : ({ channel with written := channel.written + 1 } : Channel).waiting = rest := by
        rw [Channel.waiting, if_pos running, pending']
      have written := working.setChannel held rfl { channel with written := channel.written + 1 }
        rfl (hand + frame.reserved)
        (by simp only [Channel.waitingBytes, waiting, waiting', List.map_cons, List.sum_cons]; omega)
        fits'
      have noted : Working { node.setChannel index { channel with written := channel.written + 1 } with
          delivered := node.delivered ++ [(channel.party, frame)] } channel.party bound task own
            (hand + frame.reserved) := written.of_same rfl rfl rfl rfl rfl
      have inside := (List.getElem?_eq_some_iff.mp held).1
      have still : (node.channels.set index { channel with written := channel.written + 1 })[index]? =
          some { channel with written := channel.written + 1 } := List.getElem?_set_self inside
      exact ih noted.giveBytes still rfl running pending'

theorem Balances.pollWriter (balances : node.Balances party bound)
    (leads : node.LeadsTo index party) : (node.pollWriter index).Balances party bound := by
  have working : node.Working party bound (.writer index) none 0 :=
    balances.working fun want waits => waits.elim
  suffices written : (node.pollWriter index).Working party bound (.writer index) none 0 from
    written.balances (by simp)
  obtain ⟨channel, held, toward⟩ := leads
  unfold Node.pollWriter
  rw [held]
  dsimp only
  split
  · rename_i ready
    simp only [Bool.and_eq_true] at ready
    exact working.writeFrames held toward ready.1 rfl
  · exact working

end Node

end JointQuery
