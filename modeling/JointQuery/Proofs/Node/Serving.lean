import JointQuery.Proofs.Node.Balance

/-! What there is to do toward a party. Bytes that come back rouse whoever they serve, a frame that
is put on a channel rouses its writer; so whatever can be done can run, and a task that has run
leaves nothing behind that it could do itself. -/
namespace JointQuery

namespace Node

/-- A task has something to do toward a party, and can do it. -/
inductive Due (node : Node) (party : Party) : TaskId → Prop where
  /-- All bytes that the task waits for are set aside. -/
  | served (member : waiter ∈ (node.budgets.get party).waiters) (full : waiter.held = waiter.want) :
      Due node party waiter.task
  | starts (held : node.flights[place]? = some flight) (starting : flight.fanOut = .starting) :
      Due node party (.fanOut place)
  | tries (held : node.flights[place]? = some flight)
      (pausing : flight.senders.get party = .pausing backoff due) :
      Due node party (.sender place party)
  | writes (held : node.channels[index]? = some channel) (toward : channel.party = party)
      (pending : channel.pending ≠ []) : Due node party (.writer index)

/-- A task is in line for bytes toward a party. -/
def InLine (node : Node) (party : Party) (task : TaskId) : Prop :=
  ∃ waiter ∈ (node.budgets.get party).waiters, waiter.task = task

/-- A node later on, where whatever could run can still run, and whatever else there is to do toward
a party can run, too. -/
structure Rouses (party : Party) (node after : Node) : Prop where
  ready : ∀ task ∈ node.agenda.ready, task ∈ after.agenda.ready
  due : ∀ task, after.Due party task → node.Due party task ∨ task ∈ after.agenda.ready

variable {party : Party} {node middle after : Node} {index place : Nat} {channel next : Channel}
  {task other : TaskId} {message : PartyMessage} {bound : Nat}

theorem Rouses.refl (party : Party) (node : Node) : node.Rouses party node :=
  ⟨fun _ => id, fun _ => .inl⟩

theorem Rouses.trans (earlier : node.Rouses party middle) (later : middle.Rouses party after) :
    node.Rouses party after where
  ready task member := later.ready task (earlier.ready task member)
  due task due := (later.due task due).elim
    (fun before => (earlier.due task before).imp_right (later.ready task)) .inr

theorem Apart.rouses (apart : node.Apart party after) : node.Rouses party after where
  ready := apart.agenda.ready
  due task due := by
    cases due with
    | served member full => exact .inl (.served (apart.budget ▸ member) full)
    | @starts place next found starting =>
      rcases apart.grown found with ⟨flight, held, goes⟩ | ⟨session, -, goes⟩ <;>
        rcases goes.fanOut with ⟨same, -⟩ | ⟨-, ready⟩ | ⟨-, begun⟩
      · exact .inl (.starts held (same.symm.trans starting))
      · exact .inr ready
      · simp [starting, FanOut.isBegun] at begun
      · simp [starting, Flight.fresh] at same
      · exact .inr ready
      · simp [starting, FanOut.isBegun] at begun
    | @tries place next backoff due found pausing =>
      rcases apart.grown found with ⟨flight, held, goes⟩ | ⟨session, -, goes⟩
      · exact .inl (.tries held (goes.sender.symm.trans pausing))
      · have unstarted := goes.sender.symm.trans pausing
        cases party <;> cases unstarted
    | @writes index channel found toward pending =>
      exact .inl (.writes ((apart.channels index channel toward).mp found) toward pending)

/-! ## Whoever is served -/

private theorem mem_unique {waiters : List (Waiter TaskId)}
    (distinct : (waiters.map (·.task)).Nodup)
    {first second : Waiter TaskId} (here : first ∈ waiters) (there : second ∈ waiters)
    (same : first.task = second.task) : first = second := by
  induction waiters with
  | nil => cases here
  | cons waiter rest ih =>
    rw [List.map_cons, List.nodup_cons] at distinct
    rcases List.mem_cons.mp here with rfl | inside <;> rcases List.mem_cons.mp there with rfl | deep
    · rfl
    · exact absurd (same ▸ List.mem_map_of_mem deep) distinct.1
    · exact absurd (same.symm ▸ List.mem_map_of_mem inside) distinct.1
    · exact ih distinct.2 inside deep

/-- A task that is not served lacks bytes, if it is in line at all. -/
theorem not_full_of_not_served (sound : (node.budgets.get party).Sound)
    (unserved : (node.budgets.get party).isServed task = false) {waiter : Waiter TaskId}
    (member : waiter ∈ (node.budgets.get party).waiters) (named : waiter.task = task) :
    waiter.held ≠ waiter.want := by
  intro full
  unfold Budget.isServed at unserved
  split at unserved
  · rename_i other found
    obtain ⟨inside, same⟩ := Budget.mem_of_waiter? found
    obtain rfl := mem_unique sound.distinct inside member (same.trans named.symm)
    simp [Waiter.isServed, full] at unserved
  · rename_i missing
    have absent := List.find?_eq_none.mp missing waiter member
    simp [named] at absent

/-- A task has run and could not do more toward the party: it is not in line, or lacks bytes. -/
def Unserved (node : Node) (party : Party) (task : TaskId) : Prop :=
  ∀ waiter ∈ (node.budgets.get party).waiters, waiter.task = task → waiter.held ≠ waiter.want

theorem not_due (unserved : node.Unserved party task)
    (starts : ∀ place flight, task = .fanOut place → node.flights[place]? = some flight →
      flight.fanOut ≠ .starting)
    (tries : ∀ place flight backoff due, task = .sender place party →
      node.flights[place]? = some flight → flight.senders.get party ≠ .pausing backoff due)
    (writes : ∀ index channel, task = .writer index → node.channels[index]? = some channel →
      channel.party = party → channel.pending = []) : ¬ node.Due party task := by
  intro due
  cases due with
  | served member full => exact unserved _ member rfl full
  | starts held starting => exact starts _ _ rfl held starting
  | tries held pausing => exact tries _ _ _ _ rfl held pausing
  | writes held toward pending => exact pending (writes _ _ rfl held toward)

/-! ## Channels and bytes -/

/-- What a task can do with the channels of a party and its bytes. Nobody else leaves the line. -/
structure Serves (party : Party) (task : TaskId) (node after : Node) : Prop
    extends Rouses party node after where
  directory : after.directory = node.directory
  links : after.links = node.links
  listening : after.listening = node.listening
  pooled : after.pooled = node.pooled
  now : after.now = node.now
  flights : after.flights = node.flights
  channels : ∀ (index : Nat) (next : Channel), after.channels[index]? = some next →
    next.party = party → ∃ channel, node.channels[index]? = some channel ∧
      channel.party = party ∧ next.isOpen = channel.isOpen
  line : ∀ other, other ≠ task → node.InLine party other → after.InLine party other

private theorem Serves.refl (party : Party) (task : TaskId) (node : Node) :
    node.Serves party task node where
  toRouses := .refl party node
  directory := rfl
  links := rfl
  listening := rfl
  pooled := rfl
  now := rfl
  flights := rfl
  channels _ next held toward := ⟨next, held, toward, rfl⟩
  line _ _ := id

theorem Serves.trans (earlier : node.Serves party task middle) (later : middle.Serves party task after) :
    node.Serves party task after where
  toRouses := earlier.toRouses.trans later.toRouses
  directory := later.directory.trans earlier.directory
  links := later.links.trans earlier.links
  listening := later.listening.trans earlier.listening
  pooled := later.pooled.trans earlier.pooled
  now := later.now.trans earlier.now
  flights := later.flights.trans earlier.flights
  channels index last held toward := by
    obtain ⟨next, found, leads, opened⟩ := later.channels index last held toward
    obtain ⟨channel, present, before, same⟩ := earlier.channels index next found leads
    exact ⟨channel, present, before, opened.trans same⟩
  line other differs waits := later.line other differs (earlier.line other differs waits)

theorem Due.of_same (due : after.Due party task) (budgets : after.budgets = node.budgets)
    (channels : after.channels = node.channels) (flights : after.flights = node.flights) :
    node.Due party task := by
  cases due with
  | served member full => exact .served (budgets ▸ member) full
  | starts held starting => exact .starts (flights ▸ held) starting
  | tries held pausing => exact .tries (flights ▸ held) pausing
  | writes held toward pending => exact .writes (channels ▸ held) toward pending

theorem serves_of_same (directory : after.directory = node.directory)
    (links : after.links = node.links) (listening : after.listening = node.listening)
    (pooled : after.pooled = node.pooled) (budgets : after.budgets = node.budgets)
    (channels : after.channels = node.channels) (flights : after.flights = node.flights)
    (agenda : after.agenda = node.agenda) : node.Serves party task after where
  ready other member := agenda ▸ member
  due other due := .inl (due.of_same budgets channels flights)
  directory := directory
  links := links
  listening := listening
  pooled := pooled
  now := congrArg (·.now) agenda
  flights := flights
  channels index next held toward := ⟨next, channels ▸ held, toward, rfl⟩
  line other _ waits := by
    unfold InLine at waits ⊢
    rwa [budgets]

/-- The budget changes, and whoever is served by that is roused. -/
theorem serves_setBudget {budget : Budget TaskId} {roused : List TaskId}
    (line : ∀ waiter ∈ (node.budgets.get party).waiters, waiter.task ≠ task →
      ∃ later ∈ budget.waiters, later.task = waiter.task)
    (woken : ∀ waiter ∈ budget.waiters, waiter.held = waiter.want →
      waiter.task ∈ roused ∨ waiter ∈ (node.budgets.get party).waiters) :
    node.Serves party task ((node.setBudget party budget).wakeAll roused) := by
  have here : ((node.setBudget party budget).wakeAll roused).budgets.get party = budget :=
    PerParty.get_set_self ..
  refine { Serves.refl party task node with
    ready := (node.agenda.extends_wakeAll roused).ready
    due := fun other due => ?_
    now := (node.agenda.extends_wakeAll roused).now
    line := fun other differs waits => ?_ }
  · cases due with
    | served member full =>
      rw [here] at member
      rcases woken _ member full with now | before
      · exact .inr (node.agenda.mem_wakeAll now)
      · exact .inl (.served before full)
    | starts held starting => exact .inl (.starts held starting)
    | tries held pausing => exact .inl (.tries held pausing)
    | writes held toward pending => exact .inl (.writes held toward pending)
  · obtain ⟨waiter, member, rfl⟩ := waits
    obtain ⟨later, found, same⟩ := line waiter member differs
    exact ⟨later, here.symm ▸ found, same⟩

private theorem exists_of_line {waiters others : List (Waiter TaskId)}
    (same : Budget.line others = Budget.line waiters) :
    ∀ waiter ∈ waiters, ∃ later ∈ others, later.task = waiter.task := by
  intro waiter member
  have listed : (waiter.task, waiter.want) ∈ Budget.line others :=
    same ▸ Budget.mem_line.mpr ⟨waiter, member, rfl, rfl⟩
  obtain ⟨later, inside, named, -⟩ := Budget.mem_line.mp listed
  exact ⟨later, inside, named⟩

theorem serves_giveBytes (sound : (node.budgets.get party).Sound) (task : TaskId) (bytes : Nat) :
    node.Serves party task (node.giveBytes party bytes) := by
  obtain ⟨-, -, -, line, woken⟩ := Budget.regains_give sound bytes
  exact serves_setBudget (fun waiter member _ => exists_of_line line waiter member) woken

theorem serves_abandonBytes (sound : (node.budgets.get party).Sound) (task : TaskId) :
    node.Serves party task (node.abandonBytes task party) ∧
      (node.abandonBytes task party).Unserved party task := by
  obtain ⟨-, -, -, line, woken⟩ := Budget.abandon_eq sound task
  refine ⟨serves_setBudget (fun waiter member differs => ?_) woken, fun waiter member named => ?_⟩
  · have listed := (line (waiter.task, waiter.want)).mpr
      ⟨Budget.mem_line.mpr ⟨waiter, member, rfl, rfl⟩, differs⟩
    obtain ⟨later, inside, same, -⟩ := Budget.mem_line.mp listed
    exact ⟨later, inside, same⟩
  · have here : (node.abandonBytes task party).budgets.get party =
        ((node.budgets.get party).abandon task).1 := PerParty.get_set_self ..
    rw [here] at member
    have listed : (waiter.task, waiter.want) ∈
        Budget.line ((node.budgets.get party).abandon task).1.waiters :=
      Budget.mem_line.mpr ⟨waiter, member, rfl, rfl⟩
    exact absurd named ((line _).mp listed).2

/-- A task takes bytes that are free, or is last in the line and lacks some. -/
theorem serves_reserveBytes (node : Node) {task : TaskId} (absent : ¬ node.InLine party task)
    (bytes : Nat) : node.Serves party task (node.reserveBytes task party bytes).1 ∧
      (node.reserveBytes task party bytes).1.Unserved party task ∧
      ((node.reserveBytes task party bytes).2 = false →
        (node.reserveBytes task party bytes).1.InLine party task) := by
  have outside (waiter : Waiter TaskId) (member : waiter ∈ (node.budgets.get party).waiters) :
      waiter.task ≠ task := fun named => absent ⟨waiter, member, named⟩
  have here : (node.reserveBytes task party bytes).1.budgets.get party =
      ((node.budgets.get party).reserve task bytes).1 := PerParty.get_set_self ..
  unfold Unserved InLine
  rw [here]
  by_cases enough : bytes ≤ (node.budgets.get party).free
  · have same : (node.budgets.get party).reserve task bytes =
        ({ node.budgets.get party with free := (node.budgets.get party).free - bytes }, true) :=
      if_pos enough
    have serves : node.Serves party task ((node.setBudget party
        ((node.budgets.get party).reserve task bytes).1).wakeAll []) := by
      rw [same]
      exact serves_setBudget (fun waiter member _ => ⟨waiter, member, rfl⟩) fun _ member _ =>
        .inr member
    refine ⟨serves, ?_, ?_⟩ <;> simp only [reserveBytes, same]
    · exact fun waiter member named => absurd named (outside waiter member)
    · simp
  · have same : (node.budgets.get party).reserve task bytes =
        ({ node.budgets.get party with
            free := 0
            waiters := (node.budgets.get party).waiters ++
              [⟨task, bytes, (node.budgets.get party).free⟩] }, false) := if_neg enough
    have lacks (waiter : Waiter TaskId) (member : waiter ∈ (node.budgets.get party).waiters ++
        [⟨task, bytes, (node.budgets.get party).free⟩]) :
        waiter ∈ (node.budgets.get party).waiters ∨ waiter.held ≠ waiter.want := by
      refine (List.mem_append.mp member).imp_right fun last => ?_
      rw [List.mem_singleton.mp last]
      simp only
      omega
    have serves : node.Serves party task ((node.setBudget party
        ((node.budgets.get party).reserve task bytes).1).wakeAll []) := by
      rw [same]
      refine serves_setBudget (fun waiter member _ => ?_) fun waiter member full => ?_
      · exact ⟨waiter, List.mem_append_left _ member, rfl⟩
      · exact .inr ((lacks waiter member).resolve_right fun short => short full)
    refine ⟨serves, ?_, ?_⟩ <;> simp only [reserveBytes, same]
    · intro waiter member named
      exact (lacks waiter member).resolve_left fun before => outside waiter before named
    · exact fun _ => ⟨_, List.mem_append_right _ List.mem_cons_self, rfl⟩

/-- A task that is served leaves the line. -/
theorem serves_leave (node : Node) (party : Party) (task : TaskId) :
    node.Serves party task (node.setBudget party ((node.budgets.get party).leave task)) ∧
      (node.setBudget party ((node.budgets.get party).leave task)).Unserved party task := by
  have here : (node.setBudget party ((node.budgets.get party).leave task)).budgets.get party =
      (node.budgets.get party).leave task := PerParty.get_set_self ..
  have serves : node.Serves party task ((node.setBudget party
      ((node.budgets.get party).leave task)).wakeAll []) := by
    refine serves_setBudget (fun waiter member differs => ?_) fun waiter member _ => ?_
    · exact ⟨waiter, Budget.mem_leave.mpr ⟨member, differs⟩, rfl⟩
    · exact .inr (Budget.mem_leave.mp member).1
  refine ⟨serves, fun waiter member named => ?_⟩
  rw [here] at member
  exact absurd named (Budget.mem_leave.mp member).2

/-! ## Messages -/

/-- A channel is replaced by one that is as open; if frames are pending on it, its writer can
run. -/
theorem serves_setChannel (held : node.channels[index]? = some channel)
    (toward : channel.party = party) (next : Channel) (same : next.isOpen = channel.isOpen)
    (task : TaskId) (roused : List TaskId)
    (writes : next.pending ≠ [] → channel.pending ≠ [] ∨ .writer index ∈ roused) :
    node.Serves party task ((node.setChannel index next).wakeAll roused) := by
  have inside := (List.getElem?_eq_some_iff.mp held).1
  have cases (place : Nat) (found : Channel)
      (present : (node.channels.set index next)[place]? = some found) :
      (place = index ∧ found = next) ∨ node.channels[place]? = some found := by
    rw [List.getElem?_set] at present
    split at present
    · rename_i here
      simp only [Option.some.injEq] at present
      exact .inl ⟨here.symm, present.symm⟩
    · exact .inr present
  refine { Serves.refl party task node with
    ready := (node.agenda.extends_wakeAll roused).ready
    due := fun other due => ?_
    now := (node.agenda.extends_wakeAll roused).now
    channels := fun place found present leads => ?_ }
  · cases due with
    | served member full => exact .inl (.served member full)
    | starts held starting => exact .inl (.starts held starting)
    | tries held pausing => exact .inl (.tries held pausing)
    | @writes place found present leads pending =>
      rcases cases place found present with ⟨rfl, rfl⟩ | before
      · rcases writes pending with left | now
        · exact .inl (.writes held toward left)
        · exact .inr (node.agenda.mem_wakeAll now)
      · exact .inl (.writes before leads pending)
  · rcases cases place found present with ⟨rfl, rfl⟩ | before
    · exact ⟨channel, held, toward, same⟩
    · exact ⟨found, before, leads, rfl⟩

/-- A frame is put on a channel whose writer runs. -/
theorem serves_putFrame (held : node.channels[index]? = some channel)
    (toward : channel.party = party) (running : channel.running = true) (task other : TaskId)
    (message : PartyMessage) :
    (node.putFrame other index channel message).2 = .sent ∧
      node.Serves party task (node.putFrame other index channel message).1 ∧
      (node.putFrame other index channel message).1.budgets = node.budgets := by
  unfold Node.putFrame
  dsimp only
  rw [if_pos running]
  exact ⟨rfl, serves_setChannel held toward (channel.push _) rfl task [.writer index]
    fun _ => .inr List.mem_cons_self, rfl⟩

theorem serves_send {task : TaskId} (absent : ¬ node.InLine party task)
    (held : node.channels[index]? = some channel) (toward : channel.party = party)
    (opened : channel.isOpen = true) (message : PartyMessage) :
    node.Serves party task (node.send task index message).1 ∧
      (node.send task index message).1.Unserved party task ∧
      ((node.send task index message).2 = .sent ∨ (node.send task index message).2 = .parked ∧
        (node.send task index message).1.InLine party task) := by
  subst toward
  have running := Channel.running_of_isOpen opened
  obtain ⟨serves, unserved, waits⟩ := serves_reserveBytes node absent
    (node.messageBytes channel.party message)
  unfold Node.send
  rw [held]
  dsimp only
  rw [if_pos opened]
  split <;> rename_i reserved reserving <;> rw [reserving] at serves unserved waits
  · have still := congrArg (fun result => result.1.channels[index]?) reserving
    obtain ⟨sent, puts, budgets⟩ := serves_putFrame (still.symm.trans held) rfl running task task
      message
    refine ⟨serves.trans puts, ?_, .inl sent⟩
    unfold Unserved
    rw [budgets]
    exact unserved
  · exact ⟨serves, unserved, .inr ⟨rfl, waits rfl⟩⟩

theorem serves_resumeSend (task : TaskId) (sound : (node.budgets.get party).Sound)
    (held : node.channels[index]? = some channel) (toward : channel.party = party)
    (running : channel.running = true) (message : PartyMessage) :
    node.Serves party task (node.resumeSend task index message).1 ∧
      (node.resumeSend task index message).1.Unserved party task ∧
      ((node.resumeSend task index message).2 = .sent ∨
        (node.resumeSend task index message).2 = .parked ∧
          (node.resumeSend task index message).1 = node) := by
  subst toward
  unfold Node.resumeSend
  rw [held]
  dsimp only
  split
  · obtain ⟨serves, unserved⟩ := serves_leave node channel.party task
    have still : (node.setBudget channel.party
        ((node.budgets.get channel.party).leave task)).channels[index]? = some channel := held
    obtain ⟨sent, puts, budgets⟩ := serves_putFrame still rfl running task task message
    refine ⟨serves.trans puts, ?_, .inl sent⟩
    unfold Unserved
    rw [budgets]
    exact unserved
  · rename_i unserved
    refine ⟨.refl _ _ _, fun waiter member named => ?_, .inr ⟨rfl, rfl⟩⟩
    exact not_full_of_not_served sound (by simpa using unserved) member named

/-! ## Writers -/

/-- A link that works takes all frames that are pending on a channel. -/
theorem serves_writeFrames {frames : List Frame} (sound : (node.budgets.get party).Sound)
    (works : (node.links.get party).broken = false) (listening : node.listening = true)
    (held : node.channels[index]? = some channel) (toward : channel.party = party)
    (written : channel.written + frames.length = channel.frames.length) (task : TaskId) :
    node.Serves party task (node.writeFrames index frames) ∧
      ∃ last, (node.writeFrames index frames).channels[index]? = some last ∧ last.pending = [] := by
  induction frames generalizing node channel with
  | nil =>
    refine ⟨.refl _ _ _, channel, held, ?_⟩
    rw [Channel.pending, List.drop_eq_nil_iff, ← written]
    simp
  | cons frame rest ih =>
    subst toward
    have inside := (List.getElem?_eq_some_iff.mp held).1
    have left : channel.pending ≠ [] := by
      intro none
      rw [Channel.pending, List.drop_eq_nil_iff, ← written, List.length_cons] at none
      omega
    unfold Node.writeFrames
    rw [held]
    dsimp only
    rw [if_neg (by simp [works, listening])]
    have writes : node.Serves channel.party task (node.setChannel index
        { channel with written := channel.written + 1 }) :=
      serves_setChannel held rfl { channel with written := channel.written + 1 } rfl task []
        fun _ => .inl left
    have notes : node.Serves channel.party task
        { node.setChannel index { channel with written := channel.written + 1 } with
          delivered := node.delivered ++ [(channel.party, frame)] } :=
      writes.trans (serves_of_same rfl rfl rfl rfl rfl rfl rfl rfl)
    have gives : Node.Serves channel.party task _ (Node.giveBytes
        { node.setChannel index { channel with written := channel.written + 1 } with
          delivered := node.delivered ++ [(channel.party, frame)] } channel.party frame.reserved) :=
      serves_giveBytes (by exact sound) task frame.reserved
    have sound' : ((Node.giveBytes
        { node.setChannel index { channel with written := channel.written + 1 } with
          delivered := node.delivered ++ [(channel.party, frame)] } channel.party
            frame.reserved).budgets.get channel.party).Sound := by
      have here := (Budget.regains_give sound frame.reserved).sound
      rwa [← PerParty.get_set_self node.budgets channel.party
        ((node.budgets.get channel.party).give frame.reserved).1] at here
    have written' : channel.written + 1 + rest.length = channel.frames.length := by
      simp only [List.length_cons] at written
      omega
    have still : (node.channels.set index { channel with written := channel.written + 1 })[index]? =
        some { channel with written := channel.written + 1 } := List.getElem?_set_self inside
    obtain ⟨later, last⟩ := ih sound' works listening still rfl written'
    exact ⟨(notes.trans gives).trans later, last⟩

end Node

end JointQuery
