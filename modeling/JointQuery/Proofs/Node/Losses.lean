import JointQuery.Proofs.Node.Starts
import Mathlib.Data.List.Perm.Basic

/-! Where the frames that start a session end up, over every run. Each is written by a link, waits
at a writer that runs, or was lost with a writer whose link failed; nothing tells the session of
that. -/
namespace JointQuery

namespace Channel

/-- The frames that the link has written. -/
def sent (channel : Channel) : List Frame := channel.frames.take channel.written

/-- The frames that the writer has still to write. -/
def waiting (channel : Channel) : List Frame := if channel.running then channel.pending else []

/-- The frames that were lost when a write failed. -/
def lost (channel : Channel) : List Frame := if channel.running then [] else channel.pending

theorem frames_eq (channel : Channel) :
    channel.frames = channel.sent ++ channel.waiting ++ channel.lost := by
  simp only [sent, waiting, lost, pending]
  split <;> simp

end Channel

namespace Node

variable {told : Bool} {active : Nat → Prop} {node after : Node} {index place : Nat} {party : Party}
  {channel next : Channel}

/-- The frames that start the session at a place and that a link to a party has written. -/
def writtenStarts (node : Node) (place : Nat) (party : Party) : List Frame :=
  startsOf place ((node.delivered.filter (·.1 = party)).map (·.2))

/-- The frames that start the session at a place and wait at a writer to a party. -/
def waitingStarts (node : Node) (place : Nat) (party : Party) : List Frame :=
  node.framesTo party fun channel => startsOf place channel.waiting

/-- The frames that start the session at a place and were lost on the way to a party. -/
def lostStarts (node : Node) (place : Nat) (party : Party) : List Frame :=
  node.framesTo party fun channel => startsOf place channel.lost

/-- What the links have written is what the channels take for written. -/
structure Accounted (node : Node) : Prop where
  within : ∀ (index : Nat) (channel : Channel), node.channels[index]? = some channel →
    channel.written ≤ channel.frames.length
  written : ∀ place party, (node.writtenStarts place party).Perm
    (node.framesTo party fun channel => startsOf place channel.sent)

private theorem framesTo_append (node : Node) (party : Party)
    (first second : Channel → List Frame) :
    (node.framesTo party fun channel => first channel ++ second channel).Perm
      (node.framesTo party first ++ node.framesTo party second) := by
  refine List.Perm.trans (.of_eq ?_) (List.flatMap_append_perm ..).symm
  refine List.flatMap_congr fun channel _ => ?_
  split <;> simp

/-- Every frame that starts a session was written, waits at a writer, or was lost. -/
theorem Accounted.starts (accounted : node.Accounted) (place : Nat) (party : Party) :
    (node.starts place party).Perm (node.writtenStarts place party ++
      node.waitingStarts place party ++ node.lostStarts place party) := by
  have split (channel : Channel) : startsOf place channel.frames = startsOf place channel.sent ++
      startsOf place channel.waiting ++ startsOf place channel.lost := by
    conv => lhs; rw [channel.frames_eq]
    simp only [startsOf, List.filter_append]
  simp only [Node.starts, split]
  refine (node.framesTo_append party _ _).trans (.append_right _ ?_)
  exact (node.framesTo_append party _ _).trans ((accounted.written place party).symm.append_right _)

private theorem Accounted.of_same (accounted : node.Accounted)
    (channels : after.channels = node.channels) (delivered : after.delivered = node.delivered) :
    after.Accounted where
  within index channel held := accounted.within index channel (channels ▸ held)
  written place party := by
    have written := accounted.written place party
    simpa only [writtenStarts, framesTo, channels, delivered] using written

private theorem within_setChannel (accounted : node.Accounted)
    (within : next.written ≤ next.frames.length) (other : Nat) (found : Channel)
    (present : (node.setChannel index next).channels[other]? = some found) :
    found.written ≤ found.frames.length := by
  rw [setChannel, List.getElem?_set] at present
  split at present
  · split at present
    · obtain rfl := Option.some.inj present
      exact within
    · cases present
  · exact accounted.within other found present

/-- A channel can be replaced by one to the same party on which the same frames are written. -/
theorem Accounted.setChannel (accounted : node.Accounted)
    (held : node.channels[index]? = some channel) (toward : next.party = channel.party)
    (within : next.written ≤ next.frames.length) (same : next.sent = channel.sent) :
    (node.setChannel index next).Accounted where
  within := within_setChannel accounted within
  written place party := by
    refine (accounted.written place party).trans (List.Perm.symm ?_)
    exact framesTo_setChannel_of_same (fun channel => startsOf place channel.sent) held toward
      (congrArg _ same)

/-- A frame that is put on a channel waits there. -/
theorem Accounted.push (accounted : node.Accounted) (held : node.channels[index]? = some channel)
    (frame : Frame) : (node.setChannel index (channel.push frame)).Accounted := by
  have within := accounted.within index channel held
  refine accounted.setChannel held rfl ?_ ?_
  · simp only [Channel.push, List.length_append]
    omega
  · simp only [Channel.sent, Channel.push, List.take_append_of_le_length within]

/-- Every change but the run of a writer writes nothing. -/
theorem Change.accounted (change : Change told active node after) (accounted : node.Accounted) :
    after.Accounted := by
  cases change with
  | beside same => exact accounted.of_same same.channels same.delivered
  | joined | queued | filed | settled | entered | flew | unpooled =>
    exact accounted.of_same rfl rfl
  | opened party =>
    refine ⟨fun index channel held => ?_, fun place other => ?_⟩
    · by_cases last : index = node.channels.length
      · simp only [last, List.getElem?_concat_length, Option.some.injEq] at held
        subst held
        exact Nat.zero_le _
      · rw [getElem?_concat_of_ne last] at held
        exact accounted.within index channel held
    · refine (accounted.written place other).trans (.of_eq (Eq.symm ?_))
      exact node.framesTo_open party other rfl
  | closed held =>
    have within := accounted.within _ _ held
    exact accounted.setChannel held rfl within rfl
  | posted held running apart => exact accounted.push held _
  | sent present held running live underway message starts =>
    exact (accounted.push held _).of_same rfl rfl

/-- Only the run of a writer loses anything. -/
theorem Change.lostStarts (change : Change told active node after) (place : Nat) (party : Party) :
    (after.lostStarts place party).Perm (node.lostStarts place party) := by
  cases change with
  | beside same => exact .of_eq (by simp only [Node.lostStarts, framesTo, same.channels])
  | joined | queued | filed | settled | entered | flew | unpooled => exact .refl _
  | opened party => exact .of_eq (node.framesTo_open party _ rfl)
  | closed held => exact framesTo_setChannel_of_same _ held rfl rfl
  | posted held running | sent present held running =>
    refine framesTo_setChannel_of_same _ held rfl ?_
    simp [Channel.lost, Channel.push, running]

private theorem Changes.accounted (changes : Changes told active node after)
    (accounted : node.Accounted) : after.Accounted := by
  induction changes with
  | refl => exact accounted
  | tail _ change ih => exact change.accounted ih

private theorem Changes.lostStarts (changes : Changes told active node after) (place : Nat)
    (party : Party) : (after.lostStarts place party).Perm (node.lostStarts place party) := by
  induction changes with
  | refl => exact .refl _
  | tail _ change ih => exact (change.lostStarts place party).trans ih

/-! ## Writers -/

private theorem received_map (frames : List Frame) (sender party : Party) :
    ((frames.map fun frame => (sender, frame)).filter (·.1 = party)).map (·.2) =
      if sender = party then frames else [] := by
  by_cases same : sender = party
  · simp [same, List.filter_map, Function.comp_def]
  · simp [same, List.filter_map, Function.comp_def]

/-- Writing the frames that wait on a channel. -/
theorem Accounted.write (accounted : node.Accounted)
    (held : node.channels[index]? = some channel) :
    Accounted
      { node.setChannel index { channel with
          written := channel.written + channel.pending.length } with
        delivered := node.delivered ++
          channel.pending.map fun frame => (channel.party, frame) } := by
  have within := accounted.within index channel held
  have all : channel.written + channel.pending.length = channel.frames.length := by
    simp only [Channel.pending, List.length_drop]
    omega
  rw [all]
  refine ⟨within_setChannel accounted (Nat.le_refl _), fun place party => ?_⟩
  have delivers : startsOf place (((node.delivered ++ channel.pending.map fun frame =>
      (channel.party, frame)).filter (·.1 = party)).map (·.2)) = node.writtenStarts place party ++
        if channel.party = party then startsOf place channel.pending else [] := by
    rw [List.filter_append, List.map_append, received_map, startsOf, List.filter_append]
    split
    · rfl
    · rfl
  have grows : (startsOf place
      (Channel.sent { channel with written := channel.frames.length })).Perm
        (startsOf place channel.sent ++ startsOf place channel.pending) := by
    simp only [startsOf, Channel.sent, Channel.pending, List.take_length]
    rw [← List.filter_append, List.take_append_drop]
  refine (List.Perm.of_eq delivers).trans ?_
  refine ((accounted.written place party).append_right _).trans ?_
  have toward : ({ channel with written := channel.frames.length } : Channel).party =
    channel.party := rfl
  exact (framesTo_setChannel (fun channel => startsOf place channel.sent) held toward grows).symm

private theorem Writes.accounted (writes : Writes node index after) (accounted : node.Accounted) :
    after.Accounted := by
  cases writes with
  | idle quiet same => exact accounted.of_same same.channels same.delivered
  | wrote held running works same =>
    exact (accounted.write held).of_same same.channels same.delivered
  | lost broken same =>
    rename_i channel
    have failed : (node.setChannel index channel.fail).Accounted :=
      accounted.setChannel broken.held rfl (accounted.within index channel broken.held) rfl
    exact failed.of_same same.channels same.delivered

/-- An operation runs a writer to a party that fails, with a frame pending that starts the session
at a place. -/
def Discards (node : Node) (operation : Operation) (place : Nat) (party : Party) : Prop :=
  ∃ index channel frame, operation = .run (.writer index) ∧ node.Broken index channel ∧
    channel.party = party ∧ frame ∈ channel.pending ∧ frame.session = some place

private theorem ne_nil_congr {α : Type} {entries others : List α} (same : entries.Perm others) :
    entries ≠ [] ↔ others ≠ [] := by
  rw [ne_eq, ne_eq, ← List.length_eq_zero_iff, ← List.length_eq_zero_iff, same.length_eq]

/-- A writer that fails discards what starts the session and is pending. -/
theorem Broken.discards_iff (broken : node.Broken index channel) (place : Nat) (party : Party) :
    node.Discards (.run (.writer index)) place party ↔
      (if channel.party = party then startsOf place channel.pending else []) ≠ [] := by
  constructor
  · rintro ⟨other, found, frame, task, again, toward, member, starts⟩
    obtain rfl : index = other := by simpa using task
    obtain rfl := Option.some.inj (broken.held.symm.trans again.held)
    rw [if_pos toward]
    exact List.ne_nil_of_mem (List.mem_filter.mpr ⟨member, by simpa using starts⟩)
  · intro nonempty
    split at nonempty
    · rename_i toward
      obtain ⟨frame, found⟩ := List.exists_mem_of_ne_nil _ nonempty
      obtain ⟨member, starts⟩ := List.mem_filter.mp found
      exact ⟨index, channel, frame, rfl, broken, toward, member, by simpa using starts⟩
    · exact absurd rfl nonempty

private theorem Broken.lostStarts (broken : node.Broken index channel) (place : Nat)
    (party : Party) : ((node.setChannel index channel.fail).lostStarts place party).Perm
      (node.lostStarts place party ++
        if channel.party = party then startsOf place channel.pending else []) := by
  refine framesTo_setChannel (fun channel => startsOf place channel.lost) broken.held
    (by rfl : channel.fail.party = channel.party) (List.Perm.of_eq ?_)
  simp [Channel.lost, Channel.fail, Channel.pending, broken.running, startsOf]

private theorem lostStarts_write (held : node.channels[index]? = some channel)
    (running : channel.running = true) (place : Nat) (party : Party) :
    ((node.setChannel index { channel with
      written := channel.written + channel.pending.length }).lostStarts place party).Perm
      (node.lostStarts place party) := by
  refine framesTo_setChannel_of_same (fun channel => startsOf place channel.lost) held rfl ?_
  simp [Channel.lost, running]

/-- The run of a writer loses what it discards. -/
theorem Writes.lostStarts_iff (writes : Writes node index after) (place : Nat) (party : Party) :
    after.lostStarts place party ≠ [] ↔
      node.lostStarts place party ≠ [] ∨ node.Discards (.run (.writer index)) place party := by
  have lost {middle : Node} (same : after.channels = middle.channels) :
      after.lostStarts place party = middle.lostStarts place party := by
    simp only [Node.lostStarts, framesTo, same]
  have nothing (quiet : ∀ channel, node.Broken index channel → channel.pending = []) :
      ¬ node.Discards (.run (.writer index)) place party := by
    rintro ⟨other, channel, frame, task, broken, -, member, -⟩
    obtain rfl : index = other := by simpa using task
    simp [quiet channel broken] at member
  cases writes with
  | idle quiet same => simp [lost same.channels, nothing quiet]
  | wrote held running works same =>
    rename_i channel
    have quiet (other : Channel) (broken : node.Broken index other) : other.pending = [] := by
      obtain rfl := Option.some.inj (held.symm.trans broken.held)
      exact absurd (works.symm.trans broken.fails) (by simp)
    have channels : after.channels = (node.setChannel index { channel with
      written := channel.written + channel.pending.length }).channels := same.channels
    rw [lost channels, ne_nil_congr (lostStarts_write held running place party)]
    simp [nothing quiet]
  | lost broken same =>
    rw [lost same.channels, ne_nil_congr (broken.lostStarts place party),
      broken.discards_iff place party]
    simp [or_iff_not_imp_left]

/-! ## Runs -/

/-- What an operation discards is lost, and nothing else. -/
theorem lostStarts_perform (order : node.InOrder false) (operation : Operation) (place : Nat)
    (party : Party) : (node.perform operation).lostStarts place party ≠ [] ↔
      node.lostStarts place party ≠ [] ∨ node.Discards operation place party := by
  cases writer : operation.writer? with
  | none =>
    have changes := changes_perform order writer (by simp)
    have nothing : ¬ node.Discards operation place party := by
      rintro ⟨index, channel, frame, rfl, -⟩
      simp [Operation.writer?] at writer
    rw [ne_nil_congr (changes.lostStarts place party)]
    simp [nothing]
  | some index =>
    obtain rfl : operation = .run (.writer index) := Operation.eq_of_writer? writer
    exact (writes_perform writer).lostStarts_iff place party

private theorem accounted_perform (order : node.InOrder false) (accounted : node.Accounted)
    (operation : Operation) : (node.perform operation).Accounted := by
  cases writer : operation.writer? with
  | none => exact (changes_perform order writer (by simp)).accounted accounted
  | some index => exact (writes_perform writer).accounted accounted

theorem accounted_performAll (order : node.InOrder false) (accounted : node.Accounted)
    (operations : List Operation) : (node.performAll operations).Accounted := by
  induction operations generalizing node with
  | nil => exact accounted
  | cons operation rest ih =>
    exact ih (inOrder_perform order (by simp)) (accounted_perform order accounted operation)

theorem accounted_start (config : Config) (limits : OutputLimits) (identifiers : Nat → QueryId) :
    (start config limits identifiers).Accounted where
  within index channel held := by cases held
  written place party := .refl _

/-- A frame that starts a session is lost in a run exactly when an operation of the run discards
it. -/
theorem lostStarts_performAll (order : node.InOrder false) (operations : List Operation)
    (place : Nat) (party : Party) : (node.performAll operations).lostStarts place party ≠ [] ↔
      node.lostStarts place party ≠ [] ∨ ∃ before operation after,
        operations = before ++ operation :: after ∧
        (node.performAll before).Discards operation place party := by
  induction operations generalizing node with
  | nil => simp [performAll]
  | cons operation rest ih =>
    rw [performAll_cons, ih (inOrder_perform order (by simp)), lostStarts_perform order, or_assoc]
    refine or_congr_right ⟨?_, ?_⟩
    · rintro (discards | ⟨before, later, after, rfl, discards⟩)
      · exact ⟨[], operation, rest, rfl, discards⟩
      · exact ⟨operation :: before, later, after, rfl, discards⟩
    · rintro ⟨before, later, after, same, discards⟩
      cases before with
      | nil =>
        obtain ⟨rfl, -⟩ := List.cons.inj same
        exact .inl discards
      | cons first before =>
        obtain ⟨rfl, rfl⟩ := List.cons.inj same
        exact .inr ⟨before, later, after, rfl, discards⟩

/-- Where the start of a session is, in every run, while the session awaits results. One frame for
each party carries it. The frame was written by a link, or waits at a writer that runs, or was lost;
and it was lost exactly when a writer of the run has discarded it. -/
theorem start_lost_iff (config : Config) (limits : OutputLimits) (identifiers : Nat → QueryId)
    (operations : List Operation) (node : Node)
    (reached : (start config limits identifiers).performAll operations = node)
    (place : Nat) (session : Session) (found : node.session? place = some session)
    (awaits : session.state = .awaitingResults) (party : Party) : ∃ frame,
    frame.message = .startQuery session.id session.query.wire session.clientRef ∧
    node.writtenStarts place party ++ node.waitingStarts place party ++
      node.lostStarts place party = [frame] ∧
    (node.lostStarts place party = [frame] ↔ ∃ before operation after,
      operations = before ++ operation :: after ∧
      ((start config limits identifiers).performAll before).Discards operation place party) := by
  have begins := inOrder_start false config limits identifiers
  have order : node.InOrder false := reached ▸ inOrder_performAll begins (by simp)
  have accounted : node.Accounted := reached ▸
    accounted_performAll begins (accounted_start config limits identifiers) operations
  obtain ⟨flight, held, rfl⟩ := Option.map_eq_some_iff.mp found
  have dispatched := order.dispatches.flights place flight held
  have sent := dispatched.awaiting awaits party
  obtain ⟨frame, one, message⟩ := (dispatched.starts_cases party).resolve_left
    fun ⟨unsent, _⟩ => by simp [sent] at unsent
  have all : node.writtenStarts place party ++ node.waitingStarts place party ++
      node.lostStarts place party = [frame] :=
    List.perm_singleton.mp ((accounted.starts place party).symm.trans (.of_eq one))
  refine ⟨frame, message, all, ?_⟩
  have lost : node.lostStarts place party = [frame] ↔ node.lostStarts place party ≠ [] := by
    refine ⟨fun same => by simp [same], fun nonempty => ?_⟩
    rcases List.append_eq_singleton_iff.mp all with ⟨-, only⟩ | ⟨-, none⟩
    · exact only
    · exact absurd none nonempty
  have losses := lostStarts_performAll begins operations place party
  rw [reached] at losses
  rw [lost, losses]
  exact or_iff_right fun nonempty => nonempty rfl

/-- A query is brought to its parties, and the link to one breaks before its frame is written. -/
def brokenRun : List Operation :=
  [.addClient "front" 8 0 false, .beginQuery 0 Session.oneCount true, .run (.fanOut 0),
    .run (.sender 0 .ph), .run (.sender 0 .db1), .run (.sender 0 .db2), .run (.fanOut 0),
    .breakLinks .db1, .run (.writer 1)]

private theorem awaits_brokenRun : ∃ node session,
    (start (.ofParty .ph) (Config.ofParty .ph).outputLimits QueryId.numbered).performAll
      brokenRun = node ∧
    node.session? 0 = some session ∧ session.state = .awaitingResults ∧
    node.writtenStarts 0 .db1 = [] ∧ node.waitingStarts 0 .db1 = [] := by
  have run :
      let node := (start (.ofParty .ph) (Config.ofParty .ph).outputLimits
        QueryId.numbered).performAll brokenRun
      (node.session? 0).map (·.state) = some .awaitingResults ∧
        (node.writtenStarts 0 .db1).isEmpty = true ∧
        (node.waitingStarts 0 .db1).isEmpty = true := by decide +kernel
  obtain ⟨state, written, waiting⟩ := run
  obtain ⟨session, found, awaits⟩ := Option.map_eq_some_iff.mp state
  exact ⟨_, session, rfl, found, awaits, List.isEmpty_iff.mp written, List.isEmpty_iff.mp waiting⟩

/-- The frame was lost, since a writer has discarded it. -/
theorem start_lost_iff_broken : ∃ node session frame,
    (start (.ofParty .ph) (Config.ofParty .ph).outputLimits QueryId.numbered).performAll
      brokenRun = node ∧
    node.session? 0 = some session ∧ session.state = .awaitingResults ∧
    node.lostStarts 0 .db1 = [frame] ∧ ∃ before operation after,
      brokenRun = before ++ operation :: after ∧
      ((start (.ofParty .ph) (Config.ofParty .ph).outputLimits QueryId.numbered).performAll
        before).Discards operation 0 .db1 := by
  obtain ⟨node, session, reached, found, awaits, written, waiting⟩ := awaits_brokenRun
  obtain ⟨frame, -, one, lost⟩ := start_lost_iff (.ofParty .ph) (Config.ofParty .ph).outputLimits
    QueryId.numbered brokenRun node reached 0 session found awaits .db1
  rw [written, waiting] at one
  exact ⟨node, session, frame, reached, found, awaits, one, lost.mp one⟩

/-- A session can await results from a party although its start was not written and waits at no
writer. -/
theorem awaits_unstarted : ¬ ∀ (config : Config) (limits : OutputLimits)
    (identifiers : Nat → QueryId) (operations : List Operation) (node : Node),
    (start config limits identifiers).performAll operations = node →
    ∀ place session, node.session? place = some session → session.state = .awaitingResults →
      ∀ party, node.writtenStarts place party ≠ [] ∨ node.waitingStarts place party ≠ [] := by
  intro never
  obtain ⟨node, session, reached, found, awaits, written, waiting⟩ := awaits_brokenRun
  rcases never _ _ _ _ node reached 0 session found awaits .db1 with sent | queued
  · exact sent written
  · exact queued waiting

end Node

end JointQuery
