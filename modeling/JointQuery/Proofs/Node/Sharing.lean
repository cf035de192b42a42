import JointQuery.Proofs.Node.Cells
import JointQuery.Proofs.Node.Steady
import JointQuery.Proofs.Node.Working

/-! One open channel per party. Whoever asks for a channel to a party gets the shared one as long as
it is open, and otherwise dials; so all who ask between two dials that succeed get the same one. A
channel that was closed, forgotten or lost is never shared again. -/
namespace JointQuery.Node

variable {told : Bool} {active : Nat → Prop} {party other : Party} {node middle after : Node}
  {index place : Nat} {channel next : Channel} {cause : QueryError}

/-! ## What becomes of the channels to a party -/

private theorem channelsTo_of_parties
    (same : after.channels.map (·.party) = node.channels.map (·.party)) (party : Party) :
    after.channelsTo party = node.channelsTo party := by
  have length : after.channels.length = node.channels.length := by
    simpa using congrArg List.length same
  have each (index : Nat) :
      after.channels[index]?.map (·.party) = node.channels[index]?.map (·.party) := by
    simpa using congrArg (·[index]?) same
  simp only [channelsTo, length, each]

/-- A new channel is the last of those to its party. -/
theorem channelsTo_open (opened : Party)
    (channels : after.channels = node.channels ++ [.fresh opened]) (party : Party) :
    after.channelsTo party =
      node.channelsTo party ++ if opened = party then [node.channels.length] else [] := by
  have before : (List.range node.channels.length).filter (fun index =>
      (after.channels[index]?.map (·.party)) == some party) = node.channelsTo party := by
    refine List.filter_congr fun index member => ?_
    rw [channels, List.getElem?_append_left (List.mem_range.mp member)]
  have last : after.channels[node.channels.length]?.map (·.party) = some opened := by
    rw [channels, List.getElem?_concat_length]
    rfl
  have length : after.channels.length = node.channels.length + 1 := by simp [channels]
  rw [channelsTo, length, List.range_succ, List.filter_append, before, List.filter_singleton, last]
  by_cases same : opened = party
  · simp [same]
  · rw [if_neg same]
    cases opened <;> cases party <;> first | exact absurd rfl same | rfl

/-- A node later on. The channels to a party that there were are still there; and unless more of
them have been dialed, no channel is shared that was not. -/
structure Lasts (party : Party) (node after : Node) : Prop where
  channels : node.channelsTo party <+: after.channelsTo party
  shared : after.channelsTo party = node.channelsTo party → ∀ index,
    after.openChannel? party = some index → node.openChannel? party = some index

private theorem Lasts.refl (node : Node) : node.Lasts party node := ⟨List.prefix_rfl, fun _ _ => id⟩

private theorem Lasts.trans (earlier : node.Lasts party middle) (later : middle.Lasts party after) :
    node.Lasts party after where
  channels := earlier.channels.trans later.channels
  shared same index opened := by
    have still : middle.channelsTo party = after.channelsTo party := by
      refine later.channels.eq_of_length_le ?_
      rw [same]
      exact earlier.channels.length_le
    exact earlier.shared (still.trans same) index (later.shared still.symm index opened)

private theorem openChannel?_eq_some_iff : node.openChannel? party = some index ↔
    node.pooled.get party = some index ∧ node.isOpenAt index = true :=
  Option.filter_eq_some_iff

/-- Channels are as open as they were, or less, and shared if they were. -/
theorem lasts_of_fades (parties : after.channels.map (·.party) = node.channels.map (·.party))
    (pooled : after.pooled.get party = none ∨ after.pooled.get party = node.pooled.get party)
    (opened : ∀ index, after.isOpenAt index = true → node.isOpenAt index = true) :
    node.Lasts party after := by
  refine ⟨(channelsTo_of_parties parties party) ▸ List.prefix_rfl, fun _ index shared => ?_⟩
  obtain ⟨held, open_⟩ := openChannel?_eq_some_iff.mp shared
  rcases pooled with none | same
  · rw [none] at held
    cases held
  · exact openChannel?_eq_some_iff.mpr ⟨same ▸ held, opened index open_⟩

private theorem lasts_of_same (channels : after.channels = node.channels)
    (pooled : after.pooled = node.pooled) : node.Lasts party after :=
  lasts_of_fades (by rw [channels]) (.inr (by rw [pooled])) fun index opened => by
    unfold isOpenAt at opened ⊢
    rwa [channels] at opened

private theorem isOpenAt_of_held (held : node.channels[index]? = some channel) :
    node.isOpenAt index = channel.isOpen := by
  simp only [isOpenAt, held]

private theorem lasts_setChannel (held : node.channels[index]? = some channel)
    (toward : next.party = channel.party) (fades : next.isOpen = true → channel.isOpen = true)
    (channels : after.channels = (node.setChannel index next).channels)
    (pooled : after.pooled = node.pooled) : node.Lasts party after := by
  obtain ⟨inside, here⟩ := List.getElem?_eq_some_iff.mp held
  have set : after.channels = node.channels.set index next := channels
  refine lasts_of_fades ?_ (.inr (by rw [pooled])) fun place opened => ?_
  · rw [set, List.map_set, toward]
    refine List.ext_getElem? fun place => ?_
    rw [List.getElem?_set]
    split
    · rename_i same
      subst same
      simp [here, inside]
    · rfl
  · by_cases same : place = index
    · subst same
      have now : after.channels[place]? = some next := by simp [set, inside]
      rw [isOpenAt_of_held now] at opened
      rw [isOpenAt_of_held held]
      exact fades opened
    · unfold isOpenAt at opened ⊢
      rwa [set, List.getElem?_set_ne (Ne.symm same)] at opened

private theorem lasts_open (pools : node.Pools) (opened : Party)
    (channels : after.channels = node.channels ++ [.fresh opened])
    (pooled : after.pooled = node.pooled.set opened (some node.channels.length)) :
    node.Lasts party after := by
  have grown := channelsTo_open opened channels party
  refine ⟨grown ▸ List.prefix_append _ _, fun same index shared => ?_⟩
  have differs : opened ≠ party := by
    rintro rfl
    rw [grown, if_pos rfl] at same
    simpa using congrArg List.length same
  obtain ⟨held, open_⟩ := openChannel?_eq_some_iff.mp shared
  rw [pooled, PerParty.get_set_ne _ _ (Ne.symm differs)] at held
  obtain ⟨channel, present, -⟩ := pools party index held
  have still : after.channels[index]? = some channel := by
    rw [channels, List.getElem?_append_left (List.getElem?_eq_some_iff.mp present).1, present]
  refine openChannel?_eq_some_iff.mpr ⟨held, ?_⟩
  rw [isOpenAt_of_held present, ← isOpenAt_of_held still]
  exact open_

/-! ## Steps and runs -/

private theorem Change.lasts (change : Change told active node after) (pools : node.Pools) :
    node.Lasts party after := by
  cases change with
  | beside same => exact lasts_of_same same.channels same.pooled
  | joined | queued | filed | settled | entered | flew => exact lasts_of_same rfl rfl
  | opened opened => exact lasts_open pools opened rfl rfl
  | unpooled other =>
    refine lasts_of_fades rfl ?_ fun _ => id
    by_cases here : party = other
    · exact .inl (by rw [here]; exact PerParty.get_set_self ..)
    · exact .inr (PerParty.get_set_ne _ _ here)
  | closed held => exact lasts_setChannel held (by rfl) (by simp [Channel.isOpen]) rfl rfl
  | posted held | sent present held =>
    exact lasts_setChannel held (by rfl) (by simp [Channel.isOpen, Channel.push]) rfl rfl

private theorem Changes.lasts (changes : Changes told active node after)
    (dispatches : node.Dispatches) : node.Lasts party after := by
  induction changes with
  | refl => exact .refl node
  | tail earlier change ih =>
    exact ih.trans (change.lasts (Changes.dispatches earlier dispatches).pools)

private theorem Writes.lasts (writes : Writes node index after) : node.Lasts party after := by
  cases writes with
  | idle quiet same => exact lasts_of_same same.channels same.pooled
  | wrote held running works same =>
    exact lasts_setChannel held (by rfl) (by simp [Channel.isOpen]) same.channels same.pooled
  | lost broken same =>
    exact lasts_setChannel broken.held (by rfl) (by simp [Channel.isOpen, Channel.fail])
      same.channels same.pooled

private theorem lasts_perform (order : node.InOrder false) (operation : Operation) :
    node.Lasts party (node.perform operation) := by
  cases writer : operation.writer? with
  | none => exact (changes_perform order writer (by simp)).lasts order.dispatches
  | some index => exact (writes_perform writer).lasts

private theorem lasts_performAll (order : node.InOrder false) (operations : List Operation) :
    node.Lasts party (node.performAll operations) := by
  induction operations generalizing node with
  | nil => exact .refl node
  | cons operation rest ih =>
    exact (lasts_perform order operation).trans (ih (inOrder_perform order (by simp)))

/-! ## Asking for a channel -/

/-- A party is dialed once, and no other. -/
structure DialsOnce (node : Node) (party : Party) (after : Node) : Prop where
  once : (after.links.get party).attempts = (node.links.get party).attempts + 1
  others : ∀ other, other ≠ party → after.links.get other = node.links.get other

/-- What can come of asking for a channel to a party. -/
inductive Acquires (node : Node) (party : Party) : Node × Except QueryError Nat → Prop where
  /-- The shared channel is open. -/
  | shared {index : Nat} (opened : node.openChannel? party = some index) :
      Acquires node party (node, .ok index)
  /-- There is none, and the party takes the connection: its newest channel is shared. -/
  | dialed {index : Nat} {after : Node} (none : node.openChannel? party = none)
      (accepts : (node.links.get party).refused = false) (once : node.DialsOnce party after)
      (newest : after.channelsTo party = node.channelsTo party ++ [index])
      (opened : after.openChannel? party = some index) : Acquires node party (after, .ok index)
  /-- There is none, and the party refuses: no channel is left that anyone could share. -/
  | refused {after : Node} (none : node.openChannel? party = none)
      (refuses : (node.links.get party).refused = true) (once : node.DialsOnce party after)
      (channels : after.channels = node.channels)
      (nothing : after.pooled.get party = Option.none) (reason : String) :
      Acquires node party (after, .error (.connectFailed party reason))

theorem acquires_acquire {endpoint : Endpoint} (known : node.directory.find? party = some endpoint) :
    Acquires node party (node.acquire party) := by
  obtain rfl := Directory.party_of_find? known
  unfold acquire
  rw [known]
  cases shared : node.openChannel? endpoint.party with
  | some index => exact .shared shared
  | none =>
    dsimp only
    unfold dial
    dsimp only
    by_cases refuses : (node.links.get endpoint.party).refused = true
    · rw [if_pos refuses]
      refine .refused shared refuses ⟨?_, fun other differs => ?_⟩ (by rfl) ?_ _
      · exact congrArg Link.attempts (PerParty.get_set_self ..)
      · exact PerParty.get_set_ne _ _ differs
      · exact PerParty.get_set_self ..
    · rw [if_neg refuses]
      refine .dialed shared (by simpa using refuses) ⟨?_, fun other differs => ?_⟩ ?_ ?_
      · simp [modifyLink, PerParty.modify, wake]
      · simp [modifyLink, PerParty.modify, wake, PerParty.get_set_ne _ _ differs]
      · rw [channelsTo_open endpoint.party rfl, if_pos rfl]
        rfl
      · refine openChannel?_eq_some_iff.mpr ⟨PerParty.get_set_self .., ?_⟩
        simp [isOpenAt, wake, modifyLink, Channel.isOpen, Channel.fresh]

/-- Whoever gets a channel gets the one that is shared then. -/
theorem Acquires.openChannel? {result : Node × Except QueryError Nat}
    (acquires : Acquires node party result) (acquired : result.2 = .ok index) :
    result.1.openChannel? party = some index := by
  cases acquires with
  | shared opened =>
    obtain rfl := Except.ok.inj acquired
    exact opened
  | dialed none accepts once newest opened =>
    obtain rfl := Except.ok.inj acquired
    exact opened
  | refused => cases acquired

/-- Whoever gets none leaves none. -/
theorem Acquires.nothing {result : Node × Except QueryError Nat}
    (acquires : Acquires node party result) (failed : result.2 = .error cause) :
    result.1.openChannel? party = none := by
  cases acquires with
  | shared | dialed => cases failed
  | refused none refuses once channels nothing reason => simp [Node.openChannel?, nothing]

/-- Unless a channel is dialed, asking for one gives that which is shared already. -/
theorem Acquires.of_undialed {result : Node × Except QueryError Nat}
    (acquires : Acquires node party result) (acquired : result.2 = .ok index)
    (undialed : result.1.channelsTo party = node.channelsTo party) :
    node.openChannel? party = some index := by
  cases acquires with
  | shared opened =>
    obtain rfl := Except.ok.inj acquired
    exact opened
  | dialed none accepts once newest =>
    rw [newest] at undialed
    exact absurd (congrArg List.length undialed) (by simp)
  | refused => cases acquired

/-- No channel is taken away, and none is added by a dial that is refused. -/
theorem Acquires.channelsTo {result : Node × Except QueryError Nat}
    (acquires : Acquires node party result) :
    node.channelsTo party <+: result.1.channelsTo party ∧
      ∀ cause, result.2 = .error cause → result.1.channelsTo party = node.channelsTo party := by
  cases acquires with
  | shared => exact ⟨List.prefix_rfl, fun _ _ => rfl⟩
  | dialed none accepts once newest =>
    refine ⟨newest ▸ List.prefix_append _ _, fun cause failed => ?_⟩
    cases failed
  | refused none refuses once channels =>
    have same := channelsTo_of_parties (congrArg (List.map (·.party)) channels) party
    exact ⟨same ▸ List.prefix_rfl, fun _ _ => same⟩

/-- Whoever asks later gets the same channel, unless one was dialed since. -/
private theorem Acquires.same {result again : Node × Except QueryError Nat} {next : Node}
    {another : Nat} (acquires : Acquires node party result) (acquired : result.2 = .ok index)
    (lasts : result.1.Lasts party next) (asks : Acquires next party again)
    (reacquired : again.2 = .ok another)
    (undialed : again.1.channelsTo party = result.1.channelsTo party) : another = index := by
  have still : next.channelsTo party = result.1.channelsTo party := by
    refine (lasts.channels.eq_of_length_le ?_).symm
    rw [← undialed]
    exact asks.channelsTo.1.length_le
  have before := asks.of_undialed reacquired (undialed.trans still.symm)
  have shared := lasts.shared still another before
  exact Option.some.inj (shared.symm.trans (acquires.openChannel? acquired))

/-- After a refusal no channel is open until one is dialed. -/
private theorem Acquires.closed {result : Node × Except QueryError Nat} {next : Node}
    (acquires : Acquires node party result) (failed : result.2 = .error cause)
    (lasts : result.1.Lasts party next)
    (undialed : next.channelsTo party = node.channelsTo party) :
    next.openChannel? party = none := by
  have kept := acquires.channelsTo.2 cause failed
  by_contra some
  obtain ⟨index, opened⟩ := Option.ne_none_iff_exists'.mp some
  have shared := lasts.shared (undialed.trans kept.symm) index opened
  rw [acquires.nothing failed] at shared
  cases shared

/-! ## Forgetting a channel -/

/-- Forgetting the channel to a party closes it, and does nothing to any other. -/
theorem channels_invalidate (pools : node.Pools) (party : Party) (index : Nat) :
    (node.invalidate party).channels[index]? = if node.pooled.get party = some index then
      node.channels[index]?.map ({ · with closed := true }) else node.channels[index]? := by
  unfold invalidate
  cases shared : node.pooled.get party with
  | none => simp
  | some place =>
    obtain ⟨channel, held, -⟩ := pools party place shared
    obtain ⟨inside, found⟩ := List.getElem?_eq_some_iff.mp held
    simp only [closeChannel, held, setChannel, List.getElem?_set, Option.some.injEq]
    split
    · rename_i here
      subst here
      simp [found, inside]
    · rfl

/-- The channel to a party is closed and shared no more; no other is touched. -/
structure Forgets (node : Node) (party : Party) (after : Node) : Prop where
  channels : ∀ index, after.channels[index]? = if node.pooled.get party = some index then
    node.channels[index]?.map ({ · with closed := true }) else node.channels[index]?
  pooled : after.pooled.get party = none
  others : ∀ other, other ≠ party → after.pooled.get other = node.pooled.get other

private theorem forgets_invalidate (pools : node.Pools) (party : Party) :
    node.Forgets party (node.invalidate party) := by
  refine ⟨channels_invalidate pools party, ?_, fun other differs => ?_⟩
  all_goals
    unfold invalidate
    split
  · exact PerParty.get_set_self ..
  · assumption
  · exact PerParty.get_set_ne _ _ differs
  · rfl

/-! ## One channel -/

/-- Whoever asks for a channel to a party gets an open one, and so does whoever asks later: the same,
unless one was dialed since. -/
structure Shares (node : Node) (party : Party) (index : Nat) : Prop where
  opened : (node.acquire party).1.isOpenAt index = true
  leads : (node.acquire party).1.LeadsTo index party
  lasts : ∀ later next another, (node.acquire party).1.performAll later = next →
    (next.acquire party).2 = .ok another →
    (next.acquire party).1.channelsTo party = (node.acquire party).1.channelsTo party →
    another = index

/-- There is one channel to a party for whoever asks. -/
structure SharesOne (node : Node) (party : Party) : Prop where
  /-- Asking is two rounds over a table of cells, which never end with the finding that the channel
  is closed. -/
  rounds : ∀ cells, node.Tabled cells → ∃ endpoint after left,
    node.directory.find? party = some endpoint ∧
    acquireWithin endpoint 2 node cells = (after, left, (node.acquire party).2) ∧
    (node.acquire party).1 = { after with pooled := left.map Cell.channel? }
  acquires : Acquires node party (node.acquire party)
  shares : ∀ index, (node.acquire party).2 = .ok index → node.Shares party index
  /-- After a refusal there is no open channel until one is dialed. -/
  refused : ∀ cause, (node.acquire party).2 = .error cause →
    ∀ later next, (node.acquire party).1.performAll later = next →
      next.channelsTo party = node.channelsTo party → next.openChannel? party = none
  leads : ∀ index, node.pooled.get party = some index → node.LeadsTo index party
  forgets : node.Forgets party (node.invalidate party)

/-- The shared channels, in every run and for every party. Asking for a channel is two rounds over a
table of cells, and never ends with the finding that the channel is closed: whoever asks gets the
shared channel if it is open; otherwise the party is dialed once, and either its new channel is
shared, or the connection is refused. Whatever happens then, whoever asks later gets the same channel
unless one was dialed since; and after a refusal there is no open channel, so that the next who asks
dials, until a dial succeeds. Forgetting the channel to a party closes that one and no other. -/
theorem one_open_channel (config : Config) (limits : OutputLimits) (identifiers : Nat → QueryId)
    (operations : List Operation) (node : Node)
    (reached : (start config limits identifiers).performAll operations = node) (party : Party) :
    node.SharesOne party := by
  have begins := inOrder_start false config limits identifiers
  have ordered (operations : List Operation) :
      ((start config limits identifiers).performAll operations).InOrder false :=
    inOrder_performAll begins (by simp)
  have known (operations : List Operation) : ∃ endpoint,
      ((start config limits identifiers).performAll operations).directory.find? party =
        some endpoint := by
    rw [(config_performAll (start config limits identifiers) operations).2]
    cases party <;> exact ⟨_, rfl⟩
  have order : node.InOrder false := reached ▸ ordered operations
  have pools := order.dispatches.pools
  obtain ⟨endpoint, found⟩ : ∃ endpoint, node.directory.find? party = some endpoint :=
    reached ▸ known operations
  have acquires := acquires_acquire found
  have asks (later : List Operation) :
      Acquires ((node.acquire party).1.performAll later) party
        (((node.acquire party).1.performAll later).acquire party) := by
    obtain ⟨endpoint, found⟩ := known (operations ++ .acquire party :: later)
    rw [performAll_append, reached] at found
    exact acquires_acquire found
  have lasts (later : List Operation) :
      (node.acquire party).1.Lasts party ((node.acquire party).1.performAll later) := by
    have acquired : (node.perform (.acquire party)).InOrder false := inOrder_perform order (by simp)
    exact lasts_performAll acquired later
  refine ⟨fun cells tabled => ?_, acquires, fun index acquired => ⟨?_, ?_, ?_⟩,
    fun cause failed => ?_, pools party, forgets_invalidate pools party⟩
  · obtain ⟨after, left, rounds, same⟩ := acquire_eq_rounds tabled found
    exact ⟨endpoint, after, left, found, rounds, same⟩
  · exact (openChannel?_eq_some_iff.mp (acquires.openChannel? acquired)).2
  · exact leadsTo_acquire pools acquired
  · rintro later next another rfl again undialed
    exact acquires.same acquired (lasts later) (asks later) again undialed
  · rintro later next rfl undialed
    exact acquires.closed failed (lasts later) undialed

/-- When the channel to a party has closed, the next who asks gets a new one, and so does whoever
asks after that. -/
theorem one_open_channel_redialed : ∃ node,
    (start (.ofParty .ph) (Config.ofParty .ph).outputLimits QueryId.numbered).performAll
      [.acquire .ph, .acquire .db1, .closeChannel 0] = node ∧
    (node.acquire .ph).2 = .ok 2 ∧ (node.acquire .ph).1.isOpenAt 2 = true ∧
    ∀ another, ((node.acquire .ph).1.acquire .ph).2 = .ok another → another = 2 := by
  have shares := (one_open_channel (.ofParty .ph) (Config.ofParty .ph).outputLimits
    QueryId.numbered [.acquire .ph, .acquire .db1, .closeChannel 0] _ rfl .ph).shares 2 rfl
  exact ⟨_, rfl, rfl, shares.opened,
    fun another acquired => shares.lasts [] _ another rfl acquired rfl⟩

end JointQuery.Node
