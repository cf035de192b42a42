import JointQuery.Proofs.Node.Runs

/-! The stream of events that the client of a session is told, over every run of a node: whatever
the order in which partial results arrive, the reporter runs, queries are cancelled or expire and
clients read, and however long an event has to wait for its place in a queue. -/
namespace JointQuery.Node

open ClientEvent

/-- What a client was told of an identifier on behalf of any session. -/
def toldOf (node : Node) (id : QueryId) (client : Nat) : List ClientEvent :=
  match node.clients[client]? with
  | some queue =>
    (queue.events.filter fun notice =>
      notice.session.isSome && notice.event.queryId? = some id).map (·.event)
  | none => []

variable {node : Node} {place client : Nat} {session : Session}

private theorem mem_told {queue : ClientQueue TaskId Notice} {notice : Notice}
    (held : node.clients[client]? = some queue) (queued : notice ∈ queue.events)
    (named : notice.session = some place) : notice.event ∈ node.told place client := by
  simp only [told, held, Notice.about, List.mem_map, List.mem_filter]
  exact ⟨notice, ⟨queued, decide_eq_true named⟩, rfl⟩

/-- What is told on behalf of a session is about its query. -/
theorem queryId?_of_told (sound : node.front.Sound) (told : event ∈ node.told place client) :
    ∃ session, node.session? place = some session ∧ event.queryId? = some session.id := by
  obtain ⟨session, present, -, bears⟩ := sound.bears told
  exact ⟨session, (node.session?_eq place).trans present, bears.queryId?⟩

/-- What is told of the identifier of a session is told on its behalf, as long as no other session
has that identifier. -/
theorem toldOf_eq (sound : node.front.Sound) (found : node.session? place = some session)
    (alone : ∀ other later, node.session? other = some later → later.id = session.id →
      other = place) (client : Nat) :
    node.toldOf session.id client = node.told place client := by
  cases held : node.clients[client]? with
  | none => simp only [toldOf, told, held]
  | some queue =>
    simp only [toldOf, told, held, Notice.about]
    refine congrArg _ (List.filter_congr fun notice queued => ?_)
    cases named : notice.session with
    | none => simp
    | some other =>
      obtain ⟨later, present, about⟩ := queryId?_of_told sound (mem_told held queued named)
      have same : later.id = session.id ↔ other = place := by
        refine ⟨alone other later present, ?_⟩
        rintro rfl
        rw [Option.some.inj (present.symm.trans found)]
      simp [about, same]

/-- The grammar of the stream of every session, in every run. Nobody but its client is told anything
on its behalf; what the client is told keeps the grammar; and nothing else of its identifier is told
as long as that is its own. -/
theorem stream_grammar (config : Config) (limits : OutputLimits) (identifiers : Nat → QueryId)
    (operations : List Operation) (node : Node)
    (reached : (start config limits identifiers).performAll operations = node) (place : Nat)
    (session : Session) (found : node.session? place = some session) (told : List ClientEvent)
    (heard : node.told place session.client = told) :
    (∀ client, client ≠ session.client → node.told place client = []) ∧
    session.Grammar told ∧
    ((∀ other later, node.session? other = some later → later.id = session.id → other = place) →
      ∀ client, node.toldOf session.id client = node.told place client) := by
  have sound : node.front.Sound :=
    reached ▸ sound_front_performAll config limits identifiers operations
  have present := found
  rw [session?_eq] at present
  have desk : (node.desk place).Sound node.front.scale session := sound.desks place session present
  have built := (sound.ledger.regular_at present).built
  subst heard
  exact ⟨desk.elsewhere, Session.grammar_of_orderly built desk.orderly desk.bears,
    toldOf_eq sound found⟩

/-- The answer to a query is told as the last of three events, and no error with it. -/
theorem stream_grammar_answered : ∃ node session told,
    (start (.ofParty .ph) (Config.ofParty .ph).outputLimits QueryId.numbered).performAll
      [.addClient "front" 8 0 false, .beginQuery 0 Session.oneCount true,
        .receivePartial ⟨QueryId.numbered 0, 0, [⟨.db1, some 0, 0⟩, ⟨.db2, some 0, 0⟩], [⟨0, 1⟩]⟩,
        .run (.reporter 0)] = node ∧
    node.session? 0 = some session ∧ node.told 0 session.client = told ∧ told.length = 3 ∧
    told.filterMap doneTuple? = [0] ∧ Tells told isAllDone ∧ ¬ Tells told isError := by
  obtain ⟨-, grammar, -⟩ :=
    stream_grammar (.ofParty .ph) (Config.ofParty .ph).outputLimits QueryId.numbered
      [.addClient "front" 8 0 false, .beginQuery 0 Session.oneCount true,
        .receivePartial ⟨QueryId.numbered 0, 0, [⟨.db1, some 0, 0⟩, ⟨.db2, some 0, 0⟩], [⟨0, 1⟩]⟩,
        .run (.reporter 0)] _ rfl 0 _ rfl _ rfl
  refine ⟨_, _, _, rfl, rfl, rfl, rfl, rfl, ?_, fun failed => grammar.apart ⟨?_, failed⟩⟩
  · exact of_decide_eq_true rfl
  · exact of_decide_eq_true rfl

end JointQuery.Node
