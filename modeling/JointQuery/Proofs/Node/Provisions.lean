import JointQuery.Proofs.Node.Balance
import JointQuery.Proofs.Node.Steady

/-! What an accepted configuration provides a running node with. Every party can be looked up and
dialed, whatever is reserved fits its budget and the word that counts it, and every period moves
time forward. -/
namespace JointQuery

/-- Every party is found in the directory of a configuration. -/
theorem Directory.find?_ofConfig (config : Config) (party : Party) :
    (Directory.ofConfig config).find? party =
      some ⟨party, config.connections.get party, config.outputLimits.get party⟩ := by
  cases party <;> rfl

/-- The next tick of a positive period is a later one. -/
theorem lt_nextTick {period : Nat} (positive : 0 < period) (tick now : Nat) :
    tick < nextTick tick period now := by
  unfold nextTick
  split
  · have missed := Nat.mod_lt (now - tick) positive
    omega
  · omega

namespace Node

/-- A channel to a party that is found in the directory is the shared one, or it is dialed. -/
theorem acquire_of_found {node : Node} {party : Party} {endpoint : Endpoint}
    (found : node.directory.find? party = some endpoint) :
    node.acquire party = match node.openChannel? party with
      | some index => (node, .ok index)
      | none => node.dial endpoint := by
  cases shared : node.openChannel? party with
  | none => simp only [acquire, found, shared]
  | some index => simp only [acquire, found, shared]

/-- A sweep that is due sets the next one for a period later. -/
theorem sweepDue_pollSweeper {node : Node} {due : Nat} (sweeps : node.sweepDue = some due)
    (now : due ≤ node.now) : node.pollSweeper.sweepDue =
      some (due + node.config.zombieCheckCooldownSecs.toNat * 1000) := by
  simp only [pollSweeper, sweeps, now, if_true]
  split <;> rfl

/-- What a node has for a party: an endpoint with a port and a budget of whole KiB below `2 ^ 31`,
which holds whatever is reserved or waited for. -/
structure Provides (node : Node) (party : Party) (endpoint : Endpoint) : Prop where
  found : node.directory.find? party = some endpoint
  named : endpoint.party = party
  port : endpoint.address.port ≠ 0
  whole : 1024 ∣ endpoint.outputLimit
  least : 1024 ≤ endpoint.outputLimit
  most : endpoint.outputLimit ≤ 2147483647
  limit : (node.budgets.get party).limit = endpoint.outputLimit
  /-- Bytes to be reserved are at least one and within the budget. -/
  need : ∀ length, 1 ≤ (node.budgets.get party).need length ∧
    (node.budgets.get party).need length ≤ endpoint.outputLimit
  /-- They are the same as a word of 32 bits. -/
  word : ∀ length, (UInt32.ofNat ((node.budgets.get party).need length)).toNat =
    (node.budgets.get party).need length
  waiters : ∀ waiter ∈ (node.budgets.get party).waiters, waiter.want ≤ endpoint.outputLimit
  reservations : ∀ reservation ∈ node.reservations, reservation.party = party →
    reservation.bytes ≤ endpoint.outputLimit
  /-- A channel is shared or dialed. -/
  acquire : node.acquire party = match node.openChannel? party with
    | some index => (node, .ok index)
    | none => node.dial endpoint

/-- What a node never lacks. -/
structure Provided (node : Node) : Prop where
  parties : ∀ party, ∃ endpoint, node.Provides party endpoint
  /-- All three parties are told of a query. -/
  targets : node.directory.targets = [.ph, .db1, .db2]
  reports : 0 < node.config.resultUpdateCooldownMs.toNat
  sweeps : 0 < node.config.zombieCheckCooldownSecs.toNat
  /-- The next tick of a reporter is a later one. -/
  ticks : ∀ tick now, tick < nextTick tick node.config.resultUpdateCooldownMs.toNat now
  /-- So is the next of the sweeper. -/
  swept : ∀ due, node.sweepDue = some due → due ≤ node.now →
    ∃ next, node.pollSweeper.sweepDue = some next ∧ due < next
  /-- There is an attempt to make. -/
  attempts : 1 ≤ node.config.connectRetryBudget.toNat
  delays : node.config.connectRetryDelayMs ≤ node.config.connectRetryMaxDelayMs

/-- What a party is provided with follows from its entry in an accepted configuration and from the
account of its bytes. -/
theorem provides_of_balances {config : Config} (sound : config.Sound) {node : Node} {party : Party}
    (directory : node.directory = Directory.ofConfig config)
    (balances : node.Balances party (config.outputLimits.get party)) :
    node.Provides party
      ⟨party, config.connections.get party, config.outputLimits.get party⟩ := by
  have found := Directory.find?_ofConfig config party
  rw [← directory] at found
  obtain ⟨whole, least, most⟩ := sound.limits.bytes party
  have limit := balances.limit
  have within (length : Nat) :
      (node.budgets.get party).need length ≤ config.outputLimits.get party := by
    have need := Budget.need_le (limit.symm ▸ balances.positive) length
    rwa [limit] at need
  refine ⟨found, rfl, sound.connections party, whole, least, most, limit,
    fun length => ⟨Budget.need_pos _ length, within length⟩, fun length => ?_,
    fun waiter member => limit ▸ (balances.sound.wants waiter member).2,
    fun reservation member toward => ?_, acquire_of_found found⟩
  · have need := within length
    exact UInt32.toNat_ofNat_of_lt' (by simp only [UInt32.size]; omega)
  · obtain ⟨index, held⟩ := List.getElem?_of_mem member
    exact (balances.reservations index reservation held toward).2

/-- A node that is started with an accepted configuration lacks nothing, in every run. Each party can
be looked up, dialed and sent whatever there is to send, every period moves time forward, there is an
attempt to make, and no first delay is above the largest. -/
theorem provided (config : Config) (accepted : config.Accepted) (identifiers : Nat → QueryId)
    (operations : List Operation) (node : Node)
    (reached : (start config config.outputLimits identifiers).performAll operations = node) :
    node.Provided := by
  have sound := accepted.sound
  have kept := config_performAll (start config config.outputLimits identifiers) operations
  rw [reached] at kept
  obtain ⟨same, directory⟩ := kept
  obtain ⟨budget, -, sweep, cooldown, delays⟩ := Config.validate_ok_iff.mp sound.valid
  have positive {n : UInt64} (nonzero : n ≠ 0) : 0 < n.toNat :=
    Nat.pos_of_ne_zero fun zero => nonzero (UInt64.toNat_inj.mp zero)
  have period : 0 < node.config.zombieCheckCooldownSecs.toNat := same ▸ positive sweep
  refine ⟨fun party => ?_, directory ▸ rfl, same ▸ positive cooldown, period,
    same ▸ lt_nextTick (positive cooldown), fun due sweeps now => ?_, same ▸ ?_, same ▸ delays⟩
  · have least := (sound.limits.bytes party).2.1
    have balances : node.Balances party (config.outputLimits.get party) := reached ▸
      balances_performAll (inOrder_start false config config.outputLimits identifiers)
        (balances_start config config.outputLimits identifiers (by omega)) operations
    exact ⟨_, provides_of_balances sound directory balances⟩
  · exact ⟨_, sweepDue_pollSweeper sweeps now, by omega⟩
  · exact Nat.pos_of_ne_zero fun zero => budget (UInt32.toNat_inj.mp zero)

/-- A document that gives one party a budget of one KiB and another party a port. -/
def tightText : String :=
  "\x7b\"local_party\":\"ph\",\"channel_output_buffer_limit\":\x7b\"DB1\":1\x7d," ++
    "\"interserver_connections\":\x7b\"db2\":\x7b\"port\":65535\x7d\x7d\x7d"

/-- What the document gives a node that is started as another party. -/
def tightConfig : Config :=
  { Config.ofParty .db2 with
    connections := .ofFn fun party =>
      if party = .db2 then ⟨"127.0.0.1", 65535⟩ else Config.defaultConnect party
    outputLimits := ⟨⟨65536, 1024, 65536⟩⟩ }

/-- An environment in which the second data party is the local one. -/
def secondParty (key : String) : Option String :=
  if key = Config.partyVariable then some "DB2" else none

/-- Of a budget of one KiB no more than that is reserved, however long a frame is. -/
theorem provided_tight :
    Config.ofEnvironment (fun _ => .ok tightText) secondParty = .ok tightConfig ∧
    ∃ node, (start tightConfig tightConfig.outputLimits QueryId.numbered).performAll
      [.addReservation .db1 5000, .run (.reservation 0)] = node ∧
    node.reservations = [⟨.db1, 1024, .granted⟩] ∧
    (∃ endpoint, node.directory.find? .db2 = some endpoint ∧ endpoint.address.port ≠ 0) ∧
    (UInt32.ofNat ((node.budgets.get .db1).need 5000)).toNat =
      (node.budgets.get .db1).need 5000 ∧
    node.directory.targets = [.ph, .db1, .db2] ∧
    0 < node.config.resultUpdateCooldownMs.toNat := by
  have started : Config.ofEnvironment (fun _ => .ok tightText) secondParty = .ok tightConfig := by
    decide +kernel
  have given := provided tightConfig (.ofEnvironment started) QueryId.numbered
    [.addReservation .db1 5000, .run (.reservation 0)] _ rfl
  obtain ⟨first, small⟩ := given.parties .db1
  obtain ⟨second, large⟩ := given.parties .db2
  exact ⟨started, _, rfl, rfl, ⟨second, large.found, large.port⟩, small.word 5000, given.targets,
    given.reports⟩

end Node

end JointQuery
