import JointQuery.Config.Basic

/-! What a document settles. A configuration that is read from one is made of the local party, the
addresses with their missing parts filled in, the budgets, and the values that stand at their
defaults where the document leaves them out; and it has passed its checks. -/
namespace JointQuery

/-- The document's entry for the address of a party. -/
def ConnectionsEntry.get (entries : ConnectionsEntry) : Party → Option AddressEntry
  | .ph => entries.ph
  | .db1 => entries.db1
  | .db2 => entries.db2

namespace Config

variable {document : ConfigDocument} {config : Config} {party : Party} {address : Address}

private theorem parseParty_ok_iff {key name : String} :
    parseParty key name = .ok party ↔ Party.ofText? name = some party := by
  unfold parseParty
  cases Party.ofText? name <;> simp

/-- The parts of an address that are given, and those of another where none is given. -/
def fillAddress (entry : Option AddressEntry) (fallback : Address) : Address :=
  ⟨(entry.bind (·.host)).getD fallback.host, (entry.bind (·.port)).getD fallback.port⟩

private theorem resolveAddress_ok_iff {key : String} {entry : Option AddressEntry}
    {fallback : Address} : resolveAddress key entry fallback = .ok address ↔
      fillAddress entry fallback = address ∧ address.port ≠ 0 := by
  simp only [resolveAddress, fillAddress]
  split
  · rename_i zero
    simp only [reduceCtorEq, false_iff, not_and]
    rintro rfl nonzero
    exact nonzero zero
  · rename_i nonzero
    simp only [Except.ok.injEq]
    constructor
    · rintro rfl
      exact ⟨rfl, nonzero⟩
    · rintro ⟨rfl, -⟩
      rfl

/-- A configuration passes its checks when its counts and intervals are positive and the largest
delay is not below the first. -/
theorem validate_ok_iff : config.validate = .ok () ↔
    config.connectRetryBudget ≠ 0 ∧ config.maxSessionLifetimeSecs ≠ 0 ∧
    config.zombieCheckCooldownSecs ≠ 0 ∧ config.resultUpdateCooldownMs ≠ 0 ∧
    config.connectRetryDelayMs ≤ config.connectRetryMaxDelayMs := by
  unfold validate
  rw [← UInt64.not_lt]
  repeat' split
  all_goals simp_all

/-- The configuration that a document stands for when a party is the local one, before anything is
checked. -/
def filled (document : ConfigDocument) (party : Party) (limits : OutputLimits) : Config :=
  let start := ofParty party
  { localParty := party
    connections := .ofFn fun other =>
      fillAddress (document.connections.get other) (defaultConnect other)
    listen := fillAddress document.connections.listen (defaultListen party)
    frontListen := document.frontListen.getD start.frontListen
    outputLimits := limits
    connectRetryBudget := document.connectRetryBudget.getD start.connectRetryBudget
    connectRetryDelayMs := document.connectRetryDelayMs.getD start.connectRetryDelayMs
    connectRetryMaxDelayMs := document.connectRetryMaxDelayMs.getD start.connectRetryMaxDelayMs
    maxSessionLifetimeSecs := document.maxSessionLifetimeSecs.getD start.maxSessionLifetimeSecs
    resultUpdateCooldownMs := document.resultUpdateCooldownMs.getD start.resultUpdateCooldownMs
    zombieCheckCooldownSecs := document.zombieCheckCooldownSecs.getD start.zombieCheckCooldownSecs
    resultScale := document.resultScale.getD start.resultScale }

/-- What is checked of a configuration that is read from a document. -/
structure Checked (config : Config) : Prop where
  connections : ∀ party, (config.connections.get party).port ≠ 0
  listen : config.listen.port ≠ 0
  valid : config.validate = .ok ()

theorem bind_ok_iff {ε α β : Type} {first : Except ε α} {next : α → Except ε β} {result : β} :
    first >>= next = .ok result ↔ ∃ value, first = .ok value ∧ next value = .ok result := by
  cases first <;> simp [bind, Except.bind]

/-- A document is accepted when it names a party, its budgets can be had, and what it stands for
passes the checks. -/
theorem ofDocument_ok_iff : ofDocument document = .ok config ↔
    ∃ name party limits, document.localParty = some name ∧ Party.ofText? name = some party ∧
      resolveLimits document.bufferLimit = .ok limits ∧ filled document party limits = config ∧
      Checked config := by
  unfold ofDocument
  cases named : document.localParty with
  | none => simp [throw, throwThe, MonadExceptOf.throw]
  | some name =>
    simp only [bind_ok_iff, parseParty_ok_iff, resolveAddress_ok_iff]
    constructor
    · rintro ⟨party, known, ph, ⟨rfl, phPort⟩, db1, ⟨rfl, db1Port⟩, db2, ⟨rfl, db2Port⟩, listen,
        ⟨rfl, port⟩, limits, resolved, _, valid, built⟩
      obtain rfl := Except.ok.inj built
      refine ⟨name, party, limits, rfl, known, resolved, rfl, fun other => ?_, port, valid⟩
      cases other with
      | ph => exact phPort
      | db1 => exact db1Port
      | db2 => exact db2Port
    · rintro ⟨_, party, limits, same, known, resolved, rfl, checked⟩
      obtain rfl := Option.some.inj same
      exact ⟨party, known, _, ⟨rfl, checked.connections .ph⟩, _, ⟨rfl, checked.connections .db1⟩, _,
        ⟨rfl, checked.connections .db2⟩, _, ⟨rfl, checked.listen⟩, limits, resolved, (),
        checked.valid, rfl⟩

end Config

end JointQuery
