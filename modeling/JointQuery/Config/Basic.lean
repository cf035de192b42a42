import JointQuery.Config.Document
import JointQuery.Config.Limits
import JointQuery.Text.Natural

/-! The configuration of a node: a document over defaults, then overrides from the environment. -/
namespace JointQuery

/-- `HostPort`: a host and a port. -/
structure Address where
  host : String
  port : UInt16
  deriving DecidableEq, Repr

/-- The configuration of a node. -/
structure Config where
  localParty : Party
  /-- Where each party takes connections. -/
  connections : PerParty Address
  /-- Where this node takes connections of parties. -/
  listen : Address
  /-- Where this node takes connections of clients. -/
  frontListen : String
  outputLimits : OutputLimits
  /-- Attempts to reach a party before a query fails. -/
  connectRetryBudget : UInt32
  connectRetryDelayMs : UInt64
  connectRetryMaxDelayMs : UInt64
  maxSessionLifetimeSecs : UInt64
  resultUpdateCooldownMs : UInt64
  zombieCheckCooldownSecs : UInt64
  /-- Decimal places kept in results. -/
  resultScale : UInt32
  deriving DecidableEq, Repr

/-- `HostPort::address`: the address as a text. -/
def Address.text (address : Address) : String :=
  address.host ++ ":" ++ toString address.port

namespace Config

/-- `FIRST_INTERSERVER_PORT`: the first of the ports on which the parties take connections. -/
def firstPort : UInt16 := 19501

/-- `default_connect`: where a party takes connections unless the document says otherwise. -/
def defaultConnect (party : Party) : Address :=
  ⟨"127.0.0.1", firstPort + UInt16.ofNat party.index⟩

/-- `default_listen`: where a node takes connections of parties unless the document says
otherwise. -/
def defaultListen (party : Party) : Address :=
  ⟨"0.0.0.0", firstPort + UInt16.ofNat party.index⟩

/-- `Config::for_party`: the configuration of a party that leaves everything at its default. -/
def ofParty (party : Party) : Config where
  localParty := party
  connections := .ofFn defaultConnect
  listen := defaultListen party
  frontListen := "0.0.0.0:8080"
  outputLimits := .standard
  connectRetryBudget := 3
  connectRetryDelayMs := 250
  connectRetryMaxDelayMs := 5000
  maxSessionLifetimeSecs := 3600
  resultUpdateCooldownMs := 1000
  zombieCheckCooldownSecs := 300
  resultScale := 6

/-- `parse_party`: the party of a name, in any case. -/
def parseParty (key name : String) : Except ConfigError Party :=
  match Party.ofText? name with
  | some party => .ok party
  | none => .error (.invalid key ("unknown party '" ++ name ++ "'"))

/-- `resolve_host_port`: an address with its missing parts filled in; its port may not be zero. -/
def resolveAddress (key : String) (entry : Option AddressEntry) (fallback : Address) :
    Except ConfigError Address :=
  let resolved : Address :=
    ⟨(entry.bind (·.host)).getD fallback.host, (entry.bind (·.port)).getD fallback.port⟩
  if resolved.port = 0 then .error (.invalid key "port number must not be zero")
  else .ok resolved

/-- Where a key is wrong because it is not positive. -/
def notPositive (key : String) : ConfigError :=
  .invalid key "value must be a positive integer"

/-- `Config::validate`: counts and intervals are positive, and the largest delay is not below the
first. -/
def validate (config : Config) : Except ConfigError Unit :=
  if config.connectRetryBudget = 0 then .error (notPositive "connect_retry_budget")
  else if config.maxSessionLifetimeSecs = 0 then .error (notPositive "max_session_lifetime_secs")
  else if config.zombieCheckCooldownSecs = 0 then .error (notPositive "zombie_check_cooldown_secs")
  else if config.resultUpdateCooldownMs = 0 then .error (notPositive "result_update_cooldown_ms")
  else if config.connectRetryMaxDelayMs < config.connectRetryDelayMs then
    .error (.invalid "connect_retry_max_delay_ms" "value must not be below connect_retry_delay_ms")
  else .ok ()

/-- The budgets that a document gives by name; a party named again takes the later budget. -/
def namedLimits (entries : List (String × Int)) : Except ConfigError (PerParty (Option Int)) :=
  entries.foldlM (fun given entry => do
    let party ← parseParty (OutputLimits.key entry.1) entry.1
    return given.set party (some entry.2)) (.all none)

/-- The budgets of a document, as `Config::from_raw` resolves them. -/
def resolveLimits : Option BufferLimit → Except ConfigError OutputLimits
  | none => .ok .standard
  | some (.uniform kib) => OutputLimits.uniform kib
  | some (.perParty entries) => do OutputLimits.ofKib (← namedLimits entries)

/-- The key of a party's address. -/
def connectionKey (name : String) : String := "interserver_connections." ++ name

/-- `Config::from_raw`: the configuration of a document. -/
def ofDocument (document : ConfigDocument) : Except ConfigError Config := do
  let some name := document.localParty | throw (.missing "local_party")
  let party ← parseParty "local_party" name
  let start := ofParty party
  let entries := document.connections
  let ph ← resolveAddress (connectionKey "ph") entries.ph (defaultConnect .ph)
  let db1 ← resolveAddress (connectionKey "db1") entries.db1 (defaultConnect .db1)
  let db2 ← resolveAddress (connectionKey "db2") entries.db2 (defaultConnect .db2)
  let listen ← resolveAddress (connectionKey "listen") entries.listen (defaultListen party)
  let limits ← resolveLimits document.bufferLimit
  let config : Config := {
    localParty := party
    connections := ⟨ph, db1, db2⟩
    listen := listen
    frontListen := document.frontListen.getD start.frontListen
    outputLimits := limits
    connectRetryBudget := document.connectRetryBudget.getD start.connectRetryBudget
    connectRetryDelayMs := document.connectRetryDelayMs.getD start.connectRetryDelayMs
    connectRetryMaxDelayMs := document.connectRetryMaxDelayMs.getD start.connectRetryMaxDelayMs
    maxSessionLifetimeSecs := document.maxSessionLifetimeSecs.getD start.maxSessionLifetimeSecs
    resultUpdateCooldownMs := document.resultUpdateCooldownMs.getD start.resultUpdateCooldownMs
    zombieCheckCooldownSecs := document.zombieCheckCooldownSecs.getD start.zombieCheckCooldownSecs
    resultScale := document.resultScale.getD start.resultScale }
  config.validate
  return config

/-- `Config::from_json_str`: the configuration of a text. -/
def ofText (text : String) : Except ConfigError Config :=
  match ConfigDocument.ofText? text with
  | some document => ofDocument document
  | none => .error .malformed

/-- Makes another party the local one, as `Config::apply_overrides` does. A listening address at the
default of the old party moves to the default of the new one. -/
def withLocalParty (config : Config) (party : Party) : Config :=
  { config with
    localParty := party
    listen :=
      if config.listen = defaultListen config.localParty then defaultListen party
      else config.listen }

/-- The variable that names the local party. -/
def partyVariable : String := "DQUERY_LOCAL_PARTY"

/-- The variable that gives the lifetime of a session in seconds. -/
def lifetimeVariable : String := "DQUERY_MAX_SESSION_SECS"

/-- The variable that names the configuration document. -/
def documentVariable : String := "DQUERY_CONFIG"

/-- `DEFAULT_CONFIG_PATH`: the document read when none is named. -/
def defaultDocument : String := "dquery.json"

/-- The local party taken from the environment. -/
def overrideParty (lookup : String → Option String) (config : Config) :
    Except ConfigError Config :=
  match lookup partyVariable with
  | none => .ok config
  | some name => (parseParty partyVariable name).map config.withLocalParty

/-- The lifetime of a session taken from the environment. -/
def overrideLifetime (lookup : String → Option String) (config : Config) :
    Except ConfigError Config :=
  match lookup lifetimeVariable with
  | none => .ok config
  | some text =>
    match Text.parseUInt64? text with
    | some secs => .ok { config with maxSessionLifetimeSecs := secs }
    | none => .error (notPositive lifetimeVariable)

/-- `Config::apply_overrides`: the configuration after the overrides of the environment, and what
was wrong with them. Overrides taken before a fault stay. -/
def applyOverrides (lookup : String → Option String) (config : Config) :
    Config × Except ConfigError Unit :=
  match overrideParty lookup config with
  | .error fault => (config, .error fault)
  | .ok moved =>
    match overrideLifetime lookup moved with
    | .error fault => (moved, .error fault)
    | .ok changed => (changed, changed.validate)

/-- `Config::from_env`: the configuration of a node started in an environment: the document that a
variable names, then the overrides. -/
def ofEnvironment (fetch : String → Except String String) (lookup : String → Option String) :
    Except ConfigError Config :=
  match fetch ((lookup documentVariable).getD defaultDocument) with
  | .error text => .error (.unreadable text)
  | .ok text => do
    let config ← ofText text
    let (changed, outcome) := config.applyOverrides lookup
    outcome
    return changed

end Config

end JointQuery
