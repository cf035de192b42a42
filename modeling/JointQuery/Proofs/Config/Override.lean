import JointQuery.Proofs.Config.Loading

/-! Making another party the local one. A document that is read for another party differs in the
local party and in the listening address only, of which the missing parts follow the party. The
override by a variable does not see which parts were missing: it moves the address as a whole, and
only from the default of the old party to that of the new one. -/
namespace JointQuery.Config

variable {document : ConfigDocument} {config : Config} {party other : Party}
  {lookup : String → Option String} {limits : OutputLimits}

private theorem defaultListen_port_ne_zero (party : Party) : (defaultListen party).port ≠ 0 := by
  cases party <;> decide

private theorem defaultListen_port_inj
    (same : (defaultListen party).port = (defaultListen other).port) : party = other := by
  revert same
  cases party <;> cases other <;> decide

theorem defaultListen_host (party : Party) : (defaultListen party).host = "0.0.0.0" := rfl

/-- Nothing but the local party and the listening address depends on the party that a document is
read for. -/
theorem filled_eq (document : ConfigDocument) (party other : Party) (limits : OutputLimits) :
    filled document other limits =
      { filled document party limits with
        localParty := other
        listen := fillAddress document.connections.listen (defaultListen other) } := rfl

/-- The checks do not look at the local party, and a listening port that one party may have is one
that every party may have. -/
theorem Checked.replaced (checked : Checked (filled document party limits)) (other : Party) :
    Checked (filled document other limits) := by
  refine ⟨checked.connections, ?_, checked.valid⟩
  have listen := checked.listen
  simp only [filled, fillAddress] at listen ⊢
  cases given : document.connections.listen.bind (·.port) with
  | none => exact defaultListen_port_ne_zero other
  | some port =>
    rw [given] at listen
    exact listen

/-- The override by a name, when the lifetime is left alone. -/
theorem applyOverrides_party {name : String} (moves : lookup partyVariable = some name)
    (known : Party.ofText? name = some other) (alone : lookup lifetimeVariable = none)
    (valid : config.validate = .ok ()) :
    config.applyOverrides lookup = (config.withLocalParty other, .ok ()) := by
  have moved : overrideParty lookup config = .ok (config.withLocalParty other) := by
    simp [overrideParty, moves, parseParty, known, Except.map]
  have kept : overrideLifetime lookup (config.withLocalParty other) =
      .ok (config.withLocalParty other) := by
    simp [overrideLifetime, alone]
  simp only [applyOverrides, moved, kept]
  exact congrArg _ valid

/-- With its port given, the address is the same for all parties. -/
theorem fillAddress_of_port {entry : Option AddressEntry} {port : UInt16}
    (given : entry.bind (·.port) = some port) (party other : Party) :
    fillAddress entry (defaultListen party) = fillAddress entry (defaultListen other) := by
  simp only [fillAddress, given, Option.getD_some]
  rfl

/-- With its port missing, the address stands at the default of every party or of none, and is
another for another party. -/
theorem fillAddress_of_missing {entry : Option AddressEntry} (missing : entry.bind (·.port) = none)
    (party other : Party) :
    (fillAddress entry (defaultListen party) = defaultListen party →
      fillAddress entry (defaultListen other) = defaultListen other) ∧
    (fillAddress entry (defaultListen party) = fillAddress entry (defaultListen other) →
      party = other) := by
  simp only [fillAddress, missing, Option.getD_none]
  refine ⟨fun same => ?_, fun same => ?_⟩
  · have host := congrArg Address.host same
    simp only [defaultListen_host] at host ⊢
    rw [host]
    rfl
  · have port := congrArg Address.port same
    exact defaultListen_port_inj port

/-- The override gives what the document stands for exactly when the party does not change, or the
address stands at the default for want of a port. -/
theorem withLocalParty_filled_iff : (filled document party limits).withLocalParty other =
      filled document other limits ↔
    party = other ∨ (document.connections.listen.bind (·.port) = none ↔
      (filled document party limits).listen = defaultListen party) := by
  have reduced : (filled document party limits).withLocalParty other =
      filled document other limits ↔
      ((filled document party limits).withLocalParty other).listen =
        (filled document other limits).listen := by
    refine ⟨congrArg Config.listen, fun same => ?_⟩
    rw [filled_eq document party other limits]
    exact congrArg (fun listen =>
      { filled document party limits with localParty := other, listen := listen }) same
  rw [reduced]
  have listens (party : Party) : (filled document party limits).listen =
    fillAddress document.connections.listen (defaultListen party) := rfl
  have moved : ((filled document party limits).withLocalParty other).listen =
      if (filled document party limits).listen = defaultListen party then defaultListen other
      else (filled document party limits).listen := rfl
  simp only [moved, listens]
  cases given : document.connections.listen.bind (·.port) with
  | none =>
    obtain ⟨follows, apart⟩ := fillAddress_of_missing given party other
    split
    · rename_i stands
      simp [follows stands, stands]
    · rename_i stays
      simp only [stays, iff_false, not_true_eq_false, or_false]
      exact ⟨apart, fun same => same ▸ rfl⟩
  | some port =>
    rw [fillAddress_of_port given other party]
    split
    · rename_i stands
      simp only [stands, reduceCtorEq, iff_true, or_false]
      exact ⟨fun same => defaultListen_port_inj (congrArg Address.port same.symm),
        fun same => same ▸ rfl⟩
    · rename_i stays
      simp [stays]

/-- Two documents that differ in the local party only, of which the first is accepted and the other
names another party. The override of the first by a name of that party succeeds and the other is
accepted. They give the same configuration but for the listening address: of that the other
document keeps what is given and takes what is missing from the default of its party. The override
does so too exactly when the party does not change, or the address stands at the default of the old
party for want of a port. -/
theorem override_agrees_iff (text other : String) (document : ConfigDocument)
    (read : ConfigDocument.ofText? text = some document) (spelled : String)
    (replaced : ConfigDocument.ofText? other = some { document with localParty := some spelled })
    (party : Party) (names : Party.ofText? spelled = some party)
    (lookup : String → Option String) (name : String) (moves : lookup partyVariable = some name)
    (known : Party.ofText? name = some party) (alone : lookup lifetimeVariable = none)
    (config : Config) (loaded : ofText text = .ok config) :
    ∃ moved reloaded, config.applyOverrides lookup = (moved, .ok ()) ∧
      ofText other = .ok reloaded ∧ reloaded.localParty = party ∧
      reloaded.listen = fillAddress document.connections.listen (defaultListen party) ∧
      { moved with listen := reloaded.listen } = reloaded ∧
      (moved = reloaded ↔ config.localParty = party ∨
        (document.connections.listen.bind (·.port) = none ↔
          config.listen = defaultListen config.localParty)) := by
  simp only [ofText, read] at loaded
  obtain ⟨_, before, limits, _, -, resolved, rfl, checked⟩ := ofDocument_ok_iff.mp loaded
  refine ⟨_, filled document party limits,
    applyOverrides_party moves known alone checked.valid, ?_, rfl, rfl, rfl,
    withLocalParty_filled_iff⟩
  simp only [ofText, replaced]
  exact ofDocument_ok_iff.mpr
    ⟨spelled, party, limits, rfl, names, resolved, rfl, checked.replaced party⟩

/-- An environment that names the local party and nothing else. -/
def onlyParty (name key : String) : Option String :=
  if key = partyVariable then some name else none

/-- A document that names a party and gives a listening host but no port. -/
def hostText (name : String) : String :=
  "\x7b\"local_party\":\"" ++ name ++
    "\",\"interserver_connections\":\x7b\"listen\":\x7b\"host\":\"10.0.0.1\"\x7d\x7d\x7d"

/-- A document that names a party and gives the default port of the hub as its listening port. -/
def portText (name : String) : String :=
  "\x7b\"local_party\":\"" ++ name ++
    "\",\"interserver_connections\":\x7b\"listen\":\x7b\"port\":19501\x7d\x7d\x7d"

/-- A document with a local party and a listening address. -/
def listenDocument (name : String) (listen : AddressEntry) : ConfigDocument :=
  ⟨some name, ⟨none, none, none, some listen⟩, none, none, none, none, none, none, none, none, none⟩

/-- A listening host without a port is missed: the port stays with the old party. -/
theorem override_agrees_iff_host : ∃ config moved reloaded,
    ofText (hostText "ph") = .ok config ∧
    config.applyOverrides (onlyParty "DB1") = (moved, .ok ()) ∧
    ofText (hostText "db1") = .ok reloaded ∧ moved ≠ reloaded ∧
    moved.listen = ⟨"10.0.0.1", 19501⟩ ∧ reloaded.listen = ⟨"10.0.0.1", 19502⟩ := by
  have read (name : String) (plain : name = "ph" ∨ name = "db1") :
      ConfigDocument.ofText? (hostText name) =
        some (listenDocument name ⟨some "10.0.0.1", none⟩) := by
    rcases plain with rfl | rfl <;> decide +kernel
  have loaded : ofText (hostText "ph") =
      .ok (filled (listenDocument "ph" ⟨some "10.0.0.1", none⟩) .ph .standard) := by
    simp only [ofText, read "ph" (.inl rfl)]
    rfl
  obtain ⟨moved, reloaded, overridden, replaced, -, listen, -, agrees⟩ :=
    override_agrees_iff (hostText "ph") (hostText "db1") _ (read "ph" (.inl rfl)) "db1"
      (read "db1" (.inr rfl)) .db1 (by decide +kernel) (onlyParty "DB1") "DB1" rfl
      (by decide +kernel) rfl _ loaded
  refine ⟨_, moved, reloaded, loaded, overridden, replaced, ?_, ?_, listen⟩
  · rw [Ne, agrees]
    decide +kernel
  · obtain rfl := congrArg Prod.fst overridden
    decide +kernel

/-- A listening port that is given is lost when it is the default of the old party. -/
theorem override_loses_given_port : ∃ config moved reloaded,
    ofText (portText "ph") = .ok config ∧
    config.applyOverrides (onlyParty "db1") = (moved, .ok ()) ∧
    ofText (portText "db1") = .ok reloaded ∧ moved ≠ reloaded ∧
    moved.listen = ⟨"0.0.0.0", 19502⟩ ∧ reloaded.listen = ⟨"0.0.0.0", 19501⟩ := by
  have read (name : String) (plain : name = "ph" ∨ name = "db1") :
      ConfigDocument.ofText? (portText name) =
        some (listenDocument name ⟨none, some 19501⟩) := by
    rcases plain with rfl | rfl <;> decide +kernel
  have known : Party.ofText? "db1" = some .db1 := by decide +kernel
  refine ⟨filled (listenDocument "ph" ⟨none, some 19501⟩) .ph .standard, _,
    filled (listenDocument "db1" ⟨none, some 19501⟩) .db1 .standard, ?_,
    applyOverrides_party rfl known rfl rfl, ?_, ?_, rfl, rfl⟩
  · simp only [ofText, read "ph" (.inl rfl)]
    rfl
  · simp only [ofText, read "db1" (.inr rfl)]
    rfl
  · decide

end JointQuery.Config
