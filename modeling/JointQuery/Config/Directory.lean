import JointQuery.Config.Basic

/-! Where each party is reached, and which parties take part in a query. -/
namespace JointQuery

/-- How a party is reached, and its byte budget. -/
structure Endpoint where
  party : Party
  address : Address
  outputLimit : Nat
  deriving DecidableEq, Repr

/-- `PartyRegistry`: the local party and the endpoints of all parties, in their order. -/
structure Directory where
  localParty : Party
  endpoints : List Endpoint
  deriving DecidableEq, Repr

namespace Directory

/-- `PartyRegistry::from_config`: the directory of a configuration. -/
def ofConfig (config : Config) : Directory where
  localParty := config.localParty
  endpoints := Party.all.map fun party =>
    ⟨party, config.connections.get party, config.outputLimits.get party⟩

/-- `PartyRegistry::endpoint`: the endpoint of a party. -/
def find? (directory : Directory) (party : Party) : Option Endpoint :=
  directory.endpoints.find? (·.party == party)

/-- `PartyRegistry::dispatch_targets`: the hub and every data party, which take part in a query. -/
def targets (directory : Directory) : List Party :=
  (directory.endpoints.map (·.party)).filter fun party =>
    party.role == .hub || party.role == .db

end Directory

end JointQuery
