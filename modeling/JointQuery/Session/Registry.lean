import JointQuery.Query.Id

/-! The queries in flight, by their identifiers. An identifier stands for at most one entry. -/
namespace JointQuery

/-- `CorrelationRegistry`: entries by identifier, in the order in which they were inserted. -/
structure Registry (α : Type) where
  entries : List (QueryId × α)

namespace Registry

variable {α : Type}

/-- Nothing is in flight. -/
def empty : Registry α := ⟨[]⟩

/-- `CorrelationRegistry::get`: the entry of an identifier. -/
def get? (registry : Registry α) (id : QueryId) : Option α :=
  (registry.entries.find? (·.1 == id)).map (·.2)

/-- `CorrelationRegistry::contains`: whether an identifier is in flight. -/
def contains (registry : Registry α) (id : QueryId) : Bool := (registry.get? id).isSome

/-- `CorrelationRegistry::insert`: adds an entry, unless its identifier is in flight already. -/
def insert (registry : Registry α) (id : QueryId) (entry : α) : Registry α × Bool :=
  if registry.contains id then (registry, false)
  else (⟨registry.entries ++ [(id, entry)]⟩, true)

/-- `CorrelationRegistry::remove`: takes the entry of an identifier out. -/
def remove (registry : Registry α) (id : QueryId) : Registry α :=
  ⟨registry.entries.filter (·.1 != id)⟩

/-- `CorrelationRegistry::len`: the number of entries. -/
def size (registry : Registry α) : Nat := registry.entries.length

/-- `CorrelationRegistry::ids`: the identifiers in flight. -/
def ids (registry : Registry α) : List QueryId := registry.entries.map (·.1)

/-- `sessions_for_client` and `expired`: the entries with a property. -/
def select (registry : Registry α) (property : α → Bool) : List α :=
  (registry.entries.map (·.2)).filter property

end Registry

/-- The lifetime in `expire_sessions`: the longest life of a session in milliseconds. The seconds
are read as a signed word, and a product that does not fit is the nearest word that does. -/
def lifetimeMs (seconds : UInt64) : Int64 :=
  let exact := seconds.toInt64.toInt * 1000
  .ofInt (max Int64.minValue.toInt (min Int64.maxValue.toInt exact))

/-- `CorrelationRegistry::expired`: a session has expired when it is older than its lifetime; times
are clock readings in milliseconds. -/
def isExpired (now lifetime createdAt : Int64) : Bool :=
  lifetime < now - createdAt

end JointQuery
