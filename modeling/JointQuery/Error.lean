import JointQuery.Party
import JointQuery.Query.Id

/-! What can go wrong, as causes, and the one wording of each. -/
namespace JointQuery

/-- Why a configuration is refused. -/
inductive ConfigError where
  | missing (key : String)
  | invalid (key message : String)
  | unreadable (text : String)
  | malformed
  deriving DecidableEq, Repr

/-- `ProtocolViolation`: a partial result that breaks the protocol. -/
inductive Violation where
  | unknownQuery (id : QueryId)
  | tupleOutOfRange (id : QueryId) (tuple count : UInt64)
  | aggregateOutOfRange (id : QueryId) (tuple position count : UInt64)
  | doubleWrite (id : QueryId) (tuple position : UInt64)
  | rowCountConflict (id : QueryId) (tuple : UInt64) (db : Party) (existing reported : UInt64)
  | rowIndexOverrun (id : QueryId) (tuple : UInt64) (db : Party) (index total : UInt64)
  | rowLimitExceeded (id : QueryId) (tuple : UInt64) (db : Party) (value : UInt64)
  | notADb (id : QueryId) (party : Party)
  deriving DecidableEq, Repr

/-- Why a query fails. -/
inductive QueryError where
  | configuration (cause : ConfigError)
  | connectFailed (party : Party) (reason : String)
  | channelClosed (party : Party)
  | violation (cause : Violation)
  | domainOverflow (dimensions limit : UInt64)
  | invalidQuery (reason : String)
  | sessionTimeout (id : QueryId)
  | clientDisconnected (id : QueryId)
  | cancelled (id : QueryId)
  | io (text : String)
  | serialization
  deriving DecidableEq, Repr

/-- The wording of a configuration failure. -/
def ConfigError.message : ConfigError → String
  | .missing key => "Missing configuration value: " ++ key
  | .invalid key message => "Invalid configuration value at " ++ key ++ ": " ++ message
  | .unreadable text => "Cannot read configuration: " ++ text
  | .malformed => "Cannot parse configuration: malformed document"

/-- How a violation of a query starts. -/
def Violation.ofQuery (id : QueryId) : String := "query " ++ id.text ++ ": "

/-- How a violation at a tuple starts. -/
def Violation.ofTuple (id : QueryId) (tuple : UInt64) : String :=
  ofQuery id ++ "tuple " ++ toString tuple

/-- The wording of a violation. -/
def Violation.message : Violation → String
  | .unknownQuery id => "unknown query id " ++ id.text
  | .tupleOutOfRange id tuple count =>
    ofQuery id ++ "tuple index " ++ toString tuple ++ " out of range (tuple count " ++
      toString count ++ ")"
  | .aggregateOutOfRange id tuple position count =>
    ofTuple id tuple ++ " aggregate position " ++ toString position ++ " out of range (" ++
      toString count ++ " aggregates)"
  | .doubleWrite id tuple position =>
    ofTuple id tuple ++ " aggregate position " ++ toString position ++ " already finalized"
  | .rowCountConflict id tuple db existing reported =>
    ofTuple id tuple ++ " row count from " ++ db.name ++ " changed from " ++ toString existing ++
      " to " ++ toString reported
  | .rowIndexOverrun id tuple db index total =>
    ofTuple id tuple ++ " row index from " ++ db.name ++ " would reach " ++ toString index ++
      " past total " ++ toString total
  | .rowLimitExceeded id tuple db value =>
    ofTuple id tuple ++ " row count " ++ toString value ++ " from " ++ db.name ++
      " exceeds the tracked maximum"
  | .notADb id party =>
    ofQuery id ++ "row progress attributed to non-db party " ++ party.name

/-- `QueryError::kind`: the tag of a failure's kind, as clients see it. -/
def QueryError.kind : QueryError → String
  | .configuration _ => "configuration_error"
  | .connectFailed _ _ => "connect_failed"
  | .channelClosed _ => "channel_closed"
  | .violation _ => "protocol_violation"
  | .domainOverflow _ _ => "domain_overflow"
  | .invalidQuery _ => "invalid_query"
  | .sessionTimeout _ => "session_timeout"
  | .clientDisconnected _ => "client_disconnected"
  | .cancelled _ => "cancelled"
  | .io _ => "io_error"
  | .serialization => "serialization_error"

/-- The wording of a failure. -/
def QueryError.message : QueryError → String
  | .configuration cause => "Configuration error: " ++ cause.message
  | .connectFailed party reason => "Connection to " ++ party.name ++ " failed: " ++ reason
  | .channelClosed party => "Channel to " ++ party.name ++ " is closed"
  | .violation cause => "Protocol violation: " ++ cause.message
  | .domainOverflow dimensions limit =>
    "Grouping domain over " ++ toString dimensions ++ " dimensions exceeds " ++ toString limit ++
      " tuples"
  | .invalidQuery reason => "Invalid query: " ++ reason
  | .sessionTimeout id => "Query " ++ id.text ++ " timed out"
  | .clientDisconnected id => "Client of query " ++ id.text ++ " disconnected"
  | .cancelled id => "Query " ++ id.text ++ " was cancelled"
  | .io text => "IO error: " ++ text
  | .serialization => "Serialization error: malformed text"

end JointQuery
