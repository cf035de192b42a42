import JointQuery.Json.Reader
import JointQuery.Json.Decoder

/-! The configuration document as it is written, before defaults are filled in. Keys that it does
not know are refused. -/
namespace JointQuery

open Json (Decoder)

/-- `RawBufferLimit`: a budget for every party, or budgets by the names of parties, in the order of
the names. -/
inductive BufferLimit where
  | uniform (kib : Int)
  | perParty (entries : List (String × Int))
  deriving DecidableEq, Repr

/-- `RawHostPort`: an address of which either part may be left out. -/
structure AddressEntry where
  host : Option String
  port : Option UInt16
  deriving DecidableEq, Repr

/-- `RawConnections`: the addresses of the document. -/
structure ConnectionsEntry where
  ph : Option AddressEntry
  db1 : Option AddressEntry
  db2 : Option AddressEntry
  listen : Option AddressEntry
  deriving DecidableEq, Repr

/-- `RawConfig`: the document. -/
structure ConfigDocument where
  localParty : Option String
  connections : ConnectionsEntry
  frontListen : Option String
  bufferLimit : Option BufferLimit
  connectRetryBudget : Option UInt32
  connectRetryDelayMs : Option UInt64
  connectRetryMaxDelayMs : Option UInt64
  maxSessionLifetimeSecs : Option UInt64
  resultUpdateCooldownMs : Option UInt64
  zombieCheckCooldownSecs : Option UInt64
  resultScale : Option UInt32
  deriving DecidableEq, Repr

/-- A whole number of 16 bits. -/
def Json.asUInt16 : Decoder UInt16 := fun stage value =>
  (Json.asNatBelow UInt16.size stage value).map UInt16.ofNat

/-- A whole number of 32 bits. -/
def Json.asUInt32 : Decoder UInt32 := fun stage value =>
  (Json.asNatBelow UInt32.size stage value).map UInt32.ofNat

namespace BufferLimit

/-- Puts an entry into a list that is sorted by name; a name given again takes the new value. -/
def insert (name : String) (kib : Int) : List (String × Int) → List (String × Int)
  | [] => [(name, kib)]
  | (other, value) :: rest =>
    if name < other then (name, kib) :: (other, value) :: rest
    else if name == other then (name, kib) :: rest
    else (other, value) :: insert name kib rest

/-- Reads the budgets of an object. -/
def decodeEntries (members : List (String × Json)) : Option (List (String × Int)) :=
  members.foldlM (fun entries (name, value) => do
    return insert name (← Json.asInt64 .held value) entries) []

/-- Reads a budget: a whole number, or an object of whole numbers. -/
def decode : Decoder BufferLimit := fun _ value =>
  if !value.isReadable then none
  else
    match Json.asInt64 .held value, value with
    | some kib, _ => some (.uniform kib)
    | none, .object members => (decodeEntries members).map .perParty
    | none, _ => none

end BufferLimit

/-- Reads an address. -/
def AddressEntry.decode : Decoder AddressEntry := fun stage value => do
  let record ← Json.asRecord true ["host", "port"] value
  return {
    host := ← record.optional 0 Json.asString stage
    port := ← record.optional 1 Json.asUInt16 stage }

/-- Reads the addresses. -/
def ConnectionsEntry.decode : Decoder ConnectionsEntry := fun stage value => do
  let record ← Json.asRecord true ["ph", "db1", "db2", "listen"] value
  return {
    ph := ← record.optional 0 AddressEntry.decode stage
    db1 := ← record.optional 1 AddressEntry.decode stage
    db2 := ← record.optional 2 AddressEntry.decode stage
    listen := ← record.optional 3 AddressEntry.decode stage }

namespace ConfigDocument

/-- The keys of the document, in order. -/
def keys : List String :=
  ["local_party", "interserver_connections", "front_listen", "channel_output_buffer_limit",
    "connect_retry_budget", "connect_retry_delay_ms", "connect_retry_max_delay_ms",
    "max_session_lifetime_secs", "result_update_cooldown_ms", "zombie_check_cooldown_secs",
    "result_scale"]

/-- Reads the document; every key may be left out. -/
def decode : Decoder ConfigDocument := fun stage value => do
  let record ← Json.asRecord true keys value
  return {
    localParty := ← record.optional 0 Json.asString stage
    connections := ← record.defaulted 1 ConnectionsEntry.decode ⟨none, none, none, none⟩ stage
    frontListen := ← record.optional 2 Json.asString stage
    bufferLimit := ← record.optional 3 BufferLimit.decode stage
    connectRetryBudget := ← record.optional 4 Json.asUInt32 stage
    connectRetryDelayMs := ← record.optional 5 Json.asUInt64 stage
    connectRetryMaxDelayMs := ← record.optional 6 Json.asUInt64 stage
    maxSessionLifetimeSecs := ← record.optional 7 Json.asUInt64 stage
    resultUpdateCooldownMs := ← record.optional 8 Json.asUInt64 stage
    zombieCheckCooldownSecs := ← record.optional 9 Json.asUInt64 stage
    resultScale := ← record.optional 10 Json.asUInt32 stage }

/-- The document of a text. -/
def ofText? (text : String) : Option ConfigDocument := do
  decode .direct (← Json.read text)

end ConfigDocument

end JointQuery
