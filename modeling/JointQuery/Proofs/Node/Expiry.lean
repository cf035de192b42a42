import JointQuery.Proofs.Node.Selection
import JointQuery.Proofs.Node.Steady
import Mathlib.Algebra.Order.Ring.Int

/-! When sessions expire. Clock readings are signed words, but the lifetime in the configuration is
an unsigned one that is read as signed: from `2 ^ 63` seconds on it counts as less than nothing, and
every session has outlived it. Below that a product that does not fit makes no difference, since no
two readings lie that far apart. -/
namespace JointQuery

/-! ## Lifetimes -/

/-- A number of seconds read as a signed word. -/
theorem toInt_toInt64 (seconds : UInt64) : seconds.toInt64.toInt =
    if seconds.toNat < 2 ^ 63 then (seconds.toNat : Int) else (seconds.toNat : Int) - 2 ^ 64 := by
  have read : seconds.toInt64.toInt = seconds.toBitVec.toInt := rfl
  rw [read, BitVec.toInt_eq_toNat_cond, UInt64.toNat_toBitVec]
  split <;> split <;> omega

/-- The lifetime in milliseconds, as far as it fits. -/
theorem toInt_lifetimeMs (seconds : UInt64) : (lifetimeMs seconds).toInt =
    if seconds.toNat < 2 ^ 63 then min (2 ^ 63 - 1) (1000 * seconds.toNat : Int)
    else max (-2 ^ 63) (1000 * ((seconds.toNat : Int) - 2 ^ 64)) := by
  have small := seconds.toNat_lt
  have least : Int64.minValue.toInt = -2 ^ 63 := rfl
  have most : Int64.maxValue.toInt = 2 ^ 63 - 1 := rfl
  rw [lifetimeMs, least, most, toInt_toInt64, Int64.toInt_ofInt_of_le]
  · split <;> omega
  · omega
  · omega

/-- The age of a session that was created no earlier than the clock began and no later than now. -/
theorem toInt_age {now created : Int64} (begun : 0 ≤ created.toInt)
    (past : created.toInt ≤ now.toInt) : (now - created).toInt = now.toInt - created.toInt := by
  have most := now.toInt_lt
  rw [Int64.toInt_sub, Int.bmod_eq_of_le]
  · omega
  · omega

/-- A session has expired when it is older than its lifetime, or when the lifetime is so long that
it is read as negative. -/
theorem isExpired_iff {now created : Int64} (begun : 0 ≤ created.toInt)
    (past : created.toInt ≤ now.toInt) (seconds : UInt64) :
    isExpired now (lifetimeMs seconds) created = true ↔
      2 ^ 63 ≤ seconds.toNat ∨ 1000 * (seconds.toNat : Int) < now.toInt - created.toInt := by
  have most := now.toInt_lt
  have small := seconds.toNat_lt
  rw [isExpired, decide_eq_true_iff, Int64.lt_iff_toInt_lt, toInt_age begun past, toInt_lifetimeMs]
  split <;> omega

/-- A session is older than the configuration lets sessions get, in exact numbers. -/
def Session.Overdue (session : Session) (config : Config) (now : Int64) : Prop :=
  1000 * (config.maxSessionLifetimeSecs.toNat : Int) < now.toInt - session.createdAt.toInt

/-- The lifetime of sessions is read as a negative number. -/
def Config.WrapsLifetime (config : Config) : Prop := 2 ^ 63 ≤ config.maxSessionLifetimeSecs.toNat

namespace Node

variable {node : Node} {place : Nat} {property other : Session → Prop} {target : SessionState}
  {result : Node × Nat}

/-- No session in flight was created before the clock began, nor later than it says. -/
def Clocked (node : Node) : Prop :=
  ∀ place, ¬ node.InFlight place fun session =>
    session.createdAt.toInt < 0 ∨ node.wall.toInt < session.createdAt.toInt

/-- Of the sessions in flight, those with either of two properties are the same. -/
theorem inFlight_congr (same : ∀ session, node.session? place = some session →
      node.registry.get? session.id = some place → (property session ↔ other session)) :
    node.InFlight place property ↔ node.InFlight place other := by
  constructor
  · rintro ⟨session, present, held, holds⟩
    exact ⟨session, present, held, (same session present held).mp holds⟩
  · rintro ⟨session, present, held, holds⟩
    exact ⟨session, present, held, (same session present held).mpr holds⟩

private theorem Retires.congr (retires : node.Retires property target result)
    (same : ∀ place, node.InFlight place property ↔ node.InFlight place other) :
    node.Retires other target result := by
  obtain ⟨places, distinct, selected, count, ends⟩ := retires
  exact ⟨places, distinct, fun place => (selected place).trans (same place), count, ends⟩

/-- If one of two properties selects nothing, and both describe what is retired, then the other
selects nothing either: the numbers agree. -/
theorem Retires.none (retires : node.Retires property target result)
    (also : node.Retires other target result) (nothing : ∀ place, ¬ node.InFlight place other) :
    ∀ place, ¬ node.InFlight place property := by
  obtain ⟨places, -, selected, count, -⟩ := retires
  obtain ⟨empty, -, unselected, number, -⟩ := also
  have void : empty = [] :=
    List.eq_nil_iff_forall_not_mem.mpr fun place member => nothing place ((unselected place).mp member)
  rw [void, List.length_nil] at number
  have gone : places = [] := List.eq_nil_of_length_eq_zero (count.symm.trans number)
  intro place flies
  have member := (selected place).mpr flies
  rw [gone] at member
  cases member

/-- The sessions that have outlived their time are those that are overdue, and all of them if the
lifetime is read as negative. -/
theorem outlived_iff (clocked : node.Clocked) {session : Session}
    (present : node.session? place = some session)
    (held : node.registry.get? session.id = some place) : node.Outlived session ↔
      node.config.WrapsLifetime ∨ session.Overdue node.config node.wall := by
  have begun : 0 ≤ session.createdAt.toInt := by
    by_contra early
    exact clocked place ⟨session, present, held, .inl (by omega)⟩
  have past : session.createdAt.toInt ≤ node.wall.toInt := by
    by_contra late
    exact clocked place ⟨session, present, held, .inr (by omega)⟩
  exact isExpired_iff begun past _

/-- Clock readings do not lie far enough apart for a session to be older than a lifetime that is
read as negative. -/
theorem not_overdue_of_wraps (clocked : node.Clocked) (wraps : node.config.WrapsLifetime)
    (place : Nat) : ¬ node.InFlight place (·.Overdue node.config node.wall) := by
  rintro ⟨session, present, held, overdue⟩
  refine clocked place ⟨session, present, held, .inl ?_⟩
  have most := node.wall.toInt_lt
  unfold Session.Overdue at overdue
  unfold Config.WrapsLifetime at wraps
  omega

/-- When sessions expire, in every run and for every configuration. As long as no session in flight
comes from before the clock began or from the future, exactly those end as timed out that are older
than the configuration says, in exact numbers; their number is the result, and everything else is
left alone. But a lifetime of `2 ^ 63` seconds or more is read as a negative number, so that every
session in flight ends: so the law fails if and only if the lifetime is that long and some session is
in flight. -/
theorem expires_exactly_iff (config : Config) (limits : OutputLimits)
    (identifiers : Nat → QueryId) (operations : List Operation) (node : Node)
    (reached : (start config limits identifiers).performAll operations = node)
    (clocked : node.Clocked) :
    node.Retires (fun session => config.WrapsLifetime ∨ session.Overdue config node.wall) .timedOut
      node.expire ∧
    (∀ place flight, node.flights[place]? = some flight →
      ¬ node.InFlight place (fun session =>
        config.WrapsLifetime ∨ session.Overdue config node.wall) →
      node.expire.1.flights[place]? = some flight ∧
      ∀ id, node.expire.1.registry.get? id = some place ↔ node.registry.get? id = some place) ∧
    (node.Retires (·.Overdue config node.wall) .timedOut node.expire ↔
      ¬ (config.WrapsLifetime ∧ ∃ place, node.InFlight place fun _ => True)) := by
  have sound : node.ledger.Sound := reached ▸ sound_performAll config limits identifiers operations
  have configured : node.config = config :=
    reached ▸ (config_performAll (start config limits identifiers) operations).1
  have selects (place : Nat) : node.InFlight place node.Outlived ↔ node.InFlight place
      fun session => config.WrapsLifetime ∨ session.Overdue config node.wall :=
    inFlight_congr fun session present held => configured ▸ outlived_iff clocked present held
  have retires : node.Retires _ .timedOut node.expire :=
    (retires_terminateAll sound rfl _ .timedOut _).congr selects
  refine ⟨retires, fun place flight held unselected => ?_, fun exactly => ?_, fun exact => ?_⟩
  · have unselects : ¬ node.Selects place .expire :=
      fun selected => unselected ((selects place).mp selected)
    exact unselected_perform sound held unselects
  · rintro ⟨wraps, place, flies⟩
    have nothing := not_overdue_of_wraps clocked (configured.symm ▸ wraps)
    rw [configured] at nothing
    refine retires.none exactly nothing place ?_
    exact (inFlight_congr fun _ _ _ => ⟨fun _ => trivial, fun _ => .inl wraps⟩).mpr flies
  · refine retires.congr fun place => ?_
    constructor
    · rintro ⟨session, present, held, wraps | overdue⟩
      · exact absurd ⟨wraps, place, session, present, held, trivial⟩ exact
      · exact ⟨session, present, held, overdue⟩
    · rintro ⟨session, present, held, overdue⟩
      exact ⟨session, present, held, .inr overdue⟩

/-- A configuration with the shortest lifetime that is read as negative. -/
def longLived : Config := { Config.ofParty .ph with maxSessionLifetimeSecs := 9223372036854775808 }

/-- A query that has only just been accepted. -/
def justBegun : List Operation :=
  [.addClient "front" 8 0 false, .beginQuery 0 Session.oneCount true]

private theorem clocked_justBegun (config : Config) :
    ((start config config.outputLimits QueryId.numbered).performAll justBegun).Clocked := by
  have created : (((start config config.outputLimits QueryId.numbered).performAll
      justBegun).flights.map (·.session.createdAt)) = [0] := rfl
  have reads : ((start config config.outputLimits QueryId.numbered).performAll justBegun).wall =
    0 := rfl
  rintro place ⟨session, present, -, odd⟩
  obtain ⟨flight, held, rfl⟩ := Option.map_eq_some_iff.mp present
  have begun := List.mem_map_of_mem (f := (·.session.createdAt)) (List.mem_of_getElem? held)
  rw [created, List.mem_singleton] at begun
  rw [reads, begun] at odd
  exact absurd odd (by decide)

/-- With the default lifetime of an hour it stays in flight. -/
theorem expires_exactly_iff_young : ∃ node,
    (start (.ofParty .ph) (Config.ofParty .ph).outputLimits QueryId.numbered).performAll
      justBegun = node ∧ node.Clocked ∧
    node.Retires (·.Overdue (.ofParty .ph) node.wall) .timedOut node.expire := by
  have clocked := clocked_justBegun (.ofParty .ph)
  obtain ⟨-, -, exactly⟩ := expires_exactly_iff (.ofParty .ph) (Config.ofParty .ph).outputLimits
    QueryId.numbered justBegun _ rfl clocked
  have short : ¬ (Config.ofParty .ph).WrapsLifetime := by
    unfold Config.WrapsLifetime
    decide
  exact ⟨_, rfl, clocked, exactly.mpr fun ⟨wraps, _⟩ => short wraps⟩

/-- The environment can ask for a lifetime of `2 ^ 63` seconds, and it is taken; then a query that
has only just been accepted ends as timed out, though it is not overdue. -/
theorem expires_at_once : ∃ lookup node,
    (Config.ofParty .ph).applyOverrides lookup = (longLived, .ok ()) ∧
    (start longLived longLived.outputLimits QueryId.numbered).performAll justBegun = node ∧
    node.Clocked ∧ node.expire.2 = 1 ∧ ¬ node.InFlight 0 (·.Overdue longLived node.wall) ∧
    ¬ node.Retires (·.Overdue longLived node.wall) .timedOut node.expire := by
  have clocked := clocked_justBegun longLived
  obtain ⟨-, -, exactly⟩ := expires_exactly_iff longLived longLived.outputLimits QueryId.numbered
    justBegun _ rfl clocked
  have wraps : longLived.WrapsLifetime := by
    unfold Config.WrapsLifetime
    decide
  refine ⟨fun key => if key = Config.lifetimeVariable then some "9223372036854775808" else none,
    _, rfl, rfl, clocked, by decide +kernel, not_overdue_of_wraps clocked wraps 0, fun holds => ?_⟩
  exact exactly.mp holds ⟨wraps, 0, _, rfl, rfl, trivial⟩

end Node

end JointQuery
