/-! Delays between attempts, doubling up to a cap, for a limited number of retries. -/
namespace JointQuery

/-- `ExponentialBackoff`: a sequence of delays and how many of them have been slept. -/
structure Backoff where
  initialMs : UInt64
  maxMs : UInt64
  maxRetries : UInt32
  slept : UInt32
  deriving DecidableEq, Repr

/-- `2 ^ n`, or the largest word if that does not fit. -/
def saturatingPowTwo (n : Nat) : UInt64 :=
  if n < 64 then UInt64.ofNat (Nat.pow 2 n) else 18446744073709551615

/-- The product of two words, or the largest word if it does not fit. -/
def saturatingMul (a b : UInt64) : UInt64 :=
  if a.toNat * b.toNat < UInt64.size then a * b else 18446744073709551615

namespace Backoff

/-- `ExponentialBackoff::new`: a backoff that allows a number of retries. -/
def new (initialMs maxMs : UInt64) (retries : UInt32) : Backoff :=
  ⟨initialMs, maxMs, retries, 0⟩

/-- `ExponentialBackoff::for_attempts`: a backoff for a number of attempts, of which the first is
free and each further one costs a retry. -/
def forAttempts (attempts : UInt32) (initialMs maxMs : UInt64) : Backoff :=
  new initialMs maxMs (if attempts = 0 then 0 else attempts - 1)

/-- `ExponentialBackoff::next_delay`: the delay before the next attempt. -/
def nextDelay (backoff : Backoff) : UInt64 :=
  min (saturatingMul backoff.initialMs (saturatingPowTwo backoff.slept.toNat)) backoff.maxMs

/-- `ExponentialBackoff::sleep`: the delay to sleep and the backoff after it; nothing once the
retries are used up. -/
def sleep (backoff : Backoff) : Option (UInt64 × Backoff) :=
  if backoff.maxRetries ≤ backoff.slept then none
  else some (backoff.nextDelay, { backoff with slept := backoff.slept + 1 })

/-- `ExponentialBackoff::attempts_made`: attempts made, the next one included. -/
def attemptsMade (backoff : Backoff) : UInt32 := backoff.slept + 1

/-- `ExponentialBackoff::reset`: starts over. -/
def reset (backoff : Backoff) : Backoff := { backoff with slept := 0 }

/-- `MaxRetriesExceeded`: the wording when the retries are used up. -/
def exhausted : String := "Maximum retry attempts exceeded"

end Backoff

end JointQuery
