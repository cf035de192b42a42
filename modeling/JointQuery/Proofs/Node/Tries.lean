import JointQuery.Node.Sending
import JointQuery.Proofs.Backoff
import JointQuery.Proofs.Config.Loading
import JointQuery.Proofs.Node.Changes

/-! The tries of a sender and how they agree with the state that it is in: those before the last have
failed, each but the first has begun when the pause after the one before it was over, and there are
never more than the sender has attempts. -/
namespace JointQuery

/-- A failure after which a sender may try again: its party cannot be reached, or the channel to it
is closed. -/
inductive QueryError.Retries (party : Party) : QueryError → Prop where
  | connectFailed (reason : String) : Retries party (.connectFailed party reason)
  | channelClosed : Retries party (.channelClosed party)

/-- An attempt of a sender: when it began, how often the party was dialed for it, and when and how it
ended, unless it still waits for bytes. -/
structure Try where
  began : Nat
  dials : Nat
  outcome : Option (Nat × Except QueryError Unit)

/-- The message was put on a channel. -/
def Try.Sent (one : Try) : Prop := ∃ ended, one.outcome = some (ended, .ok ())

/-- It failed toward a party, at a time and for a cause. -/
def Try.Failed (one : Try) (party : Party) (ended : Nat) (cause : QueryError) : Prop :=
  cause.Retries party ∧ one.outcome = some (ended, .error cause)

/-! ## Pauses -/

namespace Config

/-- How many attempts a sender has. -/
def attempts (config : Config) : Nat := config.connectRetryBudget.toNat

/-- How many milliseconds a sender pauses that has paused so many times before. -/
def pauseMs (config : Config) (pauses : Nat) : Nat :=
  min (config.connectRetryDelayMs.toNat * 2 ^ pauses) config.connectRetryMaxDelayMs.toNat

/-- The backoff of a sender that has paused so many times. -/
def backoffAfter (config : Config) (pauses : Nat) : Backoff :=
  { config.senderBackoff with slept := .ofNat pauses }

variable {config : Config} {pauses : Nat}

private theorem toNat_slept (left : pauses < config.attempts) :
    (config.backoffAfter pauses).slept.toNat = pauses :=
  UInt32.toNat_ofNat_of_lt' (Nat.lt_trans left config.connectRetryBudget.toNat_lt)

private theorem toNat_maxRetries (left : pauses < config.attempts) :
    (config.backoffAfter pauses).maxRetries.toNat = config.attempts - 1 := by
  have some : 1 ≤ config.connectRetryBudget.toNat := Nat.lt_of_le_of_lt (Nat.zero_le _) left
  have retries := Backoff.toNat_maxRetries_forAttempts config.connectRetryBudget
    config.connectRetryDelayMs config.connectRetryMaxDelayMs
  rw [max_eq_left some] at retries
  exact retries

/-- After each attempt but the last there is a pause. -/
theorem sleep_backoffAfter (left : pauses < config.attempts) :
    pauses + 1 = config.attempts ∧ (config.backoffAfter pauses).sleep = none ∨
      pauses + 1 < config.attempts ∧ ∃ delay, delay.toNat = config.pauseMs pauses ∧
        (config.backoffAfter pauses).sleep = some (delay, config.backoffAfter (pauses + 1)) := by
  have slept := toNat_slept left
  have most := toNat_maxRetries left
  rcases Nat.lt_or_ge (config.backoffAfter pauses).slept.toNat
    (config.backoffAfter pauses).maxRetries.toNat with unused | used
  · refine .inr ⟨by omega, (config.backoffAfter pauses).nextDelay, ?_, ?_⟩
    · rw [Backoff.toNat_nextDelay, slept]
      rfl
    · rw [Backoff.sleep_of_lt (UInt32.lt_iff_toNat_lt.mpr unused)]
      simp [backoffAfter, UInt32.ofNat_add]
  · exact .inl ⟨by omega, Backoff.sleep_of_le (UInt32.le_iff_toNat_le.mpr used)⟩

end Config

/-! ## Accounts -/

/-- What comes of sending at a time, unless the message waits for bytes. -/
def Node.Sending.outcome (now : Nat) : Sending → Option (Nat × Except QueryError Unit)
  | .sent => some (now, .ok ())
  | .parked => none
  | .failed cause => some (now, .error cause)

/-- What sending on a channel at a time makes of a sender. -/
def Sender.settled (backoff : Backoff) (channel now : Nat) : Node.Sending → Sender
  | .sent => .ended (.ok ())
  | .parked => .parked backoff channel
  | .failed cause =>
    match backoff.sleep with
    | none => .ended (.error cause.afterLastAttempt)
    | some (delay, next) => .pausing next (now + delay.toNat)

/-- Tries that have failed one after the other, each begun as it should be after the pause that the
one before it asks for, and the time at which that pause ends after the last of them. -/
inductive Failures (config : Config) (starts : Nat → Nat → Prop) (party : Party) :
    List Try → Nat → Prop where
  | none (due : Nat) : Failures config starts party [] due
  | failed {tries : List Try} {due began dials ended : Nat} {cause : QueryError}
      (before : Failures config starts party tries due) (start : starts due began)
      (once : dials ≤ 1) (retries : cause.Retries party) :
      Failures config starts party (tries ++ [⟨began, dials, some (ended, .error cause)⟩])
        (ended + config.pauseMs tries.length)

/-- How the tries of a sender agree with the state that it is in. -/
inductive Account (config : Config) (starts : Nat → Nat → Prop) (party : Party) :
    List Try → Sender → Prop where
  | unstarted : Account config starts party [] .unstarted
  | pausing {tries : List Try} {due : Nat} (before : Failures config starts party tries due)
      (left : tries.length < config.attempts) :
      Account config starts party tries (.pausing (config.backoffAfter tries.length) due)
  | parked {tries : List Try} {due began dials : Nat}
      (before : Failures config starts party tries due) (left : tries.length < config.attempts)
      (start : starts due began) (once : dials ≤ 1) (channel : Nat) :
      Account config starts party (tries ++ [⟨began, dials, none⟩])
        (.parked (config.backoffAfter tries.length) channel)
  | sent {tries : List Try} {due began dials : Nat}
      (before : Failures config starts party tries due) (left : tries.length < config.attempts)
      (start : starts due began) (once : dials ≤ 1) (ended : Nat) :
      Account config starts party (tries ++ [⟨began, dials, some (ended, .ok ())⟩])
        (.ended (.ok ()))
  | exhausted {tries : List Try} {due began dials ended : Nat} {cause : QueryError}
      (before : Failures config starts party tries due)
      (last : tries.length + 1 = config.attempts) (start : starts due began) (once : dials ≤ 1)
      (retries : cause.Retries party) :
      Account config starts party (tries ++ [⟨began, dials, some (ended, .error cause)⟩])
        (.ended (.error cause.afterLastAttempt))
  | cancelled {tries : List Try} {sender : Sender} (id : QueryId)
      (before : Account config starts party tries sender) (underway : sender.isUnderway = true) :
      Account config starts party tries (.ended (.error (.cancelled id)))

variable {config : Config} {starts : Nat → Nat → Prop} {party : Party} {tries : List Try}

/-- The next try, after those that have failed. -/
theorem Failures.settled {due began dials now channel : Nat} {sending : Node.Sending}
    (before : Failures config starts party tries due)
    (left : tries.length < config.attempts) (start : starts due began) (once : dials ≤ 1)
    (faults : ∀ cause, sending = .failed cause → cause.Retries party) :
    Account config starts party (tries ++ [⟨began, dials, sending.outcome now⟩])
      (.settled (config.backoffAfter tries.length) channel now sending) := by
  cases sending with
  | sent => exact .sent before left start once now
  | parked => exact .parked before left start once channel
  | failed cause =>
    have retries := faults cause rfl
    rcases Config.sleep_backoffAfter left with ⟨last, unslept⟩ | ⟨more, delay, pause, slept⟩
    · rw [Sender.settled, unslept]
      exact .exhausted before last start once retries
    · have failed : Failures config starts party
          (tries ++ [⟨began, dials, some (now, .error cause)⟩]) _ :=
        .failed before start once retries
      have counted : (tries ++ [(⟨began, dials, some (now, .error cause)⟩ : Try)]).length =
          tries.length + 1 := List.length_append
      simp only [Sender.settled, slept]
      rw [pause, ← counted]
      exact .pausing failed (counted ▸ more)

private theorem Failures.each (failures : Failures config starts party tries due) (one : Try)
    (member : one ∈ tries) :
    one.dials ≤ 1 ∧ ∃ ended cause, one.Failed party ended cause := by
  induction failures with
  | none => cases member
  | @failed tries due began dials ended cause before start once retries ih =>
    rcases List.mem_append.mp member with earlier | last
    · exact ih earlier
    · obtain rfl := List.mem_singleton.mp last
      exact ⟨once, ended, cause, retries, rfl⟩

/-- Each try but the last one has failed, and the next one has begun as it should after the pause. -/
def Paused (config : Config) (starts : Nat → Nat → Prop) (party : Party) (tries : List Try) : Prop :=
  ∀ k earlier later, tries[k]? = some earlier → tries[k + 1]? = some later →
    ∃ ended cause, earlier.Failed party ended cause ∧
      starts (ended + config.pauseMs k) later.began

private theorem Failures.paused {last : Try} (failures : Failures config starts party tries due)
    (start : starts due last.began) : Paused config starts party (tries ++ [last]) := by
  induction failures generalizing last with
  | none => exact fun k earlier later _ second => by simp at second
  | @failed tries due began dials ended cause before first once retries ih =>
    intro k earlier later held second
    obtain ⟨inside, -⟩ := List.getElem?_eq_some_iff.mp second
    simp only [List.length_append, List.length_singleton] at inside
    rcases Nat.lt_or_ge k tries.length with early | late
    · have within {place : Nat} (small : place < tries.length + 1) :
          (tries ++ [⟨began, dials, some (ended, .error cause)⟩] ++ [last])[place]? =
            (tries ++ [⟨began, dials, some (ended, .error cause)⟩])[place]? :=
        List.getElem?_append_left (by simpa using small)
      rw [within (by omega)] at held second
      exact ih first k earlier later held second
    · obtain rfl : k = tries.length := by omega
      obtain rfl : (⟨began, dials, some (ended, .error cause)⟩ : Try) = earlier := by
        simpa using held
      obtain rfl : last = later := by simpa using second
      exact ⟨ended, cause, ⟨retries, rfl⟩, start⟩

namespace Account

variable {sender : Sender}

/-- A sender begins with no tries. -/
theorem begins (account : Account config starts party tries .unstarted)
    (accepted : 0 < config.attempts) (due : Nat) :
    Account config starts party tries (.pausing config.senderBackoff due) := by
  cases account
  exact .pausing (.none due) accepted

/-- There are no more tries than the sender has attempts, and each dials at most once. -/
theorem few (account : Account config starts party tries sender) :
    tries.length ≤ config.attempts ∧ ∀ one ∈ tries, one.dials ≤ 1 := by
  have more {last : Try} {tries : List Try} {due : Nat}
      (before : Failures config starts party tries due) (left : tries.length < config.attempts)
      (once : last.dials ≤ 1) : (tries ++ [last]).length ≤ config.attempts ∧
        ∀ one ∈ tries ++ [last], one.dials ≤ 1 := by
    refine ⟨by simpa using Nat.succ_le_of_lt left, fun one member => ?_⟩
    rcases List.mem_append.mp member with earlier | here
    · exact (before.each one earlier).1
    · obtain rfl := List.mem_singleton.mp here
      exact once
  induction account with
  | unstarted => exact ⟨Nat.zero_le _, fun one member => by cases member⟩
  | pausing before left => exact ⟨Nat.le_of_lt left, fun one member => (before.each one member).1⟩
  | parked before left start once => exact more before left once
  | sent before left start once => exact more before left once
  | exhausted before last start once => exact more before (by omega) once
  | cancelled id before underway ih => exact ih

theorem paused (account : Account config starts party tries sender) :
    Paused config starts party tries := by
  induction account with
  | unstarted => exact fun k earlier later held => by simp at held
  | pausing before =>
    cases before with
    | none => exact fun k earlier later held => by simp at held
    | failed before start => exact before.paused start
  | parked before left start => exact before.paused start
  | sent before left start => exact before.paused start
  | exhausted before last start => exact before.paused start
  | cancelled id before underway ih => exact ih

/-- The sender has ended well if and only if its last try has put the message on a channel. -/
theorem sent_iff (account : Account config starts party tries sender) :
    sender = .ended (.ok ()) ↔ ∃ one, tries.getLast? = some one ∧ one.Sent := by
  refine ⟨fun well => ?_, fun made => ?_⟩
  · subst well
    cases account with
    | sent before left start once ended => exact ⟨_, List.getLast?_concat, ended, rfl⟩
  · induction account with
    | unstarted =>
      obtain ⟨one, last, -⟩ := made
      cases last
    | pausing before =>
      obtain ⟨one, last, ended, queued⟩ := made
      obtain ⟨-, late, cause, -, failed⟩ := before.each one (List.mem_of_getLast? last)
      simp [failed] at queued
    | parked | exhausted =>
      obtain ⟨one, last, ended, queued⟩ := made
      obtain rfl := Option.some.inj (List.getLast?_concat.symm.trans last)
      simp at queued
    | sent => rfl
    | cancelled id before underway ih =>
      rw [ih made] at underway
      cases underway

/-- It has ended for want of a connection if and only if every attempt that it has was made and has
failed. -/
theorem exhausted_iff (account : Account config starts party tries sender)
    (accepted : 0 < config.attempts) :
    (∃ reason, sender = .ended (.error (.connectFailed party reason))) ↔
      tries.length = config.attempts ∧
        ∀ one ∈ tries, ∃ ended cause, one.Failed party ended cause := by
  refine ⟨fun ⟨reason, failed⟩ => ?_, fun made => ?_⟩
  · cases account with
    | exhausted before last start once retries =>
      refine ⟨by simpa using last, fun one member => ?_⟩
      rcases List.mem_append.mp member with earlier | here
      · exact (before.each one earlier).2
      · obtain rfl := List.mem_singleton.mp here
        exact ⟨_, _, retries, rfl⟩
    | unstarted | pausing | parked | sent | cancelled => simp at failed
  · induction account with
    | unstarted => simp [← made.1] at accepted
    | pausing before left => omega
    | parked | sent =>
      obtain ⟨ended, cause, -, outcome⟩ := made.2 _ (List.mem_append_right _ List.mem_cons_self)
      simp at outcome
    | exhausted before last start once retries =>
      cases retries with
      | connectFailed reason => exact ⟨reason, rfl⟩
      | channelClosed => exact ⟨"channel closed", rfl⟩
    | cancelled id before underway ih =>
      obtain ⟨reason, rfl⟩ := ih made
      cases underway

end Account

end JointQuery
