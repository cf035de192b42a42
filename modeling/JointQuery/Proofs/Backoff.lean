import JointQuery.Backoff
import Mathlib.Data.List.DropRight
import Mathlib.Order.MinMax
import Mathlib.Algebra.Order.Ring.Nat

/-! The delays of a backoff as numbers. Each is twice the one before up to the cap, and the words
that hold them never come out smaller by running over. Whatever calls a backoff has served, the
delays slept since the last reset are the first ones of this sequence, and there are as many of them
as were asked for, up to the number of retries. -/
namespace JointQuery

private theorem toNat_saturatingPowTwo (n : Nat) :
    (saturatingPowTwo n).toNat = min (2 ^ n) (UInt64.size - 1) := by
  unfold saturatingPowTwo
  split
  · rename_i small
    have fits : 2 ^ n < UInt64.size := Nat.pow_lt_pow_right (by decide) small
    rw [Nat.pow_eq, UInt64.toNat_ofNat_of_lt' fits]
    omega
  · rename_i large
    have beyond : 2 ^ 64 ≤ 2 ^ n := Nat.pow_le_pow_right (by decide) (Nat.le_of_not_lt large)
    rw [min_eq_right (Nat.le_trans (by decide) beyond)]
    rfl

private theorem toNat_saturatingMul (a b : UInt64) :
    (saturatingMul a b).toNat = min (a.toNat * b.toNat) (UInt64.size - 1) := by
  unfold saturatingMul
  split
  · rename_i fits
    rw [UInt64.toNat_mul, Nat.mod_eq_of_lt fits]
    omega
  · rename_i beyond
    rw [min_eq_right (by omega)]
    rfl

/-- Bounds that are no less than the last one can be left out. -/
theorem min_mul_min_min {first factor most cap : Nat} (fits : cap ≤ most) :
    min (min (first * min factor most) most) cap = min (first * factor) cap := by
  rw [min_assoc, min_eq_right fits]
  rcases Nat.le_total factor most with small | large
  · rw [min_eq_left small]
  · rw [min_eq_right large]
    rcases Nat.eq_zero_or_pos first with rfl | positive
    · simp
    · have least : most ≤ first * most := Nat.le_mul_of_pos_left most positive
      have more : first * most ≤ first * factor := Nat.mul_le_mul_left first large
      omega

namespace Backoff

/-- A call on a backoff. -/
inductive Call where
  | sleep
  | reset
  deriving DecidableEq

/-- What a call comes to: a sleep that is over, or is refused, or a new start. -/
inductive Outcome where
  | slept (delay : UInt64)
  | refused
  | restarted
  deriving DecidableEq

namespace Outcome

/-- The delay that was slept. -/
def delay? : Outcome → Option UInt64
  | .slept delay => some delay
  | .refused | .restarted => none

/-- The delays slept since the last reset. -/
def latest (outcomes : List Outcome) : List UInt64 :=
  (outcomes.rtakeWhile (· ≠ .restarted)).filterMap delay?

end Outcome

/-- How often a sleep has been asked for since the last reset. -/
def Call.asked (calls : List Call) : Nat := (calls.rtakeWhile (· ≠ .reset)).length

/-- Performs a call: the backoff after it, and what it comes to. -/
def perform (backoff : Backoff) : Call → Backoff × Outcome
  | .sleep =>
    match backoff.sleep with
    | some (delay, next) => (next, .slept delay)
    | none => (backoff, .refused)
  | .reset => (backoff.reset, .restarted)

/-- The backoff after calls. -/
def performed (backoff : Backoff) (calls : List Call) : Backoff :=
  calls.foldl (fun backoff call => (backoff.perform call).1) backoff

/-- What calls come to, in their order. -/
def outcomes (backoff : Backoff) : List Call → List Outcome
  | [] => []
  | call :: rest => (backoff.perform call).2 :: (backoff.perform call).1.outcomes rest

open Outcome (latest delay?)
open Call (asked)

/-- The delays that calls have slept since the last reset among them. -/
def delays (backoff : Backoff) (calls : List Call) : List UInt64 :=
  latest (backoff.outcomes calls)

variable (backoff : Backoff)

/-- The delay is the first one doubled with each sleep, up to the cap. -/
theorem toNat_nextDelay : backoff.nextDelay.toNat =
    min (backoff.initialMs.toNat * 2 ^ backoff.slept.toNat) backoff.maxMs.toNat := by
  have word (a b : UInt64) : (min a b).toNat = min a.toNat b.toNat := by
    rw [show min a b = if a ≤ b then a else b from rfl]
    split <;> rename_i order <;> rw [UInt64.le_iff_toNat_le] at order <;> omega
  rw [nextDelay, word, toNat_saturatingMul, toNat_saturatingPowTwo]
  exact min_mul_min_min (Nat.le_pred_of_lt backoff.maxMs.toNat_lt)

/-! ## Calls -/

variable {backoff}

theorem sleep_of_lt (left : backoff.slept < backoff.maxRetries) :
    backoff.sleep = some (backoff.nextDelay, { backoff with slept := backoff.slept + 1 }) :=
  if_neg (UInt32.not_le.mpr left)

theorem sleep_of_le (used : backoff.maxRetries ≤ backoff.slept) : backoff.sleep = none :=
  if_pos used

/-- While there are retries left, the word that counts the sleeps has room for one more. -/
theorem toNat_slept_succ (left : backoff.slept < backoff.maxRetries) :
    (backoff.slept + 1).toNat = backoff.slept.toNat + 1 := by
  have bound := backoff.maxRetries.toNat_lt
  rw [UInt32.lt_iff_toNat_lt] at left
  rw [UInt32.toNat_add]
  exact Nat.mod_eq_of_lt (Nat.lt_of_le_of_lt left bound)

private theorem perform_sleep_of_lt (left : backoff.slept < backoff.maxRetries) :
    backoff.perform .sleep =
      ({ backoff with slept := backoff.slept + 1 }, .slept backoff.nextDelay) := by
  simp only [perform, sleep_of_lt left]

private theorem perform_sleep_of_le (used : backoff.maxRetries ≤ backoff.slept) :
    backoff.perform .sleep = (backoff, .refused) := by
  simp only [perform, sleep_of_le used]

private theorem perform_settings (backoff : Backoff) (call : Call) :
    (backoff.perform call).1 = { backoff with slept := (backoff.perform call).1.slept } := by
  cases call with
  | sleep =>
    by_cases left : backoff.slept < backoff.maxRetries
    · rw [perform_sleep_of_lt left]
    · rw [perform_sleep_of_le (UInt32.not_lt.mp left)]
  | reset => rfl

/-- The first attempt is free, and so no attempts allow as many retries as one. -/
theorem toNat_maxRetries_forAttempts (attempts : UInt32) (initial cap : UInt64) :
    (forAttempts attempts initial cap).maxRetries.toNat = max attempts.toNat 1 - 1 := by
  by_cases none : attempts = 0
  · subst none
    rfl
  · have positive : 1 ≤ attempts.toNat :=
      Nat.one_le_iff_ne_zero.mpr fun zero => none (UInt32.toNat_inj.mp zero)
    have one : (1 : UInt32) ≤ attempts := UInt32.le_iff_toNat_le.mpr positive
    have retries : (forAttempts attempts initial cap).maxRetries = attempts - 1 := if_neg none
    rw [retries, UInt32.toNat_sub_of_le _ _ one, max_eq_left positive]
    rfl

variable (backoff)

private theorem performed_concat (calls : List Call) (call : Call) :
    backoff.performed (calls ++ [call]) = ((backoff.performed calls).perform call).1 := by
  simp [performed]

/-- Calls change nothing but the count of sleeps. -/
theorem performed_settings (calls : List Call) :
    backoff.performed calls = { backoff with slept := (backoff.performed calls).slept } := by
  induction calls using List.reverseRecOn with
  | nil => rfl
  | append_singleton earlier call ih =>
    rw [performed_concat, perform_settings, ih]

private theorem outcomes_append (calls later : List Call) :
    backoff.outcomes (calls ++ later) =
      backoff.outcomes calls ++ (backoff.performed calls).outcomes later := by
  induction calls generalizing backoff with
  | nil => rfl
  | cons call rest ih => simp [outcomes, performed, ih]

private theorem outcomes_concat (calls : List Call) (call : Call) :
    backoff.outcomes (calls ++ [call]) =
      backoff.outcomes calls ++ [((backoff.performed calls).perform call).2] :=
  backoff.outcomes_append calls [call]

private theorem length_outcomes (calls : List Call) :
    (backoff.outcomes calls).length = calls.length := by
  induction calls generalizing backoff with
  | nil => rfl
  | cons call rest ih => simp [outcomes, ih]

/-- The first outcomes are those of the first calls. -/
theorem exists_outcomes_eq {backoff : Backoff} {calls : List Call} {earlier later : List Outcome}
    (split : backoff.outcomes calls = earlier ++ later) :
    ∃ first, backoff.outcomes first = earlier := by
  refine ⟨calls.take earlier.length, ?_⟩
  have whole := backoff.outcomes_append (calls.take earlier.length) (calls.drop earlier.length)
  rw [List.take_append_drop, split] at whole
  have short : earlier.length ≤ calls.length := by
    rw [← backoff.length_outcomes calls, split, List.length_append]
    exact Nat.le_add_right _ _
  have lengths : earlier.length = (backoff.outcomes (calls.take earlier.length)).length := by
    rw [length_outcomes, List.length_take, Nat.min_eq_left short]
  exact (List.append_inj_left whole lengths).symm

/-! ## Counting from the last reset -/

/-- What comes without a reset is added to what there is since the last one. -/
theorem latest_append {stretch : List Outcome} (unbroken : .restarted ∉ stretch)
    (earlier : List Outcome) :
    latest (earlier ++ stretch) = latest earlier ++ stretch.filterMap delay? := by
  have kept : ∀ outcome ∈ stretch.reverse, decide (outcome ≠ .restarted) = true := by
    intro outcome member
    rw [decide_eq_true_eq]
    rintro rfl
    exact unbroken (List.mem_reverse.mp member)
  rw [latest, List.rtakeWhile, List.reverse_append, List.takeWhile_append_of_pos kept,
    List.reverse_append, List.reverse_reverse, List.filterMap_append]
  rfl

private theorem latest_restarted (earlier : List Outcome) :
    latest (earlier ++ [.restarted]) = [] := by
  rw [latest, List.rtakeWhile_concat_neg _ _ _ (by simp), List.filterMap_nil]

private theorem delays_reset (calls : List Call) : backoff.delays (calls ++ [.reset]) = [] := by
  rw [delays, outcomes_concat]
  exact latest_restarted _

private theorem delays_sleep_of_lt {backoff : Backoff} {calls : List Call}
    (left : (backoff.performed calls).slept < (backoff.performed calls).maxRetries) :
    backoff.delays (calls ++ [.sleep]) =
      backoff.delays calls ++ [(backoff.performed calls).nextDelay] := by
  rw [delays, outcomes_concat, perform_sleep_of_lt left]
  exact latest_append (by simp) _

private theorem delays_sleep_of_le {backoff : Backoff} {calls : List Call}
    (used : (backoff.performed calls).maxRetries ≤ (backoff.performed calls).slept) :
    backoff.delays (calls ++ [.sleep]) = backoff.delays calls := by
  rw [delays, outcomes_concat, perform_sleep_of_le used, latest_append (by simp)]
  exact List.append_nil _

private theorem asked_sleep (calls : List Call) : asked (calls ++ [.sleep]) = asked calls + 1 := by
  rw [asked, List.rtakeWhile_concat_pos _ _ _ (by simp), List.length_append]
  rfl

private theorem asked_reset (calls : List Call) : asked (calls ++ [.reset]) = 0 := by
  rw [asked, List.rtakeWhile_concat_neg _ _ _ (by simp), List.length_nil]

/-- The sleeps since the last reset, and the word that counts them. -/
structure Counts (start : Backoff) (retries : Nat) (calls : List Call) : Prop where
  /-- The word counts them without running over. -/
  slept_eq : (start.performed calls).slept.toNat = (start.delays calls).length
  /-- There are as many as were asked for, up to the number of retries. -/
  length_eq : (start.delays calls).length = min (asked calls) retries
  /-- Each took the first delay, doubled with every one before it, up to the cap. -/
  delays_eq : (start.delays calls).map UInt64.toNat =
    (List.range (start.delays calls).length).map fun sleeps =>
      min (start.initialMs.toNat * 2 ^ sleeps) start.maxMs.toNat

variable {start : Backoff} {retries : Nat} {calls : List Call}

namespace Counts

private theorem length_le (counts : Counts start retries calls) :
    (start.delays calls).length ≤ retries := by
  rw [counts.length_eq]
  exact Nat.min_le_right _ _

private theorem nextDelay_eq (counts : Counts start retries calls) :
    (start.performed calls).nextDelay.toNat =
      min (start.initialMs.toNat * 2 ^ (start.delays calls).length) start.maxMs.toNat := by
  rw [toNat_nextDelay, counts.slept_eq, performed_settings]

private theorem slept_lt (counts : Counts start retries calls)
    (allowed : start.maxRetries.toNat = retries) (few : (start.delays calls).length < retries) :
    (start.performed calls).slept < (start.performed calls).maxRetries := by
  have kept := congrArg maxRetries (start.performed_settings calls)
  rw [UInt32.lt_iff_toNat_lt, counts.slept_eq, kept, allowed]
  exact few

private theorem maxRetries_le (counts : Counts start retries calls)
    (allowed : start.maxRetries.toNat = retries) (full : (start.delays calls).length = retries) :
    (start.performed calls).maxRetries ≤ (start.performed calls).slept := by
  have kept := congrArg maxRetries (start.performed_settings calls)
  rw [UInt32.le_iff_toNat_le, counts.slept_eq, kept, allowed]
  exact Nat.le_of_eq full.symm

/-- A reset begins to count anew. -/
theorem reset : Counts start retries (calls ++ [.reset]) := by
  have reached : start.performed (calls ++ [.reset]) = (start.performed calls).reset :=
    start.performed_concat calls .reset
  have nothing := start.delays_reset calls
  constructor
  · rw [reached, nothing]
    rfl
  · rw [nothing, asked_reset, Nat.zero_min]
    rfl
  · rw [nothing]
    rfl

/-- A sleep, while there are retries left. -/
theorem sleep_of_lt (counts : Counts start retries calls)
    (allowed : start.maxRetries.toNat = retries) (few : (start.delays calls).length < retries) :
    Counts start retries (calls ++ [.sleep]) := by
  have left := counts.slept_lt allowed few
  have more := delays_sleep_of_lt left
  have reached := start.performed_concat calls .sleep
  rw [perform_sleep_of_lt left] at reached
  constructor
  · rw [reached, more, List.length_append, ← counts.slept_eq]
    exact toNat_slept_succ left
  · have asks := counts.length_eq
    rw [more, List.length_append, asked_sleep, List.length_singleton]
    omega
  · rw [more, List.map_append, List.length_append, List.length_singleton, List.range_succ,
      List.map_append, counts.delays_eq, List.map_singleton, List.map_singleton,
      counts.nextDelay_eq]

/-- A sleep, when the retries are used up. -/
theorem sleep_of_eq (counts : Counts start retries calls)
    (allowed : start.maxRetries.toNat = retries) (full : (start.delays calls).length = retries) :
    Counts start retries (calls ++ [.sleep]) := by
  have used := counts.maxRetries_le allowed full
  have same := delays_sleep_of_le used
  have reached := start.performed_concat calls .sleep
  rw [perform_sleep_of_le used] at reached
  constructor
  · rw [reached, same]
    exact counts.slept_eq
  · have asks := counts.length_eq
    rw [same, asked_sleep]
    omega
  · rw [same]
    exact counts.delays_eq

end Counts

/-- The last call decides what is counted, so that the induction takes the calls from their end. -/
theorem counts_performed (fresh : start.slept = 0) (allowed : start.maxRetries.toNat = retries)
    (calls : List Call) : Counts start retries calls := by
  induction calls using List.reverseRecOn with
  | nil => exact ⟨congrArg UInt32.toNat fresh, (Nat.zero_min _).symm, rfl⟩
  | append_singleton earlier call ih =>
    cases call with
    | sleep =>
      rcases Nat.lt_or_eq_of_le ih.length_le with few | full
      · exact ih.sleep_of_lt allowed few
      · exact ih.sleep_of_eq allowed full
    | reset => exact .reset

/-! ## Every run -/

/-- Delays that were slept one after the other, without a reset between them, never decrease, and
none exceeds the cap. Some first calls end with the stretch, and its delays are the last ones of all
that those calls give. -/
theorem ordered_of_unbroken {earlier stretch later : List Outcome} (fresh : start.slept = 0)
    (split : start.outcomes calls = earlier ++ stretch ++ later) (unbroken : .restarted ∉ stretch) :
    (stretch.filterMap delay?).Pairwise (· ≤ ·) ∧
      ∀ delay ∈ stretch.filterMap delay?, delay ≤ start.maxMs := by
  obtain ⟨first, reached⟩ := exists_outcomes_eq split
  have sequence := (counts_performed fresh rfl first).delays_eq
  rw [delays, reached, latest_append unbroken] at sequence
  generalize (latest earlier ++ stretch.filterMap delay?).length = sleeps at sequence
  constructor
  · have sorted : ((List.range sleeps).map fun sleeps =>
        min (start.initialMs.toNat * 2 ^ sleeps) start.maxMs.toNat).Pairwise (· ≤ ·) := by
      refine List.pairwise_map.mpr (List.pairwise_lt_range.imp fun {fewer more} less => ?_)
      have doubled : 2 ^ fewer ≤ 2 ^ more := Nat.pow_le_pow_right (by decide) (Nat.le_of_lt less)
      exact min_le_min_right _ (Nat.mul_le_mul_left _ doubled)
    rw [← sequence, List.pairwise_map, List.pairwise_append] at sorted
    exact sorted.2.1.imp UInt64.le_iff_toNat_le.mpr
  · intro delay member
    have listed : delay.toNat ∈ (latest earlier ++ stretch.filterMap delay?).map UInt64.toNat :=
      List.mem_map_of_mem (List.mem_append_right _ member)
    rw [sequence, List.mem_map] at listed
    obtain ⟨sleeps, -, same⟩ := listed
    rw [UInt64.le_iff_toNat_le, ← same]
    exact Nat.min_le_right _ _

/-- What calls on a backoff show when its words count as numbers without bounds do. -/
structure Exact (start : Backoff) (retries : Nat) (calls : List Call) : Prop
    extends Counts start retries calls where
  /-- The next delay is the first one doubled with every sleep since the last reset, up to the
  cap. -/
  nextDelay_eq : (start.performed calls).nextDelay.toNat =
    min (start.initialMs.toNat * 2 ^ (start.delays calls).length) start.maxMs.toNat
  /-- Between two resets the delays never decrease, and none exceeds the cap. -/
  ordered : ∀ earlier stretch later, start.outcomes calls = earlier ++ stretch ++ later →
    .restarted ∉ stretch → (stretch.filterMap delay?).Pairwise (· ≤ ·) ∧
      ∀ delay ∈ stretch.filterMap delay?, delay ≤ start.maxMs
  /-- While there are retries left, another sleep takes the next delay. -/
  sleeps : (start.delays calls).length < retries →
    ((start.performed calls).perform .sleep).2 = .slept (start.performed calls).nextDelay
  /-- When they are used up it is refused, and changes nothing. -/
  refuses : (start.delays calls).length = retries →
    (start.performed calls).perform .sleep = (start.performed calls, .refused)

private theorem exact_of_fresh (fresh : start.slept = 0)
    (allowed : start.maxRetries.toNat = retries)
    (calls : List Call) : Exact start retries calls := by
  have counts := counts_performed fresh allowed calls
  refine ⟨counts, counts.nextDelay_eq, ?_, ?_, ?_⟩
  · intro earlier stretch later split unbroken
    exact ordered_of_unbroken fresh split unbroken
  · intro few
    rw [perform_sleep_of_lt (counts.slept_lt allowed few)]
  · intro full
    exact perform_sleep_of_le (counts.maxRetries_le allowed full)

/-- A backoff does after any calls what numbers without bounds would do, for any first delay and
cap and for any number of retries or attempts. A number of attempts allows one sleep less, and the
attempts that are counted are never more than these, so that their word never runs over. -/
theorem doubles_exactly (initial cap : UInt64) (number : UInt32) (calls : List Call) :
    Exact (new initial cap number) number.toNat calls ∧
      Exact (forAttempts number initial cap) (max number.toNat 1 - 1) calls ∧
      ((forAttempts number initial cap).performed calls).attemptsMade.toNat =
        ((forAttempts number initial cap).delays calls).length + 1 ∧
      ((forAttempts number initial cap).performed calls).attemptsMade.toNat ≤
        max number.toNat 1 := by
  have counted : Exact (forAttempts number initial cap) (max number.toNat 1 - 1) calls :=
    exact_of_fresh rfl (toNat_maxRetries_forAttempts number initial cap) calls
  have few := counted.length_le
  have bound : max number.toNat 1 < UInt32.size := max_lt number.toNat_lt (by decide)
  have made : ((forAttempts number initial cap).performed calls).attemptsMade.toNat =
      ((forAttempts number initial cap).delays calls).length + 1 := by
    have room : ((forAttempts number initial cap).delays calls).length + 1 < UInt32.size := by
      omega
    rw [attemptsMade, UInt32.toNat_add, counted.slept_eq]
    exact Nat.mod_eq_of_lt room
  refine ⟨exact_of_fresh rfl rfl calls, counted, made, ?_⟩
  rw [made]
  omega

/-- The second delay would be more than a word holds; it is the cap. -/
example : (new 9223372036854775809 18446744073709551615 2).outcomes
    [.sleep, .sleep, .sleep, .reset, .sleep] =
      [.slept 9223372036854775809, .slept 18446744073709551615, .refused, .restarted,
        .slept 9223372036854775809] := by decide

end Backoff

end JointQuery
