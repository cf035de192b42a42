import JointQuery.Node.Reporting
import JointQuery.Node.Requests
import JointQuery.Proofs.Session.Lifecycle
import Mathlib.Data.List.Induction

/-! What the client of a session is told, one event after another. The first part is about the order
of the events alone; the second about what each of them says of the session, which stays true
however the session goes on. -/
namespace JointQuery

namespace ClientEvent

def isAccepted : ClientEvent → Bool
  | .accepted _ _ => true
  | _ => false

def isAllDone : ClientEvent → Bool
  | .allDone _ _ => true
  | _ => false

def isError : ClientEvent → Bool
  | .error _ _ _ => true
  | _ => false

/-- An event that only a reporter tells. -/
def isReport : ClientEvent → Bool
  | .tupleProgress _ _ _ => true
  | .tupleDone _ _ _ => true
  | .allDone _ _ => true
  | _ => false

/-- The tuple that is reported as done. -/
def doneTuple? : ClientEvent → Option Nat
  | .tupleDone _ tuple _ => some tuple.toNat
  | _ => none

/-- The event is what a reporter tells after so many tuples are reported as done: progress of the
next tuple, that it is done, or that all are. -/
def Reports (tuples next : Nat) : ClientEvent → Prop
  | .tupleProgress _ tuple _ => tuple.toNat = next
  | .tupleDone _ tuple _ => tuple.toNat = next
  | .allDone _ _ => next = tuples
  | _ => False

end ClientEvent

open ClientEvent

/-! ## Order -/

/-- There is an event of a kind among those that were told. -/
def Tells (told : List ClientEvent) (kind : ClientEvent → Bool) : Prop :=
  ∃ event ∈ told, kind event = true

instance (told : List ClientEvent) (kind : ClientEvent → Bool) : Decidable (Tells told kind) :=
  List.decidableBEx (fun event => kind event = true) told

/-- How many tuples were reported as done. -/
def dones (told : List ClientEvent) : Nat := (told.filterMap doneTuple?).length

/-- An event may be told of a session with so many tuples after what was told before. -/
def MayFollow (tuples : Nat) (before : List ClientEvent) : ClientEvent → Prop
  | .accepted _ _ => True
  | .error _ _ _ => ¬ Tells before isError
  | report => Tells before isAccepted ∧ report.Reports tuples (dones before)

/-- Events that are told in order: each of them may follow those before it, and nothing follows the
answer. -/
inductive Orderly (tuples : Nat) : List ClientEvent → Prop where
  | nil : Orderly tuples []
  | snoc (orderly : Orderly tuples told) (unanswered : ¬ Tells told isAllDone)
      (next : MayFollow tuples told event) : Orderly tuples (told ++ [event])

variable {told before after : List ClientEvent} {event : ClientEvent}

@[simp] theorem tells_append_iff (kind : ClientEvent → Bool) :
    Tells (told ++ [event]) kind ↔ Tells told kind ∨ kind event = true := by
  simp [Tells, or_and_right, exists_or]

@[simp] theorem dones_append :
    dones (told ++ [event]) = dones told + event.doneTuple?.toList.length := by
  cases done : event.doneTuple? <;> simp [dones, done]

theorem not_tells_iff (kind : ClientEvent → Bool) :
    ¬ Tells told kind ↔ told.countP kind = 0 := by
  simp [Tells, List.countP_eq_zero]

/-- The last event may follow those before it. -/
private theorem Orderly.last (orderly : Orderly tuples (told ++ [event])) :
    Orderly tuples told ∧ ¬ Tells told isAllDone ∧ MayFollow tuples told event := by
  generalize same : told ++ [event] = all at orderly
  cases orderly with
  | nil => simp at same
  | snoc earlier unanswered next =>
    obtain ⟨rfl, only⟩ := List.append_inj' same rfl
    obtain rfl := (List.cons.inj only).1
    exact ⟨earlier, unanswered, next⟩

/-- What was told up to some time is in order. -/
theorem Orderly.of_append (orderly : Orderly tuples (before ++ after)) : Orderly tuples before := by
  induction after using List.reverseRecOn with
  | nil => rwa [List.append_nil] at orderly
  | append_singleton rest last ih =>
    rw [← List.append_assoc] at orderly
    exact ih orderly.last.1

/-- Each event may follow those before it. -/
theorem Orderly.split (orderly : Orderly tuples (before ++ event :: after)) :
    Orderly tuples before ∧ ¬ Tells before isAllDone ∧ MayFollow tuples before event := by
  rw [List.append_cons] at orderly
  exact orderly.of_append.last

/-- A report is told after the session was accepted. -/
theorem Orderly.accepted_before (orderly : Orderly tuples (before ++ event :: after))
    (report : event.isReport = true) : Tells before isAccepted := by
  obtain ⟨-, -, follows⟩ := orderly.split
  cases event with
  | accepted | error => simp [isReport] at report
  | tupleProgress | tupleDone | allDone => exact follows.1

/-- Before a session is accepted nothing is reported of it. -/
theorem Orderly.unreported (orderly : Orderly tuples told) (unopened : ¬ Tells told isAccepted) :
    ¬ Tells told isAllDone ∧ dones told = 0 := by
  have never : ∀ event ∈ told, event.isReport = false := by
    intro event member
    cases report : event.isReport with
    | false => rfl
    | true =>
      obtain ⟨before, after, rfl⟩ := List.append_of_mem member
      obtain ⟨first, early, accepted⟩ := orderly.accepted_before report
      exact absurd ⟨first, List.mem_append_left _ early, accepted⟩ unopened
  constructor
  · rintro ⟨event, member, answer⟩
    have silent := never event member
    cases event with
    | allDone => simp [isReport] at silent
    | accepted | tupleProgress | tupleDone | error => simp [isAllDone] at answer
  · rw [dones, List.length_eq_zero_iff, List.filterMap_eq_nil_iff]
    intro event member
    have silent := never event member
    cases event with
    | tupleDone => simp [isReport] at silent
    | accepted | tupleProgress | allDone | error => rfl

/-- Nothing is told after the answer. -/
theorem Orderly.eq_nil_of_allDone (orderly : Orderly tuples (before ++ event :: after))
    (answer : event.isAllDone = true) : after = [] := by
  cases after with
  | nil => rfl
  | cons next rest =>
    rw [List.append_cons] at orderly
    obtain ⟨-, unanswered, -⟩ := orderly.split
    exact absurd ((tells_append_iff isAllDone).mpr (.inr answer)) unanswered

/-- The tuples that are reported as done are the first ones, in order. -/
theorem Orderly.doneTuples_eq (orderly : Orderly tuples told) :
    told.filterMap doneTuple? = List.range (dones told) := by
  induction orderly with
  | nil => rfl
  | @snoc told event orderly unanswered next ih =>
    rw [dones_append, List.filterMap_append, ih]
    cases event with
    | tupleDone id tuple row =>
      have tuple_eq : tuple.toNat = dones told := next.2
      simp [doneTuple?, tuple_eq, List.range_succ]
    | accepted | tupleProgress | allDone | error => simp [doneTuple?]

/-- The answer is told after all tuples. -/
theorem Orderly.doneTuples_of_allDone (orderly : Orderly tuples (before ++ event :: after))
    (answer : event.isAllDone = true) : before.filterMap doneTuple? = List.range tuples := by
  obtain ⟨earlier, -, follows⟩ := orderly.split
  cases event with
  | allDone id table =>
    have all : dones before = tuples := follows.2
    rw [earlier.doneTuples_eq, all]
  | accepted | tupleProgress | tupleDone | error => simp [isAllDone] at answer

theorem Orderly.countP_isAllDone_le (orderly : Orderly tuples told) :
    told.countP isAllDone ≤ 1 := by
  induction orderly with
  | nil => simp
  | @snoc told event orderly unanswered next ih =>
    rw [List.countP_append, (not_tells_iff _).mp unanswered, Nat.zero_add]
    exact List.countP_le_length

theorem Orderly.countP_isError_le (orderly : Orderly tuples told) : told.countP isError ≤ 1 := by
  induction orderly with
  | nil => simp
  | @snoc told event orderly unanswered next ih =>
    rw [List.countP_append]
    cases event with
    | error id kind message =>
      rw [(not_tells_iff _).mp next, Nat.zero_add]
      exact List.countP_le_length
    | accepted | tupleProgress | tupleDone | allDone => simpa [isError] using ih

/-! ## Truth -/

namespace Session

variable {session later : Session} {scale : Nat}

/-- What an event says of a session is true, and stays so. -/
def Bears (session : Session) (scale : Nat) : ClientEvent → Prop
  | .accepted id count => id = session.id ∧ count = UInt64.ofNat session.tupleCount
  | .tupleProgress id _ _ => id = session.id
  | .tupleDone id tuple row => id = session.id ∧ session.isTupleComplete tuple.toNat = true ∧
      session.tupleRow? tuple.toNat scale = some row
  | .allDone id table => id = session.id ∧ session.state = .completed ∧
      table = session.resultTable scale
  | .error id _ _ => id = some session.id ∧ session.isTerminal = true ∧
      session.state ≠ .completed

/-- An event that bears a session out is about it. -/
theorem Bears.queryId? (bears : session.Bears scale event) :
    event.queryId? = some session.id := by
  cases event with
  | tupleProgress id tuple fraction => exact congrArg some bears
  | error id kind message => exact bears.1
  | accepted | tupleDone | allDone => exact congrArg some bears.1

private theorem Grows.isTupleComplete (grows : session.Grows later) {tuple : Nat}
    (complete : session.isTupleComplete tuple = true) : later.isTupleComplete tuple = true := by
  obtain ⟨slot, found, marked⟩ := isTupleComplete_iff.mp complete
  exact isTupleComplete_iff.mpr ⟨slot, grows.kept tuple slot found marked, marked⟩

/-- The row of a complete tuple stays. -/
theorem Grows.tupleRow? (grows : session.Grows later) {tuple : Nat}
    (complete : session.isTupleComplete tuple = true) :
    later.tupleRow? tuple scale = session.tupleRow? tuple scale := by
  obtain ⟨slot, found, marked⟩ := isTupleComplete_iff.mp complete
  simp only [Session.tupleRow?, found, grows.kept tuple slot found marked, grows.domain]

/-- The answer of a session that has ended stays. -/
theorem Grows.resultTable (grows : session.Grows later) (final : session.isTerminal = true) :
    later.resultTable scale = session.resultTable scale := by
  obtain ⟨-, slots, -⟩ := grows.frozen final
  have rows : ∀ tuple, later.tupleRow? tuple scale = session.tupleRow? tuple scale := by
    simp [Session.tupleRow?, slot?, slots, grows.domain]
  simp only [Session.resultTable, rows, grows.domain, grows.query, grows.tupleCount]

theorem Grows.completed (grows : session.Grows later) (completed : session.state = .completed) :
    later.state = .completed := by
  have final : session.isTerminal = true := by rw [isTerminal, completed]; rfl
  exact (grows.frozen final).1.trans completed

/-- What is true of a session stays true. -/
theorem Bears.grows (bears : session.Bears scale event) (grows : session.Grows later) :
    later.Bears scale event := by
  cases event with
  | accepted id count => exact ⟨bears.1.trans grows.id.symm, grows.tupleCount ▸ bears.2⟩
  | tupleProgress id tuple fraction => exact Eq.trans bears grows.id.symm
  | tupleDone id tuple row =>
    obtain ⟨named, complete, row⟩ := bears
    exact ⟨named.trans grows.id.symm, grows.isTupleComplete complete,
      (grows.tupleRow? complete).trans row⟩
  | allDone id table =>
    obtain ⟨named, completed, answer⟩ := bears
    have final : session.isTerminal = true := by rw [isTerminal, completed]; rfl
    exact ⟨named.trans grows.id.symm, grows.completed completed,
      answer.trans (grows.resultTable final).symm⟩
  | error id kind message =>
    obtain ⟨named, final, early⟩ := bears
    have state := (grows.frozen final).1
    refine ⟨by rw [named, grows.id], ?_, ?_⟩
    · rw [isTerminal, state]
      exact final
    · rw [state]
      exact early

/-- Nothing final is said of a live session. -/
theorem Bears.not_final (bears : session.Bears scale event) (live : session.isTerminal = false) :
    event.isAllDone = false ∧ event.isError = false := by
  cases event with
  | allDone id table =>
    obtain ⟨-, completed, -⟩ := bears
    simp [isTerminal, completed, SessionState.isTerminal] at live
  | error id kind message => simp [bears.2.1] at live
  | accepted | tupleProgress | tupleDone => exact ⟨rfl, rfl⟩

/-- An answer and an error are not both true. -/
theorem Bears.not_both {answer error : ClientEvent} (answers : session.Bears scale answer)
    (final : answer.isAllDone = true) (fails : session.Bears scale error) :
    error.isError = false := by
  cases answer with
  | allDone id table =>
    cases error with
    | error => exact absurd answers.2.1 fails.2.2
    | accepted | tupleProgress | tupleDone | allDone => rfl
  | accepted | tupleProgress | tupleDone | error => simp [isAllDone] at final

/-- Tuples that are truly reported as done, in order, are no more than there are. -/
theorem dones_le (orderly : Orderly tuples told)
    (bears : ∀ event ∈ told, session.Bears scale event) : dones told ≤ session.tupleCount := by
  cases count : dones told with
  | zero => exact Nat.zero_le _
  | succ last =>
    have named : last ∈ told.filterMap doneTuple? := by
      rw [orderly.doneTuples_eq, count]
      exact List.mem_range.mpr (Nat.lt_succ_self last)
    obtain ⟨event, member, done⟩ := List.mem_filterMap.mp named
    cases event with
    | tupleDone id tuple row =>
      obtain ⟨-, complete, -⟩ := bears _ member
      obtain ⟨slot, found, -⟩ := isTupleComplete_iff.mp complete
      obtain rfl := Option.some.inj done
      exact (List.getElem?_eq_some_iff.mp found).1
    | accepted | tupleProgress | allDone | error => simp [doneTuple?] at done

/-- What was told of a session keeps the grammar of its stream. -/
structure Grammar (session : Session) (told : List ClientEvent) : Prop where
  /-- Every event is about the session. -/
  about : ∀ event ∈ told, event.queryId? = some session.id
  /-- Reports come after the query is accepted. -/
  opened : ∀ before event after, told = before ++ event :: after → event.isReport = true →
    Tells before isAccepted
  /-- The tuples that are reported as done are 0, 1, 2 and so on. -/
  inOrder : told.filterMap doneTuple? = List.range (dones told)
  /-- Progress is reported of the tuple that is next. -/
  progress : ∀ before id tuple fraction after,
    told = before ++ .tupleProgress id tuple fraction :: after → tuple.toNat = dones before
  /-- The answer comes after all tuples, and is the last event. -/
  answer : ∀ before event after, told = before ++ event :: after → event.isAllDone = true →
    before.filterMap doneTuple? = List.range session.domain.count ∧ after = []
  answeredOnce : told.countP isAllDone ≤ 1
  failedOnce : told.countP isError ≤ 1
  /-- An error is never told beside an answer. -/
  apart : ¬ (Tells told isAllDone ∧ Tells told isError)

/-- What is told in order, and is true of the session, keeps the grammar. -/
theorem grammar_of_orderly (built : session.Built) (orderly : Orderly session.tupleCount told)
    (bears : ∀ event ∈ told, session.Bears scale event) : session.Grammar told where
  about event member := (bears event member).queryId?
  opened := by
    rintro before event after rfl
    exact orderly.accepted_before
  inOrder := orderly.doneTuples_eq
  progress := by
    rintro before id tuple fraction after rfl
    exact orderly.split.2.2.2
  answer := by
    rintro before event after rfl answer
    rw [orderly.doneTuples_of_allDone answer, built.tupleCount]
    exact ⟨rfl, orderly.eq_nil_of_allDone answer⟩
  answeredOnce := orderly.countP_isAllDone_le
  failedOnce := orderly.countP_isError_le
  apart := by
    rintro ⟨⟨answer, answered, final⟩, ⟨error, failed, ends⟩⟩
    have never := (bears answer answered).not_both final (bears error failed)
    simp [never] at ends

/-! ## What a reporter has to tell -/

/-- What a reporter tells next: the next tuple if that is complete, and otherwise what closes its
pass. -/
def News (session : Session) (scale next : Nat) (seen : SessionState) (event : ClientEvent) :
    Prop :=
  session.tupleDone? next scale = some event ∨
    session.tupleDone? next scale = none ∧ session.closingEvent? seen next scale = some event

theorem Built.toNat_ofNat (built : session.Built) (inside : tuple < session.tupleCount) :
    (UInt64.ofNat tuple).toNat = tuple := by
  have small := Domain.count_le built.domain
  rw [← built.tupleCount, Domain.maxCount_eq] at small
  exact UInt64.toNat_ofNat_of_lt' (by simp only [UInt64.size]; omega)

theorem eq_of_tupleDone? (done : session.tupleDone? tuple scale = some event) :
    ∃ row, event = .tupleDone session.id (UInt64.ofNat tuple) row ∧
      session.isTupleComplete tuple = true ∧ session.tupleRow? tuple scale = some row := by
  by_cases complete : session.isTupleComplete tuple = true
  · rw [tupleDone?, if_pos complete] at done
    obtain ⟨row, found, rfl⟩ := Option.map_eq_some_iff.mp done
    exact ⟨row, rfl, complete, found⟩
  · rw [tupleDone?, if_neg complete] at done
    cases done

theorem eq_of_closingEvent? (closing : session.closingEvent? seen next scale = some event) :
    (seen = .completed ∧ event = .allDone session.id (session.resultTable scale)) ∨
    (next < session.tupleCount ∧
      ∃ fraction, event = .tupleProgress session.id (UInt64.ofNat next) fraction) := by
  by_cases completed : seen = .completed
  · rw [closingEvent?, if_pos completed] at closing
    cases closing
    exact .inl ⟨completed, rfl⟩
  · rw [closingEvent?, if_neg completed] at closing
    by_cases final : seen.isTerminal = true
    · rw [if_pos final] at closing
      cases closing
    · rw [if_neg final] at closing
      by_cases inside : next < session.tupleCount
      · rw [if_pos inside] at closing
        cases closing
        exact .inr ⟨inside, _, rfl⟩
      · rw [if_neg inside] at closing
        cases closing

/-- Every tuple has a row. -/
theorem Built.exists_tupleRow (built : session.Built) (scale : Nat) {tuple : Nat}
    (inside : tuple < session.tupleCount) : ∃ row, session.tupleRow? tuple scale = some row := by
  have found : session.slot? tuple = some session.slots[tuple] := List.getElem?_eq_getElem inside
  obtain ⟨group, held⟩ := Domain.exists_tuple (built.tupleCount ▸ inside)
  simp [tupleRow?, found, held]

/-- A complete tuple has a row to report. -/
theorem Built.exists_tupleDone (built : session.Built) {tuple : Nat}
    (complete : session.isTupleComplete tuple = true) :
    ∃ event, session.tupleDone? tuple scale = some event := by
  obtain ⟨slot, found, -⟩ := isTupleComplete_iff.mp complete
  obtain ⟨row, told⟩ := built.exists_tupleRow scale (List.getElem?_eq_some_iff.mp found).1
  simp [tupleDone?, complete, told]

/-- Every tuple of a completed session is complete. -/
theorem Regular.isTupleComplete (regular : session.Regular)
    (completed : session.state = .completed) (inside : tuple < session.tupleCount) :
    session.isTupleComplete tuple = true := by
  have all := regular.sound.allComplete_iff.mpr (regular.settled.mp completed)
  have found := List.getElem?_eq_getElem inside
  exact isTupleComplete_iff.mpr ⟨_, found, all _ (List.getElem_mem inside)⟩

/-- A reporter tells what is true, and what is next. -/
theorem News.sound (news : session.News scale next seen event) (regular : session.Regular)
    (reached : seen = .completed → session.state = .completed)
    (within : next ≤ session.tupleCount) :
    session.Bears scale event ∧ event.Reports session.tupleCount next := by
  have built := regular.built
  rcases news with done | ⟨undone, closing⟩
  · obtain ⟨row, rfl, complete, found⟩ := eq_of_tupleDone? done
    obtain ⟨slot, present, -⟩ := isTupleComplete_iff.mp complete
    have same := built.toNat_ofNat (List.getElem?_eq_some_iff.mp present).1
    refine ⟨⟨rfl, ?_, ?_⟩, same⟩
    · rw [same]
      exact complete
    · rw [same]
      exact found
  · rcases eq_of_closingEvent? closing with ⟨ends, rfl⟩ | ⟨inside, fraction, rfl⟩
    · refine ⟨⟨rfl, reached ends, rfl⟩, ?_⟩
      refine Nat.le_antisymm within (Nat.le_of_not_lt fun inside => ?_)
      have complete := regular.isTupleComplete (reached ends) inside
      obtain ⟨event, done⟩ : ∃ event, session.tupleDone? next scale = some event :=
        built.exists_tupleDone complete
      simp [undone] at done
    · exact ⟨rfl, built.toNat_ofNat inside⟩

/-- The answer is told only once a final state is seen. -/
theorem News.final (news : session.News scale next seen event)
    (answer : event.isAllDone = true) : seen.isTerminal = true := by
  rcases news with done | ⟨-, closing⟩
  · obtain ⟨row, rfl, -⟩ := eq_of_tupleDone? done
    simp [isAllDone] at answer
  · rcases eq_of_closingEvent? closing with ⟨ends, -⟩ | ⟨-, fraction, rfl⟩
    · rw [ends]
      rfl
    · simp [isAllDone] at answer

end Session

end JointQuery
