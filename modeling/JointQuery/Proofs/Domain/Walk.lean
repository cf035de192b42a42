import JointQuery.Domain.Walk
import JointQuery.Proofs.Domain.Enumeration

/-! Walking through a domain. A walk visits the tuples in the order of their indices, as random
access finds them, and has no answer after the last one. Turning the odometer adds one to the number
that its places stand for, with all its carries, so that the places are those of the index that
comes next. Walks over one domain do not disturb each other. -/
namespace JointQuery

/-- A walk with its answers so far. -/
structure Reading where
  walk : Walk
  answers : List (Option (Nat × List GroupValue))

namespace Reading

/-- A reading of a fresh walk. -/
def fresh (domain : Domain) : Reading := ⟨.start domain, []⟩

/-- The reading after one more question. -/
def ask (domain : Domain) (reading : Reading) : Reading :=
  ⟨(reading.walk.ask domain).2, reading.answers ++ [(reading.walk.ask domain).1]⟩

/-- The reading of a fresh walk after `n` questions. -/
def asked (domain : Domain) : Nat → Reading
  | 0 => fresh domain
  | n + 1 => (asked domain n).ask domain

/-- What the holders of one domain do: start another walk, or ask one of those that are started. -/
inductive Call where
  | start
  | ask (place : Nat)
  deriving DecidableEq

/-- The readings after a call. -/
def serve (domain : Domain) (readings : List Reading) : Call → List Reading
  | .start => readings ++ [fresh domain]
  | .ask place => readings.modify place (ask domain)

/-- The readings after calls, in their order. -/
def served (domain : Domain) (calls : List Call) : List Reading :=
  calls.foldl (serve domain) []

end Reading

namespace Walk

open Domain (digits)

variable {domain : Domain} {query : Query} {radices : List Nat}

/-! ## The odometer -/

private theorem digits_zero (radices : List Nat) :
    digits radices 0 = (radices.map fun _ => 0, 0) := by
  induction radices with
  | nil => rfl
  | cons radix radices ih => simp [digits, ih]

/-- One wheel turned by one: it shows the next place, or goes round. -/
private theorem wheel (place : Nat) {radix : Nat} (positive : 0 < radix) :
    (place % radix + 1 < radix ∧ (place + 1) % radix = place % radix + 1 ∧
      (place + 1) / radix = place / radix) ∨
    (¬ place % radix + 1 < radix ∧ (place + 1) % radix = 0 ∧
      (place + 1) / radix = place / radix + 1) := by
  have whole := Nat.div_add_mod place radix
  have below := Nat.mod_lt place positive
  by_cases room : place % radix + 1 < radix
  · left
    have next : place + 1 = place % radix + 1 + radix * (place / radix) := by omega
    refine ⟨room, ?_, ?_⟩
    · rw [next, Nat.add_mul_mod_self_left, Nat.mod_eq_of_lt room]
    · rw [next, Nat.add_mul_div_left _ _ positive, Nat.div_eq_of_lt room, Nat.zero_add]
  · right
    have next : place + 1 = radix * (place / radix + 1) := by
      rw [Nat.mul_succ]
      omega
    refine ⟨room, ?_, ?_⟩
    · rw [next, Nat.mul_mod_right]
    · rw [next, Nat.mul_div_cancel_left _ positive]

/-- Turning the odometer adds one to its number; what has gone round is carried. -/
theorem turn_digits (positive : ∀ radix ∈ radices, 0 < radix) (n : Nat) :
    ∃ carry, turn radices (digits radices n).1 = ((digits radices (n + 1)).1, carry) ∧
      (digits radices (n + 1)).2 = (digits radices n).2 + carry.toNat := by
  induction radices with
  | nil => exact ⟨true, rfl, rfl⟩
  | cons radix radices ih =>
    obtain ⟨carry, turned, carried⟩ := ih fun other member =>
      positive other (List.mem_cons_of_mem _ member)
    simp only [digits, turn, turned, carried]
    cases carry with
    | false => exact ⟨false, rfl, rfl⟩
    | true =>
      rcases wheel (digits radices n).2 (positive radix List.mem_cons_self) with
        ⟨room, next, same⟩ | ⟨full, next, more⟩
      · exact ⟨false, by simp [room, next], by simp [same]⟩
      · exact ⟨true, by simp [full, next], by simp [more]⟩

/-! ## Questions -/

/-- The walk whose next tuple is the one at an index. -/
def ofIndex (domain : Domain) (index : Nat) : Walk := ⟨(digits domain.radices index).1, index⟩

/-- The tuple at an index, with the index. -/
def entry (domain : Domain) (index : Nat) : Option (Nat × List GroupValue) :=
  (domain.tuple index).map (index, ·)

private theorem start_eq (domain : Domain) : start domain = ofIndex domain 0 := by
  rw [start, ofIndex, digits_zero]

/-- Before the end a step visits the tuple that random access finds. -/
theorem step_ofIndex (positive : ∀ radix ∈ domain.radices, 0 < radix) {index : Nat}
    (inside : index < domain.count) :
    ∃ group, domain.tuple index = some group ∧
      step domain (ofIndex domain index) = some ((index, group), ofIndex domain (index + 1)) := by
  obtain ⟨carry, turned, -⟩ := turn_digits positive index
  refine ⟨_, by rw [Domain.tuple, Domain.positions, if_pos inside, Option.map_some], ?_⟩
  simp [step, ofIndex, inside, turned]

private theorem step_of_le {walk : Walk} (ended : domain.count ≤ walk.next) :
    step domain walk = none := by
  simp [step, Nat.not_lt.mpr ended]

private theorem ask_of_lt (positive : ∀ radix ∈ domain.radices, 0 < radix) {index : Nat}
    (inside : index < domain.count) :
    ask domain (ofIndex domain index) = (entry domain index, ofIndex domain (index + 1)) := by
  obtain ⟨group, found, visits⟩ := step_ofIndex positive inside
  simp [ask, visits, entry, found]

private theorem ask_of_le {walk : Walk} (ended : domain.count ≤ walk.next) :
    ask domain walk = (none, walk) := by
  simp [ask, step_of_le ended]

private theorem entry_of_le {index : Nat} (ended : domain.count ≤ index) :
    entry domain index = none := by
  simp [entry, Domain.tuple, Domain.positions, Nat.not_lt.mpr ended]

end Walk

namespace Reading

open Walk (entry ofIndex)

variable {domain : Domain} {query : Query}

/-- What `n` questions get, and where they leave a walk. -/
theorem asked_eq (positive : ∀ radix ∈ domain.radices, 0 < radix) (n : Nat) :
    asked domain n =
      ⟨ofIndex domain (min n domain.count), (List.range n).map (entry domain)⟩ := by
  induction n with
  | zero => simp [asked, fresh, Walk.start_eq]
  | succ n ih =>
    rw [asked, ih, ask, List.range_succ, List.map_append, List.map_singleton]
    rcases Nat.lt_or_ge n domain.count with inside | ended
    · rw [Nat.min_eq_left (Nat.le_of_lt inside), Nat.min_eq_left inside,
        Walk.ask_of_lt positive inside]
    · have still : domain.count ≤ (ofIndex domain (min n domain.count)).next :=
        Nat.le_min.mpr ⟨ended, Nat.le_refl _⟩
      rw [Walk.ask_of_le still, Walk.entry_of_le ended, Nat.min_eq_right ended,
        Nat.min_eq_right (Nat.le_succ_of_le ended)]

/-! ## Several walks -/

private theorem length_foldl_serve (domain : Domain) (readings : List Reading) (calls : List Call) :
    (calls.foldl (serve domain) readings).length = readings.length + calls.count .start := by
  induction calls generalizing readings with
  | nil => simp
  | cons call rest ih =>
    rw [List.foldl_cons, ih]
    cases call with
    | start =>
      simp [serve]
      omega
    | ask place => simp [serve]

/-- A walk notices only the questions that it is asked itself. -/
theorem getElem?_foldl_serve {readings : List Reading} {place n : Nat}
    (found : readings[place]? = some (asked domain n)) (calls : List Call) :
    (calls.foldl (serve domain) readings)[place]? =
      some (asked domain (n + calls.count (.ask place))) := by
  induction calls generalizing readings n with
  | nil => simpa using found
  | cons call rest ih =>
    obtain ⟨inside, -⟩ := List.getElem?_eq_some_iff.mp found
    rw [List.foldl_cons]
    cases call with
    | start =>
      have kept : (serve domain readings .start)[place]? = some (asked domain n) := by
        rw [serve, List.getElem?_append_left inside, found]
      rw [ih kept, List.count_cons_of_ne (by simp)]
    | ask other =>
      by_cases same : other = place
      · subst same
        have asks : (serve domain readings (.ask other))[other]? = some (asked domain (n + 1)) := by
          rw [serve, List.getElem?_modify_eq, found]
          rfl
        rw [ih asks, List.count_cons_self, Nat.add_assoc, Nat.add_comm 1]
      · have kept : (serve domain readings (.ask other))[place]? = some (asked domain n) := by
          rw [serve, List.getElem?_modify_ne _ _ same, found]
        rw [ih kept, List.count_cons_of_ne (by simpa using same)]

/-- A walk that is started at any time gets what every fresh walk gets. -/
theorem served_start (domain : Domain) (earlier later : List Call) :
    (served domain (earlier ++ .start :: later))[earlier.count .start]? =
      some (asked domain (later.count (.ask (earlier.count .start)))) := by
  have started : (serve domain (served domain earlier) .start)[earlier.count .start]? =
      some (asked domain 0) := by
    have length := length_foldl_serve domain [] earlier
    rw [List.length_nil, Nat.zero_add] at length
    rw [serve, served, ← length, List.getElem?_concat_length]
    rfl
  have kept := getElem?_foldl_serve started later
  rw [Nat.zero_add] at kept
  rw [served, List.foldl_append, List.foldl_cons]
  exact kept

/-! ## Every walk -/

/-- What a walk through the domain of a query visits, for any number of questions. The answers are
the tuples in order, each as random access finds it, and none after the last; the odometer shows the
places of the next tuple; and the bounds on what is still to come are exact. A walk that is started
at any time, whatever has been asked of others and will be, gets the same answers. -/
theorem visits_in_order (built : Domain.ofQuery query = .ok domain) :
    (∀ n,
      (asked domain n).answers.length = n ∧
      (∀ index < n, index < domain.count → ∃ group, domain.tuple index = some group ∧
        (asked domain n).answers[index]? = some (some (index, group))) ∧
      (∀ index < n, domain.count ≤ index → (asked domain n).answers[index]? = some none) ∧
      (asked domain n).walk.next = min n domain.count ∧
      ((asked domain n).walk.next < domain.count →
        domain.positions (asked domain n).walk.next = some (asked domain n).walk.positions) ∧
      (asked domain n).walk.next ≤ domain.count ∧
      (asked domain n).walk.sizeHint domain =
        (domain.count - min n domain.count, some (domain.count - min n domain.count))) ∧
    ∀ earlier later, (served domain (earlier ++ .start :: later))[earlier.count .start]? =
      some (asked domain (later.count (.ask (earlier.count .start)))) := by
  refine ⟨fun n => ?_, served_start domain⟩
  rw [asked_eq (Domain.radices_pos built)]
  have answer : ∀ index < n, ((List.range n).map (entry domain))[index]? =
      some (entry domain index) := by
    intro index asked
    simp [asked]
  refine ⟨by simp, ?_, ?_, rfl, ?_, Nat.min_le_right _ _, rfl⟩
  · intro index asked inside
    obtain ⟨group, found⟩ := Domain.exists_tuple inside
    exact ⟨group, found, by rw [answer index asked, entry, found, Option.map_some]⟩
  · intro index asked ended
    rw [answer index asked, Walk.entry_of_le ended]
  · intro inside
    exact if_pos inside

/-- A second walk through six tuples, started after the first has visited one, and asked for more
tuples than there are, gets all of them and then nothing. -/
theorem visits_in_order_twoByThree :
    Domain.ofQuery Domain.twoByThree =
        .ok ⟨Domain.twoByThree.groupBys.map Column.dimension, 6⟩ ∧
      (served ⟨Domain.twoByThree.groupBys.map Column.dimension, 6⟩
        ([.start, .ask 0] ++ .start :: [.ask 1, .ask 0, .ask 1]))[1]? =
          some (asked ⟨Domain.twoByThree.groupBys.map Column.dimension, 6⟩ 2) ∧
      (asked ⟨Domain.twoByThree.groupBys.map Column.dimension, 6⟩ 8).answers[6]? = some none := by
  have built : Domain.ofQuery Domain.twoByThree =
      .ok ⟨Domain.twoByThree.groupBys.map Column.dimension, 6⟩ := rfl
  obtain ⟨each, fresh⟩ := visits_in_order built
  obtain ⟨-, -, nothing, -⟩ := each 8
  exact ⟨built, fresh [.start, .ask 0] [.ask 1, .ask 0, .ask 1],
    nothing 6 (by decide) (Nat.le_refl _)⟩

end Reading

end JointQuery
