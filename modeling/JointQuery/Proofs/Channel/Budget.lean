import JointQuery.Channel.Budget
import Mathlib.Algebra.Ring.Nat

/-! A byte budget is divided between those who wait and those who have taken bytes, and what nobody
has is free. Bytes go to the longest waiting first: behind one who still lacks some, nobody has any.
Every operation moves bytes from one holder to another and neither makes nor loses any. -/
namespace JointQuery.Budget

variable {τ : Type} {waiters filled : List (Waiter τ)} {served : List τ} {free bytes left : Nat}

/-- The bytes that are set aside for those who wait. -/
def aside (waiters : List (Waiter τ)) : Nat := (waiters.map (·.held)).sum

/-- Who waits, and for how many bytes. -/
def line (waiters : List (Waiter τ)) : List (τ × Nat) :=
  waiters.map fun waiter => (waiter.task, waiter.want)

/-- Bytes go to the longest waiting first. Behind one who still lacks bytes nobody has any, and
none are free. -/
def Lined (free : Nat) : List (Waiter τ) → Prop
  | [] => True
  | waiter :: rest =>
    (waiter.held = waiter.want ∧ Lined free rest) ∨ (free = 0 ∧ ∀ other ∈ rest, other.held = 0)

/-- A budget whose waiters want something that they can have, each at most once, in their order. -/
structure Sound (budget : Budget τ) : Prop where
  wants : ∀ waiter ∈ budget.waiters, 0 < waiter.want ∧ waiter.want ≤ budget.limit
  within : ∀ waiter ∈ budget.waiters, waiter.held ≤ waiter.want
  distinct : (budget.waiters.map (·.task)).Nodup
  lined : Lined budget.free budget.waiters

theorem sound_ofLimit (limit : Nat) : (ofLimit limit : Budget τ).Sound :=
  ⟨by simp [ofLimit], by simp [ofLimit], by simp [ofLimit], trivial⟩

theorem mem_line {entry : τ × Nat} :
    entry ∈ line waiters ↔ ∃ waiter ∈ waiters, waiter.task = entry.1 ∧ waiter.want = entry.2 := by
  simp [line, Prod.ext_iff]

/-! ## The order of the line -/

private theorem Lined.less (lined : Lined free waiters) (fewer : left ≤ free) :
    Lined left waiters := by
  induction waiters with
  | nil => trivial
  | cons waiter rest ih =>
    rcases lined with ⟨full, lined⟩ | ⟨none, empty⟩
    · exact .inl ⟨full, ih lined⟩
    · exact .inr ⟨by omega, empty⟩

private theorem lined_of_empty (empty : ∀ waiter ∈ waiters, waiter.held = 0) : Lined 0 waiters := by
  cases waiters with
  | nil => trivial
  | cons waiter rest => exact .inr ⟨rfl, fun other member => empty other (.tail _ member)⟩

private theorem Lined.filter (lined : Lined free waiters) (keep : Waiter τ → Bool) :
    Lined free (waiters.filter keep) := by
  induction waiters with
  | nil => trivial
  | cons waiter rest ih =>
    rcases lined with ⟨full, lined⟩ | ⟨none, empty⟩
    · rw [List.filter_cons]
      split
      · exact .inl ⟨full, ih lined⟩
      · exact ih lined
    · have others : ∀ other ∈ rest.filter keep, other.held = 0 := fun other member =>
        empty other (List.mem_filter.mp member).1
      rw [List.filter_cons]
      split
      · exact .inr ⟨none, others⟩
      · exact none ▸ lined_of_empty others

/-- The last in line gets what is free. -/
theorem Lined.append (lined : Lined free waiters) (last : Waiter τ) (gets : last.held = free) :
    Lined 0 (waiters ++ [last]) := by
  induction waiters with
  | nil => exact .inr ⟨rfl, by simp⟩
  | cons waiter rest ih =>
    rcases lined with ⟨full, lined⟩ | ⟨none, empty⟩
    · exact .inl ⟨full, ih lined⟩
    · refine .inr ⟨rfl, fun other member => ?_⟩
      rcases List.mem_append.mp member with inside | new
      · exact empty other inside
      · rw [List.mem_singleton.mp new, gets, none]

/-! ## Giving bytes back -/

private theorem fill_zero (waiters : List (Waiter τ)) : fill 0 waiters = (0, waiters, []) := by
  induction waiters with
  | nil => rfl
  | cons waiter rest ih =>
    cases waiter
    simp [fill, ih]

/-- What handing out bytes comes to. -/
structure Fills (bytes : Nat) (waiters filled : List (Waiter τ)) (left : Nat) (served : List τ) :
    Prop where
  total : left + aside filled = bytes + aside waiters
  line : line filled = line waiters
  within : ∀ waiter ∈ filled, waiter.held ≤ waiter.want
  lined : ∀ free, Lined free waiters → Lined (free + left) filled
  woken : ∀ waiter ∈ filled, waiter.held = waiter.want → waiter.task ∈ served ∨ waiter ∈ waiters

/-- Where the bytes run out, the rest of the line stays as it was. -/
theorem fills_fill (bytes : Nat) (waiters : List (Waiter τ))
    (within : ∀ waiter ∈ waiters, waiter.held ≤ waiter.want) :
    Fills bytes waiters (fill bytes waiters).2.1 (fill bytes waiters).1
      (fill bytes waiters).2.2 := by
  induction waiters generalizing bytes with
  | nil => exact ⟨rfl, rfl, by simp [fill], fun free _ => trivial, by simp [fill]⟩
  | cons waiter rest ih =>
    obtain ⟨first, others⟩ := List.forall_mem_cons.mp within
    have spent (none : bytes - min bytes (waiter.want - waiter.held) = 0) :
        fill (bytes - min bytes (waiter.want - waiter.held)) rest = (0, rest, []) :=
      none ▸ fill_zero rest
    have handed := ih (bytes - min bytes (waiter.want - waiter.held)) others
    simp only [fill]
    generalize fill (bytes - min bytes (waiter.want - waiter.held)) rest = result at spent handed ⊢
    obtain ⟨left, filled, served⟩ := result
    obtain ⟨total, line, inside, lined, woken⟩ := handed
    simp only at total line inside lined woken
    refine ⟨?_, ?_, ?_, fun free order => ?_, ?_⟩
    · simp only [aside, List.map_cons, List.sum_cons] at total ⊢
      omega
    · simp only [Budget.line, List.map_cons] at line ⊢
      rw [line]
    · refine List.forall_mem_cons.mpr ⟨?_, inside⟩
      simp only
      omega
    · rcases order with ⟨full, order⟩ | ⟨none, empty⟩
      · exact .inl ⟨by simp only; omega, lined free order⟩
      · by_cases enough : waiter.want - waiter.held ≤ bytes
        · have order := lined free (none ▸ lined_of_empty empty)
          exact .inl ⟨by simp only; omega, order⟩
        · obtain ⟨rfl, rfl, rfl⟩ := Prod.mk.injEq .. ▸ spent (by omega)
          exact .inr ⟨by simp only; omega, empty⟩
    · refine List.forall_mem_cons.mpr ⟨fun full => ?_, fun other member full => ?_⟩
      · by_cases before : waiter.held = waiter.want
        · have same : ({ waiter with
              held := waiter.held + min bytes (waiter.want - waiter.held) } : Waiter τ) = waiter := by
            cases waiter
            simp only [Waiter.mk.injEq, true_and] at before ⊢
            omega
          rw [same]
          exact .inr List.mem_cons_self
        · refine .inl ?_
          simp only at full
          simp [Waiter.isServed, before, full]
      · rcases woken other member full with served | kept
        · refine .inl ?_
          split
          · exact List.mem_cons_of_mem _ served
          · exact served
        · exact .inr (List.mem_cons_of_mem _ kept)

/-- Two budgets of the same size. `gained` bytes have come back in between, and whoever has all
bytes now and did not have them before is `served`. -/
structure Regains (budget after : Budget τ) (gained : Nat) (served : List τ) : Prop where
  limit : after.limit = budget.limit
  total : after.free + aside after.waiters = budget.free + aside budget.waiters + gained
  sound : after.Sound
  line : line after.waiters = line budget.waiters
  woken : ∀ waiter ∈ after.waiters, waiter.held = waiter.want →
    waiter.task ∈ served ∨ waiter ∈ budget.waiters

variable {budget : Budget τ} {task : τ}

private theorem tasks_of_line {others : List (Waiter τ)} (same : line others = line waiters) :
    others.map (·.task) = waiters.map (·.task) := by
  have tasks := congrArg (List.map Prod.fst) same
  simpa [line, List.map_map, Function.comp_def] using tasks

theorem regains_give (sound : budget.Sound) (bytes : Nat) :
    Regains budget (budget.give bytes).1 bytes (budget.give bytes).2 := by
  have handed := fills_fill bytes budget.waiters sound.within
  unfold give
  generalize fill bytes budget.waiters = result at handed ⊢
  obtain ⟨left, filled, served⟩ := result
  obtain ⟨total, line, within, lined, woken⟩ := handed
  simp only at total line within lined woken ⊢
  refine ⟨rfl, ?_, ⟨fun waiter member => ?_, within, ?_, lined _ sound.lined⟩, line, woken⟩
  · simp only
    omega
  · have listed : (waiter.task, waiter.want) ∈ Budget.line budget.waiters :=
      line ▸ mem_line.mpr ⟨waiter, member, rfl, rfl⟩
    obtain ⟨before, present, -, want⟩ := mem_line.mp listed
    have wants := sound.wants before present
    simp only at want
    rwa [want] at wants
  · rw [tasks_of_line line]
    exact sound.distinct

/-- When all bytes are free or set aside, whoever is first in the line has all that it wants. -/
theorem exists_served (sound : budget.Sound)
    (all : budget.free + aside budget.waiters = budget.limit) (waits : budget.waiters ≠ []) :
    ∃ waiter ∈ budget.waiters, waiter.held = waiter.want := by
  obtain ⟨wants, within, -, lined⟩ := sound
  obtain ⟨first, rest, split⟩ := List.exists_cons_of_ne_nil waits
  rw [split] at all wants within lined ⊢
  refine ⟨first, List.mem_cons_self, ?_⟩
  rcases lined with ⟨full, -⟩ | ⟨none, empty⟩
  · exact full
  · have nothing : aside rest = 0 := by
      refine List.sum_eq_zero_iff_forall_eq_nat.mpr fun held member => ?_
      obtain ⟨waiter, inside, rfl⟩ := List.mem_map.mp member
      exact empty waiter inside
    have sum : aside (first :: rest) = first.held + aside rest := rfl
    have wanted := (wants first List.mem_cons_self).2
    have held := within first List.mem_cons_self
    omega

/-! ## Taking bytes -/

theorem need_pos (budget : Budget τ) (length : Nat) : 0 < budget.need length := by
  unfold need
  omega

theorem need_le (positive : 0 < budget.limit) (length : Nat) :
    budget.need length ≤ budget.limit := by
  unfold need
  omega

/-- Bytes are taken from those that are free. -/
theorem reserve_granted (sound : budget.Sound) (granted : (budget.reserve task bytes).2 = true) :
    (budget.reserve task bytes).1.limit = budget.limit ∧
      (budget.reserve task bytes).1.waiters = budget.waiters ∧
      (budget.reserve task bytes).1.free + bytes = budget.free ∧
      (budget.reserve task bytes).1.Sound := by
  unfold reserve at granted ⊢
  split at granted
  · rename_i enough
    rw [if_pos enough]
    refine ⟨rfl, rfl, ?_, sound.wants, sound.within, sound.distinct, sound.lined.less ?_⟩
    · simp only
      omega
    · simp only
      omega
  · cases granted

/-- Whoever cannot take bytes is last in the line, with all that was free. -/
theorem reserve_refused (sound : budget.Sound) (refused : (budget.reserve task bytes).2 = false)
    (fresh : task ∉ budget.waiters.map (·.task)) (positive : 0 < bytes)
    (least : bytes ≤ budget.limit) :
    (budget.reserve task bytes).1.limit = budget.limit ∧
      (budget.reserve task bytes).1.waiters =
        budget.waiters ++ [⟨task, bytes, budget.free⟩] ∧
      (budget.reserve task bytes).1.free = 0 ∧ budget.free < bytes ∧
      (budget.reserve task bytes).1.Sound := by
  unfold reserve at refused ⊢
  split at refused
  · cases refused
  · rename_i few
    rw [if_neg few]
    have short : budget.free < bytes := Nat.not_le.mp few
    refine ⟨rfl, rfl, rfl, short, ?_, ?_, ?_, sound.lined.append _ rfl⟩
    · intro waiter member
      rcases List.mem_append.mp member with inside | last
      · exact sound.wants waiter inside
      · cases List.mem_singleton.mp last
        exact ⟨positive, least⟩
    · intro waiter member
      rcases List.mem_append.mp member with inside | last
      · exact sound.within waiter inside
      · cases List.mem_singleton.mp last
        exact Nat.le_of_lt short
    · rw [List.map_append, List.nodup_append]
      refine ⟨sound.distinct, by simp, ?_⟩
      rintro other inside _ last rfl
      obtain rfl : other = task := by simpa using last
      exact fresh inside

/-! ## Leaving the line -/

theorem sound_leave [BEq τ] (sound : budget.Sound) (task : τ) : (budget.leave task).Sound where
  wants waiter member := sound.wants waiter (List.mem_filter.mp member).1
  within waiter member := sound.within waiter (List.mem_filter.mp member).1
  distinct := sound.distinct.sublist (List.filter_sublist.map _)
  lined := sound.lined.filter _

variable [BEq τ] [LawfulBEq τ]

theorem mem_of_waiter? {waiter : Waiter τ} (found : budget.waiter? task = some waiter) :
    waiter ∈ budget.waiters ∧ waiter.task = task := by
  have same := List.find?_some found
  exact ⟨List.mem_of_find?_eq_some found, by simpa using same⟩

/-- The bytes of one who leaves the line are not set aside any more. -/
theorem aside_filter (distinct : (waiters.map (·.task)).Nodup) {waiter : Waiter τ}
    (member : waiter ∈ waiters) :
    aside (waiters.filter (·.task != waiter.task)) + waiter.held = aside waiters := by
  induction waiters with
  | nil => cases member
  | cons other rest ih =>
    rw [List.map_cons, List.nodup_cons] at distinct
    rcases List.mem_cons.mp member with rfl | inside
    · have elsewhere : rest.filter (·.task != waiter.task) = rest := by
        refine List.filter_eq_self.mpr fun third present => ?_
        simp only [bne_iff_ne, ne_eq]
        rintro same
        exact distinct.1 (same ▸ List.mem_map_of_mem present)
      simp only [List.filter_cons, bne_self_eq_false, Bool.false_eq_true, if_false, elsewhere,
        aside, List.map_cons, List.sum_cons]
      omega
    · have differs : other.task ≠ waiter.task := by
        rintro same
        exact distinct.1 (same ▸ List.mem_map_of_mem inside)
      have others := ih distinct.2 inside
      simp only [List.filter_cons, bne_iff_ne, ne_eq, differs, not_false_eq_true, if_true, aside,
        List.map_cons, List.sum_cons] at others ⊢
      omega

theorem mem_leave {waiter : Waiter τ} :
    waiter ∈ (budget.leave task).waiters ↔ waiter ∈ budget.waiters ∧ waiter.task ≠ task := by
  simp [leave]

/-- Whoever has all bytes and leaves takes them along. -/
theorem leave_served (sound : budget.Sound) (full : budget.isServed task = true) :
    ∃ waiter ∈ budget.waiters, waiter.task = task ∧
      (budget.leave task).free + aside (budget.leave task).waiters + waiter.want =
        budget.free + aside budget.waiters := by
  unfold isServed at full
  split at full
  · rename_i waiter found
    obtain ⟨member, same⟩ := mem_of_waiter? found
    have held : waiter.held = waiter.want := by simpa [Waiter.isServed] using full
    have rest := aside_filter sound.distinct member
    rw [same] at rest
    refine ⟨waiter, member, same, ?_⟩
    simp only [leave]
    omega
  · cases full

/-- Whoever gives up gives back what was set aside. -/
theorem abandon_eq (sound : budget.Sound) (task : τ) :
    (budget.abandon task).1.limit = budget.limit ∧
      (budget.abandon task).1.free + aside (budget.abandon task).1.waiters =
        budget.free + aside budget.waiters ∧
      (budget.abandon task).1.Sound ∧
      (∀ entry, entry ∈ line (budget.abandon task).1.waiters ↔
        entry ∈ line budget.waiters ∧ entry.1 ≠ task) ∧
      (∀ waiter ∈ (budget.abandon task).1.waiters, waiter.held = waiter.want →
        waiter.task ∈ (budget.abandon task).2 ∨ waiter ∈ budget.waiters) := by
  unfold abandon
  split
  · rename_i waiter found
    obtain ⟨member, same⟩ := mem_of_waiter? found
    obtain ⟨limit, total, sound', line', woken⟩ :=
      regains_give (sound_leave sound task) waiter.held
    have rest := aside_filter sound.distinct member
    rw [same] at rest
    refine ⟨limit, ?_, sound', fun entry => ?_, fun other inside full => ?_⟩
    · simp only [leave] at total ⊢
      omega
    · rw [line']
      simp only [mem_line, mem_leave]
      constructor
      · rintro ⟨other, ⟨inside, differs⟩, named, wants⟩
        exact ⟨⟨other, inside, named, wants⟩, named ▸ differs⟩
      · rintro ⟨⟨other, inside, named, wants⟩, differs⟩
        exact ⟨other, ⟨inside, named.symm ▸ differs⟩, named, wants⟩
    · exact (woken other inside full).imp_right fun kept => (mem_leave.mp kept).1
  · rename_i missing
    refine ⟨rfl, rfl, sound, fun entry => ⟨fun listed => ⟨listed, ?_⟩, And.left⟩,
      fun other inside _ => .inr inside⟩
    rintro rfl
    obtain ⟨other, inside, named, -⟩ := mem_line.mp listed
    have absent := List.find?_eq_none.mp missing other inside
    simp [named] at absent

end JointQuery.Budget
