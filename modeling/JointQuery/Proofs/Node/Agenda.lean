import JointQuery.Node.Agenda
import Mathlib.Data.Set.Basic

/-! How what is to be done grows while time stands still. Whoever can run stays ready until it runs.
Timers stand in the order in which they are due, and those for another try are set and taken off by
nobody but the sender that tries again. -/
namespace JointQuery.Agenda

/-- At the same time, whatever could run can still run. -/
structure Extends (agenda next : Agenda) : Prop where
  now : next.now = agenda.now
  ready : ∀ task ∈ agenda.ready, task ∈ next.ready

variable {agenda middle next : Agenda} {task : TaskId}

theorem Extends.refl (agenda : Agenda) : agenda.Extends agenda := ⟨rfl, fun _ => id⟩

theorem Extends.trans (earlier : agenda.Extends middle) (later : middle.Extends next) :
    agenda.Extends next :=
  ⟨later.now.trans earlier.now, fun task member => later.ready task (earlier.ready task member)⟩

theorem extends_wake (agenda : Agenda) (task : TaskId) : agenda.Extends (agenda.wake task) := by
  unfold wake
  split
  · exact .refl agenda
  · exact ⟨rfl, fun other member => List.mem_append_left _ member⟩

theorem mem_wake (agenda : Agenda) (task : TaskId) : task ∈ (agenda.wake task).ready := by
  unfold wake
  split
  · rename_i present
    simpa using present
  · simp

theorem extends_wakeAll (agenda : Agenda) (tasks : List TaskId) :
    agenda.Extends (agenda.wakeAll tasks) := by
  induction tasks generalizing agenda with
  | nil => exact .refl agenda
  | cons task rest ih => exact (agenda.extends_wake task).trans (ih _)

theorem mem_wakeAll (agenda : Agenda) {tasks : List TaskId} (member : task ∈ tasks) :
    task ∈ (agenda.wakeAll tasks).ready := by
  induction tasks generalizing agenda with
  | nil => cases member
  | cons first rest ih =>
    rcases List.mem_cons.mp member with rfl | later
    · exact (extends_wakeAll _ rest).ready _ (agenda.mem_wake task)
    · exact ih _ later

theorem extends_wakeFirst (agenda : Agenda) (task : TaskId) :
    agenda.Extends (agenda.wakeFirst task) := by
  refine ⟨rfl, fun other member => ?_⟩
  by_cases same : other = task
  · simp [wakeFirst, same]
  · simp [wakeFirst, same, member]

theorem extends_setTimer (agenda : Agenda) (task : TaskId) (kind : TimerKind) (due : Nat) :
    agenda.Extends (agenda.setTimer task kind due) := by
  unfold setTimer
  split
  · exact .refl agenda
  · exact ⟨rfl, fun _ => id⟩

theorem extends_cancelTimer (agenda : Agenda) (task : TaskId) (kind : TimerKind) :
    agenda.Extends (agenda.cancelTimer task kind) := ⟨rfl, fun _ => id⟩

/-! ## Timers -/

/-- The timers stand in the order in which they are due. -/
def Sorted (agenda : Agenda) : Prop := agenda.timers.Pairwise (·.due ≤ ·.due)

variable {exempt : Set TaskId} {kind : TimerKind} {due : Nat}

private theorem mem_insertTimer {timer other : Timer} {timers : List Timer} :
    other ∈ insertTimer timer timers ↔ other = timer ∨ other ∈ timers := by
  induction timers with
  | nil => simp [insertTimer]
  | cons first rest ih =>
    unfold insertTimer
    split
    · simp only [List.mem_cons, ih]
      exact or_left_comm
    · simp

private theorem pairwise_insertTimer {timers : List Timer}
    (sorted : timers.Pairwise (·.due ≤ ·.due))
    (timer : Timer) : (insertTimer timer timers).Pairwise (·.due ≤ ·.due) := by
  induction timers with
  | nil => simp [insertTimer]
  | cons first rest ih =>
    obtain ⟨least, others⟩ := List.pairwise_cons.mp sorted
    unfold insertTimer
    split
    · rename_i before
      refine List.pairwise_cons.mpr ⟨fun other member => ?_, ih others⟩
      rcases mem_insertTimer.mp member with rfl | inside
      · exact before
      · exact least other inside
    · rename_i after
      refine List.pairwise_cons.mpr ⟨fun other member => ?_, sorted⟩
      rcases List.mem_cons.mp member with rfl | inside
      · exact Nat.le_of_not_le after
      · exact Nat.le_trans (Nat.le_of_not_le after) (least other inside)

theorem isSet_iff : agenda.isSet task kind = true ↔
    ∃ timer ∈ agenda.timers, timer.task = task ∧ timer.kind = kind := by
  simp [isSet, List.any_eq_true]

theorem mem_setTimer {timer : Timer} : timer ∈ (agenda.setTimer task kind due).timers ↔
    timer ∈ agenda.timers ∨ agenda.isSet task kind = false ∧ timer = ⟨due, task, kind⟩ := by
  unfold setTimer
  split
  · rename_i set
    simp [set]
  · rename_i unset
    simp only [mem_insertTimer, Bool.eq_false_iff.mpr unset, true_and]
    exact or_comm

theorem mem_cancelTimer {timer : Timer} : timer ∈ (agenda.cancelTimer task kind).timers ↔
    timer ∈ agenda.timers ∧ ¬ (timer.task = task ∧ timer.kind = kind) := by
  simp only [cancelTimer, List.mem_filter, Bool.not_eq_true', Bool.and_eq_false_iff,
    beq_eq_false_iff_ne, not_and_or, ne_eq]

/-- At the same time, whoever is not exempt can run if it could, and tries again when it would
have. -/
structure Retains (exempt : Set TaskId) (agenda next : Agenda) : Prop where
  now : next.now = agenda.now
  ready : ∀ task ∈ agenda.ready, task ∉ exempt → task ∈ next.ready
  sorted : agenda.Sorted → next.Sorted
  retries : ∀ timer : Timer, timer.kind = .retry → timer.task ∉ exempt →
    (timer ∈ next.timers ↔ timer ∈ agenda.timers)

theorem Retains.refl (agenda : Agenda) : agenda.Retains exempt agenda :=
  ⟨rfl, fun _ member _ => member, id, fun _ _ _ => .rfl⟩

theorem Retains.trans (earlier : agenda.Retains exempt middle)
    (later : middle.Retains exempt next) : agenda.Retains exempt next where
  now := later.now.trans earlier.now
  ready task member apart := later.ready task (earlier.ready task member apart) apart
  sorted := later.sorted ∘ earlier.sorted
  retries timer retry apart :=
    (later.retries timer retry apart).trans (earlier.retries timer retry apart)

private theorem Retains.of_timers (grows : agenda.Extends next)
    (same : next.timers = agenda.timers) : agenda.Retains exempt next where
  now := grows.now
  ready task member _ := grows.ready task member
  sorted sorted := by
    unfold Sorted at sorted ⊢
    rwa [same]
  retries _ _ _ := by rw [same]

theorem retains_wake (agenda : Agenda) (task : TaskId) :
    agenda.Retains exempt (agenda.wake task) :=
  .of_timers (agenda.extends_wake task) (by unfold wake; split <;> rfl)

theorem retains_wakeAll (agenda : Agenda) (tasks : List TaskId) :
    agenda.Retains exempt (agenda.wakeAll tasks) := by
  induction tasks generalizing agenda with
  | nil => exact .refl agenda
  | cons task rest ih => exact (agenda.retains_wake task).trans (ih _)

theorem retains_wakeFirst (agenda : Agenda) (task : TaskId) :
    agenda.Retains exempt (agenda.wakeFirst task) :=
  .of_timers (agenda.extends_wakeFirst task) rfl

theorem retains_setTimer (agenda : Agenda) (apart : kind = .retry → task ∈ exempt) (due : Nat) :
    agenda.Retains exempt (agenda.setTimer task kind due) where
  now := (agenda.extends_setTimer task kind due).now
  ready other member _ := (agenda.extends_setTimer task kind due).ready other member
  sorted sorted := by
    unfold setTimer
    split
    · exact sorted
    · exact pairwise_insertTimer sorted _
  retries timer retry outside := by
    rw [mem_setTimer]
    refine or_iff_left ?_
    rintro ⟨-, rfl⟩
    exact outside (apart retry)

theorem retains_cancelTimer (agenda : Agenda) (apart : kind = .retry → task ∈ exempt) :
    agenda.Retains exempt (agenda.cancelTimer task kind) where
  now := rfl
  ready _ member _ := member
  sorted sorted := List.Pairwise.filter _ sorted
  retries timer retry outside := by
    rw [mem_cancelTimer]
    refine and_iff_left ?_
    rintro ⟨rfl, rfl⟩
    exact outside (apart retry)

end JointQuery.Agenda
