/-
Module: EduMuduo.Library.Crossing
Layer: Library
Purpose: Upward crossings of a mark in the run of a machine, and machines that report them.  A level
  is read off the state; an action crosses the mark when it lifts the level from below the mark to
  the mark or beyond.  If the actions of a run report exactly the crossings, each with the level
  reached, then reports and crossings are equally many, a level at or above the mark has been
  reported once since it was last below it, and between two reports it was below.
Imports: EduMuduo.Library.Machine, Mathlib.Data.List.Induction
Trusted boundary: none
Main exports: Machine.Crosses, Machine.crossings, Machine.outputs, Machine.ReportsCrossings,
  Machine.ReportsCrossings.length, Machine.ReportsCrossings.last, Machine.ReportsCrossings.separated
-/
import EduMuduo.Library.Machine
import Mathlib.Data.List.Induction

namespace Library

namespace Machine

variable {State Action Out : Type*} (M : Machine State Action)

/-- What the actions of a schedule put out, in order. -/
def outputs (emit : State → Action → List Out) : State → List Action → List Out
  | _, [] => []
  | s, a :: rest => emit s a ++ outputs emit (M.next s a) rest

section Level

variable (level : State → Nat) (mark : Nat)

/-- The action lifts the level from below the mark to the mark or beyond. -/
def Crosses (s : State) (a : Action) : Prop := level s < mark ∧ mark ≤ level (M.next s a)

instance (s : State) (a : Action) : Decidable (M.Crosses level mark s a) :=
  inferInstanceAs (Decidable (_ ∧ _))

/-- How many actions of the schedule cross the mark. -/
def crossings : State → List Action → Nat
  | _, [] => 0
  | s, a :: rest => (if M.Crosses level mark s a then 1 else 0) + crossings (M.next s a) rest

/-- The level is at the mark or above it after every part of the schedule. -/
def StaysAbove (s : State) (schedule : List Action) : Prop :=
  ∀ front rest, schedule = front ++ rest → mark ≤ level (M.exec s front)

/-- Every action puts out the level that it reaches if it crosses the mark, and nothing
otherwise. -/
def ReportsCrossings (emit : State → Action → List Nat) (s : State)
    (schedule : List Action) : Prop :=
  ∀ front a rest, schedule = front ++ a :: rest →
    emit (M.exec s front) a =
      if M.Crosses level mark (M.exec s front) a then [level (M.next (M.exec s front) a)] else []

variable {M level mark}

/-- A run from below the mark to the mark or above it has a last crossing, behind which the level
stays. -/
theorem exists_last_crossing {s : State} {schedule : List Action} (below : level s < mark)
    (above : mark ≤ level (M.exec s schedule)) :
    ∃ front a rest, schedule = front ++ a :: rest ∧ M.Crosses level mark (M.exec s front) a ∧
      M.StaysAbove level mark (M.next (M.exec s front) a) rest := by
  induction schedule using List.reverseRecOn with
  | nil => exact absurd above (Nat.not_le_of_lt below)
  | append_singleton first last inductionHypothesis =>
      have whole := above
      rw [exec_append] at above
      by_cases before : mark ≤ level (M.exec s first)
      · obtain ⟨front, a, rest, split, crosses, stays⟩ := inductionHypothesis before
        refine ⟨front, a, rest ++ [last], by rw [split, List.append_assoc]; rfl, crosses, ?_⟩
        intro middle after parts
        rcases List.eq_nil_or_concat after with rfl | ⟨others, b, rfl⟩
        · -- the whole schedule, whose level is given
          rw [List.append_nil] at parts
          rw [split, List.append_assoc, exec_append] at whole
          exact parts ▸ whole
        · have parts : rest ++ [last] = (middle ++ others) ++ [b] := by simpa using parts
          exact stays middle others (List.append_inj_left' parts rfl)
      · refine ⟨first, last, [], rfl, ⟨Nat.lt_of_not_le before, above⟩, ?_⟩
        intro middle after parts
        obtain ⟨rfl, -⟩ := List.append_eq_nil_iff.mp parts.symm
        exact above

/-! ### Machines that report -/

theorem ReportsCrossings.tail {emit : State → Action → List Nat} {s : State} {a : Action}
    {rest : List Action} (reports : M.ReportsCrossings level mark emit s (a :: rest)) :
    M.ReportsCrossings level mark emit (M.next s a) rest :=
  (forall_positions_cons.mp reports).2

theorem ReportsCrossings.behind {emit : State → Action → List Nat} {s : State}
    {first second : List Action}
    (reports : M.ReportsCrossings level mark emit s (first ++ second)) :
    M.ReportsCrossings level mark emit (M.exec s first) second := by
  induction first generalizing s with
  | nil => exact reports
  | cons a first inductionHypothesis => exact inductionHypothesis reports.tail

/-- There are as many reports as crossings. -/
theorem ReportsCrossings.length {emit : State → Action → List Nat} {s : State}
    {schedule : List Action} (reports : M.ReportsCrossings level mark emit s schedule) :
    (M.outputs emit s schedule).length = M.crossings level mark s schedule := by
  induction schedule generalizing s with
  | nil => rfl
  | cons a rest inductionHypothesis =>
      have first := reports [] a rest rfl
      rw [exec_nil] at first
      rw [outputs, crossings, List.length_append, inductionHypothesis reports.tail, first]
      split <;> rfl

/-- Nothing is reported while the level stays above the mark. -/
theorem ReportsCrossings.silent {emit : State → Action → List Nat} {s : State}
    {schedule : List Action} (reports : M.ReportsCrossings level mark emit s schedule)
    (stays : M.StaysAbove level mark s schedule) : M.outputs emit s schedule = [] := by
  induction schedule generalizing s with
  | nil => rfl
  | cons a rest inductionHypothesis =>
      have above : mark ≤ level s := stays [] (a :: rest) rfl
      have first := reports [] a rest rfl
      have quiet : ¬ M.Crosses level mark s a :=
        fun crosses => Nat.not_le_of_lt crosses.1 above
      rw [exec_nil, if_neg quiet] at first
      rw [outputs, first, List.nil_append]
      apply inductionHypothesis reports.tail
      exact fun front later split => stays (a :: front) later (by rw [split]; rfl)

/-- A level at the mark or above it has been reported exactly once since it was last below: by the
action that crossed the mark, with the level that this action reached. -/
theorem ReportsCrossings.last {emit : State → Action → List Nat} {s : State}
    {schedule : List Action} (reports : M.ReportsCrossings level mark emit s schedule)
    (below : level s < mark) (above : mark ≤ level (M.exec s schedule)) :
    ∃ front a rest, schedule = front ++ a :: rest ∧ level (M.exec s front) < mark ∧
      M.StaysAbove level mark (M.next (M.exec s front) a) rest ∧
        M.outputs emit (M.exec s front) (a :: rest) = [level (M.next (M.exec s front) a)] := by
  obtain ⟨front, a, rest, split, crosses, stays⟩ := exists_last_crossing below above
  subst split
  have later := reports.behind
  have first := later [] a rest rfl
  rw [exec_nil, if_pos crosses] at first
  refine ⟨front, a, rest, rfl, crosses.1, stays, ?_⟩
  rw [outputs, first, later.tail.silent stays, List.append_nil]

/-- A report is made where the level crosses the mark. -/
theorem ReportsCrossings.crosses {emit : State → Action → List Nat} {s : State}
    {front rest : List Action} {a : Action}
    (reports : M.ReportsCrossings level mark emit s (front ++ a :: rest))
    (reported : emit (M.exec s front) a ≠ []) : M.Crosses level mark (M.exec s front) a := by
  have report := reports front a rest rfl
  by_contra quiet
  rw [if_neg quiet] at report
  exact reported report

/-- Between two reports the level goes down: it is at the mark or above it behind the first, and
below it before the second. -/
theorem ReportsCrossings.separated {emit : State → Action → List Nat} {s : State}
    {front middle rest : List Action} {a b : Action}
    (reports : M.ReportsCrossings level mark emit s (front ++ a :: middle ++ b :: rest))
    (first : emit (M.exec s front) a ≠ [])
    (second : emit (M.exec s (front ++ a :: middle)) b ≠ []) :
    mark ≤ level (M.next (M.exec s front) a) ∧
      level (M.exec s (front ++ a :: middle)) < mark := by
  constructor
  · rw [List.append_assoc] at reports
    exact (reports.crosses first).2
  · exact (reports.crosses second).1

end Level

end Machine

end Library
