/-
Module: EduMuduo.Library.Machine
Layer: Library
Purpose: Guarded machines: a state, actions that carry every outside choice, a guard and a
  transition function.  Interleavings are action lists, so a property of all schedules is a
  property of all reachable states.  The module has the rules by which the developments above it
  argue: invariants, invariants relative to an invariant already known, restriction of a machine
  to the actions that satisfy a condition, and forward simulation.
Imports: Mathlib.Logic.Basic
Trusted boundary: none
Main exports: forall_positions_cons, Machine, Machine.Reachable, Machine.Reachable.invariant,
  Machine.Admits, Machine.exec, Machine.restrict, Machine.throughout_iff,
  Machine.throughout_iff_of_reachable, Machine.Simulation
-/
import Mathlib.Logic.Basic

namespace Library

/-- What holds at every position of a list holds at the first one and at the positions of the
rest. -/
theorem forall_positions_cons {Entry : Type*} {P : List Entry → Entry → List Entry → Prop}
    {first : Entry} {others : List Entry} :
    (∀ front a rest, first :: others = front ++ a :: rest → P front a rest) ↔
      P [] first others ∧
        ∀ front a rest, others = front ++ a :: rest → P (first :: front) a rest := by
  constructor
  · intro everywhere
    constructor
    · exact everywhere [] first others rfl
    · intro front a rest split
      exact everywhere (first :: front) a rest (congrArg (first :: ·) split)
  · rintro ⟨here, later⟩ front a rest split
    cases front with
    | nil =>
        cases split
        exact here
    | cons b front =>
        rw [List.cons_append, List.cons.injEq] at split
        obtain ⟨rfl, split⟩ := split
        exact later front a rest split

/-- A guarded machine.  `next` is only meaningful where `enabled` holds. -/
structure Machine (State Action : Type*) where
  initial : State → Prop
  enabled : State → Action → Prop
  next : State → Action → State

namespace Machine

variable {State Action : Type*} (M : Machine State Action)

/-- States that some finite schedule of enabled actions reaches. -/
inductive Reachable : State → Prop where
  | start {s : State} (initial : M.initial s) : Reachable s
  | step {s : State} {a : Action} (before : Reachable s) (guard : M.enabled s a) :
      Reachable (M.next s a)

/-- A schedule is admitted when every action is enabled in its turn. -/
def Admits : State → List Action → Prop
  | _, [] => True
  | s, a :: rest => M.enabled s a ∧ Admits (M.next s a) rest

/-- The state after a schedule. -/
def exec : State → List Action → State
  | s, [] => s
  | s, a :: rest => exec (M.next s a) rest

instance decidableAdmits [∀ s a, Decidable (M.enabled s a)] :
    ∀ (s : State) (schedule : List Action), Decidable (M.Admits s schedule)
  | _, [] => inferInstanceAs (Decidable True)
  | s, a :: rest =>
      have := decidableAdmits (M.next s a) rest
      inferInstanceAs (Decidable (M.enabled s a ∧ M.Admits (M.next s a) rest))

@[simp] theorem admits_nil (s : State) : M.Admits s [] := trivial

@[simp] theorem admits_cons (s : State) (a : Action) (rest : List Action) :
    M.Admits s (a :: rest) ↔ M.enabled s a ∧ M.Admits (M.next s a) rest := Iff.rfl

@[simp] theorem exec_nil (s : State) : M.exec s [] = s := rfl

@[simp] theorem exec_cons (s : State) (a : Action) (rest : List Action) :
    M.exec s (a :: rest) = M.exec (M.next s a) rest := rfl

variable {M}

/-- Schedules compose. -/
theorem exec_append (s : State) (first second : List Action) :
    M.exec s (first ++ second) = M.exec (M.exec s first) second := by
  induction first generalizing s with
  | nil => rfl
  | cons a rest inductionHypothesis => exact inductionHypothesis (M.next s a)

/-- A schedule is admitted exactly when its two halves are admitted in turn. -/
theorem admits_append {s : State} {first second : List Action} :
    M.Admits s (first ++ second) ↔
      M.Admits s first ∧ M.Admits (M.exec s first) second := by
  induction first generalizing s with
  | nil => simp
  | cons a rest inductionHypothesis => simp [inductionHypothesis, and_assoc]

/-- An admitted schedule leads from a reachable state to a reachable state. -/
theorem Reachable.exec {s : State} {schedule : List Action}
    (before : M.Reachable s) (admitted : M.Admits s schedule) :
    M.Reachable (M.exec s schedule) := by
  induction schedule generalizing s with
  | nil => exact before
  | cons a rest inductionHypothesis =>
      exact inductionHypothesis (before.step admitted.1) admitted.2

/-- A schedule that is admitted from an initial state shows a state reachable. -/
theorem Admits.reachable {start : State} {schedule : List Action}
    (admitted : M.Admits start schedule) (initial : M.initial start) :
    M.Reachable (M.exec start schedule) :=
  Reachable.exec (.start initial) admitted

/-- The invariant rule.  The step case may use that the state before the step is reachable, so
that invariants proved earlier are at hand. -/
theorem Reachable.invariant {I : State → Prop}
    (start : ∀ s, M.initial s → I s)
    (step : ∀ s a, M.Reachable s → I s → M.enabled s a → I (M.next s a))
    {s : State} (reachable : M.Reachable s) : I s := by
  induction reachable with
  | start initial => exact start _ initial
  | step before guard inductionHypothesis =>
      exact step _ _ before inductionHypothesis guard

/-! ### Restriction to the actions that satisfy a condition -/

/-- The machine that takes only those actions of `M` that meet `condition`. -/
def restrict (M : Machine State Action) (condition : State → Action → Prop) :
    Machine State Action where
  initial := M.initial
  enabled s a := M.enabled s a ∧ condition s a
  next := M.next

@[simp] theorem restrict_initial (condition : State → Action → Prop) (s : State) :
    (M.restrict condition).initial s ↔ M.initial s := Iff.rfl

@[simp] theorem restrict_enabled (condition : State → Action → Prop) (s : State) (a : Action) :
    (M.restrict condition).enabled s a ↔ M.enabled s a ∧ condition s a := Iff.rfl

@[simp] theorem restrict_next (condition : State → Action → Prop) (s : State) (a : Action) :
    (M.restrict condition).next s a = M.next s a := rfl

instance decidableRestrict (condition : State → Action → Prop) (s : State) (a : Action)
    [Decidable (M.enabled s a)] [Decidable (condition s a)] :
    Decidable ((M.restrict condition).enabled s a) :=
  inferInstanceAs (Decidable (M.enabled s a ∧ condition s a))

/-- A restricted run is a run. -/
theorem Reachable.of_restrict {condition : State → Action → Prop} {s : State}
    (reachable : (M.restrict condition).Reachable s) : M.Reachable s := by
  induction reachable with
  | start initial => exact .start initial
  | step before guard inductionHypothesis => exact inductionHypothesis.step guard.1

/-- A stronger condition leaves fewer runs. -/
theorem Reachable.restrict_mono {strong weak : State → Action → Prop}
    (weaker : ∀ s a, strong s a → weak s a) {s : State}
    (reachable : (M.restrict strong).Reachable s) : (M.restrict weak).Reachable s := by
  induction reachable with
  | start initial => exact .start initial
  | step before guard inductionHypothesis =>
      exact inductionHypothesis.step ⟨guard.1, weaker _ _ guard.2⟩

/-- Admission by a restricted machine is admission together with the condition at every step. -/
theorem Admits.of_restrict {condition : State → Action → Prop} {s : State}
    {schedule : List Action} (admitted : (M.restrict condition).Admits s schedule) :
    M.Admits s schedule := by
  induction schedule generalizing s with
  | nil => trivial
  | cons a rest inductionHypothesis =>
      exact ⟨admitted.1.1, inductionHypothesis admitted.2⟩

@[simp] theorem restrict_exec (condition : State → Action → Prop) (s : State)
    (schedule : List Action) : (M.restrict condition).exec s schedule = M.exec s schedule := by
  induction schedule generalizing s with
  | nil => rfl
  | cons a rest inductionHypothesis => exact inductionHypothesis (M.next s a)

/-- The condition of a restriction, read at each position of the schedule. -/
theorem admits_restrict_iff {condition : State → Action → Prop} {s : State}
    {schedule : List Action} :
    (M.restrict condition).Admits s schedule ↔
      M.Admits s schedule ∧
        ∀ front a rest, schedule = front ++ a :: rest → condition (M.exec s front) a := by
  induction schedule generalizing s with
  | nil => simp
  | cons b later inductionHypothesis =>
      rw [admits_cons, admits_cons, restrict_enabled, restrict_next, inductionHypothesis,
        forall_positions_cons]
      exact and_and_and_comm

/-- When `condition` says exactly which steps keep `I`, the runs that satisfy `I` throughout are
exactly those whose steps all meet the condition. -/
theorem throughout_iff {I : State → Prop} {condition : State → Action → Prop}
    (step : ∀ s a, I s → M.enabled s a → (I (M.next s a) ↔ condition s a))
    {s : State} {schedule : List Action} (start : I s) (admitted : M.Admits s schedule) :
    (∀ front rest, schedule = front ++ rest → I (M.exec s front)) ↔
      ∀ front a rest, schedule = front ++ a :: rest → condition (M.exec s front) a := by
  suffices same : (∀ front rest, schedule = front ++ rest → I (M.exec s front)) ↔
      (M.restrict condition).Admits s schedule by
    rw [same, admits_restrict_iff]
    exact and_iff_right admitted
  induction schedule generalizing s with
  | nil =>
      refine ⟨fun _ => trivial, fun _ front rest split => ?_⟩
      rw [(List.append_eq_nil_iff.mp split.symm).1]
      exact start
  | cons a later inductionHypothesis =>
      constructor
      · intro throughout
        have after : I (M.next s a) := throughout [a] later rfl
        refine ⟨⟨admitted.1, (step s a start admitted.1).mp after⟩, ?_⟩
        refine (inductionHypothesis after admitted.2).mp fun front rest split => ?_
        exact throughout (a :: front) rest (by rw [split]; rfl)
      · intro meets front rest split
        cases front with
        | nil => exact start
        | cons b front =>
            rw [List.cons_append, List.cons.injEq] at split
            obtain ⟨rfl, split⟩ := split
            have after : I (M.next s a) := (step s a start admitted.1).mpr meets.1.2
            exact (inductionHypothesis after admitted.2).mpr meets.2 front rest split

/-- The same rule from an initial state, where the step case may use reachability. -/
theorem throughout_iff_of_reachable {I : State → Prop} {condition : State → Action → Prop}
    {start : State} {schedule : List Action} (initial : M.initial start)
    (step : ∀ s a, M.Reachable s → I s → M.enabled s a → (I (M.next s a) ↔ condition s a))
    (begins : I start) (admitted : M.Admits start schedule) :
    (∀ front rest, schedule = front ++ rest → I (M.exec start front)) ↔
      ∀ front a rest, schedule = front ++ a :: rest → condition (M.exec start front) a := by
  have reaches : ∀ front rest, schedule = front ++ rest → M.Reachable (M.exec start front) :=
    fun front rest split => (admits_append.mp (split ▸ admitted)).1.reachable initial
  refine Iff.trans (forall₃_congr fun front rest split => ?_)
    (throughout_iff (I := fun s => M.Reachable s ∧ I s)
      (fun s a kept guard => ?_) ⟨.start initial, begins⟩ admitted)
  · exact (and_iff_right (reaches front rest split)).symm
  · exact (and_iff_right (kept.1.step guard)).trans (step s a kept.1 kept.2 guard)

/-! ### Forward simulation -/

/-- `abstraction` maps every step of `concrete` to a step of `abstract` or to no step at all. -/
structure Simulation {State' Action' : Type*} (concrete : Machine State Action)
    (abstract : Machine State' Action') (abstraction : State → State') : Prop where
  initial : ∀ s, concrete.initial s → abstract.initial (abstraction s)
  step : ∀ s a, concrete.Reachable s → concrete.enabled s a →
    abstraction (concrete.next s a) = abstraction s ∨
      ∃ b, abstract.enabled (abstraction s) b ∧
        abstraction (concrete.next s a) = abstract.next (abstraction s) b

/-- Reachability transfers along a simulation, hence so does every invariant of the abstract
machine. -/
theorem Simulation.reachable {State' Action' : Type*} {concrete : Machine State Action}
    {abstract : Machine State' Action'} {abstraction : State → State'}
    (simulation : Simulation concrete abstract abstraction) {s : State}
    (reachable : concrete.Reachable s) : abstract.Reachable (abstraction s) := by
  induction reachable with
  | start initial => exact .start (simulation.initial _ initial)
  | @step s a before guard inductionHypothesis =>
      rcases simulation.step s a before guard with same | ⟨b, abstractGuard, moves⟩
      · exact same ▸ inductionHypothesis
      · exact moves ▸ inductionHypothesis.step abstractGuard

end Machine

end Library
