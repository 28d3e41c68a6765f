/-
Module: EduMuduo.Library.Conservation
Layer: Library
Purpose: Conservation of items in the runs of a machine.  Items enter behind those that the state
  holds and leave before them.  If no step loses, repeats or overtakes an item, no run does: what
  has left followed by what is held is what was held at first followed by what has entered.  A
  leaky pipe may lose items but still neither invents, repeats nor overtakes one.
Imports: EduMuduo.Library.Crossing, Mathlib.Data.List.Basic
Trusted boundary: none
Main exports: Machine.outputs_map, Machine.Pipe, Machine.Pipe.run, Machine.Pipe.series,
  Machine.LeakyPipe, Machine.LeakyPipe.run
-/
import EduMuduo.Library.Crossing
import Mathlib.Data.List.Basic

namespace Library

namespace Machine

variable {State Action Item : Type*} {M : Machine State Action}

/-! ### Outputs of composed schedules -/

@[simp] theorem outputs_nil {Out : Type*} (emit : State → Action → List Out) (s : State) :
    M.outputs emit s [] = [] := rfl

@[simp] theorem outputs_cons {Out : Type*} (emit : State → Action → List Out) (s : State)
    (a : Action) (rest : List Action) :
    M.outputs emit s (a :: rest) = emit s a ++ M.outputs emit (M.next s a) rest := rfl

/-- A map of outputs that respects concatenation can be applied action by action. -/
theorem outputs_hom {Out Out' : Type*} (f : List Out → List Out') (empty : f [] = [])
    (append : ∀ xs ys, f (xs ++ ys) = f xs ++ f ys) (emit : State → Action → List Out) (s : State)
    (schedule : List Action) :
    M.outputs (fun s a => f (emit s a)) s schedule = f (M.outputs emit s schedule) := by
  induction schedule generalizing s with
  | nil => exact empty.symm
  | cons a rest inductionHypothesis =>
      rw [outputs_cons, outputs_cons, inductionHypothesis, append]

/-- A restricted machine puts out what the machine does. -/
@[simp] theorem restrict_outputs {Out : Type*} (condition : State → Action → Prop)
    (emit : State → Action → List Out) (s : State) (schedule : List Action) :
    (M.restrict condition).outputs emit s schedule = M.outputs emit s schedule := by
  induction schedule generalizing s with
  | nil => rfl
  | cons a rest inductionHypothesis =>
      rw [outputs_cons, outputs_cons, inductionHypothesis, restrict_next]

/-! ### Pipes -/

/-- Items that a step puts in go behind those that are held, and those that it takes out come from
the front; what enters a pipe that holds nothing may leave it in the same step. -/
structure Pipe (M : Machine State Action) (Item : Type*) where
  held : State → List Item
  enters : State → Action → List Item
  leaves : State → Action → List Item
  step : ∀ s a, M.Reachable s → M.enabled s a →
    leaves s a ++ held (M.next s a) = held s ++ enters s a

namespace Pipe

/-- The law of a pipe: over a run nothing is lost, repeated or overtaken. -/
theorem run (pipe : Pipe M Item) {s : State} {schedule : List Action} (reachable : M.Reachable s)
    (admitted : M.Admits s schedule) :
    M.outputs pipe.leaves s schedule ++ pipe.held (M.exec s schedule) =
      pipe.held s ++ M.outputs pipe.enters s schedule := by
  induction schedule generalizing s with
  | nil => simp
  | cons a rest inductionHypothesis =>
      have later := inductionHypothesis (reachable.step admitted.1) admitted.2
      calc pipe.leaves s a ++ M.outputs pipe.leaves (M.next s a) rest ++
            pipe.held (M.exec (M.next s a) rest)
          = pipe.leaves s a ++ pipe.held (M.next s a) ++
              M.outputs pipe.enters (M.next s a) rest := by
            rw [List.append_assoc, later, List.append_assoc]
        _ = pipe.held s ++ (pipe.enters s a ++ M.outputs pipe.enters (M.next s a) rest) := by
            rw [pipe.step s a reachable admitted.1, List.append_assoc]

/-- A pipe that holds nothing at first. -/
theorem run_of_empty (pipe : Pipe M Item) {s : State} {schedule : List Action}
    (reachable : M.Reachable s) (admitted : M.Admits s schedule) (empty : pipe.held s = []) :
    M.outputs pipe.leaves s schedule ++ pipe.held (M.exec s schedule) =
      M.outputs pipe.enters s schedule := by
  have law := pipe.run reachable admitted
  rwa [empty, List.nil_append] at law

/-- Two pipes in series: what leaves the first enters the second. -/
def series (first second : Pipe M Item)
    (link : ∀ s a, M.Reachable s → M.enabled s a → second.enters s a = first.leaves s a) :
    Pipe M Item where
  held s := second.held s ++ first.held s
  enters := first.enters
  leaves := second.leaves
  step s a reachable guard := by
    have behind := second.step s a reachable guard
    have before := first.step s a reachable guard
    rw [← List.append_assoc, behind, link s a reachable guard, List.append_assoc, before,
      List.append_assoc]

end Pipe

/-! ### Leaky pipes -/

theorem sublist_of_eq {first second : List Item} (same : first = second) :
    first.Sublist second := same ▸ List.Sublist.refl first

/-- A pipe that may lose items, but keeps the order of the others. -/
structure LeakyPipe (M : Machine State Action) (Item : Type*) where
  held : State → List Item
  enters : State → Action → List Item
  leaves : State → Action → List Item
  step : ∀ s a, M.Reachable s → M.enabled s a →
    (leaves s a ++ held (M.next s a)).Sublist (held s ++ enters s a)

/-- The law of a leaky pipe: over a run nothing is invented, repeated or overtaken. -/
theorem LeakyPipe.run (pipe : LeakyPipe M Item) {s : State} {schedule : List Action}
    (reachable : M.Reachable s) (admitted : M.Admits s schedule) :
    (M.outputs pipe.leaves s schedule ++ pipe.held (M.exec s schedule)).Sublist
      (pipe.held s ++ M.outputs pipe.enters s schedule) := by
  induction schedule generalizing s with
  | nil =>
      rw [outputs_nil, outputs_nil, List.append_nil, List.nil_append]
      exact List.Sublist.refl _
  | cons a rest inductionHypothesis =>
      have later := inductionHypothesis (reachable.step admitted.1) admitted.2
      have front := later.append_left (pipe.leaves s a)
      have back := (pipe.step s a reachable admitted.1).append_right
        (M.outputs pipe.enters (M.next s a) rest)
      rw [List.append_assoc] at back
      simp only [outputs_cons, exec_cons, List.append_assoc] at front back ⊢
      exact front.trans back

end Machine

end Library
