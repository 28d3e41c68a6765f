/-
Module: EduMuduo.Library.Refinement
Layer: Library
Purpose: Refinement with schedules.  A step of the concrete machine answers to a schedule of the
  abstract one, possibly the empty schedule, and keeps the two states related.  So every run of the
  concrete machine puts out a run of the abstract machine.
Imports: EduMuduo.Library.Conservation
Trusted boundary: none
Main exports: Machine.Refines, Machine.Refines.run
-/
import EduMuduo.Library.Conservation

namespace Library

namespace Machine

variable {State Action State' Action' : Type*}

/-- What the steps of `concrete` put out is admitted by `abstract` and keeps the states related. -/
structure Refines (concrete : Machine State Action) (abstract : Machine State' Action')
    (emit : State → Action → List Action') (related : State → State' → Prop) : Prop where
  step : ∀ s t a, concrete.Reachable s → related s t → concrete.enabled s a →
    abstract.Admits t (emit s a) ∧ related (concrete.next s a) (abstract.exec t (emit s a))

variable {concrete : Machine State Action} {abstract : Machine State' Action'}
  {emit : State → Action → List Action'} {related : State → State' → Prop}

/-- A run of the concrete machine puts out a run of the abstract one. -/
theorem Refines.run (refines : Refines concrete abstract emit related) {s : State} {t : State'}
    {schedule : List Action} (reachable : concrete.Reachable s) (start : related s t)
    (admitted : concrete.Admits s schedule) :
    abstract.Admits t (concrete.outputs emit s schedule) ∧
      related (concrete.exec s schedule) (abstract.exec t (concrete.outputs emit s schedule)) := by
  induction schedule generalizing s t with
  | nil => exact ⟨trivial, start⟩
  | cons a rest inductionHypothesis =>
      obtain ⟨first, after⟩ := refines.step s t a reachable start admitted.1
      obtain ⟨later, final⟩ :=
        inductionHypothesis (reachable.step admitted.1) after admitted.2
      rw [outputs_cons, admits_append, exec_append]
      exact ⟨⟨first, later⟩, final⟩

end Machine

end Library
