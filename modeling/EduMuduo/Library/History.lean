/-
Module: EduMuduo.Library.History
Layer: Library
Purpose: Order in an append-only log.  `EachAfter R log` says that every entry of the log is
  related by `R` to the entries before it; with "some entry before it is …" for `R` this is
  precedence, with "no entry before it is …" it is uniqueness.
Imports: Mathlib.Data.List.Basic
Trusted boundary: none
Main exports: EachAfter, eachAfter_append, eachAfter_of_forall, EachAfter.mono,
  count_le_one_of_eachAfter
-/
import Mathlib.Data.List.Basic

namespace Library

variable {Entry : Type*}

/-- Every entry stands in relation `R` to the list of those before it. -/
def EachAfter (R : List Entry → Entry → Prop) (log : List Entry) : Prop :=
  ∀ front entry rest, log = front ++ entry :: rest → R front entry

theorem eachAfter_nil (R : List Entry → Entry → Prop) : EachAfter R [] := by
  intro front entry rest split
  exact absurd split.symm (by simp)

/-- A longer log needs only its new entries checked. -/
theorem eachAfter_append {R : List Entry → Entry → Prop} {log new : List Entry} :
    EachAfter R (log ++ new) ↔ EachAfter R log ∧ EachAfter (fun past => R (log ++ past)) new := by
  constructor
  · intro each
    refine ⟨fun front entry rest split => ?_, fun front entry rest split => ?_⟩
    · exact each front entry (rest ++ new) (by rw [split, List.append_assoc]; rfl)
    · exact each (log ++ front) entry rest (by rw [split, List.append_assoc])
  · rintro ⟨old, fresh⟩ front entry rest split
    rcases List.append_eq_append_iff.mp split with ⟨more, left, right⟩ | ⟨more, left, right⟩
    · exact left ▸ fresh more entry rest right
    · cases more with
      | nil =>
          rw [List.append_nil] at left
          have first : R (log ++ []) entry := fresh [] entry rest right.symm
          rwa [List.append_nil, left] at first
      | cons first more =>
          rw [List.cons_append, List.cons.injEq] at right
          exact old front entry more (by rw [left, right.1])

theorem eachAfter_cons {R : List Entry → Entry → Prop} {entry : Entry} {rest : List Entry} :
    EachAfter R (entry :: rest) ↔ R [] entry ∧ EachAfter (fun past => R (entry :: past)) rest := by
  have single : EachAfter R [entry] ↔ R [] entry := by
    constructor
    · exact fun each => each [] entry [] rfl
    · intro now front other later split
      cases front with
      | nil => cases split; exact now
      | cons _ _ => simp at split
  rw [← List.singleton_append, eachAfter_append, single]
  rfl

/-- A relation that holds whatever came before. -/
theorem eachAfter_of_forall {R : List Entry → Entry → Prop} {log : List Entry}
    (free : ∀ entry ∈ log, ∀ past, R past entry) : EachAfter R log :=
  fun front entry _ split => free entry (by rw [split]; simp) front

theorem EachAfter.mono {R S : List Entry → Entry → Prop} {log : List Entry}
    (weaker : ∀ past entry, R past entry → S past entry) (each : EachAfter R log) :
    EachAfter S log :=
  fun front entry rest split => weaker front entry (each front entry rest split)

/-- An entry that never stands behind itself occurs at most once. -/
theorem count_le_one_of_eachAfter [DecidableEq Entry] {log : List Entry} {entry : Entry}
    (each : EachAfter (fun past other => other = entry → entry ∉ past) log) :
    log.count entry ≤ 1 := by
  by_contra twice
  have member : entry ∈ log := List.count_pos_iff.mp (by omega)
  obtain ⟨front, rest, split, first⟩ := List.eq_append_cons_of_mem member
  have again : entry ∈ rest := by
    rw [split, List.count_append, List.count_cons_self, List.count_eq_zero.mpr first] at twice
    exact List.count_pos_iff.mp (by omega)
  obtain ⟨middle, last, split'⟩ := List.append_of_mem again
  refine each (front ++ entry :: middle) entry last ?_ rfl (by simp)
  rw [split, split', List.append_assoc, List.cons_append]

end Library
