/-
Module: EduMuduo.Library.Memory
Layer: Library
Purpose: A block of memory cells as a list, with the copy primitives of a systems language on it.
  Copies are checked: a copy that would leave the block, or a forward copy whose destination lies
  in its own source range, is a fault and not a value.  `window` reads a half-open range; the
  lemmas say what each primitive does to a window, which is all that a ring, gap or two-index
  buffer needs.
Imports: Mathlib.Data.List.Basic
Trusted boundary: none
Main exports: Memory.window, Memory.store, Memory.copyForward, Memory.copy, Memory.resize,
  Memory.window_store, Memory.window_copy, Memory.window_resize
-/
import Mathlib.Data.List.Basic

namespace Library.Memory

variable {α : Type*}

/-- Why a copy is undefined. -/
inductive Fault where
  | outOfBounds
  | overlappingCopy
deriving Repr, DecidableEq

/-- The cells in `[first, last)`. -/
def window (mem : List α) (first last : Nat) : List α :=
  (mem.drop first).take (last - first)

/-- Replace the cells from `position` on by `data`. -/
def overwrite (mem : List α) (position : Nat) (data : List α) : List α :=
  mem.take position ++ data ++ mem.drop (position + data.length)

/-- Copy `data` from elsewhere into the block; the destination range must lie in the block. -/
def store (mem : List α) (position : Nat) (data : List α) : Except Fault (List α) :=
  if position + data.length ≤ mem.length then .ok (overwrite mem position data)
  else .error .outOfBounds

/-- The cell-by-cell loop of a forward copy of `count` cells from `source` to `target`. -/
def copyForward (mem : List α) (source target : Nat) : Nat → List α
  | 0 => mem
  | count + 1 =>
      match mem[source]? with
      | some cell => copyForward (mem.set target cell) (source + 1) (target + 1) count
      | none => mem

/-- Copy the cells of `[first, last)` to `target` within the block.  Both ranges must lie in the
block and `target` must not lie in `[first, last)`. -/
def copy (mem : List α) (first last target : Nat) : Except Fault (List α) :=
  if last < first ∨ mem.length < last ∨ mem.length < target + (last - first) then
    .error .outOfBounds
  else if first ≤ target ∧ target < last then .error .overlappingCopy
  else .ok (copyForward mem first target (last - first))

/-- Make the block `size` cells long, dropping cells at the end or filling up with `fill`. -/
def resize (mem : List α) (size : Nat) (fill : α) : List α :=
  mem.take size ++ List.replicate (size - mem.length) fill

/-! ### Windows -/

@[simp] theorem window_self (mem : List α) (position : Nat) :
    window mem position position = [] := by
  simp [window]

@[simp] theorem length_window (mem : List α) {first last : Nat} (inside : last ≤ mem.length) :
    (window mem first last).length = last - first := by
  simp [window]
  omega

/-- Moving the left end of a window drops cells at its front. -/
theorem window_drop (mem : List α) (first last count : Nat) :
    window mem (first + count) last = (window mem first last).drop count := by
  rw [window, window, List.drop_take, List.drop_drop]
  congr 1
  omega

/-- A shorter window from the same left end is a front part. -/
theorem window_take (mem : List α) {first last count : Nat} (inside : count ≤ last - first) :
    window mem first (first + count) = (window mem first last).take count := by
  rw [window, window, List.take_take, Nat.add_sub_cancel_left, Nat.min_eq_left inside]

/-- The cells of a window by index. -/
theorem getElem?_window (mem : List α) (first last i : Nat) :
    (window mem first last)[i]? = if i < last - first then mem[first + i]? else none := by
  rw [window, List.getElem?_take, List.getElem?_drop]

/-! ### Checked copies from outside -/

theorem length_overwrite {mem data : List α} {position : Nat}
    (inside : position + data.length ≤ mem.length) :
    (overwrite mem position data).length = mem.length := by
  simp [overwrite]
  omega

theorem store_ok {mem data : List α} {position : Nat}
    (inside : position + data.length ≤ mem.length) :
    store mem position data = .ok (overwrite mem position data) := if_pos inside

theorem getElem?_overwrite {mem data : List α} {position : Nat}
    (inside : position + data.length ≤ mem.length) (i : Nat) :
    (overwrite mem position data)[i]? =
      if i < position then mem[i]?
      else if i < position + data.length then data[i - position]? else mem[i]? := by
  have front : (mem.take position).length = position := by simp; omega
  rw [overwrite, List.append_assoc, List.getElem?_append, front]
  split
  · rename_i before
    rw [List.getElem?_take, if_pos before]
  · rw [List.getElem?_append]
    split
    · rw [if_pos (by omega)]
    · rw [if_neg (by omega), List.getElem?_drop]
      congr 1
      omega

/-- Storing right behind a window extends the window by the data. -/
theorem window_store {mem data : List α} {first last : Nat} (ordered : first ≤ last)
    (inside : last + data.length ≤ mem.length) :
    window (overwrite mem last data) first (last + data.length) =
      window mem first last ++ data := by
  apply List.ext_getElem?
  intro i
  rw [getElem?_window, getElem?_overwrite inside, List.getElem?_append,
    length_window mem (by omega), getElem?_window]
  by_cases before : i < last - first
  · rw [if_pos (by omega), if_pos (by omega), if_pos before, if_pos before]
  · rw [if_neg before]
    by_cases written : i < last + data.length - first
    · rw [if_pos written, if_neg (by omega), if_pos (by omega)]
      congr 1
      omega
    · rw [if_neg written, eq_comm, List.getElem?_eq_none_iff]
      omega

/-! ### Forward copies within the block -/

@[simp] theorem length_copyForward (mem : List α) (source target count : Nat) :
    (copyForward mem source target count).length = mem.length := by
  induction count generalizing mem source target with
  | zero => rfl
  | succ count inductionHypothesis =>
      rw [copyForward]
      split
      · rw [inductionHypothesis, List.length_set]
      · rfl

/-- A forward copy to a lower address reads every source cell before it overwrites it, so the
result does not depend on whether the two ranges overlap. -/
theorem getElem?_copyForward (mem : List α) {source target count : Nat}
    (lower : target < source) (inside : source + count ≤ mem.length) (i : Nat) :
    (copyForward mem source target count)[i]? =
      if target ≤ i ∧ i < target + count then mem[source + (i - target)]? else mem[i]? := by
  induction count generalizing mem source target with
  | zero => rw [copyForward, if_neg (by omega)]
  | succ count inductionHypothesis =>
      have present : mem[source]? = some mem[source] := List.getElem?_eq_getElem (by omega)
      rw [copyForward, present]
      dsimp only
      rw [inductionHypothesis (mem.set target mem[source]) (by omega) (by simp; omega)]
      by_cases here : i = target
      · subst i
        rw [if_neg (by omega), if_pos (by omega), List.getElem?_set_self (by omega),
          Nat.sub_self, Nat.add_zero, present]
      · by_cases written : target + 1 ≤ i ∧ i < target + 1 + count
        · rw [if_pos written, if_pos (by omega), List.getElem?_set_ne (by omega)]
          congr 1
          omega
        · rw [if_neg written, if_neg (by omega), List.getElem?_set_ne (Ne.symm here)]

theorem copy_ok {mem : List α} {first last target : Nat} (lower : target < first)
    (ordered : first ≤ last) (inside : last ≤ mem.length) :
    copy mem first last target = .ok (copyForward mem first target (last - first)) := by
  rw [copy, if_neg (by omega), if_neg (by omega)]

/-- A window copied to a lower address arrives unchanged. -/
theorem window_copy {mem : List α} {first last target : Nat} (lower : target < first)
    (ordered : first ≤ last) (inside : last ≤ mem.length) :
    window (copyForward mem first target (last - first)) target (target + (last - first)) =
      window mem first last := by
  apply List.ext_getElem?
  intro i
  rw [getElem?_window, getElem?_window, getElem?_copyForward mem lower (by omega),
    Nat.add_sub_cancel_left]
  by_cases within : i < last - first
  · rw [if_pos within, if_pos within, if_pos (by omega), Nat.add_sub_cancel_left]
  · rw [if_neg within, if_neg within]

/-! ### Growing the block -/

theorem length_resize (mem : List α) (size : Nat) (fill : α) :
    (resize mem size fill).length = size := by
  simp [resize]
  omega

/-- A window that survives the new size is unchanged. -/
theorem window_resize (mem : List α) {first last size : Nat} (fill : α)
    (inside : last ≤ mem.length) (fits : last ≤ size) :
    window (resize mem size fill) first last = window mem first last := by
  apply List.ext_getElem?
  intro i
  rw [getElem?_window, getElem?_window]
  by_cases within : i < last - first
  · rw [if_pos within, if_pos within, resize,
      List.getElem?_append_left (by simp; omega), List.getElem?_take, if_pos (by omega)]
  · rw [if_neg within, if_neg within]

end Library.Memory
