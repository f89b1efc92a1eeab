import Mathlib

/-!
# Tilibs.Lib.PtrArray

Arrays of pointers, slot by slot, that end with a NULL: what it takes to put one
more item behind the others, and to take one out of the row.
-/

namespace Tilibs.Lib

variable {α : Type}

/-- The items, and a NULL behind them. -/
def terminated (xs : List α) : List (Option α) := xs.map some ++ [none]

/-- The array with another number of slots; a new slot is taken for empty. -/
def resizeSlots (n : Nat) (slots : List (Option α)) : List (Option α) :=
  slots.take n ++ List.replicate (n - slots.length) none

/-- Move so many slots behind a place one place down, one after the other. -/
def shiftSlots : Nat → Nat → List (Option α) → List (Option α)
  | 0, _, slots => slots
  | n + 1, j, slots => shiftSlots n (j + 1) (slots.set j (slots.getD (j + 1) none))

variable {xs : List α} {slots : List (Option α)} {n i k : Nat}

theorem length_terminated (xs : List α) : (terminated xs).length = xs.length + 1 := by
  simp [terminated]

theorem getElem?_terminated (xs : List α) (k : Nat) :
    (terminated xs)[k]? = if k < xs.length then xs[k]?.map some
      else if k = xs.length then some none else none := by
  unfold terminated
  grind

/-- Room for one more item, and the item in it. -/
theorem terminated_push (x : α) :
    ((resizeSlots (xs.length + 2) (terminated xs)).set (xs.length + 1) none).set xs.length (some x)
      = terminated (xs ++ [x]) := by
  have hresize : resizeSlots (xs.length + 2) (terminated xs) = xs.map some ++ [none, none] := by
    unfold resizeSlots
    rw [List.take_of_length_le (by rw [length_terminated]; omega), length_terminated, terminated]
    simp
  rw [hresize, terminated]
  simp

theorem length_shiftSlots : (shiftSlots n i slots).length = slots.length := by
  induction n generalizing i slots with
  | zero => rfl
  | succ n ih => rw [shiftSlots, ih, List.length_set]

theorem getElem?_shiftSlots (h : i + n < slots.length) :
    (shiftSlots n i slots)[k]? = if i ≤ k ∧ k < i + n then slots[k + 1]? else slots[k]? := by
  induction n generalizing i slots with
  | zero => grind [shiftSlots]
  | succ n ih =>
      rw [shiftSlots, ih (by rw [List.length_set]; omega)]
      grind

/-- An item taken out of the row, and the array as long as it has to be. -/
theorem terminated_erase (hi : i < xs.length) :
    (resizeSlots xs.length ((shiftSlots (xs.length - i) i (terminated xs)).set xs.length none)).set
      (xs.length - 1) none = terminated (xs.eraseIdx i) := by
  have hlen : (xs.eraseIdx i).length = xs.length - 1 := List.length_eraseIdx_of_lt hi
  have hroom : i + (xs.length - i) < (terminated xs).length := by
    rw [length_terminated]
    omega
  apply List.ext_getElem?
  intro k
  rw [getElem?_terminated, hlen]
  unfold resizeSlots
  grind [getElem?_shiftSlots, length_shiftSlots, getElem?_terminated, length_terminated]

end Tilibs.Lib
