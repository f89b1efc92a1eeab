import Mathlib

/-!
# Tilibs.Lib.RingBuffer

A ring of slots between one writer and one reader, each of which moves an index of its own.

The slots from the reader's index up to the writer's hold what has not been read yet (`held`).  A
writer that keeps off the slot before the reader's index fills the slot at its own index first,
where nothing is held, and then moves it (`held_store`, `held_advance`); a reader takes the first
thing that is held (`held_eq_cons`).
-/

namespace Tilibs.Lib

/-- The slots, the index that is read next and the index that is written next. -/
structure RingBuffer (α : Type*) where
  slots : Nat → α
  start : Nat
  stop : Nat

namespace RingBuffer

variable {α : Type*} {n : Nat} {r : RingBuffer α}

/-- The indices stay below the number of slots. -/
structure Within (n : Nat) (r : RingBuffer α) : Prop where
  start : r.start < n
  stop : r.stop < n

/-- How many slots hold something. -/
def count (n : Nat) (r : RingBuffer α) : Nat := (r.stop + n - r.start) % n

/-- What has not been read yet, the oldest first. -/
def held (n : Nat) (r : RingBuffer α) : List α :=
  (List.range (r.count n)).map fun i => r.slots ((r.start + i) % n)

/-- The writer sees no room. -/
def Full (n : Nat) (r : RingBuffer α) : Prop := (r.stop + 1) % n = r.start

/-- The reader sees nothing. -/
def Empty (r : RingBuffer α) : Prop := r.start = r.stop

@[simp] theorem length_held : (r.held n).length = r.count n := by simp [held]

/-! ## arithmetic of the indices -/

/-- The index behind the last slot that holds something. -/
theorem start_add_count (h : r.Within n) : (r.start + r.count n) % n = r.stop := by
  obtain ⟨hstart, hstop⟩ := h
  rw [count, Nat.add_mod_mod, show r.start + (r.stop + n - r.start) = r.stop + n by omega,
    Nat.add_mod_right, Nat.mod_eq_of_lt hstop]

theorem count_lt (h : r.Within n) : r.count n < n := Nat.mod_lt _ (by have := h.start; omega)

theorem count_eq (h : r.Within n) :
    r.count n = if r.start ≤ r.stop then r.stop - r.start else r.stop + n - r.start := by
  obtain ⟨hstart, hstop⟩ := h
  unfold count
  split
  · next hle =>
    rw [show r.stop + n - r.start = r.stop - r.start + n by omega, Nat.add_mod_right,
      Nat.mod_eq_of_lt (by omega)]
  · exact Nat.mod_eq_of_lt (by omega)

theorem count_eq_zero_iff (h : r.Within n) : r.count n = 0 ↔ r.Empty := by
  obtain ⟨hstart, hstop⟩ := h
  rw [count_eq ⟨hstart, hstop⟩, Empty]
  split <;> omega

/-- A ring is full one short of its number of slots. -/
theorem full_iff (h : r.Within n) : r.Full n ↔ r.count n + 1 = n := by
  have hcount := count_eq h
  obtain ⟨hstart, hstop⟩ := h
  unfold Full
  by_cases hlast : r.stop + 1 = n
  · rw [hlast, Nat.mod_self]
    split at hcount <;> omega
  · rw [Nat.mod_eq_of_lt (by omega)]
    split at hcount <;> omega

/-- Different places behind the reader's index are different slots. -/
theorem slot_ne (h : r.Within n) {i : Nat} (hi : i < r.count n) :
    (r.start + i) % n ≠ r.stop := by
  have hlt := count_lt h
  rw [← start_add_count h]
  intro heq
  have hdvd : n ∣ (r.start + r.count n) - (r.start + i) :=
    Nat.dvd_of_mod_eq_zero (Nat.sub_mod_eq_zero_of_mod_eq heq.symm)
  have hzero := Nat.eq_zero_of_dvd_of_lt hdvd (by omega)
  omega

/-! ## writing -/

/-- The slot at the writer's index is filled. -/
def store (r : RingBuffer α) (a : α) : RingBuffer α :=
  { r with slots := Function.update r.slots r.stop a }

theorem slots_store_self (a : α) : (r.store a).slots r.stop = a := by simp [store]

theorem slots_store_of_ne {i : Nat} (h : i ≠ r.stop) (a : α) :
    (r.store a).slots i = r.slots i := by simp [store, h]

/-- The writer's index moves on. -/
def advance (n : Nat) (r : RingBuffer α) : RingBuffer α := { r with stop := (r.stop + 1) % n }

theorem Within.store (h : r.Within n) (a : α) : (r.store a).Within n := ⟨h.start, h.stop⟩

theorem Within.advance (h : r.Within n) : (r.advance n).Within n :=
  ⟨h.start, Nat.mod_lt _ (by have := h.start; omega)⟩

/-- Nothing that is held is written over. -/
theorem held_store (h : r.Within n) (a : α) : (r.store a).held n = r.held n := by
  refine List.map_congr_left fun i hi => ?_
  exact slots_store_of_ne (slot_ne h (List.mem_range.mp hi)) a

theorem count_advance (h : r.Within n) (hroom : ¬ r.Full n) :
    (r.advance n).count n = r.count n + 1 := by
  have hlt := count_lt h
  have hnot := mt (full_iff h).mpr hroom
  have hbefore := count_eq h
  have hafter := count_eq h.advance
  have hstart : (r.advance n).start = r.start := rfl
  have hstop : (r.advance n).stop = (r.stop + 1) % n := rfl
  rw [hstart, hstop] at hafter
  obtain ⟨hfirst, hlast⟩ := h
  by_cases hwrap : r.stop + 1 = n
  · rw [hwrap, Nat.mod_self] at hafter
    split at hbefore <;> split at hafter <;> omega
  · rw [Nat.mod_eq_of_lt (by omega)] at hafter
    split at hbefore <;> split at hafter <;> omega

/-- What the writer's index passes is held from then on. -/
theorem held_advance (h : r.Within n) (hroom : ¬ r.Full n) :
    (r.advance n).held n = r.held n ++ [r.slots r.stop] := by
  have hlast : (r.advance n).slots ((r.start + r.count n) % n) = r.slots r.stop := by
    rw [start_add_count h]
    rfl
  rw [held, count_advance h hroom, List.range_succ, List.map_append, List.map_singleton]
  exact congrArg (fun a => r.held n ++ [a]) hlast

/-! ## reading -/

/-- The reader's index moves on. -/
def release (n : Nat) (r : RingBuffer α) : RingBuffer α := { r with start := (r.start + 1) % n }

theorem Within.release (h : r.Within n) : (r.release n).Within n :=
  ⟨Nat.mod_lt _ (by have := h.start; omega), h.stop⟩

theorem count_release (h : r.Within n) (hsome : ¬ r.Empty) :
    (r.release n).count n + 1 = r.count n := by
  have hlt := count_lt h
  have hnot := mt (count_eq_zero_iff h).mp hsome
  have hbefore := count_eq h
  have hafter := count_eq h.release
  have hstart : (r.release n).start = (r.start + 1) % n := rfl
  have hstop : (r.release n).stop = r.stop := rfl
  rw [hstart, hstop] at hafter
  obtain ⟨hfirst, hlast⟩ := h
  by_cases hwrap : r.start + 1 = n
  · rw [hwrap, Nat.mod_self] at hafter
    split at hbefore <;> split at hafter <;> omega
  · rw [Nat.mod_eq_of_lt (by omega)] at hafter
    split at hbefore <;> split at hafter <;> omega

/-- The reader takes the oldest thing that is held. -/
theorem held_eq_cons (h : r.Within n) (hsome : ¬ r.Empty) :
    r.held n = r.slots r.start :: (r.release n).held n := by
  have hfirst : r.slots ((r.start + 0) % n) = r.slots r.start := by
    rw [Nat.add_zero, Nat.mod_eq_of_lt h.start]
  rw [held, ← count_release h hsome, List.range_succ_eq_map, List.map_cons, hfirst, List.map_map]
  congr 1
  refine List.map_congr_left fun i _ => ?_
  show r.slots ((r.start + (i + 1)) % n) = r.slots (((r.start + 1) % n + i) % n)
  rw [Nat.mod_add_mod, Nat.add_assoc, Nat.add_comm 1 i]

theorem held_of_empty (h : r.Within n) (hempty : r.Empty) : r.held n = [] := by
  rw [← List.length_eq_zero_iff, length_held, count_eq_zero_iff h]
  exact hempty

/-- A writer that sees no room and a reader that sees nothing are not at the same ring. -/
theorem not_full_and_empty (h : r.Within n) (hn : 1 < n) : ¬ (r.Full n ∧ r.Empty) := by
  rintro ⟨hfull, hempty⟩
  have hcount := (full_iff h).mp hfull
  rw [(count_eq_zero_iff h).mpr hempty] at hcount
  omega

end RingBuffer

end Tilibs.Lib
