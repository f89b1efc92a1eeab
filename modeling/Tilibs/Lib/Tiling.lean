import Mathlib
import Tilibs.Lib.Chunk

/-!
# Tilibs.Lib.Tiling

Sections that tile a stretch of a list: each begins where the one before it ends.
Walking a list of length-prefixed sections produces such a tiling, and from it follow
that the sections are disjoint, stay inside the stretch and give it back when they are
put behind each other.
-/

namespace Tilibs.Lib

variable {α σ : Type}

/-! ## slices -/

theorem length_slice {xs : List α} {offset size : Nat} (h : offset + size ≤ xs.length) :
    (slice xs (offset, size)).length = size := by
  unfold slice
  rw [List.length_take, List.length_drop]
  omega

theorem slice_all (xs : List α) : slice xs (0, xs.length) = xs := by
  unfold slice
  rw [List.drop_zero, List.take_length]

/-- Two slices one behind the other are one. -/
theorem slice_append (xs : List α) (offset m n : Nat) :
    slice xs (offset, m) ++ slice xs (offset + m, n) = slice xs (offset, m + n) := by
  unfold slice
  rw [List.take_add, List.drop_drop]

/-- The slice behind what is in front of it. -/
theorem slice_mid {xs ys zs : List α} {offset size : Nat} (hoffset : xs.length = offset)
    (hsize : ys.length = size) : slice (xs ++ (ys ++ zs)) (offset, size) = ys := by
  unfold slice
  rw [List.drop_left' hoffset, List.take_left' hsize]

/-! ## tilings -/

/-- The sections go from `start` to `stop`, each from where the one before it ends; `range`
is the offset and the size of a section. -/
inductive Tiles (range : σ → Nat × Nat) : Nat → List σ → Nat → Prop
  | nil (stop : Nat) : Tiles range stop [] stop
  | cons {start stop : Nat} {s : σ} {ss : List σ} :
      (range s).1 = start → Tiles range (start + (range s).2) ss stop →
        Tiles range start (s :: ss) stop

variable {range : σ → Nat × Nat} {start mid stop : Nat} {ss ts : List σ}

theorem Tiles.le (h : Tiles range start ss stop) : start ≤ stop := by
  induction h with
  | nil stop => exact le_refl stop
  | cons hoffset htiles ih => omega

/-- One tiling behind the other. -/
theorem Tiles.append (hs : Tiles range start ss mid) (ht : Tiles range mid ts stop) :
    Tiles range start (ss ++ ts) stop := by
  induction hs with
  | nil mid => exact ht
  | cons hoffset htiles ih => exact .cons hoffset (ih ht)

/-- Every section stays inside the stretch. -/
theorem Tiles.within (h : Tiles range start ss stop) :
    ∀ s ∈ ss, start ≤ (range s).1 ∧ (range s).1 + (range s).2 ≤ stop := by
  induction h with
  | nil stop => nofun
  | cons hoffset htiles ih =>
      have hle := htiles.le
      intro s hs
      cases hs with
      | head => omega
      | tail _ hs =>
          have hsub := ih s hs
          omega

/-- A section ends before the next one begins. -/
theorem Tiles.pairwise (h : Tiles range start ss stop) :
    ss.Pairwise fun s t => (range s).1 + (range s).2 ≤ (range t).1 := by
  induction h with
  | nil stop => exact .nil
  | cons hoffset htiles ih =>
      refine .cons (fun t ht => ?_) ih
      have hsub := htiles.within t ht
      omega

/-- The stretch is empty or some section begins it. -/
theorem Tiles.first (h : Tiles range start ss stop) :
    start = stop ∨ ∃ s ∈ ss, (range s).1 = start := by
  cases h with
  | nil => exact .inl rfl
  | cons hoffset htiles => exact .inr ⟨_, List.mem_cons_self .., hoffset⟩

/-- The end of a section is the end of all or the beginning of another. -/
theorem Tiles.next (h : Tiles range start ss stop) :
    ∀ s ∈ ss, (range s).1 + (range s).2 = stop
      ∨ ∃ t ∈ ss, (range t).1 = (range s).1 + (range s).2 := by
  induction h with
  | nil => nofun
  | cons hoffset htiles ih =>
      intro s hs
      cases hs with
      | head =>
          rw [hoffset]
          exact htiles.first.imp_right fun ⟨t, ht, hat⟩ => ⟨t, List.mem_cons_of_mem _ ht, hat⟩
      | tail _ hs =>
          exact (ih s hs).imp_right fun ⟨t, ht, hat⟩ => ⟨t, List.mem_cons_of_mem _ ht, hat⟩

/-- The sizes add up to the length of the stretch. -/
theorem Tiles.sum_eq (h : Tiles range start ss stop) :
    start + (ss.map fun s => (range s).2).sum = stop := by
  induction h with
  | nil stop => rfl
  | cons hoffset htiles ih =>
      rw [List.map_cons, List.sum_cons, ← Nat.add_assoc]
      exact ih

/-- The sections behind each other are the whole stretch. -/
theorem Tiles.flatMap_slice (xs : List α) (h : Tiles range start ss stop) :
    ss.flatMap (fun s => slice xs (range s)) = slice xs (start, stop - start) := by
  induction h with
  | nil stop => simp [slice]
  | @cons start stop s ss hoffset htiles ih =>
      have hle := htiles.le
      have hsplit : stop - start = (range s).2 + (stop - (start + (range s).2)) := by omega
      have hrange : range s = (start, (range s).2) := Prod.ext hoffset rfl
      rw [List.flatMap_cons, ih, hsplit, ← slice_append, ← hrange]

end Tilibs.Lib
