import Mathlib

/-!
# Tilibs.Lib.Chunk

Cutting a list into pieces of one size, as the packet layers do with a payload:
`chunks` takes a given number of full pieces, `pieces` the full ones and the
shorter one that may be left.

`chunkRanges` is the same cut by offsets, for transfers out of a buffer and
into one.
-/

namespace Tilibs.Lib

variable {α : Type}

/-- The first `k` pieces of `n` elements. -/
def chunks (n : Nat) : Nat → List α → List (List α)
  | 0, _ => []
  | k + 1, xs => xs.take n :: chunks n k (xs.drop n)

@[simp] theorem length_chunks (n k : Nat) (xs : List α) : (chunks n k xs).length = k := by
  induction k generalizing xs with
  | zero => rfl
  | succ k ih => simp [chunks, ih]

theorem flatten_chunks (n k : Nat) (xs : List α) : (chunks n k xs).flatten = xs.take (k * n) := by
  induction k generalizing xs with
  | zero => simp [chunks]
  | succ k ih =>
      rw [chunks, List.flatten_cons, ih, Nat.succ_mul, Nat.add_comm, List.take_add]

theorem map_length_chunks {n k : Nat} {xs : List α} (h : k * n ≤ xs.length) :
    (chunks n k xs).map List.length = List.replicate k n := by
  induction k generalizing xs with
  | zero => rfl
  | succ k ih =>
      rw [Nat.succ_mul] at h
      have hdrop : k * n ≤ (xs.drop n).length := by
        rw [List.length_drop]; omega
      rw [chunks, List.map_cons, ih hdrop, List.length_take, Nat.min_eq_left (by omega),
        List.replicate_succ]

/-- All of `xs` in pieces of `n`, the last one shorter when `n` does not divide. -/
def pieces (n : Nat) (xs : List α) : List (List α) :=
  chunks n (xs.length / n) xs ++
    if xs.length % n = 0 then [] else [xs.drop (xs.length / n * n)]

/-- Cutting loses nothing. -/
theorem flatten_pieces (n : Nat) (xs : List α) : (pieces n xs).flatten = xs := by
  have hmod := Nat.div_add_mod' xs.length n
  rw [pieces, List.flatten_append, flatten_chunks]
  split
  · next h => rw [List.flatten_nil, List.append_nil, List.take_of_length_le (by omega)]
  · rw [List.flatten_singleton, List.take_append_drop]

theorem map_length_pieces (n : Nat) (xs : List α) :
    (pieces n xs).map List.length =
      List.replicate (xs.length / n) n ++
        if xs.length % n = 0 then [] else [xs.length % n] := by
  have hmod := Nat.div_add_mod' xs.length n
  rw [pieces, List.map_append, map_length_chunks (by omega)]
  split
  · rfl
  · rw [List.map_singleton, List.length_drop]
    congr 2
    omega

theorem length_le_of_mem_pieces {n : Nat} {xs p : List α} (hn : 0 < n) (hp : p ∈ pieces n xs) :
    p.length ≤ n := by
  have hmod := Nat.div_add_mod' xs.length n
  have hlt := Nat.mod_lt xs.length hn
  rcases List.mem_append.mp hp with hp | hp
  · have hlen := List.mem_map_of_mem (f := List.length) hp
    rw [map_length_chunks (by omega)] at hlen
    exact (List.eq_of_mem_replicate hlen).le
  · split at hp
    · simp at hp
    · rw [List.mem_singleton.mp hp, List.length_drop]
      omega

@[simp] theorem pieces_nil (n : Nat) : pieces n ([] : List α) = [] := by
  simp [pieces, chunks]

/-- A list that is not empty and no longer than one piece. -/
theorem pieces_of_length_lt {n : Nat} {xs : List α} (h0 : xs ≠ []) (h : xs.length < n) :
    pieces n xs = [xs] := by
  have hpos : xs.length ≠ 0 := by simpa using h0
  simp [pieces, Nat.div_eq_of_lt h, Nat.mod_eq_of_lt h, hpos, chunks]

/-- The first piece, when there is a full one. -/
theorem pieces_of_le_length {n : Nat} {xs : List α} (hn : 0 < n) (h : n ≤ xs.length) :
    pieces n xs = xs.take n :: pieces n (xs.drop n) := by
  obtain ⟨m, hm⟩ := Nat.exists_eq_add_of_le h
  have hdiv : xs.length / n = m / n + 1 := by rw [hm, Nat.add_div_left m hn]
  have hmod : xs.length % n = m % n := by rw [hm, Nat.add_mod_left]
  have hdrop : (xs.drop n).length = m := by simp [hm]
  rw [pieces, pieces, hdrop, hdiv, hmod, chunks, List.drop_drop, Nat.succ_mul,
    Nat.add_comm (m / n * n), List.cons_append]

/-- The last piece may be a full one. -/
theorem pieces_of_length_le {n : Nat} {xs : List α} (h0 : xs ≠ []) (h : xs.length ≤ n) :
    pieces n xs = [xs] := by
  rcases Nat.lt_or_eq_of_le h with hlt | heq
  · exact pieces_of_length_lt h0 hlt
  · have hpos : 0 < n := heq ▸ List.length_pos_iff.mpr h0
    rw [pieces_of_le_length hpos heq.ge, List.take_of_length_le h, List.drop_eq_nil_iff.mpr h,
      pieces_nil]

/-! ## offsets -/

/-- The offsets and lengths of `q` pieces of `n`, and of the `r` left over. -/
def chunkRanges (n r : Nat) : Nat → Nat → List (Nat × Nat)
  | 0, offset => [(offset, r)]
  | q + 1, offset => (offset, n) :: chunkRanges n r q (offset + n)

/-- The part of a buffer that a range stands for. -/
def slice (buf : List α) (range : Nat × Nat) : List α := (buf.drop range.1).take range.2

theorem flatten_slices (buf : List α) (n r q offset : Nat) :
    ((chunkRanges n r q offset).map (slice buf)).flatten =
      (buf.drop offset).take (q * n + r) := by
  induction q generalizing offset with
  | zero => simp [chunkRanges, slice]
  | succ q ih =>
      have hcount : (q + 1) * n + r = n + (q * n + r) := by rw [Nat.succ_mul]; omega
      rw [hcount, List.take_add, List.drop_drop, chunkRanges, List.map_cons, List.flatten_cons, ih,
        slice]

/-- The ranges meet every offset once, in order. -/
theorem flatMap_chunkRanges (n r q offset : Nat) :
    (chunkRanges n r q offset).flatMap (fun range => List.range' range.1 range.2) =
      List.range' offset (q * n + r) := by
  induction q generalizing offset with
  | zero => simp [chunkRanges]
  | succ q ih =>
      have hcount : (q + 1) * n + r = n + (q * n + r) := by rw [Nat.succ_mul]; omega
      rw [chunkRanges, List.flatMap_cons, ih, hcount, List.range'_append_1]

/-- Overwrite the elements of a buffer from an offset on. -/
def writeAt (buf : List α) (offset : Nat) (xs : List α) : List α :=
  buf.take offset ++ xs ++ buf.drop (offset + xs.length)

theorem length_writeAt {buf : List α} {offset : Nat} {xs : List α}
    (h : offset + xs.length ≤ buf.length) : (writeAt buf offset xs).length = buf.length := by
  unfold writeAt
  rw [List.length_append, List.length_append, List.length_take, List.length_drop,
    Nat.min_eq_left (by omega)]
  omega

/-- What is written stands behind what was there before. -/
theorem take_writeAt {buf : List α} {offset : Nat} (xs : List α) (h : offset ≤ buf.length) :
    (writeAt buf offset xs).take (offset + xs.length) = buf.take offset ++ xs := by
  unfold writeAt
  apply List.take_left'
  rw [List.length_append, List.length_take, Nat.min_eq_left h]

theorem writeAt_writeAt {buf : List α} {offset : Nat} (xs ys : List α)
    (h : offset ≤ buf.length) :
    writeAt (writeAt buf offset xs) (offset + xs.length) ys = writeAt buf offset (xs ++ ys) := by
  have hlen : (buf.take offset ++ xs).length = offset + xs.length := by
    rw [List.length_append, List.length_take, Nat.min_eq_left h]
  have hdrop : (buf.take offset ++ xs ++ buf.drop (offset + xs.length)).drop
      (offset + xs.length + ys.length) = buf.drop (offset + (xs ++ ys).length) := by
    rw [← List.drop_drop, List.drop_left' hlen, List.drop_drop, List.length_append, Nat.add_assoc]
  rw [writeAt, writeAt, hdrop, List.take_left' hlen, writeAt, List.append_assoc (buf.take offset)]

end Tilibs.Lib
