import Mathlib

/-!
# Tilibs.Lib.TextLines

A text that is read line by line into a buffer of fixed size (`fgets`).  A line that has no room
comes in pieces, so that what is read has one piece for each line exactly where every line is one
and fits (`length_readLines_eq_iff`).
-/

namespace Tilibs.Lib

variable {α : Type} [DecidableEq α]

/-- The pieces of a text that is read until its end; a piece ends with a line, or when it has
`cap` elements.  The first elements of the next piece are already there. -/
def readLines (nl : α) (cap : Nat) (piece : List α) : List α → List (List α)
  | [] => if piece = [] then [] else [piece]
  | a :: text =>
      if a = nl ∨ (piece ++ [a]).length = cap then (piece ++ [a]) :: readLines nl cap [] text
      else readLines nl cap (piece ++ [a]) text

/-- Lines with their ends. -/
def joinLines (nl : α) (lines : List (List α)) : List α := lines.flatMap (· ++ [nl])

/-- A line is one, and has room in a piece. -/
def FitsLine (nl : α) (cap : Nat) (line : List α) : Prop := nl ∉ line ∧ line.length < cap

variable {nl : α} {cap : Nat}

/-- The end of a line is the end of a piece. -/
theorem readLines_append (piece line rest : List α) :
    readLines nl cap piece (line ++ nl :: rest)
      = readLines nl cap piece (line ++ [nl]) ++ readLines nl cap [] rest := by
  induction line generalizing piece with
  | nil => simp [readLines]
  | cons a line ih =>
      simp only [List.cons_append, readLines]
      split
      · rw [ih, List.cons_append]
      · exact ih _

theorem readLines_joinLines (lines : List (List α)) :
    readLines nl cap [] (joinLines nl lines)
      = lines.flatMap fun line => readLines nl cap [] (line ++ [nl]) := by
  induction lines with
  | nil => rfl
  | cons line lines ih =>
      rw [joinLines, List.flatMap_cons, List.append_assoc, List.singleton_append,
        readLines_append, List.flatMap_cons]
      exact congrArg _ ih

theorem one_le_length_readLines (piece line : List α) :
    1 ≤ (readLines nl cap piece (line ++ [nl])).length := by
  induction line generalizing piece with
  | nil => simp [readLines]
  | cons a line ih =>
      simp only [List.cons_append, readLines]
      split
      · exact Nat.succ_le_succ (Nat.zero_le _)
      · exact ih _

/-- A line that fits is one piece. -/
theorem readLines_of_fits {piece line : List α} (hline : nl ∉ line)
    (hroom : (piece ++ line).length < cap) :
    readLines nl cap piece (line ++ [nl]) = [piece ++ (line ++ [nl])] := by
  induction line generalizing piece with
  | nil => simp [readLines]
  | cons a line ih =>
      obtain ⟨ha, hline⟩ := not_or.mp (mt List.mem_cons.mpr hline)
      rw [List.append_cons] at hroom
      have hgoes : ¬(a = nl ∨ (piece ++ [a]).length = cap) := by
        rw [List.length_append] at hroom
        rintro (hnl | hfull)
        · exact ha hnl.symm
        · omega
      rw [List.cons_append, readLines, if_neg hgoes, ih hline hroom, List.append_assoc,
        List.singleton_append]

/-- A line is one piece only where it fits. -/
theorem fits_of_length_readLines {piece line : List α} (hpiece : piece.length < cap)
    (h : (readLines nl cap piece (line ++ [nl])).length = 1) :
    nl ∉ line ∧ (piece ++ line).length < cap := by
  induction line generalizing piece with
  | nil => simpa using hpiece
  | cons a line ih =>
      rw [List.cons_append, readLines] at h
      split at h
      · have hrest := @one_le_length_readLines α _ nl cap [] line
        rw [List.length_cons] at h
        omega
      · rename_i hgoes
        obtain ⟨hnl, hfull⟩ := not_or.mp hgoes
        have hnext : (piece ++ [a]).length < cap := by
          rw [List.length_append, List.length_singleton] at hfull ⊢
          omega
        obtain ⟨hline, hroom⟩ := ih hnext h
        rw [List.append_cons]
        exact ⟨mt List.mem_cons.mp (not_or.mpr ⟨Ne.symm hnl, hline⟩), hroom⟩

/-- What is read has one piece for each line exactly if every line fits. -/
theorem length_readLines_eq_iff (hcap : 0 < cap) (lines : List (List α)) :
    (readLines nl cap [] (joinLines nl lines)).length = lines.length
      ↔ ∀ line ∈ lines, FitsLine nl cap line := by
  rw [readLines_joinLines]
  have hle : ∀ ls : List (List α),
      ls.length ≤ (ls.flatMap fun line => readLines nl cap [] (line ++ [nl])).length := by
    intro ls
    induction ls with
    | nil => simp
    | cons line ls ih =>
        have hone := @one_le_length_readLines α _ nl cap [] line
        rw [List.flatMap_cons, List.length_append, List.length_cons]
        omega
  induction lines with
  | nil => simp
  | cons line lines ih =>
      have hone := @one_le_length_readLines α _ nl cap [] line
      have hrest := hle lines
      rw [List.flatMap_cons, List.length_append, List.length_cons, List.forall_mem_cons]
      constructor
      · intro h
        have hlength : (readLines nl cap [] (line ++ [nl])).length = 1 := by omega
        exact ⟨fits_of_length_readLines hcap hlength, ih.mp (by omega)⟩
      · rintro ⟨hfits, h⟩
        rw [readLines_of_fits hfits.1 hfits.2, List.length_singleton, ih.mpr h]
        omega

/-- Lines that fit come back. -/
theorem readLines_of_forall_fits {lines : List (List α)} (h : ∀ line ∈ lines, FitsLine nl cap line) :
    readLines nl cap [] (joinLines nl lines) = lines.map (· ++ [nl]) := by
  rw [readLines_joinLines]
  induction lines with
  | nil => rfl
  | cons line lines ih =>
      obtain ⟨hline, hlines⟩ := List.forall_mem_cons.mp h
      rw [List.flatMap_cons, List.map_cons, ih hlines, readLines_of_fits hline.1 hline.2]
      rfl

end Tilibs.Lib
