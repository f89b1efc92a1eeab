import Mathlib
import Tilibs.Lib.Bytes

/-!
# Tilibs.Lib.OutFile

Writing to a file or a memory at a position: what is there is overwritten, and what lies between
the end and the position is filled with zeros.
-/

namespace Tilibs.Lib

/-- The bytes after `data` was written at a position. -/
def fwriteAt (pos : Nat) (data bytes : List UInt8) : List UInt8 :=
  if data = [] then bytes
  else padRight pos 0 (bytes.take pos) ++ data ++ bytes.drop (pos + data.length)

/-- Writing within the bytes or at their end. -/
theorem fwriteAt_of_le {pos : Nat} {bytes : List UInt8} (h : pos ≤ bytes.length)
    (data : List UInt8) :
    fwriteAt pos data bytes = bytes.take pos ++ data ++ bytes.drop (pos + data.length) := by
  unfold fwriteAt
  split
  · rename_i hnil
    rw [hnil, List.append_nil, List.length_nil, Nat.add_zero, List.take_append_drop]
  · have hfull : padRight pos 0 (bytes.take pos) = bytes.take pos := by
      rw [padRight, List.length_take, Nat.min_eq_left h, Nat.sub_self, List.replicate_zero,
        List.append_nil]
    rw [hfull]

/-- Writing at the end appends. -/
theorem fwriteAt_end {pos : Nat} {bytes : List UInt8} (h : pos = bytes.length)
    (data : List UInt8) : fwriteAt pos data bytes = bytes ++ data := by
  rw [fwriteAt_of_le h.le, h, List.take_length, List.drop_eq_nil_of_le (Nat.le_add_right _ _),
    List.append_nil]

theorem length_fwriteAt {data : List UInt8} (hne : data ≠ []) (pos : Nat) (bytes : List UInt8) :
    (fwriteAt pos data bytes).length = max bytes.length (pos + data.length) := by
  have hle : (bytes.take pos).length ≤ pos := by
    rw [List.length_take]
    exact Nat.min_le_left _ _
  unfold fwriteAt
  rw [if_neg hne, List.length_append, List.length_append, length_padRight hle, List.length_drop]
  omega

/-- What lies before the position stays. -/
theorem getElem?_fwriteAt_before {pos i : Nat} {bytes : List UInt8} (data : List UInt8)
    (hi : i < pos) (hlen : i < bytes.length) : (fwriteAt pos data bytes)[i]? = bytes[i]? := by
  unfold fwriteAt
  split
  · rfl
  · have hin : i < (bytes.take pos).length := by
      rw [List.length_take]
      omega
    rw [List.append_assoc, padRight, List.append_assoc, List.getElem?_append_left hin,
      List.getElem?_take_of_lt hi]

/-- What was written is there. -/
theorem getElem?_fwriteAt_in {pos i : Nat} {data : List UInt8} (bytes : List UInt8)
    (hi : i < data.length) : (fwriteAt pos data bytes)[pos + i]? = data[i]? := by
  have hne : data ≠ [] := List.ne_nil_of_length_pos (by omega)
  have hle : (bytes.take pos).length ≤ pos := by
    rw [List.length_take]
    exact Nat.min_le_left _ _
  have hpad := length_padRight (c := 0) hle
  unfold fwriteAt
  rw [if_neg hne, List.append_assoc, List.getElem?_append_right (by omega), hpad,
    Nat.add_sub_cancel_left, List.getElem?_append_left hi]

/-- What lies behind stays. -/
theorem getElem?_fwriteAt_behind {pos i : Nat} {data : List UInt8} (bytes : List UInt8)
    (hi : pos + data.length ≤ i) : (fwriteAt pos data bytes)[i]? = bytes[i]? := by
  unfold fwriteAt
  split
  · rfl
  · have hle : (bytes.take pos).length ≤ pos := by
      rw [List.length_take]
      exact Nat.min_le_left _ _
    have hpad := length_padRight (c := 0) hle
    have hlen : (padRight pos 0 (bytes.take pos) ++ data).length = pos + data.length := by
      rw [List.length_append, hpad]
    rw [List.getElem?_append_right (by omega), hlen, List.getElem?_drop]
    congr 1
    omega

/-- A file that is written: its bytes and the position of the next write. -/
structure OutFile where
  bytes : List UInt8
  pos : Nat

namespace OutFile

/-- `fwrite` -/
def write (f : OutFile) (data : List UInt8) : OutFile :=
  ⟨fwriteAt f.pos data f.bytes, f.pos + data.length⟩

/-- `fseek` from the current position, which fails before the start of the file. -/
def seekCur (f : OutFile) (offset : Int) : Option OutFile :=
  if (f.pos : Int) + offset < 0 then none else some { f with pos := (f.pos + offset).toNat }

/-- `fseek` from the start of the file -/
def seekSet (f : OutFile) (pos : Nat) : OutFile := { f with pos }

/-- Writing at the end of the file. -/
theorem write_end {f : OutFile} (h : f.pos = f.bytes.length) (data : List UInt8) :
    f.write data = ⟨f.bytes ++ data, f.pos + data.length⟩ := by
  rw [write, fwriteAt_end h]

end OutFile

end Tilibs.Lib
