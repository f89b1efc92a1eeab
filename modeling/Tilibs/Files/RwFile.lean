import Mathlib
import Tilibs.Lib.Bytes
import Tilibs.Lib.Stdio

/-!
# Tilibs.Files.RwFile

The reading and writing helpers of `rwfile.h` and `rwfile.cc`.  A writer's output
is the list of the bytes it puts into the file; a reader works on an open file.
-/

namespace Tilibs.Files

open Lib

/-- Error codes of libtifiles; `nullPointer` stands for the crash on a NULL string. -/
inductive TifilesErr
  | fileIo
  | invalidFile
  | groupSize
  | nullPointer
  deriving DecidableEq, Repr

/-- A reader of a file; a short read is `ERR_FILE_IO`. -/
abbrev FileReader (α : Type) : Type := Proc InFile TifilesErr α

/-! ## writing -/

/-- `fwrite_byte` -/
def fwriteByte (b : UInt8) : List UInt8 := [b]

/-- `fwrite_word` -/
def fwriteWord (n : Nat) : List UInt8 := putLE 2 n

/-- `fwrite_long` -/
def fwriteLong (n : Nat) : List UInt8 := putLE 4 n

/-- `fwrite_n_chars`: NUL-padded, and refused when the string is too long. -/
def fwriteNChars (n : Nat) (s : List UInt8) : Except TifilesErr (List UInt8) :=
  if n < s.length then .error .fileIo else .ok (padRight n 0 s)

/-! ## reading -/

/-- `fread` of `n` bytes -/
def freadBytes (n : Nat) : FileReader (List UInt8) := fread .fileIo n

/-- `fread_byte` -/
def freadByte : FileReader UInt8 := do return (← freadBytes 1).headI

/-- `fread_word` -/
def freadWord : FileReader Nat := do return getLE (← freadBytes 2)

/-- `fread_long` -/
def freadLong : FileReader Nat := do return getLE (← freadBytes 4)

/-- `fread_n_chars`: the string in the field. -/
def freadNChars (n : Nat) : FileReader (List UInt8) := do return cstr (← freadBytes n)

theorem consumes_freadBytes {n : Nat} {field : List UInt8} (h : field.length = n) :
    Consumes (freadBytes n) field field := by
  unfold freadBytes
  exact Consumes.fread TifilesErr.fileIo h

theorem consumes_freadByte (b : UInt8) : Consumes freadByte (fwriteByte b) b :=
  (consumes_freadBytes rfl).bind_pure (Consumes.pure _)

theorem consumes_freadWord {n : Nat} (h : n < 2 ^ 16) : Consumes freadWord (fwriteWord n) n := by
  have hread := (consumes_freadBytes (length_putLE 2 n)).bind_pure
    (k := fun field => pure (getLE field)) (Consumes.pure _)
  rwa [getLE_putLE (by omega)] at hread

theorem consumes_freadLong {n : Nat} (h : n < 2 ^ 32) : Consumes freadLong (fwriteLong n) n := by
  have hread := (consumes_freadBytes (length_putLE 4 n)).bind_pure
    (k := fun field => pure (getLE field)) (Consumes.pure _)
  rwa [getLE_putLE (by omega)] at hread

theorem consumes_freadNChars {n : Nat} {field : List UInt8} (h : field.length = n) :
    Consumes (freadNChars n) field (cstr field) :=
  (consumes_freadBytes h).bind_pure (Consumes.pure _)

/-- A string that fits its field comes back. -/
theorem consumes_fwriteNChars {n : Nat} {s : List UInt8} (hfit : s.length ≤ n)
    (hnul : ∀ b ∈ s, b ≠ 0) : Consumes (freadNChars n) (padRight n 0 s) s := by
  have hread := consumes_freadNChars (length_padRight (c := 0) hfit)
  rwa [cstr_padRight hnul] at hread

theorem movesOn_freadByte : MovesOn 1 freadByte :=
  (MovesOn.fread TifilesErr.fileIo 1).bind fun _ => MovesOn.pure _

theorem movesOn_freadWord : MovesOn 2 freadWord :=
  (MovesOn.fread TifilesErr.fileIo 2).bind fun _ => MovesOn.pure _

@[simp] theorem length_fwriteByte (b : UInt8) : (fwriteByte b).length = 1 := rfl

@[simp] theorem length_fwriteWord (n : Nat) : (fwriteWord n).length = 2 := length_putLE 2 n

@[simp] theorem length_fwriteLong (n : Nat) : (fwriteLong n).length = 4 := length_putLE 4 n

end Tilibs.Files
