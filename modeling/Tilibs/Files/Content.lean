import Mathlib
import Tilibs.CalcModel
import Tilibs.Files.VarEntry

/-!
# Tilibs.Files.Content

The content of a single or group file, `FileContent` of `tifiles.h`: an allocated
array of pointers to entries, and the number of entries in it.
-/

namespace Tilibs.Files

open Lib

/-- `FileContent`; `entries` is NULL or the allocated array, slot by slot. -/
structure FileContent where
  model : CalcModel
  defaultFolder : VarName
  comment : Buf 43
  numEntries : UInt32
  entries : Option (List (Option VarEntry))
  checksum : UInt16
  modelDst : CalcModel
  storedChecksum : UInt16
  deriving DecidableEq

/-- The first `n` slots, if there are as many and none of them is NULL. -/
def firstEntries : Nat → List (Option VarEntry) → Option (List VarEntry)
  | 0, _ => some []
  | n + 1, some e :: slots => (firstEntries n slots).map (e :: ·)
  | _ + 1, _ => none

/-- The entries that a loop over `num_entries` slots finds; `none` when it would run
into a NULL slot or past the array. -/
def FileContent.entryList (content : FileContent) : Option (List VarEntry) :=
  firstEntries content.numEntries.toNat (content.entries.getD [])

theorem firstEntries_map_some (es : List VarEntry) (slots : List (Option VarEntry)) :
    firstEntries es.length (es.map some ++ slots) = some es := by
  induction es with
  | nil => rfl
  | cons e es ih => simp [firstEntries, ih]

/-- An entry whose buffer has the `size` bytes that it says. -/
def VarEntry.Sized (e : VarEntry) : Prop := (e.data.getD []).length = e.size.toNat

end Tilibs.Files
