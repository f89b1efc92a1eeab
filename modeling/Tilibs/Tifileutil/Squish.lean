import Mathlib
import Tilibs.CalcModel
import Tilibs.Files.FileTypes
import Tilibs.Files.VarEntry
import Tilibs.Lib.Bytes

/-!
# Tilibs.Tifileutil.Squish

The `squish` and `unsquish` commands of tifileutil: a program given as hex text becomes
binary code behind the header of a shell, and back.

A stripper takes a header off the front of the data, or finds none.  `unsquish` does not
know which header it has before it; it asks one stripper after the other.
-/

namespace Tilibs.Tifileutil

open Lib Files

/-- The shells, in the order of the enumeration. -/
inductive Shell
  | none
  | ti82Crash | ti82Ace | ti82Ash | ti82Sng
  | ti73Mallard | ti73Nostub
  | ti83Ion | ti82Ashell | ti83Venus | ti83Ion83 | ti83Pse83 | ti83Ice | ti83Sos
  | ti83pTse | ti83pMirage
  deriving DecidableEq, Repr

/-! ## headers -/

/-- `squish_trailer`: the tokens of "End 0000 End". -/
def squishTrailer : List UInt8 := [0x3F, 0xD4, 0x3F, 0x30, 0x30, 0x30, 0x30, 0x3F, 0xD4]

/-- `squished_prefix_83p` -/
def squishedPrefix83p : List UInt8 := [0xBB, 0x6D]

/-- `squished_venus_magic` -/
def squishedVenusMagic : List UInt8 := [0xE7, 0x39, 0x5F, 0x5B, 0x56, 0x3F, 0x00]

/-- `squished_mallard_magic` -/
def squishedMallardMagic : List UInt8 := [0xD9, 0x00]

/-- `squished_nostub_prefix` -/
def squishedNostubPrefix : List UInt8 := [0x5F, 0x30, 0x30, 0x30, 0x30]

/-- `squished_send9_prefix` -/
def squishedSend9Prefix : List UInt8 := [0xE7, 0x39, 0x5F]

/-- `squished_asm_prefix` -/
def squishedAsmPrefix : List UInt8 := [0xBB, 0x6A, 0x5F]

/-- `squished_tail_stop` -/
def squishedTailStop : List UInt8 := [0x3F, 0xD9, 0x3F, 0x2A]

/-- `squished_tail_cllcd` -/
def squishedTailCllcd : List UInt8 := [0x3F, 0xE1]

/-- `squished_tse_magic` -/
def squishedTseMagic : List UInt8 := [0xC9, 0x54, 0x53, 0x45, 0x01]

/-- `squished_mirage_magic` -/
def squishedMirageMagic : List UInt8 := [0xC9, 0x01]

/-- `squished_mirage_modified` -/
def squishedMirageModified : List UInt8 := [0xC9, 0x03]

/-- `squished_ion_module` -/
def squishedIonModule : List UInt8 := [0xC9, 0x02]

/-- `squished_mirage_iconlen` -/
def squishedMirageIconlen : Nat := 30

/-- `squished_sos_module` -/
def squishedSosModule : List UInt8 := [0x00, 0x01]

/-- `ti82_squished_prefix` -/
def ti82SquishedPrefix : Shell → List UInt8
  | .ti82Ace => [0xD5, 0x00, 0xA0]
  | .ti82Ash => [0xD9, 0x00, 0x30]
  | .ti82Sng => [0x53, 0x4E, 0x47]
  | _ => [0xD5, 0x00, 0x11]

/-- The shells of the TI-83 "Send(9prgm" and TI-83+ "Asm prgm" families: name and tail. -/
def ti83xShells : List (List UInt8 × List UInt8) :=
  [([0x49, 0x4F, 0x4E, 0x5A], squishedTailStop), ([0x50, 0x53, 0x45, 0x5A], squishedTailStop),
    ([0x5A, 0x49, 0x43, 0x45], squishedTailCllcd),
    ([0x5A, 0x53, 0x4F, 0x53, 0x4C], squishedTailCllcd)]

/-- `ti83x_shell_name`, with the tail. -/
def ti83xShellName : Shell → List UInt8 × List UInt8
  | .ti83Ion83 => ([0x49, 0x4F, 0x4E, 0x5A], squishedTailStop)
  | .ti83Pse83 => ([0x50, 0x53, 0x45, 0x5A], squishedTailStop)
  | .ti83Ice => ([0x5A, 0x49, 0x43, 0x45], squishedTailCllcd)
  | _ => ([0x5A, 0x53, 0x4F, 0x53, 0x4C], squishedTailCllcd)

/-- The tokens before the shell's name. -/
def ti83xPrefix (model : CalcModel) : List UInt8 :=
  if model = .ti83 then squishedSend9Prefix else squishedAsmPrefix

/-! ## strippers -/

/-- `memchr` for a NUL: its index. -/
def memchrNul (bs : List UInt8) : Option Nat := bs.findIdx? (· == 0)

/-- `ti82_strip_marker_and_name` -/
def ti82StripMarkerAndName (data : List UInt8) : Option (List UInt8) :=
  let markers := [Shell.ti82Crash, .ti82Ace, .ti82Ash, .ti82Sng].map ti82SquishedPrefix
  if markers.any fun marker => marker.isPrefixOf data then
    match memchrNul (data.drop 3) with
    | some i => some (data.drop (3 + i + 1))
    | none => some (data.drop 3)
  else none

/-- The marker before an Ion header is skipped. -/
def skipIonMarker (data : List UInt8) : List UInt8 :=
  if data.length ≥ 6 ∧ data.getD 0 0 = 0xBB ∧ (data.getD 2 0 = 0xC9 ∨ data.getD 2 0 = 0xAF)
      ∧ data.getD 3 0 = 0x30 then data.drop 2
  else data

/-- `ion_strip` -/
def ionStrip (data : List UInt8) : Option (List UInt8) :=
  let ip := skipIonMarker data
  if ip.length ≥ 4 ∧ (ip.getD 0 0 = 0xC9 ∨ ip.getD 0 0 = 0xAF) ∧ ip.getD 1 0 = 0x30 then
    match memchrNul (ip.drop 3) with
    | some i => if 3 + i < 3 + (ip.getD 2 0).toNat then some (ip.drop (3 + i + 1)) else none
    | none => none
  else none

/-- `mallard_strip` -/
def mallardStrip (data : List UInt8) : Option (List UInt8) :=
  if data.length ≥ 8 ∧ squishedMallardMagic.isPrefixOf data then
    (memchrNul (data.drop 8)).map fun i => data.drop (8 + i + 1)
  else none

/-- A decimal digit. -/
def isDecimal (c : UInt8) : Bool := 0x30 ≤ c && c ≤ 0x39

/-- `nostub_strip`: the type and what follows the header. -/
def nostubStrip (data : List UInt8) : Option (UInt8 × List UInt8) :=
  if data.length ≥ 10 ∧ squishedNostubPrefix.isPrefixOf data
      ∧ (data.getD 5 0 = 0x30 ∨ data.getD 5 0 = 0x31) ∧ isDecimal (data.getD 6 0)
      ∧ isDecimal (data.getD 7 0) ∧ isDecimal (data.getD 8 0) ∧ data.getD 9 0 = 0x3F then
    some (data.getD 5 0, data.drop 10)
  else none

/-- `ti83x_strip_shell` -/
def ti83xStripShell (model : CalcModel) (data : List UInt8) : Option (List UInt8) :=
  let headers := ti83xShells.map fun shell => ti83xPrefix model ++ shell.1 ++ shell.2
  (headers.find? fun header => header.isPrefixOf data).map fun header => data.drop header.length

/-- `tse_strip` -/
def tseStrip (data : List UInt8) : Option (List UInt8) :=
  if data.length ≥ 5 + 3 ∧ squishedTseMagic.isPrefixOf data then
    match memchrNul (data.drop 5) with
    | some i => if 5 + i + 3 ≤ data.length then some (data.drop (5 + i + 3)) else none
    | none => none
  else none

/-- `ti83p_strip_shell` -/
def ti83pStripShell (data : List UInt8) : Option (List UInt8) :=
  if data.length ≥ 2 + squishedMirageIconlen + 2 ∧ squishedMirageMagic.isPrefixOf data then
    (memchrNul (data.drop (2 + squishedMirageIconlen))).map fun i =>
      data.drop (2 + squishedMirageIconlen + i + 1)
  else if data.length ≥ 2 + squishedMirageIconlen + 2 + 2
      ∧ squishedMirageModified.isPrefixOf data then
    (memchrNul (data.drop (2 + squishedMirageIconlen + 2))).map fun i =>
      data.drop (2 + squishedMirageIconlen + 2 + i + 1)
  else if squishedIonModule.isPrefixOf data then some (data.drop 2)
  else none

/-- `sos_module_strip` -/
def sosModuleStrip (data : List UInt8) : Option (List UInt8) :=
  if squishedSosModule.isPrefixOf data then some (data.drop 2) else none

/-- The title of an ASHELL83 program is cut out of what follows the header. -/
def cutTitle (rest : List UInt8) (titleoff : Nat) : List UInt8 :=
  if titleoff < rest.length then
    match memchrNul (rest.drop titleoff) with
    | some i => rest.take titleoff ++ rest.drop (titleoff + i + 1)
    | none => rest
  else rest

/-- The ASHELL83 branch of `ti83_strip_shell`; the title's offset is a 32-bit number. -/
def ashellStrip (data : List UInt8) : Option (List UInt8) :=
  let codeoff := 3 + (data.getD 2 0).toNat
  let titleptr := getLE [data.getD 5 0, data.getD 6 0]
  let titleoff :=
    if titleptr ≥ 0x9327 + 0x48 then
      (titleptr + 2 ^ 32 - 0x9327 - 0x48 - 2 - codeoff) % 2 ^ 32
    else 0
  if codeoff > data.length then none else some (cutTitle (data.drop codeoff) titleoff)

/-- The Venus branch of `ti83_strip_shell`, after the magic: the description is optional. -/
def venusDescription (data : List UInt8) : List UInt8 :=
  if data.length ≥ 3 ∧ data.getD 0 0 = 0x30 then
    match memchrNul (data.drop 2) with
    | some i => if 2 + i < 2 + (data.getD 1 0).toNat then data.drop (2 + i + 1) else data
    | none => data
  else data

/-- `ti83_strip_shell` -/
def ti83StripShell (data : List UInt8) : Option (List UInt8) :=
  if data.length ≥ 7 ∧ data.getD 0 0 = 0x00 ∧ data.getD 1 0 = 0x18 then ashellStrip data
  else if squishedVenusMagic.isPrefixOf data then some (venusDescription (data.drop 7))
  else
    match ti83xStripShell .ti83 data with
    | some rest => some rest
    | none =>
        if squishedIonModule.isPrefixOf data then some (data.drop 2) else sosModuleStrip data

/-! ## models -/

/-- `squish_model_supported` -/
def squishModelSupported (model : CalcModel) : Bool :=
  model == .ti73 || model == .ti82 || model == .ti83
    || model == .ti83p || model == .ti84p || model == .ti84pUsb || model == .ti82aUsb
    || model == .ti84ptUsb || model == .ti84pc || model == .ti84pcUsb
    || model == .ti83pceUsb || model == .ti84pceUsb

/-- `squished_prefix` -/
def squishedPrefix (model : CalcModel) : List UInt8 :=
  if model = .ti73 ∨ model = .ti83 then []
  else if model = .ti82 then ti82SquishedPrefix .ti82Crash
  else if model = .ti83p ∨ model = .ti84p then squishedPrefix83p
  else if model = .ti84pc then [0xEF, 0x69]
  else [0xEF, 0x7B]

/-- `squish_uses_trailer` -/
def squishUsesTrailer (model : CalcModel) : Bool := model == .ti73 || model == .ti83

/-- The shells that a model accepts, and the default on the TI-82. -/
def acceptShell (model : CalcModel) (shell : Shell) : Option Shell :=
  if model = .ti82 then
    if shell = .none then some .ti82Crash
    else if shell ∈ [Shell.ti82Crash, .ti82Ace, .ti82Ash, .ti82Sng] then some shell else none
  else if model = .ti83 then
    if shell ∈ [Shell.none, .ti83Ion, .ti82Ashell, .ti83Venus, .ti83Ion83, .ti83Pse83, .ti83Ice,
        .ti83Sos] then some shell else none
  else if model = .ti73 then
    if shell ∈ [Shell.none, .ti73Mallard, .ti73Nostub] then some shell else none
  else if shell ∈ [Shell.none, .ti83Ion, .ti83Ion83, .ti83Pse83, .ti83Ice, .ti83pTse,
      .ti83pMirage] then some shell
  else none

/-- The shells whose header has no description. -/
def noDescription (shell : Shell) : Bool :=
  shell ∈ [Shell.none, .ti73Nostub, .ti83Ion83, .ti83Pse83, .ti83Ice, .ti83Sos]

/-- Whether `ti8x_file_write_regular` accepts an entry of this size, alone in its file. -/
def fitsFile (model : CalcModel) (size : Nat) : Bool :=
  size + (if model = .ti73 ∨ model = .ti82 ∨ model = .ti83 then 15 else 17) ≤ 65535

/-! ## hex text -/

/-- `hex_nibble` -/
def hexNibble (c : UInt8) : Option UInt8 :=
  if 0x30 ≤ c ∧ c ≤ 0x39 then some (c - 0x30)
  else if 0x61 ≤ c ∧ c ≤ 0x66 then some (c - 0x61 + 10)
  else if 0x41 ≤ c ∧ c ≤ 0x46 then some (c - 0x41 + 10)
  else none

/-- The conversion of hex text to binary, refused for an odd number of digits. -/
def hexDecode : List UInt8 → Option (List UInt8)
  | [] => some []
  | [_] => none
  | hi :: lo :: text => do
      let h ← hexNibble hi
      let l ← hexNibble lo
      let code ← hexDecode text
      return (h <<< 4 ||| l) :: code

/-- The digit of a nibble, in upper case. -/
def hexDigit (n : UInt8) : UInt8 := if n < 10 then 0x30 + n else 0x41 + (n - 10)

/-- `hex_encode`, in upper case. -/
def hexEncode : List UInt8 → List UInt8
  | [] => []
  | b :: bs => hexDigit (b >>> 4) :: hexDigit (b &&& 0xF) :: hexEncode bs

/-! ## squish -/

/-- The length field is skipped: the length of the rest or of the whole data. -/
def skipLength (data : List UInt8) : List UInt8 :=
  let word := getLE (data.take 2)
  if data.length ≥ 2 ∧ (word = data.length - 2 ∨ word = data.length) then data.drop 2 else data

/-- The trailer of a TI-73 or TI-83 program is dropped, if there is one. -/
def dropTrailer (model : CalcModel) (data : List UInt8) : List UInt8 :=
  if squishUsesTrailer model && squishTrailer.isSuffixOf data then
    data.take (data.length - squishTrailer.length)
  else data

/-- The leading header of a TI-73 nostub program is dropped; a program that is already
binary is refused. -/
def dropNostub (model : CalcModel) (data : List UInt8) : Option (List UInt8) :=
  if model = .ti73 then
    match nostubStrip data with
    | some (type, rest) => if type = 0x31 then none else some rest
    | none => some data
  else some data

/-- The squished program without its length field; the description's length is a byte in
some headers, and the title's address two bytes. -/
def squishedBody (model : CalcModel) (shell : Shell) (desc code : List UInt8) : List UInt8 :=
  if model = .ti82 then ti82SquishedPrefix shell ++ desc ++ [0x00] ++ code
  else if shell = .ti83Ion then
    squishedPrefix model ++ [0xC9, 0x30, UInt8.ofNat (desc.length + 1)] ++ desc ++ [0x00] ++ code
  else if model = .ti83 ∧ shell = .ti82Ashell then
    [0x00, 0x18, 0x04, 0x00, 0x00] ++ putLE 2 (0x9327 + 0x48 + 2 + 7 + code.length) ++ code ++ desc
      ++ [0x00]
  else if model = .ti83 ∧ shell = .ti83Venus then
    squishedVenusMagic ++ [0x30, UInt8.ofNat (desc.length + 1)] ++ desc ++ [0x00] ++ code
  else if model = .ti73 ∧ shell = .ti73Mallard then
    squishedMallardMagic ++ [0x44, 0x75, 0x63, 0x6B]
      ++ putLE 2 (0x9C37 + 2 + 4 + 2 + desc.length + 1) ++ desc ++ [0x00] ++ code
  else if model = .ti73 ∧ shell = .ti73Nostub then
    squishedNostubPrefix ++ [0x31, 0x30 + UInt8.ofNat (code.length / 100 % 10),
      0x30 + UInt8.ofNat (code.length / 10 % 10), 0x30 + UInt8.ofNat (code.length % 10), 0x3F]
      ++ code
  else if shell ∈ [Shell.ti83Ion83, .ti83Pse83, .ti83Ice, .ti83Sos] then
    ti83xPrefix model ++ (ti83xShellName shell).1 ++ (ti83xShellName shell).2 ++ code
  else if shell = .ti83pTse then
    squishedPrefix83p ++ squishedTseMagic ++ [0x20] ++ desc ++ [0x00] ++ [0x00, 0x00] ++ code
  else if shell = .ti83pMirage then
    squishedPrefix83p ++ squishedMirageMagic ++ List.replicate squishedMirageIconlen 0x00 ++ desc
      ++ [0x00] ++ code
  else squishedPrefix model ++ code

/-- `tifileutil_squish` of a file with one program: the entry that is written. -/
def tifileutilSquish (model : CalcModel) (shell : Shell) (longname : Option (List UInt8))
    (ve : VarEntry) : Option VarEntry := do
  guard (squishModelSupported model)
  let shell ← acceptShell model shell
  guard ¬(longname.isSome ∧ noDescription shell)
  guard (ve.type = 0x05 ∨ ve.type = 0x06)
  let text ← dropNostub model
    (dropTrailer model (skipLength ((ve.data.getD []).take ve.size.toNat)))
  let code ← hexDecode text
  guard ¬(model = .ti73 ∧ shell = .ti73Nostub ∧ code.length > 999)
  let body := squishedBody model shell (longname.getD ve.name.chars) code
  let newdata := putLE 2 body.length ++ body
  guard (fitsFile model newdata.length)
  return { ve with type := 0x06, size := UInt32.ofNat newdata.length, data := some newdata }

/-! ## unsquish -/

/-- The marker and the headers of a program are stripped; the type of a nostub program is
known after that. -/
def stripHeader (model : CalcModel) (data : List UInt8) : List UInt8 × Option UInt8 :=
  let stripPrefix :=
    if squishedPrefix model ≠ [] ∧ (squishedPrefix model).isPrefixOf data then
      data.drop (squishedPrefix model).length
    else data
  if model = .ti82 then ((ti82StripMarkerAndName data).getD stripPrefix, none)
  else if model = .ti83 then ((ti83StripShell data).getD stripPrefix, none)
  else if model = .ti73 then
    match mallardStrip data with
    | some rest => (rest, none)
    | none =>
        match nostubStrip data with
        | some (type, rest) => (rest, some type)
        | none => (stripPrefix, none)
  else (stripPrefix, none)

/-- A stripper that keeps the data when it finds no header. -/
def orKeep (strip : List UInt8 → Option (List UInt8)) (data : List UInt8) : List UInt8 :=
  (strip data).getD data

/-- The headers of the TI-83+ shells. -/
def stripTi83pShells (model : CalcModel) (data : List UInt8) : List UInt8 :=
  if model ≠ .ti73 ∧ model ≠ .ti82 ∧ model ≠ .ti83 then
    orKeep ti83pStripShell (orKeep tseStrip (orKeep (ti83xStripShell .ti83p) data))
  else data

/-- The header of an Ion program. -/
def stripIon (model : CalcModel) (data : List UInt8) : List UInt8 :=
  if model ≠ .ti82 ∧ data.length ≥ 4 then orKeep ionStrip data else data

/-- `tifileutil_unsquish` of a file with one TI-Z80 program: the entry that is written. -/
def tifileutilUnsquish (model : CalcModel) (ve : VarEntry) : Option VarEntry := do
  guard (squishModelSupported model)
  guard (ve.type = 0x05 ∨ ve.type = 0x06)
  let (rest, nostubType) := stripHeader model (skipLength ((ve.data.getD []).take ve.size.toNat))
  let code := dropTrailer model (stripIon model (stripTi83pShells model rest))
  -- the payload of an unsquished nostub program is hex text already
  let hex := if nostubType = some 0x30 then code else hexEncode code
  let trailer := if squishUsesTrailer model then squishTrailer else []
  let newdata := putLE 2 (hex ++ trailer).length ++ (hex ++ trailer)
  guard (fitsFile model newdata.length)
  return { ve with type := 0x05, size := UInt32.ofNat newdata.length, data := some newdata }

end Tilibs.Tifileutil
