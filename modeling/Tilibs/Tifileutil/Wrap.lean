import Mathlib
import Tilibs.CalcModel
import Tilibs.Files.FileTypes
import Tilibs.Files.VarEntry

/-!
# Tilibs.Tifileutil.Wrap

The `wrap` and deep `unwrap` commands of tifileutil, as far as they concern the data
of a variable.  `wrap` builds the variable's own envelope around the bytes of a file;
`unwrap_deep_entry` takes it off again.

The options, the model and the type are taken as they are after the command line has
been read.
-/

namespace Tilibs.Tifileutil

open Lib Files

/-! ## types -/

/-- `TI89_TEXT` -/
def ti89Text : UInt8 := 0x0B

/-- `TI89_STR` -/
def ti89Str : UInt8 := 0x0C

/-- `TI89_PIC` -/
def ti89Pic : UInt8 := 0x10

/-- `TI89_OTH` -/
def ti89Oth : UInt8 := 0x1C

/-- `TI89_ASM` -/
def ti89Asm : UInt8 := 0x21

/-- `TI83p_ASM` -/
def ti83pAsm : UInt8 := 0x06

/-- `TI83p_APPV`, which is `TI84p_APPV` too. -/
def ti83pAppv : UInt8 := 0x15

/-- `type_has_length` -/
def typeHasLength (model : CalcModel) (typeId : UInt8) : Bool :=
  if !ticonvModelIsTiz80 model && !ticonvModelIsTiez80 model then false
  else if model = .ti85 ∨ model = .ti86 then
    typeId == 0x0A || typeId == 0x0C || typeId == 0x11 || typeId == 0x12
  else if model = .ti82 ∨ model = .ti83 then
    typeId == 0x03 || typeId == 0x04 || typeId == 0x05 || typeId == 0x06 || typeId == 0x07
  else if model = .ti73 then
    typeId == 0x03 || typeId == 0x04 || typeId == 0x05 || typeId == 0x06 || typeId == 0x07
      || typeId == 0x1A
  else
    typeId == 0x03 || typeId == 0x04 || typeId == 0x05 || typeId == 0x06 || typeId == 0x07
      || typeId == 0x15

/-- `type_is_ti68k_oth` -/
def typeIsTi68kOth (model : CalcModel) (typeId : UInt8) : Bool :=
  (model == .ti89 || model == .ti92p || model == .v200 || model == .ti89t || model == .ti89tUsb)
    && typeId == ti89Oth

/-! ## wrap -/

/-- The options that concern the data; the extension is the empty string when there is none. -/
structure WrapOptions where
  rawmode : Bool
  packpython : Bool
  extensionstr : List UInt8

/-- The UTF-8 byte order mark at the start of a script is dropped. -/
def stripBom : List UInt8 → List UInt8
  | 0xEF :: 0xBB :: 0xBF :: script => script
  | script => script

/-- The lines of a text: a type byte before each, a carriage return for each of its line
breaks. The flag says whether a line starts here. -/
def wrapLines : Bool → List UInt8 → List UInt8
  | _, [] => []
  | start, 0x0D :: 0x0A :: cs => (if start then [0x20] else []) ++ 0x0D :: wrapLines true cs
  | start, c :: cs =>
      (if start then [0x20] else [])
        ++ if c = 0x0D ∨ c = 0x0A then 0x0D :: wrapLines true cs else c :: wrapLines false cs

/-- The dimensions of a picture, with the least padding found so far. -/
structure PicFit where
  width : Nat
  height : Nat
  padding : Nat

/-- One width is tried. -/
def tryWidth (dsize : Nat) (best : PicFit) (w : Nat) : PicFit :=
  let stride := (w + 7) / 8
  let height := (dsize + stride - 1) / stride
  let padding := height * stride - dsize
  if (height ≥ 1 ∧ height ≤ 103)
      ∧ (padding < best.padding ∨ (padding = best.padding ∧ w > best.width)) then
    { width := w, height, padding }
  else best

/-- The search over the widths; the first padding is `ULONG_MAX`. -/
def fitPic (dsize : Nat) : PicFit :=
  (List.range' 1 240).foldl (tryWidth dsize) { width := 1, height := 1, padding := 2 ^ 64 - 1 }

/-- The envelope of a TI-68k variable; a picture may be too small or too large. -/
def wrapTi68k (typeId : UInt8) (extensionstr data : List UInt8) : Option (List UInt8) :=
  let dsize := data.length
  if typeId = ti89Asm then some (putBE 2 (dsize + 1) ++ data ++ [0xF3])
  else if typeId = ti89Str then some (putBE 2 (dsize + 3) ++ [0x00] ++ data ++ [0x00, 0x2D])
  else if typeId = ti89Oth ∧ extensionstr ≠ [] then some (putBE 2 dsize ++ data)
  else if typeId = ti89Text then
    let lines := wrapLines true data
    let body := [0x00, 0x01] ++ lines ++ (if lines ≠ [] then [0x00] else []) ++ [0xE0]
    some (putBE 2 body.length ++ body)
  else if typeId = ti89Pic then
    if dsize = 0 ∨ dsize > 3090 then none
    else
      let fit := fitPic dsize
      some (putBE 2 (5 + dsize + fit.padding) ++ putBE 2 fit.height ++ putBE 2 fit.width ++ data
        ++ List.replicate fit.padding 0 ++ [0xDF])
  else some data

/-- The type, size and data of the variable that `tifileutil_wrap` makes of a file. -/
def tifileutilWrap (model : CalcModel) (typeId : UInt8) (opts : WrapOptions)
    (input : List UInt8) : Option VarEntry :=
  if opts.packpython && (opts.rawmode || !(ticonvModelIsTiez80 model || model == .ti83p
      || model == .ti84p || model == .ti84pUsb)) then none
  else
    let typeId := if opts.packpython then ti83pAppv else typeId
    let data :=
      if opts.packpython then
        let script := stripBom input
        putLE 2 (script.length + 4 + 1) ++ [0x50, 0x59, 0x43, 0x44, 0x00] ++ script
      else if !opts.rawmode && typeHasLength model typeId then putLE 2 input.length ++ input
      else input
    let data :=
      if opts.extensionstr ≠ [] ∧ typeIsTi68kOth model typeId then
        data ++ [0x00] ++ opts.extensionstr.take 4 ++ [0x00, 0xF8]
      else data
    let data :=
      if !opts.rawmode && ticonvModelIsTi68k model then wrapTi68k typeId opts.extensionstr data
      else some data
    -- an entry's size is a 32-bit number
    data.map fun data => { tifilesVeCreate with
      type := typeId, size := UInt32.ofNat data.length, data := some data }

/-! ## deep unwrap -/

/-- The bytes of a buffer from `start` up to `stop`. -/
def slice (data : List UInt8) (start stop : Nat) : List UInt8 := (data.take stop).drop start

/-- The size field is skipped. -/
def skipSize (size : Nat) : Nat := if 2 ≤ size then 2 else 0

/-- The end of the data, without the tag if it is there. -/
def dropTag (data : List UInt8) (start size : Nat) (tag : UInt8) : Nat :=
  if size > start ∧ data.getD (size - 1) 0 = tag then size - 1 else size

/-- The length of a metadata record, one or two bytes, and what follows it. -/
def metadataLength : List UInt8 → Option (Nat × List UInt8)
  | [] => none
  | b :: rest =>
      if b &&& 0x80 = 0 then some (b.toNat, rest)
      else
        match rest with
        | [] => none
        | b' :: rest' =>
            if b' &&& 0x80 = 0 then some ((b &&& 0x7F).toNat + 128 * b'.toNat, rest') else none

theorem length_metadataLength {bs rest : List UInt8} {n : Nat}
    (h : metadataLength bs = some (n, rest)) : rest.length < bs.length := by
  unfold metadataLength at h
  split at h
  · cases h
  · split at h
    · cases h
      simp
    · split at h
      · cases h
      · split at h
        · cases h
          exact Nat.lt_succ_of_lt (Nat.lt_succ_self _)
        · cases h

/-- The script after the metadata records and their terminator. -/
def skipMetadata (bs : List UInt8) : Option (List UInt8) :=
  match bs with
  | [] => none
  | 0x00 :: script => some script
  | b :: bs =>
      match _hlength : metadataLength (b :: bs) with
      | none => none
      | some (n, rest) =>
          if n = 0 ∨ n > rest.length then none else skipMetadata (rest.drop n)
termination_by bs.length
decreasing_by
  have hlen := length_metadataLength _hlength
  rw [List.length_drop]
  omega

/-- `unwrap_deep_python`, where a payload that is not Python is passed through. -/
def unwrapDeepPython (data : List UInt8) (size : Nat) : Option (List UInt8) :=
  let payload := slice data 2 6
  if size < 2 + 4 + 1 then some (data.take size)
  else if payload ≠ [0x50, 0x59, 0x43, 0x44] ∧ payload ≠ [0x50, 0x59, 0x53, 0x43] then
    some (data.take size)
  else skipMetadata (slice data 6 size)

/-- The start of the program in a protected program of the TI-83+ family and later: after
the length and the tokenized name, if they are there. -/
def protectedStart (model : CalcModel) (tokenizedName data : List UInt8) (size : Nat) : Nat :=
  let is83PClass := model == .ti83p || model == .ti84p || model == .ti84pUsb
    || model == .ti82aUsb || model == .ti84ptUsb
  let is84PCSEClass := model == .ti84pc || model == .ti84pcUsb
  let isEZ80Class := ticonvModelIsTiez80 model
  if is83PClass || is84PCSEClass || isEZ80Class then
    let word := getLE (data.take 2)
    let start := if 2 ≤ size ∧ (word = size - 2 ∨ word = size) then 2 else 0
    let marker := slice data start (start + 2)
    if size ≥ start + 2 ∧ (marker = [0xBB, 0x6D] ∧ is83PClass
        ∨ marker = [0xEF, 0x69] ∧ is84PCSEClass ∨ marker = [0xEF, 0x7B] ∧ isEZ80Class) then start
    else if tokenizedName ≠ [] ∧ size > start + tokenizedName.length
        ∧ slice data start (start + tokenizedName.length) = tokenizedName
        ∧ data.getD (start + tokenizedName.length) 0 = 0x00 then
      start + tokenizedName.length + 1
    else start
  else 0

/-- Whether an 'other' variable ends with an extension of `extlen` characters. -/
def othSeparatorAt (data : List UInt8) (start size extlen : Nat) : Bool :=
  size ≥ start + 3 + extlen && data.getD (size - 1) 0 == 0xF8 && data.getD (size - 2) 0 == 0x00
    && data.getD (size - 3 - extlen) 0 == 0x00

/-- The end of the data of an 'other' variable: its separator, when one is found after
the start. -/
def othEnd (data : List UInt8) (start size : Nat) : Nat :=
  match [1, 2, 3, 4].find? (othSeparatorAt data start size) with
  | none => size
  | some extlen => if size - 3 - extlen > start then size - 3 - extlen else size

/-- The loop over the lines of a text. The flag says whether a line, with its type byte,
starts here. -/
def unwrapLines : Bool → List UInt8 → List UInt8
  | _, [] => []
  | true, _ :: cs => unwrapLines false cs
  | false, c :: cs =>
      if c = 0x0D then 0x0D :: unwrapLines true cs
      else if c = 0x00 then [] else c :: unwrapLines false cs

/-- The TI-68k branches of `unwrap_deep_entry`. -/
def unwrapTi68k (typeId : UInt8) (data : List UInt8) (size : Nat) : List UInt8 :=
  let start := skipSize size
  if typeId = ti89Asm then slice data start (dropTag data start size 0xF3)
  else if typeId = ti89Str then
    let start := if size > start ∧ data.getD start 0 = 0x00 then start + 1 else start
    let stop := if size > start + 1 ∧ data.getD (size - 2) 0 = 0x00
        ∧ data.getD (size - 1) 0 = 0x2D then size - 2 else size
    slice data start stop
  else if typeId = ti89Oth then slice data start (othEnd data start size)
  else if typeId = ti89Text then
    let start := if start + 2 ≤ size then start + 2 else start
    unwrapLines true (slice data start (dropTag data start size 0xE0))
  else if typeId = ti89Pic then
    let start := if start + 4 ≤ size then start + 4 else start
    slice data start (dropTag data start size 0xDF)
  else slice data 0 size

/-- `unwrap_deep_entry`; `tokenize` is `ticonv_varname_tokenize`. -/
def unwrapDeepEntry (tokenize : CalcModel → VarName → UInt8 → List UInt8) (model : CalcModel)
    (ve : VarEntry) : Option (List UInt8) :=
  let data := ve.data.getD []
  let size := ve.size.toNat
  if ve.type = ti83pAsm then
    some (slice data (protectedStart model (tokenize model ve.name ve.type) data size) size)
  else if ticonvModelIsTi68k model then some (unwrapTi68k ve.type data size)
  else if ve.type = ti83pAppv then unwrapDeepPython data size
  else some (slice data 0 size)

end Tilibs.Tifileutil
