import Tilibs.Webtilp.NumworksStorage

/-!
# Tilibs.Webtilp.NumworksPlatform

The headers of a NumWorks calculator's firmware, which say where its storage is.
-/

namespace Tilibs.Webtilp

open Lib

/-! ## fields -/

/-- `getUint32(offset, false)` of a `DataView` -/
def uint32BE (bytes : List UInt8) (offset : Nat) : Nat := getBE (slice bytes (offset, 4))

/-- `getUint32(offset, true)` -/
def uint32LE (bytes : List UInt8) (offset : Nat) : Nat := getLE (slice bytes (offset, 4))

def readCString (text : TextCodec) (bytes : List UInt8) (offset maxLength : Nat) : String :=
  text.decode ((slice bytes (offset, maxLength)).takeWhile (· ≠ 0))

/-! ## headers -/

def slotMagic : Nat := 0xBADBEEEF

def platformMagics : List Nat := [0xF00DC0DE, 0xFEEDC0DE]

structure SlotInfo where
  footerValid : Bool
  kernelHeader : Nat
  userlandHeader : Nat

/-- The slot, when it is a valid one; old bootloaders corrupt the high byte of the magic word. -/
def parseSlotInfo (bytes : List UInt8) : Option SlotInfo :=
  let regularMagic := uint32BE bytes 0 = slotMagic
  let legacyCorruptMagic := uint32BE bytes 0 &&& 0x00FFFFFF = slotMagic &&& 0x00FFFFFF
  if bytes.length < 16 then none
  else if ¬regularMagic ∧ ¬legacyCorruptMagic then none
  else
    some {
      footerValid := uint32BE bytes 12 = slotMagic
      kernelHeader := uint32LE bytes 4
      userlandHeader := uint32LE bytes 8 }

structure KernelHeader where
  footerValid : Bool
  version : String

def parseKernelHeader (text : TextCodec) (bytes : List UInt8) : Option KernelHeader :=
  let magic := uint32BE bytes 0
  if bytes.length < 24 then none
  else if magic ∉ platformMagics then none
  else
    some {
      footerValid := uint32BE bytes 20 = magic
      version := readCString text bytes 4 8 }

structure UserlandHeader where
  footerValid : Bool
  version : String
  storageAddress : Nat
  storageSize : Nat

def parseUserlandHeader (text : TextCodec) (bytes : List UInt8) : Option UserlandHeader :=
  let magic := uint32BE bytes 0
  if bytes.length < 40 then none
  else if magic ∉ platformMagics then none
  else
    let footerOffset := if uint32BE bytes 36 ≠ magic ∧ bytes.length ≥ 48 then 44 else 36
    some {
      footerValid := uint32BE bytes footerOffset = magic
      version := readCString text bytes 4 8
      storageAddress := uint32LE bytes 12
      storageSize := uint32LE bytes 16 }

/-- What `readPlatformInfo` returns; `headerIntegrity` says that all footers are right. -/
structure PlatformInfo where
  version : String
  storageAddress : Nat
  storageSize : Nat
  headerIntegrity : Bool
  deriving DecidableEq

/-- The information of a firmware without slots, whose fields moved. -/
def parseLegacyPlatformInfo (text : TextCodec) (bytes : List UInt8) : Option PlatformInfo :=
  let magic := uint32BE bytes 0
  if bytes.length < 64 then none
  else if magic ∉ platformMagics then none
  else
    let oldPlatform := uint32BE bytes 0x1C ≠ magic
    let moved (candidate : Nat) :=
      0x1C + candidate + 4 ≤ bytes.length ∧ uint32BE bytes (0x1C + candidate) = magic
    let offset := if oldPlatform then ([8, 16, 32].find? (fun c => decide (moved c))).getD 0 else 0
    some {
      version := readCString text bytes 4 8
      storageAddress := uint32LE bytes (0x14 + offset)
      storageSize := uint32LE bytes (0x18 + offset)
      headerIntegrity := true }

/-! ## the version -/

/-- `\s` of a regular expression -/
def isJsSpace (c : Char) : Bool :=
  (0x09 ≤ c.toNat ∧ c.toNat ≤ 0x0D) ∨ (0x2000 ≤ c.toNat ∧ c.toNat ≤ 0x200A)
    ∨ c.toNat ∈ [0x20, 0xA0, 0x1680, 0x2028, 0x2029, 0x202F, 0x205F, 0x3000, 0xFEFF]

/-- From version 24 on the storage is behind an alternate interface. -/
def firmwareNeedsStorageAlternate (version : String) : Bool :=
  let digits := (version.toList.dropWhile isJsSpace).takeWhile Char.isDigit
  digits ≠ [] ∧ 24 ≤ digits.foldl (fun n c => 10 * n + (c.toNat - '0'.toNat)) 0

end Tilibs.Webtilp
