import Tilibs.Lib.Poke
import Tilibs.Lib.Proc
import Tilibs.Webtilp.NumworksPlatform

/-!
# Tilibs.Webtilp.NumworksBackend

The part of the NumWorks backend that reads the storage of a connected calculator and writes it
back: `refresh`, `commitRecords`, and the transport below them.

The calculator answers a number of USB transfers and then none.  The bytes of a download arrive
one after the other, so the number says after which byte of which write the connection is lost.
-/

namespace Tilibs.Webtilp

open Lib

/-! ## the handle -/

/-- An error that is thrown: one of the backend, or a USB transfer that fails. -/
inductive BackendErr
  | error (message : String)
  | lost
  deriving DecidableEq

/-- A segment of the memory map that a DFU interface describes. -/
structure MemorySegment where
  start : Nat
  stop : Nat
  readable : Bool

/-- What does not change while a calculator is connected. -/
structure DfuDevice where
  model : String
  transferSize : Nat
  alternates : List Nat
  memorySegments : List MemorySegment

/-- The backend, and the calculator it talks to; `left` is the number of transfers that still
succeed. -/
structure NumWorks where
  platformInfo : Option PlatformInfo
  storage : Option StorageImage
  memory : Memory
  alternate : Nat
  left : Nat

abbrev NumWorksProc := Proc NumWorks BackendErr

/-- A control transfer. -/
def usbTransfer : NumWorksProc Unit := do
  let s ← get
  if s.left = 0 then throw .lost else set { s with left := s.left - 1 }

/-- A byte that reaches the memory of the calculator. -/
def usbPoke (address : Nat) (b : UInt8) : NumWorksProc Unit := do
  usbTransfer
  modify fun s => { s with memory := s.memory.poke [(address, b)] }

/-! ## the transport -/

/-- `isRamWriteRange` -/
def isRamWriteRange (address length : Nat) : Bool :=
  address + length ≤ 0x100000000 ∧
    ((0x20000000 ≤ address ∧ address + length ≤ 0x20040000)
      ∨ (0x24000000 ≤ address ∧ address + length ≤ 0x24040000))

/-- The loop of `memoryMapAllowsRead` over the sorted segments. -/
def segmentsCover (stop : Nat) : Nat → List MemorySegment → Bool
  | _, [] => false
  | cursor, segment :: segments =>
      if segment.stop ≤ cursor ∨ segment.start > cursor then segmentsCover stop cursor segments
      else if ¬segment.readable then false
      else
        let cursor := min stop segment.stop
        if cursor = stop then true else segmentsCover stop cursor segments

def memoryMapAllowsRead (segments : List MemorySegment) (address length : Nat) : Bool :=
  if length = 0 ∨ address + length > 0x100000000 then false
  else
    segmentsCover (address + length) address
      (segments.mergeSort fun a b => decide (a.start ≤ b.start))

def isKnownReadRange (segments : List MemorySegment) (address length : Nat) : Bool :=
  if memoryMapAllowsRead segments address length then true
  else if length = 0 ∨ address + length > 0x100000000 then false
  else
    [(0x08000000, 0x08100000), (0x90000000, 0x91000000), (0x20000000, 0x20040000),
      (0x24000000, 0x24040000)].any fun range => range.1 ≤ address ∧ address + length ≤ range.2

/-- `readMemory`; with a transfer size of 0 the upload never ends. -/
def readMemory (device : DfuDevice) (address length : Nat) : NumWorksProc (List UInt8) :=
  if ¬isKnownReadRange device.memorySegments address length then
    throw (.error s!"Refusing unsafe NumWorks read at {address} + {length}.")
  else if device.transferSize = 0 then throw .lost
  else do
    usbTransfer
    return (← get).memory.read address length

/-- The bytes of one download. -/
def sendBytes (address : Nat) : List UInt8 → NumWorksProc Unit
  | [] => pure ()
  | b :: bs => do
      usbPoke address b
      sendBytes (address + 1) bs

/-- The loop of `do_download`: the address is set, a chunk is sent, and the status is read.  RAM
is not erased.  A turn sends at least one byte, so `fuel` is the number of bytes; with a transfer
size of 0 the loop does not end. -/
def doDownload (transferSize : Nat) : Nat → Nat → List UInt8 → NumWorksProc Unit
  | _, _, [] => pure ()
  | 0, _, _ :: _ => throw .lost
  | fuel + 1, address, b :: bs => do
      let chunk := (b :: bs).take transferSize
      usbTransfer
      sendBytes address chunk
      usbTransfer
      doDownload transferSize fuel (address + chunk.length) ((b :: bs).drop transferSize)

/-- `writeRam`; the device is brought back to its idle state first. -/
def writeRam (device : DfuDevice) (address : Nat) (data : List UInt8) : NumWorksProc Unit :=
  if ¬isRamWriteRange address data.length then
    throw (.error "Refusing a NumWorks write outside known RAM.")
  else do
    usbTransfer
    doDownload device.transferSize data.length address data

/-- `resetToIdle` and `selectAlternateInterface` -/
def selectAlternate (alternate : Nat) : NumWorksProc Unit := do
  usbTransfer
  usbTransfer
  modify fun s => { s with alternate }

/-- An operation behind another alternate setting, which is restored whether it fails or not. -/
def withAlternateSetting {α : Type} (device : DfuDevice) (alternateSetting : Nat)
    (operation : NumWorksProc α) : NumWorksProc α := do
  let previousSetting := (← get).alternate
  if alternateSetting ∉ device.alternates then
    throw (.error s!"NumWorks DFU alternate interface {alternateSetting} is unavailable.")
  else if previousSetting = alternateSetting then operation
  else
    selectAlternate alternateSetting
    let result ← Proc.attempt operation
    let restored ← Proc.attempt (selectAlternate previousSetting)
    match result, restored with
    | .error operationError, _ => throw operationError
    | .ok _, .error restoreError => throw restoreError
    | .ok result, .ok _ => return result

/-! ## the backend -/

def slotAddress (device : DfuDevice) : Nat :=
  if device.model.endsWith "N0120" then 0x24000000 else 0x20000000

def readPlatformInfo (text : TextCodec) (device : DfuDevice) : NumWorksProc PlatformInfo := do
  match parseSlotInfo (← readMemory device (slotAddress device) 0x64) with
  | some slot =>
      let userland := parseUserlandHeader text (← readMemory device slot.userlandHeader 0x80)
      let kernel := parseKernelHeader text (← readMemory device slot.kernelHeader 0x40)
      match userland with
      | none => throw (.error "NumWorks userland header is invalid.")
      | some userland =>
          return {
            version :=
              if userland.version ≠ "" then userland.version
              else (kernel.map KernelHeader.version).getD ""
            storageAddress := userland.storageAddress
            storageSize := userland.storageSize
            headerIntegrity := slot.footerValid && userland.footerValid
              && (kernel.map KernelHeader.footerValid).getD false }
  | none =>
      match parseLegacyPlatformInfo text (← readMemory device 0x080001C4 0x128) with
      | none => throw (.error "NumWorks platform information is invalid.")
      | some info => return info

def validateStorageLocation (info : PlatformInfo) : NumWorksProc Unit :=
  if info.storageSize = 0 ∨ (info.storageSize : Int) > maxStorageSize then
    throw (.error s!"Refusing invalid NumWorks storage size {info.storageSize}.")
  else if ¬isRamWriteRange info.storageAddress (info.storageSize + 8) then
    throw (.error s!"Refusing NumWorks storage outside known RAM ({info.storageAddress} + {info.storageSize + 8}).")
  else pure ()

def withStorageInterface {α : Type} (device : DfuDevice) (operation : NumWorksProc α) :
    NumWorksProc α := do
  let version := ((← get).platformInfo.map PlatformInfo.version).getD ""
  if firmwareNeedsStorageAlternate version then withAlternateSetting device 1 operation
  else operation

def readRawStorageImage (text : TextCodec) (device : DfuDevice) : NumWorksProc (List UInt8) := do
  let info ← match (← get).platformInfo with
    | some info => pure info
    | none => readPlatformInfo text device
  modify fun s => { s with platformInfo := some info }
  validateStorageLocation info
  withStorageInterface device (readMemory device info.storageAddress (info.storageSize + 8))

/-- `refresh` -/
def refresh (text : TextCodec) (device : DfuDevice) (allowInvalidStorage : Bool) :
    NumWorksProc (Option StorageImage) := do
  let info ← readPlatformInfo text device
  modify fun s => { s with platformInfo := some info }
  validateStorageLocation info
  let raw ← readRawStorageImage text device
  match parseStorageImage text raw info.storageSize with
  | .ok storage =>
      modify fun s => { s with storage := some storage }
      return some storage
  | .error message =>
      modify fun s => { s with storage := none }
      if ¬allowInvalidStorage then throw (.error message) else return none

/-- The writes of `commitRecords`. -/
def commitWrites (device : DfuDevice) (storageAddress previousUsedBytes : Nat)
    (encoded : List UInt8) : NumWorksProc Unit := do
  let terminator := encoded.drop (encoded.length - storageTerminatorSize)
  -- the image is explicitly invalid until its body and terminator are complete
  writeRam device storageAddress (List.replicate storageHeaderSize 0)
  writeRam device (storageAddress + encoded.length - storageTerminatorSize) terminator
  writeRam device (storageAddress + storageHeaderSize) (encoded.drop storageHeaderSize)
  let staleTailLength := previousUsedBytes - encoded.length
  if staleTailLength > 0 then
    writeRam device (storageAddress + encoded.length) (List.replicate staleTailLength 0)
  writeRam device storageAddress (encoded.take storageHeaderSize)

/-- `commitRecords` -/
def commitRecords (text : TextCodec) (device : DfuDevice) (records : List StorageRecord) :
    NumWorksProc Unit := do
  let s ← get
  match s.platformInfo, s.storage with
  | some info, some storage =>
      if ¬info.headerIntegrity then
        throw (.error "Refusing to modify NumWorks storage with invalid platform headers.")
      else if ¬storage.footerValid then
        throw (.error "Refusing to modify NumWorks storage with an invalid footer.")
      else if storage.records.any (fun record => !record.valid) then
        throw (.error "Refusing to modify NumWorks storage containing malformed records.")
      else
        match encodeStoragePrefix text records info.storageSize with
        | .error message => throw (.error message)
        | .ok encoded =>
            match ← Proc.attempt (withStorageInterface device
              (commitWrites device info.storageAddress storage.usedBytes encoded)) with
            | .error e =>
                modify fun s => { s with storage := none }
                throw e
            | .ok _ =>
                let _ ← refresh text device false
                pure ()
  | info, _ =>
      if ¬(info.map PlatformInfo.headerIntegrity).getD false then
        throw (.error "Refusing to modify NumWorks storage with invalid platform headers.")
      else throw (.error "Refusing to modify NumWorks storage with an invalid footer.")

end Tilibs.Webtilp
