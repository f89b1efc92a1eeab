import Tilibs.Dusb.Raw
import Tilibs.Lib.Chunk

/-!
# Tilibs.Dusb.Virtual

Virtual packets of the DUSB protocol (`dusb_vpkt.cc`): buffer size
negotiation, fragmentation into raw packets and reassembly.

The sender cuts the payload by the negotiated limit; the receiver knows
neither the limit nor how many raw packets follow, and grows its buffer as
they arrive.  Both sides use 32-bit sizes: a limit below the size of the data
header wraps in the sender, a buffer of 2 GB and more wraps in the receiver.
-/

namespace Tilibs.Dusb

open Tilibs.Lib

/-! ## Buffer size negotiation -/

def PacketLimit.clamp (size : Nat) : PacketLimit :=
  ⟨min size (dusbDataSize + 1), Nat.min_le_right _ _⟩

def dusbSetBufSize (size : Nat) : DusbProc Unit :=
  modify fun h => { h with rpktMaxlen := PacketLimit.clamp size }

/-- The limit is installed whether the packet goes out or not. -/
def dusbSendBufSizeAlloc (size : Nat) : DusbProc Unit := do
  let size := PacketLimit.clamp size
  modify fun h => { h with rpktMaxlen := size }
  let raw ← Proc.ofExcept (DUSBRawPacket.fill dusbRpktBufSizeAlloc (putBE 4 size.val))
  dusbSend raw

/-- The models that allocate more than they support. -/
def allocatesTooMuch : CalcModel → Bool
  | .ti83pceUsb | .ti84pceUsb | .ti82aepUsb => true
  | _ => false

def dusbRecvBufSizeAlloc (model : CalcModel) : DusbProc Unit := do
  let raw ← dusbRecv
  if raw.data.length ≠ 4 ∨ raw.type ≠ dusbRpktBufSizeAlloc then throw .invalidPacket
  else
    let tmp := min (getBE raw.data) dusbDataSize
    let tmp := if allocatesTooMuch model then min tmp 1018 else tmp
    modify fun h => { h with rpktMaxlen := PacketLimit.clamp tmp }

theorem clamp_val (limit : PacketLimit) : PacketLimit.clamp limit.val = limit :=
  Subtype.ext (Nat.min_eq_left limit.property)

theorem exec_dusbSetBufSize (limit old : PacketLimit) (port : Port UInt8 UInt8) :
    Proc.exec (dusbSetBufSize limit.val) ⟨port, old⟩ = (.ok (), ⟨port, limit⟩) := by
  simp [dusbSetBufSize, clamp_val]

/-- A calculator can install any limit up to the length of a raw packet, small
ones included. -/
theorem exec_dusbRecvBufSizeAlloc {model : CalcModel} (hmodel : allocatesTooMuch model = false)
    {limit : PacketLimit} (hlimit : limit.val ≤ dusbDataSize) (old : PacketLimit)
    (rest tx : List UInt8) :
    Proc.exec (dusbRecvBufSizeAlloc model)
        ⟨⟨rawBytes dusbRpktBufSizeAlloc (putBE 4 limit.val) ++ rest, tx, none⟩, old⟩ =
      (.ok (), ⟨⟨rest, tx, none⟩, limit⟩) := by
  have hrecv := exec_dusbRecv tx rest old dusbRpktBufSizeAlloc (putBE 4 limit.val)
    (by simp [dusbDataSize])
  have hsize : getBE (putBE 4 limit.val) = limit.val :=
    getBE_putBE (by simp only [dusbDataSize] at hlimit; omega)
  rw [dusbRecvBufSizeAlloc, Proc.exec_bind_ok hrecv]
  simp [hsize, hmodel, Nat.min_eq_left hlimit, clamp_val]

/-- Any limit can be the one a peer asked for. -/
theorem exec_dusbSendBufSizeAlloc (limit old : PacketLimit) (rx tx : List UInt8) :
    Proc.exec (dusbSendBufSizeAlloc limit.val) ⟨⟨rx, tx, none⟩, old⟩ =
      (.ok (), ⟨⟨rx, tx ++ rawBytes dusbRpktBufSizeAlloc (putBE 4 limit.val), none⟩, limit⟩) := by
  simp [dusbSendBufSizeAlloc, clamp_val, Proc.exec_bind, DUSBRawPacket.fill, dusbDataSize,
    exec_dusbSend]

/-! ## Acknowledgements -/

def dusbSendAcknowledge : DusbProc Unit := do
  let raw ← Proc.ofExcept (DUSBRawPacket.fill dusbRpktVirtDataAck [0xE0, 0x00])
  dusbSend raw

/-- The check at the end of `dusb_recv_acknowledge`; `bytes` are the first
bytes of the packet's array. -/
def acknowledges (type : UInt8) (bytes : List UInt8) : DusbProc Unit :=
  if type ≠ dusbRpktVirtDataAck then throw .invalidPacket
  else if bytes.getD 0 0 ≠ 0xE0 ∧ bytes.getD 1 0 ≠ 0x00 then throw .invalidPacket
  else pure ()

/-- Wait for an acknowledgement; the peer may negotiate a new limit first. -/
def dusbRecvAcknowledge : DusbProc Unit := do
  let raw ← dusbRecv
  if raw.data.length ≠ 2 ∧ raw.data.length ≠ 4 then throw .invalidPacket
  else if raw.type = dusbRpktBufSizeReq then
    if raw.data.length ≠ 4 then throw .invalidPacket
    else
      dusbSendBufSizeAlloc (getBE raw.data)
      let ack ← dusbRecv
      -- a shorter packet leaves the rest of the array as it was
      acknowledges ack.type (ack.data ++ raw.data.drop ack.data.length)
  else acknowledges raw.type raw.data

/-! ## Fragmentation -/

/-- A virtual packet: a 16-bit type and a payload with a 32-bit size. -/
structure DUSBVirtualPacket where
  type : UInt16
  data : List UInt8
  fits : data.length < 2 ^ 32

/-- The data header in front of the first fragment. -/
def DUSBVirtualPacket.header (vtl : DUSBVirtualPacket) : List UInt8 :=
  putBE 4 vtl.data.length ++ putBE 2 vtl.type.toNat

def memcpy (data : List UInt8) (offset len : Nat) : DusbProc (List UInt8) :=
  if offset + len ≤ data.length then pure ((data.drop offset).take len)
  else throw .undefinedBehaviour

/-- `dusb_rpkt_maxlen - DUSB_DH_SIZE`, an unsigned subtraction. -/
def PacketLimit.firstSize (maxlen : PacketLimit) : Nat :=
  (maxlen.val + (2 ^ 32 - dusbDhSize)) % 2 ^ 32

/-- A value stored into an `int`, as the bound of a counting loop. -/
def loopBound (n : Nat) : Nat := if n % 2 ^ 32 < 2 ^ 31 then n % 2 ^ 32 else 0

/-- Fill a raw packet, send it and wait for its acknowledgement. -/
def dusbSendFragment (type : UInt8) (data : List UInt8) : DusbProc Unit := do
  let raw ← Proc.ofExcept (DUSBRawPacket.fill type data)
  dusbSend raw
  dusbRecvAcknowledge

/-- What `dusb_send_data` sends after the first of several fragments: `k` more
full ones from `offset`, then a last one of `r` bytes if there are any. -/
def dusbSendRest (vtl : DUSBVirtualPacket) (r : Nat) : Nat → Nat → DusbProc Unit
  | 0, offset =>
      if r ≠ 0 then do
        let chunk ← memcpy vtl.data offset r
        dusbSendFragment dusbRpktVirtDataLast chunk
      else pure ()
  | k + 1, offset => do
      let maxlen := (← get).rpktMaxlen.val
      let type := if k ≠ 0 ∨ r ≠ 0 then dusbRpktVirtData else dusbRpktVirtDataLast
      let chunk ← memcpy vtl.data offset maxlen
      dusbSendFragment type chunk
      dusbSendRest vtl r k (offset + maxlen)

def dusbSendData (vtl : DUSBVirtualPacket) : DusbProc Unit := do
  let first := (← get).rpktMaxlen.firstSize
  if vtl.data.length ≤ first then
    -- a single packet, which is the last one too
    dusbSendFragment dusbRpktVirtDataLast (vtl.header ++ vtl.data)
  else
    let chunk ← memcpy vtl.data 0 first
    dusbSendFragment dusbRpktVirtData (vtl.header ++ chunk)
    let maxlen := (← get).rpktMaxlen.val
    if maxlen = 0 then throw .undefinedBehaviour
    else
      let left := vtl.data.length - first
      dusbSendRest vtl (left % maxlen) (loopBound (left / maxlen)) first

/-! ## Reassembly -/

/-- The virtual packet under construction: what its header declares, and the
bytes received so far in a buffer of `allocSize` bytes. -/
structure DusbBuffer where
  declaredSize : Nat
  type : UInt16
  allocSize : Nat
  data : List UInt8
  deriving DecidableEq, Repr

/-- The first fragment, behind its data header. -/
def DusbBuffer.start (bytes : List UInt8) : DusbBuffer :=
  let declaredSize := getBE (bytes.take 4)
  { declaredSize
    type := UInt16.ofNat (getBE ((bytes.drop 4).take 2))
    allocSize := max (min declaredSize 10000) (bytes.length - dusbDhSize)
    data := bytes.drop dusbDhSize }

/-- Another fragment; the buffer grows to the estimated size, or to twice what
is needed, an unsigned product. -/
def DusbBuffer.append (estSize : Nat) (buf : DusbBuffer) (chunk : List UInt8) :
    Except DusbErr DusbBuffer :=
  let need := (buf.data.length + chunk.length) % 2 ^ 32
  let allocSize :=
    if buf.allocSize < need then (if need ≤ estSize then estSize else need * 2 % 2 ^ 32)
    else buf.allocSize
  if buf.data.length + chunk.length ≤ allocSize then
    .ok { buf with allocSize, data := buf.data ++ chunk }
  else .error .undefinedBehaviour

/-- The turns of the receive loop after the first; each takes at least five
bytes off the cable, so `fuel` is more than the bytes that arrive. -/
def dusbRecvRest (estSize : Nat) : Nat → DusbBuffer → DusbProc DusbBuffer
  | 0, _ => throw .readTimeout
  | fuel + 1, buf => do
      let raw ← dusbRecv
      if raw.type ≠ dusbRpktVirtData ∧ raw.type ≠ dusbRpktVirtDataLast then throw .invalidPacket
      else
        let buf ← Proc.ofExcept (buf.append estSize raw.data)
        dusbSendAcknowledge
        if raw.type = dusbRpktVirtDataLast then pure buf else dusbRecvRest estSize fuel buf

def dusbRecvDataVarsize (estSize : Nat) : DusbProc DusbBuffer := do
  let raw ← dusbRecv
  if raw.type ≠ dusbRpktVirtData ∧ raw.type ≠ dusbRpktVirtDataLast then throw .invalidPacket
  else if raw.data.length < dusbDhSize then throw .invalidPacket
  else
    let buf := DusbBuffer.start raw.data
    dusbSendAcknowledge
    if raw.type = dusbRpktVirtDataLast then pure buf
    else
      let h ← get
      dusbRecvRest estSize (h.port.rx.length + 1) buf

def dusbRecvData : DusbProc DusbBuffer := do
  let buf ← dusbRecvDataVarsize 0
  if buf.declaredSize ≠ buf.data.length then throw .invalidPacket else pure buf

end Tilibs.Dusb
