import Tilibs.CalcModel
import Tilibs.Lib.Bytes
import Tilibs.Lib.Proc

/-!
# Tilibs.Dusb.Raw

Raw packets of the DUSB protocol (`dusb_rpkt.cc`) and the negotiation of the
packet size limit (`dusb_vpkt.cc`).

A raw packet is a big-endian size, a type and at most 1023 bytes.  In C the
bytes are stored in an array of that length; a store past its end is undefined,
and stops the model with `undefinedBehaviour`.
-/

namespace Tilibs.Dusb

open Tilibs.Lib

/-! ## Constants -/

def dusbDataSize : Nat := 1023
def dusbDhSize : Nat := 6

def dusbRpktBufSizeReq : UInt8 := 1
def dusbRpktBufSizeAlloc : UInt8 := 2
def dusbRpktVirtData : UInt8 := 3
def dusbRpktVirtDataLast : UInt8 := 4
def dusbRpktVirtDataAck : UInt8 := 5

/-! ## The handle -/

inductive DusbErr
  | readTimeout
  | writeError
  | invalidPacket
  | undefinedBehaviour
  deriving DecidableEq, Repr

/-- A packet size limit that negotiation can install. -/
abbrev PacketLimit := { n : Nat // n ≤ dusbDataSize + 1 }

/-- The part of the handle the protocol uses; `rpktMaxlen` is the limit that
has been negotiated. -/
structure DusbHandle where
  port : Port UInt8 UInt8
  rpktMaxlen : PacketLimit
  deriving DecidableEq, Repr

abbrev DusbProc := Proc DusbHandle DusbErr

def cableRecv (len : Nat) : DusbProc (List UInt8) := do
  let h ← get
  match h.port.recvN len with
  | some (bytes, port) =>
      set { h with port := port }
      pure bytes
  | none => throw .readTimeout

def cableSend (bytes : List UInt8) : DusbProc Unit := do
  let h ← get
  match h.port.sendAll bytes with
  | some port => set { h with port := port }
  | none => throw .writeError

/-! ## Raw packets -/

/-- `data` is what the first bytes of the array hold; its length is the size
field of the packet. -/
structure DUSBRawPacket where
  type : UInt8
  data : List UInt8
  fits : data.length ≤ dusbDataSize

/-- Store the bytes of a packet into its array. -/
def DUSBRawPacket.fill (type : UInt8) (data : List UInt8) : Except DusbErr DUSBRawPacket :=
  if fits : data.length ≤ dusbDataSize then .ok ⟨type, data, fits⟩ else .error .undefinedBehaviour

/-- The bytes of a packet on the cable. -/
def rawBytes (type : UInt8) (data : List UInt8) : List UInt8 :=
  putBE 4 data.length ++ type :: data

def dusbSend (raw : DUSBRawPacket) : DusbProc Unit :=
  let size := min raw.data.length dusbDataSize
  cableSend (putBE 4 size ++ raw.type :: raw.data.take size)

def dusbRecv : DusbProc DUSBRawPacket := do
  let buf ← cableRecv 5
  let size := getBE (buf.take 4)
  if dusbDataSize < size then throw .invalidPacket
  else
    let data ← cableRecv size
    Proc.ofExcept (DUSBRawPacket.fill (buf.getD 4 0) data)

section Raw

variable (rx tx rest : List UInt8) (limit : PacketLimit)

theorem exec_cableSend (bytes : List UInt8) :
    Proc.exec (cableSend bytes) ⟨⟨rx, tx, none⟩, limit⟩ = (.ok (), ⟨⟨rx, tx ++ bytes, none⟩, limit⟩) := by
  simp [cableSend, Proc.exec_bind]

theorem exec_cableRecv_append {len : Nat} {bytes : List UInt8} (h : bytes.length = len) :
    Proc.exec (cableRecv len) ⟨⟨bytes ++ rest, tx, none⟩, limit⟩ =
      (.ok bytes, ⟨⟨rest, tx, none⟩, limit⟩) := by
  simp [cableRecv, Proc.exec_bind, Port.recvN_append rest tx none h, Except.map]

theorem exec_cableRecv_nil {len : Nat} (h : 0 < len) :
    Proc.exec (cableRecv len) ⟨⟨[], tx, none⟩, limit⟩ =
      (.error .readTimeout, ⟨⟨[], tx, none⟩, limit⟩) := by
  have hshort : Port.recvN (⟨[], tx, none⟩ : Port UInt8 UInt8) len = none :=
    Port.recvN_short h
  simp [cableRecv, Proc.exec_bind, hshort]

/-- The clamp of `dusb_send` never cuts a packet that is in its array. -/
theorem exec_dusbSend (raw : DUSBRawPacket) :
    Proc.exec (dusbSend raw) ⟨⟨rx, tx, none⟩, limit⟩ =
      (.ok (), ⟨⟨rx, tx ++ rawBytes raw.type raw.data, none⟩, limit⟩) := by
  simp [dusbSend, rawBytes, exec_cableSend, Nat.min_eq_left raw.fits]

theorem exec_dusbRecv (type : UInt8) (data : List UInt8) (h : data.length ≤ dusbDataSize) :
    Proc.exec dusbRecv ⟨⟨rawBytes type data ++ rest, tx, none⟩, limit⟩ =
      (.ok ⟨type, data, h⟩, ⟨⟨rest, tx, none⟩, limit⟩) := by
  have hsize : getBE (putBE 4 data.length) = data.length :=
    getBE_putBE (by simp only [dusbDataSize] at h; omega)
  have hhead : Proc.exec (cableRecv 5)
      ⟨⟨(putBE 4 data.length ++ [type]) ++ (data ++ rest), tx, none⟩, limit⟩ =
      (.ok (putBE 4 data.length ++ [type]), ⟨⟨data ++ rest, tx, none⟩, limit⟩) :=
    exec_cableRecv_append _ _ _ (by simp)
  have hbytes : rawBytes type data ++ rest = (putBE 4 data.length ++ [type]) ++ (data ++ rest) := by
    simp [rawBytes]
  have hdata : Proc.exec (cableRecv data.length) ⟨⟨data ++ rest, tx, none⟩, limit⟩ =
      (.ok data, ⟨⟨rest, tx, none⟩, limit⟩) := exec_cableRecv_append _ _ _ rfl
  rw [hbytes, dusbRecv, Proc.exec_bind_ok hhead]
  simp [hsize, Nat.not_lt.mpr h, Proc.exec_bind, hdata, DUSBRawPacket.fill, h]

theorem exec_dusbRecv_nil :
    Proc.exec dusbRecv ⟨⟨[], tx, none⟩, limit⟩ =
      (.error .readTimeout, ⟨⟨[], tx, none⟩, limit⟩) :=
  Proc.exec_bind_error (exec_cableRecv_nil tx limit (by decide))

end Raw

end Tilibs.Dusb
