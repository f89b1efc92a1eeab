import Tilibs.Nsp.Raw

/-!
# Tilibs.Nsp.Virtual

Virtual packets of the NavNet protocol: `nsp_send_data` cuts a payload into raw
packets, each behind a command byte, and `nsp_recv_data` puts it together.

Nothing on the wire says how long the payload is.  A raw packet that is not
full is the last one, and a receiver that knows the size stops when it has that
many bytes.
-/

namespace Tilibs.Nsp

open Tilibs.Lib

/-! ## Virtual packets -/

structure NSPVirtualPacket where
  srcAddr : UInt16
  srcPort : UInt16
  dstAddr : UInt16
  dstPort : UInt16
  cmd : UInt8
  data : List UInt8
  fits : data.length < 2 ^ 32

/-- The packets between these ports are not acknowledged. -/
def noAcks (srcPort dstPort : UInt16) : Bool :=
  srcPort = nspPortAddrAssign || dstPort = nspPortAddrRequest

/-! ## Sending -/

/-- Send one raw packet with a piece of the payload, and wait for its
acknowledgement. -/
def nspSendPiece (vtl : NSPVirtualPacket) (piece : List UInt8) : NspProc Unit :=
  if fits : (vtl.cmd :: piece).length ≤ nspDataSize then do
    nspSend (nspNewPacket vtl.srcAddr vtl.srcPort vtl.dstAddr vtl.dstPort (vtl.cmd :: piece) fits)
    if ¬ noAcks vtl.srcPort vtl.dstPort then nspRecvAck
  else throw .undefinedBehaviour

/-- The full packets of `nsp_send_data`, and then the one with the rest. -/
def nspSendCable (vtl : NSPVirtualPacket) : Nat → List UInt8 → NspProc Unit
  | 0, rest => if rest ≠ [] ∨ vtl.data.length = 0 then nspSendPiece vtl rest else pure ()
  | q + 1, data => do
      nspSendPiece vtl (data.take (nspDataSize - 1))
      nspSendCable vtl q (data.drop (nspDataSize - 1))

def nspNnseSendRawData (vtl : NSPVirtualPacket) (data : List UInt8) : NspProc Unit := do
  let msg ← Proc.ofExcept
    (nspNnseRawData vtl.srcAddr vtl.srcPort vtl.dstAddr vtl.dstPort 0 0 data)
  nspNnseSendStream msg

/-- The loop of `nsp_send_data` on NNSE; every turn but the last sends at least
one byte. -/
def nspSendNnse (vtl : NSPVirtualPacket) : Nat → List UInt8 → NspProc Unit
  | 0, _ => pure ()
  | fuel + 1, data => do
      nspNnseSendRawData vtl (vtl.cmd :: data.take (nspNnseDataSize - 1))
      if data.drop (nspNnseDataSize - 1) = [] then pure ()
      else nspSendNnse vtl fuel (data.drop (nspNnseDataSize - 1))

def nspSendData (vtl : NSPVirtualPacket) : NspProc Unit := do
  let h ← get
  if h.nnse then nspSendNnse vtl (vtl.data.length + 1) vtl.data
  else nspSendCable vtl (vtl.data.length / (nspDataSize - 1)) vtl.data

/-! ## Raw packets from stream messages -/

def nspNnseSendControlForParsed (pkt : NSPParsedRawPacket) (controlPort : UInt16) :
    NspProc Unit := do
  let msg ← Proc.ofExcept (nspNnseRawData nspSrcAddr controlPort nspDevAddr pkt.srcPort 0x0A
    pkt.seq (putWord pkt.dstPort))
  nspNnseSendStream msg

/-- Answer a packet nobody waits for. -/
def nspNnseHandleStalePacket (pkt : NSPParsedRawPacket) : NspProc Unit :=
  if pkt.ack ≠ 0x00 ∨ pkt.data.length = 0 then pure ()
  else if pkt.srcPort = nspPortDisconnect ∨ pkt.dstPort = nspPortDisconnect ∨
      0x8000 ≤ pkt.dstPort then
    nspNnseSendControlForParsed pkt (if pkt.seq = 0 then nspPortPktAck1 else nspPortPktAck2)
  else nspNnseSendControlForParsed pkt nspPortPktNack

/-- Queue the packets behind the first one of a message; every turn skips a
packet. -/
def nspNnseQueueTrailingPackets : Nat → List UInt8 → NspProc Unit
  | 0, _ => pure ()
  | fuel + 1, msg =>
      if msg = [] then pure ()
      else
        match nspFindRawPacketBoundary msg with
        | .error _ => pure ()
        | .ok (tail, boundary) => do
            let h ← get
            if h.portMatches tail.dstPort then
              nspNnseQueueStream ((msg.drop boundary).take tail.rawSize)
            else nspNnseHandleStalePacket tail
            nspNnseQueueTrailingPackets fuel (msg.drop (boundary + tail.rawSize))

/-- More turns than `nspNnseRecvRawPacket` can take: a turn uses up a message,
or a packet that was queued as part of one. -/
def NspHandle.turns (h : NspHandle) : Nat :=
  (h.pending.map fun payload => payload.length + 1).sum +
    (h.link.rx.map fun event => match event with
      | .ok m => m.payload.length + 1
      | .error _ => 1).sum + 1

def nspNnseRecvRawPacketLoop : Nat → NspProc NSPParsedRawPacket
  | 0 => throw .readTimeout
  | fuel + 1 => do
      let msg ← nspNnseRecvStream nspNnseMaxPayload
      match nspFindRawPacketBoundary msg with
      | .error _ => nspNnseRecvRawPacketLoop fuel
      | .ok (pkt, offset) =>
          if offset + pkt.rawSize < msg.length then
            nspNnseQueueTrailingPackets msg.length (msg.drop (offset + pkt.rawSize))
          let h ← get
          if ¬ h.portMatches pkt.dstPort then
            nspNnseHandleStalePacket pkt
            if pkt.ack = 0x00 ∧ 0 < pkt.data.length then nspNnseRecvRawPacketLoop fuel
            else
              nspNnseDropQueuedStreams
              nspNnseRecvRawPacketLoop fuel
          else
            nspNoteSequence pkt.srcPort pkt.seq
            pure pkt

def nspNnseRecvRawPacket : NspProc NSPParsedRawPacket := do
  let h ← get
  nspNnseRecvRawPacketLoop h.turns

/-! ## Receiving -/

/-- What has been received of a virtual packet. -/
structure NspReceived where
  cmd : UInt8
  data : List UInt8
  deriving DecidableEq, Repr

/-- Append the data of a raw packet, at most up to the expected size.  The
sizes are 32-bit words, and the buffer has room for one byte more. -/
def NspReceived.append (got : NspReceived) (size : Nat) (raw : List UInt8) :
    Except NspErr NspReceived :=
  let payload := raw.tail
  let copySize :=
    if size ≠ 0 ∧ size < (got.data.length + payload.length) % 2 ^ 32 then size - got.data.length
    else payload.length
  if (got.data.length + copySize + 1) % 2 ^ 32 = 0 then .error .malloc
  -- the buffer has shrunk, and the copy runs past its end
  else if 2 ^ 32 ≤ got.data.length + copySize then .error .undefinedBehaviour
  else .ok ⟨raw.headD 0, got.data ++ payload.take copySize⟩

/-- The packet that has just arrived is the last one. -/
def NspReceived.complete (got : NspReceived) (size rawSize full : Nat) : Bool :=
  (size ≠ 0 && size ≤ got.data.length) || rawSize < full

def nspRecvDataNnse (size : Nat) : Nat → NspReceived → NspProc NspReceived
  | 0, _ => throw .readTimeout
  | fuel + 1, got => do
      let pkt ← nspNnseRecvRawPacket
      let got ← Proc.ofExcept (got.append size pkt.data)
      if got.complete size pkt.data.length nspNnseDataSize then pure got
      else nspRecvDataNnse size fuel got

/-- What is sent back for a raw packet. -/
def nspAnswerRaw (raw : NSPRawPacket) : NspProc Unit :=
  if raw.dstPort = nspPortLogin then nspSendNackEx raw.srcPort
  else if ¬ noAcks raw.srcPort raw.dstPort then nspSendAck
  else pure ()

def nspRecvDataCable (size : Nat) : Nat → NspReceived → NspProc NspReceived
  | 0, _ => throw .readTimeout
  | fuel + 1, got => do
      let raw ← nspRecv
      let got ← Proc.ofExcept
        (if raw.data.length = 0 then .ok got else got.append size raw.data)
      nspAnswerRaw raw
      if got.complete size raw.data.length nspDataSize then pure got
      else nspRecvDataCable size fuel got

/-- Receive a virtual packet; `size` is the expected size of its payload, or 0
when it is not known. -/
def nspRecvData (size : Nat) : NspProc NspReceived := do
  let h ← get
  if h.nnse then nspRecvDataNnse size h.turns ⟨0, []⟩
  else nspRecvDataCable size (h.cable.rx.length + 1) ⟨0, []⟩

end Tilibs.Nsp
