import Tilibs.Lib.Chunk
import Tilibs.Nsp.Raw

/-!
# Tilibs.Nsp.RecvOs

Receiving an operating system from a Nspire (`recv_os` of `calc_nsp.cc`).

The calculator sends the packets when it likes to.  A request to install starts the
transfer, or starts it again; packets with contents fill the part that was allocated for it.
-/

namespace Tilibs.Nsp

open Tilibs.Lib

/-! ## constants -/

def nspPortDevInfos : UInt16 := 0x4020
def nspPortOsInstall : UInt16 := 0x4080

def nspCmdDiVersion : UInt8 := 0x01
def nspCmdDiModel : UInt8 := 0x02
def nspCmdDiFext : UInt8 := 0x03
def nspCmdOsInstall : UInt8 := 0x03
def nspCmdOsContents : UInt8 := 0x05
def nspCmdOsProgress : UInt8 := 0x06

/-- `NSP_OS_MAX_SIZE` -/
def nspOsMaxSize : Nat := 128 * 2 ^ 20

def nspOsReceiveSizeValid (size : Nat) : Bool := 0 < size && size < nspOsMaxSize

def nspOsReceivePacketBoundaryValid (remaining : Nat) (isShort isNnse : Bool) : Bool :=
  remaining = 0 || !isShort || isNnse

/-! ## replies -/

/-- `nsp_init_reply` with the ports and the data that the callers put in. -/
def nspReply (request : NSPRawPacket) (srcPort dstPort : UInt16) (data : List UInt8)
    (fits : data.length ≤ nspDataSize) : NSPRawPacket :=
  nspNewPacket request.dstAddr srcPort request.srcAddr dstPort data fits

theorem ackFits (packet : NSPRawPacket) : (putWord packet.dstPort).length ≤ nspDataSize := by
  simp [nspDataSize]

def nspSendAckForPacket (packet : NSPRawPacket) : NspProc Unit :=
  nspSend (nspReply packet (if packet.seq = 0 then nspPortPktAck1 else nspPortPktAck2)
    packet.srcPort (putWord packet.dstPort) (ackFits packet))

def nspSendSimpleReply (request : NSPRawPacket) (srcPort dstPort : UInt16) (cmd : UInt8)
    (payload : List UInt8) (fits : (cmd :: payload).length ≤ nspDataSize) : NspProc Unit :=
  nspSend (nspReply request srcPort dstPort (cmd :: payload) fits)

/-- The reply that was captured from real handhelds, behind its command. -/
def deviceInfo : List UInt8 :=
  [0x00, 0x00, 0x00, 0x00, 0x06, 0x62, 0xC8, 0x00, 0x00, 0x00, 0x00, 0x00, 0x07, 0x34, 0x00,
    0x00, 0x00, 0x00, 0x00, 0x00, 0x02, 0xA7, 0x9F, 0x74, 0x00, 0x00, 0x00, 0x00, 0x03, 0x39, 0x61,
    0xC0, 0xFF, 0x01, 0x00, 0x84, 0x03, 0x02, 0x07, 0x01, 0x03, 0x00, 0x00, 0x63, 0x03, 0x02, 0x00,
    0x8D, 0x00, 0x00, 0x00, 0x00, 0x00, 0x02, 0x00, 0x00, 0x00, 0x00, 0x01, 0x40, 0x00, 0xF0, 0x10,
    0x01, 0x1F, 0x38, 0x30, 0x30, 0x30, 0x30, 0x30, 0x30, 0x31, 0x30, 0x35, 0x32, 0x31, 0x46, 0x33,
    0x43, 0x30, 0x00, 0x31, 0x30, 0x30, 0x38, 0x30, 0x30, 0x30, 0x30, 0x30, 0x30, 0x31, 0x30, 0x35,
    0x32, 0x31, 0x46, 0x33, 0x43, 0x30, 0x36, 0x34, 0x34, 0x45, 0x30, 0x33, 0x30, 0x43, 0x00]

/-- `TI-Nspire(tm) Handheld` and its terminator. -/
def deviceName : List UInt8 :=
  [0x54, 0x49, 0x2D, 0x4E, 0x73, 0x70, 0x69, 0x72, 0x65, 0x28, 0x74, 0x6D, 0x29, 0x20, 0x48, 0x61,
    0x6E, 0x64, 0x68, 0x65, 0x6C, 0x64, 0x00]

/-- `tnc` and its terminator. -/
def supportedFext : List UInt8 := [0x74, 0x6E, 0x63, 0x00]

def nspSendDeviceInfo (request : NSPRawPacket) : NspProc Unit :=
  nspSendSimpleReply request nspPortDevInfos request.srcPort 0x01 deviceInfo
    (by simp [deviceInfo, nspDataSize])

def nspSendDeviceName (request : NSPRawPacket) : NspProc Unit :=
  nspSendSimpleReply request nspPortDevInfos request.srcPort nspCmdDiModel deviceName
    (by simp [deviceName, nspDataSize])

def nspSendSupportedFext (request : NSPRawPacket) : NspProc Unit :=
  nspSendSimpleReply request nspPortDevInfos request.srcPort nspCmdDiFext supportedFext
    (by simp [supportedFext, nspDataSize])

def nspAddrAssign (addr : UInt16) : NspProc Unit :=
  nspSend (nspNewPacket nspSrcAddr nspPortAddrAssign nspDevAddr nspPortAddrAssign
    (putWord addr ++ [0xFF, 0x00]) (by simp [nspDataSize]))

/-- The answer to a packet for the device information port. -/
def nspAnswerDevInfos (pkt : NSPRawPacket) : NspProc Unit := do
  nspSendAckForPacket pkt
  if 1 ≤ pkt.data.length then
    if pkt.data.getD 0 0 = nspCmdDiVersion then nspSendDeviceInfo pkt
    else if pkt.data.getD 0 0 = nspCmdDiModel then nspSendDeviceName pkt
    else if pkt.data.getD 0 0 = nspCmdDiFext then nspSendSupportedFext pkt
    else if pkt.data.getD 0 0 = 0x04 then
      nspSendSimpleReply pkt nspPortDevInfos pkt.srcPort (pkt.data.getD 0 0) [] (by simp [nspDataSize])

/-! ## the transfer -/

inductive RecvOsErr
  | nsp (e : NspErr)
  | abort
  deriving DecidableEq, Repr

/-- `FlashContent`, as far as it is used here; `none` is a null pointer. -/
structure FlashContent where
  name : String
  dataLength : Nat
  dataPart : Option (List UInt8)
  deriving DecidableEq

/-- The variables of `recv_os`.  Two of them are there for the statements only: `received`
has the packets for the service that were acknowledged, and `overrun` says that a copy has
left the part that is allocated. -/
structure RecvOs where
  content : FlashContent
  ret : Option RecvOsErr
  started : Bool
  sentStatus : Bool
  completed : Bool
  remaining : Nat
  written : Nat
  received : List NSPRawPacket
  overrun : Bool
  deriving DecidableEq

/-- What the user and the allocator do in a turn of the loop. -/
structure RecvOsTurn where
  cancel : Bool
  alloc : Nat → Bool

namespace RecvOs

variable (os : RecvOs)

/-- Keep the return code of a call. -/
def returning (p : NspProc Unit) : NspProc RecvOs := do
  match ← p.attempt with
  | .ok _ => pure os
  | .error e => pure { os with ret := some (.nsp e) }

def fail (e : RecvOsErr) : RecvOs := { os with ret := some e }

/-- A packet for the service has been acknowledged. -/
def note (pkt : NSPRawPacket) : RecvOs := { os with received := os.received ++ [pkt] }

/-- A new transfer of the given size, before its memory is there. -/
def emptied (size : Nat) : RecvOs :=
  { os with
    content := { os.content with dataLength := 0, dataPart := none }
    remaining := size
    written := 0
    started := false
    sentStatus := false }

/-- A new transfer with its memory. -/
def allocated (size : Nat) : RecvOs :=
  { os.emptied size with
    content := { os.content with
      dataLength := size
      dataPart := some (List.replicate size 0) }
    started := true }

/-- The `memcpy` of a payload, and the two counters. -/
def copy (payload : List UInt8) : RecvOs :=
  let part := os.content.dataPart.getD []
  { os with
    content := { os.content with dataPart := some (writeAt part os.written payload) }
    written := (os.written + payload.length) % 2 ^ 32
    remaining := os.remaining - payload.length
    overrun := os.overrun || part.length < os.written + payload.length }

/-- The size that a request declares. -/
def declaredSize (data : List UInt8) : Nat := getBE ((data.drop 1).take 4)

/-- A request to install. -/
def install (turn : RecvOsTurn) (pkt : NSPRawPacket) : NspProc RecvOs :=
  if pkt.data.length < 5 then pure (os.fail (.nsp .invalidPacket))
  else if ¬ nspOsReceiveSizeValid (declaredSize pkt.data) then pure (os.fail (.nsp .invalidPacket))
  else if ¬ turn.alloc (declaredSize pkt.data) then
    pure ((os.emptied (declaredSize pkt.data)).fail (.nsp .malloc))
  else (os.allocated (declaredSize pkt.data)).returning
    (nspSendSimpleReply pkt nspPortOsInstall pkt.srcPort nspCmdOsOk [] (by simp [nspDataSize]))

/-- The status, which is sent once in a transfer. -/
def answerStatus (pkt : NSPRawPacket) : NspProc RecvOs :=
  if os.sentStatus then pure os
  else RecvOs.returning { os with sentStatus := true }
    (nspSendSimpleReply pkt nspPortOsInstall pkt.srcPort nspCmdStatus [0x00] (by simp [nspDataSize]))

/-- The progress, which ends the transfer. -/
def answerProgress (pkt : NSPRawPacket) : NspProc RecvOs := do
  if os.ret = none ∧ os.remaining = 0 then
    let os ← os.returning (nspSendSimpleReply pkt nspPortOsInstall nspPortOsInstall
      nspCmdOsProgress [0x64] (by simp [nspDataSize]))
    pure { os with completed := os.ret.isNone }
  else pure os

/-- What follows the copy of a payload. -/
def answerContents (isNnse : Bool) (pkt : NSPRawPacket) : NspProc RecvOs := do
  if ¬ nspOsReceivePacketBoundaryValid os.remaining (pkt.data.length < nspDataSize) isNnse then
    pure (os.fail (.nsp .invalidPacket))
  else
    let os ← os.answerStatus pkt
    os.answerProgress pkt

/-- A packet with contents. -/
def contents (isNnse : Bool) (pkt : NSPRawPacket) : NspProc RecvOs :=
  if ¬ os.started then pure (os.fail (.nsp .invalidPacket))
  else if 1 < pkt.data.length then
    if os.remaining < pkt.data.length - 1 then pure (os.fail (.nsp .invalidPacket))
    else (os.copy pkt.data.tail).answerContents isNnse pkt
  else os.answerContents isNnse pkt

/-- A packet for the service, which has been acknowledged. -/
def service (turn : RecvOsTurn) (isNnse : Bool) (pkt : NSPRawPacket) : NspProc RecvOs :=
  if pkt.data.length < 1 then pure (os.fail (.nsp .invalidPacket))
  else if pkt.data.getD 0 0 = nspCmdOsInstall then os.install turn pkt
  else if pkt.data.getD 0 0 = nspCmdOsContents then os.contents isNnse pkt
  else pure os

/-- A packet that has arrived. -/
def packet (turn : RecvOsTurn) (isNnse : Bool) (pkt : NSPRawPacket) : NspProc RecvOs := do
  if turn.cancel then pure (os.fail .abort)
  else if pkt.ack = 0x0A then pure os
  else if pkt.srcPort = nspPortDisconnect then os.returning (nspSendAckForPacket pkt)
  else if pkt.dstPort = nspPortAddrAssign then
    os.returning do
      nspSendAckForPacket pkt
      nspAddrAssign nspDevAddr
  else if pkt.dstPort = nspPortLogin then os.returning (nspSendNackEx pkt.srcPort)
  else if pkt.dstPort = nspPortDevInfos then os.returning (nspAnswerDevInfos pkt)
  else if pkt.dstPort ≠ nspPortOsInstall then pure os
  else
    match ← (nspSendAckForPacket pkt).attempt with
    | .error e => pure (os.fail (.nsp e))
    | .ok _ => (os.note pkt).service turn isNnse pkt

/-- A turn of the loop. -/
def turn (turn : RecvOsTurn) (isNnse : Bool) : NspProc RecvOs := do
  match ← nspRecv.attempt with
  | .error e => pure (os.fail (.nsp e))
  | .ok pkt => os.packet turn isNnse pkt

/-- The variables before the loop. -/
def start (content : FlashContent) : RecvOs where
  content := { content with name := "ti-nspire_os_received", dataLength := 0, dataPart := none }
  ret := none
  started := false
  sentStatus := false
  completed := false
  remaining := 0
  written := 0
  received := []
  overrun := false

/-- The loop, which may go on for as many turns as the list has. -/
def loop (isNnse : Bool) : List RecvOsTurn → RecvOs → NspProc RecvOs
  | [], os => pure os
  | t :: turns, os =>
      if os.ret = none ∧ ¬ os.completed then do
        let os ← os.turn t isNnse
        loop isNnse turns os
      else pure os

end RecvOs

/-- On NNSE, the port that the calculator may begin a transfer on. -/
def NspHandle.awaitingInstall (h : NspHandle) : NspHandle :=
  if h.nnse then { h with passivePort := nspPortOsInstall } else h

/-- `recv_os`; without a content it returns at once. -/
def recvOs (turns : List RecvOsTurn) : Option FlashContent → NspProc (Option RecvOs)
  | none => pure none
  | some content => do
      let h ← get
      set h.awaitingInstall
      let os ← RecvOs.loop h.nnse turns (.start content)
      modify fun h' => { h' with passivePort := h.passivePort }
      pure (some os)

/-! ## what the packets say -/

/-- The size of a request that is accepted. -/
def installSize (pkt : NSPRawPacket) : Option Nat :=
  if pkt.data.getD 0 0 = nspCmdOsInstall ∧ 5 ≤ pkt.data.length
      ∧ nspOsReceiveSizeValid (RecvOs.declaredSize pkt.data) then
    some (RecvOs.declaredSize pkt.data)
  else none

/-- What a packet with contents carries. -/
def contentsPayload (pkt : NSPRawPacket) : List UInt8 :=
  if pkt.data.getD 0 0 = nspCmdOsContents then pkt.data.tail else []

/-- A transfer: the size that was announced, and what has come since. -/
structure OsTransfer where
  size : Nat
  payload : List UInt8
  deriving DecidableEq

def OsTransfer.next (t : OsTransfer) (pkt : NSPRawPacket) : OsTransfer :=
  match installSize pkt with
  | some n => ⟨n, []⟩
  | none => ⟨t.size, t.payload ++ contentsPayload pkt⟩

/-- The transfer that a sequence of packets for the service makes. -/
def osTransfer (received : List NSPRawPacket) : OsTransfer := received.foldl OsTransfer.next ⟨0, []⟩

@[simp] theorem osTransfer_append (received : List NSPRawPacket) (pkt : NSPRawPacket) :
    osTransfer (received ++ [pkt]) = (osTransfer received).next pkt := by
  simp [osTransfer, List.foldl_append]

theorem OsTransfer.next_of_some {pkt : NSPRawPacket} {n : Nat} (h : installSize pkt = some n)
    (t : OsTransfer) : t.next pkt = ⟨n, []⟩ := by
  unfold OsTransfer.next
  rw [h]

theorem OsTransfer.next_of_none {pkt : NSPRawPacket} (h : installSize pkt = none)
    (t : OsTransfer) : t.next pkt = ⟨t.size, t.payload ++ contentsPayload pkt⟩ := by
  unfold OsTransfer.next
  rw [h]

/-- The last request that was accepted, if there is one, and what has come since. -/
theorem osTransfer_cases (received : List NSPRawPacket) :
    (osTransfer received).size = 0 ∨
      ∃ before install after, received = before ++ install :: after
        ∧ installSize install = some (osTransfer received).size
        ∧ (∀ p ∈ after, installSize p = none)
        ∧ (osTransfer received).payload = after.flatMap contentsPayload := by
  induction received using List.reverseRecOn with
  | nil => exact .inl rfl
  | append_singleton received pkt ih =>
      rw [osTransfer_append]
      cases hpkt : installSize pkt with
      | some n =>
          right
          refine ⟨received, pkt, [], rfl, ?_, ?_, ?_⟩
          · rw [OsTransfer.next_of_some hpkt, hpkt]
          · intro p hp
            cases hp
          · rw [OsTransfer.next_of_some hpkt]
            rfl
      | none =>
          rw [OsTransfer.next_of_none hpkt]
          cases ih with
          | inl hzero => exact .inl hzero
          | inr hsplit =>
              obtain ⟨before, install, after, hreceived, hinstall, hafter, hpayload⟩ := hsplit
              right
              refine ⟨before, install, after ++ [pkt], ?_, hinstall, ?_, ?_⟩
              · rw [hreceived, List.append_assoc, List.cons_append]
              · intro p hp
                rcases List.mem_append.mp hp with hp | hp
                · exact hafter p hp
                · rw [List.mem_singleton.mp hp]
                  exact hpkt
              · rw [List.flatMap_append, ← hpayload]
                simp

namespace RecvOs

/-! ## what a turn does -/

/-- The ways in which a turn can leave the variables. -/
inductive Turned (os : RecvOs) : RecvOs → Prop
  | quiet (ret : Option RecvOsErr) : Turned os { os with ret := ret }
  | refused (pkt : NSPRawPacket) (ret : Option RecvOsErr) (hpkt : installSize pkt = none)
      (hpayload : ret = none → contentsPayload pkt = []) :
      Turned os { os.note pkt with ret := ret }
  | noMemory (pkt : NSPRawPacket) (n : Nat) (e : RecvOsErr) (hpkt : installSize pkt = some n) :
      Turned os (((os.note pkt).emptied n).fail e)
  | installed (pkt : NSPRawPacket) (n : Nat) (ret : Option RecvOsErr)
      (hpkt : installSize pkt = some n) : Turned os { (os.note pkt).allocated n with ret := ret }
  | filled (pkt : NSPRawPacket) (os' : RecvOs) (ret : Option RecvOsErr) (status completed : Bool)
      (hpkt : installSize pkt = none) (hstarted : os.started = true)
      (hcopy : contentsPayload pkt = [] ∧ os' = os.note pkt ∨
        (contentsPayload pkt).length ≤ os.remaining
          ∧ os' = (os.note pkt).copy (contentsPayload pkt))
      (hcompleted : completed = true → ret = none ∧ os'.remaining = 0) :
      Turned os { os' with ret := ret, sentStatus := status, completed := completed }

variable (os : RecvOs) (h : NspHandle)

/-- A call sets the return code and nothing else. -/
theorem exec_returning (p : NspProc Unit) (hret : os.ret = none) :
    ∃ ret h', Proc.exec (os.returning p) h = (.ok { os with ret := ret }, h') := by
  unfold returning
  rw [Proc.exec_bind, Proc.exec_attempt]
  cases hp : (Proc.exec p h).1 with
  | ok _ =>
      refine ⟨none, (Proc.exec p h).2, ?_⟩
      show (Except.ok os, _) = _
      rw [← hret]
  | error e => exact ⟨some (.nsp e), (Proc.exec p h).2, rfl⟩

theorem exec_answerStatus (pkt : NSPRawPacket) (hret : os.ret = none) :
    ∃ ret status h', Proc.exec (os.answerStatus pkt) h =
      (.ok { os with ret := ret, sentStatus := status }, h') := by
  unfold answerStatus
  rw [Proc.exec_ite]
  split
  · exact ⟨os.ret, os.sentStatus, h, rfl⟩
  · obtain ⟨ret, h', hexec⟩ := exec_returning { os with sentStatus := true } h
      (nspSendSimpleReply pkt nspPortOsInstall pkt.srcPort nspCmdStatus [0x00]
        (by simp [nspDataSize])) hret
    exact ⟨ret, true, h', hexec⟩

theorem exec_answerProgress (pkt : NSPRawPacket) (hdone : os.completed = false) :
    ∃ ret completed h', Proc.exec (os.answerProgress pkt) h =
        (.ok { os with ret := ret, completed := completed }, h')
      ∧ (completed = true → ret = none ∧ os.remaining = 0) := by
  unfold answerProgress
  rw [Proc.exec_ite]
  split
  · rename_i hcond
    obtain ⟨ret, h', hexec⟩ := exec_returning os h
      (nspSendSimpleReply pkt nspPortOsInstall nspPortOsInstall nspCmdOsProgress [0x64]
        (by simp [nspDataSize])) hcond.1
    rw [Proc.exec_bind_ok hexec]
    refine ⟨ret, ret.isNone, h', rfl, ?_⟩
    intro hnone
    exact ⟨Option.isNone_iff_eq_none.mp hnone, hcond.2⟩
  · refine ⟨os.ret, os.completed, h, rfl, ?_⟩
    intro hcompleted
    rw [hdone] at hcompleted
    cases hcompleted

theorem exec_answerContents (isNnse : Bool) (pkt : NSPRawPacket) (hret : os.ret = none)
    (hdone : os.completed = false) :
    ∃ ret status completed h', Proc.exec (os.answerContents isNnse pkt) h =
        (.ok { os with ret := ret, sentStatus := status, completed := completed }, h')
      ∧ (completed = true → ret = none ∧ os.remaining = 0) := by
  unfold answerContents
  rw [Proc.exec_ite]
  split
  · refine ⟨some (.nsp .invalidPacket), os.sentStatus, os.completed, h, rfl, ?_⟩
    intro hcompleted
    rw [hdone] at hcompleted
    cases hcompleted
  · obtain ⟨ret, status, h', hexec⟩ := exec_answerStatus os h pkt hret
    obtain ⟨ret', completed, h'', hexec', hcompleted⟩ :=
      exec_answerProgress { os with ret := ret, sentStatus := status } h' pkt hdone
    rw [Proc.exec_bind_ok hexec]
    exact ⟨ret', status, completed, h'', hexec', hcompleted⟩

@[simp] theorem note_started (pkt : NSPRawPacket) : (os.note pkt).started = os.started := rfl

@[simp] theorem note_remaining (pkt : NSPRawPacket) : (os.note pkt).remaining = os.remaining := rfl

/-- A request is too short, of a size that is not valid, without memory, or accepted. -/
theorem exec_install (turn : RecvOsTurn) (pkt : NSPRawPacket) (hret : os.ret = none)
    (hcmd : pkt.data.getD 0 0 = nspCmdOsInstall) :
    ∃ os' h', Proc.exec ((os.note pkt).install turn pkt) h = (.ok os', h') ∧ Turned os os' := by
  have hpayload : contentsPayload pkt = [] := by
    unfold contentsPayload
    rw [if_neg (by rw [hcmd]; decide)]
  unfold install
  rw [Proc.exec_ite, Proc.exec_ite, Proc.exec_ite]
  by_cases hshort : pkt.data.length < 5
  · have hpkt : installSize pkt = none := by
      unfold installSize
      rw [if_neg (by omega)]
    rw [if_pos hshort]
    exact ⟨_, h, rfl, .refused pkt (some (.nsp .invalidPacket)) hpkt fun _ => hpayload⟩
  rw [if_neg hshort]
  by_cases hvalid : nspOsReceiveSizeValid (declaredSize pkt.data) = true
  · have hpkt : installSize pkt = some (declaredSize pkt.data) := by
      unfold installSize
      rw [if_pos ⟨hcmd, by omega, hvalid⟩]
    rw [if_neg (not_not.mpr hvalid)]
    by_cases halloc : turn.alloc (declaredSize pkt.data) = true
    · rw [if_neg (not_not.mpr halloc)]
      obtain ⟨ret, h', hexec⟩ := exec_returning ((os.note pkt).allocated (declaredSize pkt.data)) h
        (nspSendSimpleReply pkt nspPortOsInstall pkt.srcPort nspCmdOsOk [] (by simp [nspDataSize]))
        hret
      exact ⟨_, h', hexec, .installed pkt _ ret hpkt⟩
    · rw [if_pos halloc]
      exact ⟨_, h, rfl, .noMemory pkt _ _ hpkt⟩
  · have hpkt : installSize pkt = none := by
      unfold installSize
      rw [if_neg (fun hall => hvalid hall.2.2)]
    rw [if_pos hvalid]
    exact ⟨_, h, rfl, .refused pkt (some (.nsp .invalidPacket)) hpkt fun _ => hpayload⟩

/-- Contents come too early, are too long, or are copied. -/
theorem exec_contents (isNnse : Bool) (pkt : NSPRawPacket) (hret : os.ret = none)
    (hdone : os.completed = false) (hpkt : installSize pkt = none)
    (hcmd : pkt.data.getD 0 0 = nspCmdOsContents) :
    ∃ os' h', Proc.exec ((os.note pkt).contents isNnse pkt) h = (.ok os', h') ∧ Turned os os' := by
  have hpayload : contentsPayload pkt = pkt.data.tail := by
    unfold contentsPayload
    rw [if_pos hcmd]
  have hlength : (contentsPayload pkt).length = pkt.data.length - 1 := by
    rw [hpayload, List.length_tail]
  unfold contents
  rw [Proc.exec_ite, Proc.exec_ite, Proc.exec_ite, note_started, note_remaining]
  by_cases hstarted : os.started = true
  · rw [if_neg (not_not.mpr hstarted)]
    by_cases hmore : 1 < pkt.data.length
    · rw [if_pos hmore]
      by_cases hover : os.remaining < pkt.data.length - 1
      · rw [if_pos hover]
        exact ⟨_, h, rfl, .refused pkt (some (.nsp .invalidPacket)) hpkt nofun⟩
      · rw [if_neg hover]
        obtain ⟨ret, status, completed, h', hexec, hcompleted⟩ := exec_answerContents
          ((os.note pkt).copy pkt.data.tail) h isNnse pkt hret hdone
        have hcopy : (contentsPayload pkt).length ≤ os.remaining
            ∧ (os.note pkt).copy pkt.data.tail = (os.note pkt).copy (contentsPayload pkt) := by
          rw [hlength, hpayload]
          exact ⟨by omega, rfl⟩
        exact ⟨_, h', hexec,
          .filled pkt _ ret status completed hpkt hstarted (.inr hcopy) hcompleted⟩
    · rw [if_neg hmore]
      obtain ⟨ret, status, completed, h', hexec, hcompleted⟩ :=
        exec_answerContents (os.note pkt) h isNnse pkt hret hdone
      have hempty : contentsPayload pkt = [] := by
        apply List.eq_nil_of_length_eq_zero
        omega
      exact ⟨_, h', hexec,
        .filled pkt _ ret status completed hpkt hstarted (.inl ⟨hempty, rfl⟩) hcompleted⟩
  · rw [if_pos hstarted]
    exact ⟨_, h, rfl, .refused pkt (some (.nsp .invalidPacket)) hpkt nofun⟩

/-- What becomes of a packet for the service. -/
theorem exec_service (turn : RecvOsTurn) (isNnse : Bool) (pkt : NSPRawPacket) (hret : os.ret = none)
    (hdone : os.completed = false) :
    ∃ os' h', Proc.exec ((os.note pkt).service turn isNnse pkt) h = (.ok os', h')
      ∧ Turned os os' := by
  unfold service
  rw [Proc.exec_ite, Proc.exec_ite, Proc.exec_ite]
  by_cases hempty : pkt.data.length < 1
  · have hpkt : installSize pkt = none := by
      unfold installSize
      rw [if_neg (by omega)]
    rw [if_pos hempty]
    exact ⟨_, h, rfl, .refused pkt (some (.nsp .invalidPacket)) hpkt nofun⟩
  rw [if_neg hempty]
  by_cases hinstall : pkt.data.getD 0 0 = nspCmdOsInstall
  · rw [if_pos hinstall]
    exact exec_install os h turn pkt hret hinstall
  have hpkt : installSize pkt = none := by
    unfold installSize
    rw [if_neg (fun hall => hinstall hall.1)]
  rw [if_neg hinstall]
  by_cases hcontents : pkt.data.getD 0 0 = nspCmdOsContents
  · rw [if_pos hcontents]
    exact exec_contents os h isNnse pkt hret hdone hpkt hcontents
  · have hpayload : contentsPayload pkt = [] := by
      unfold contentsPayload
      rw [if_neg hcontents]
    rw [if_neg hcontents]
    exact ⟨_, h, rfl, .refused pkt os.ret hpkt fun _ => hpayload⟩

/-- What becomes of a packet. -/
theorem exec_packet (turn : RecvOsTurn) (isNnse : Bool) (pkt : NSPRawPacket) (hret : os.ret = none)
    (hdone : os.completed = false) :
    ∃ os' h', Proc.exec (os.packet turn isNnse pkt) h = (.ok os', h') ∧ Turned os os' := by
  -- the packets for other ports are answered, and leave only a return code
  have hquiet : ∀ p, ∃ os' h', Proc.exec (os.returning p) h = (.ok os', h') ∧ Turned os os' := by
    intro p
    obtain ⟨ret, h', hexec⟩ := exec_returning os h p hret
    exact ⟨_, h', hexec, .quiet ret⟩
  unfold packet
  simp only [Proc.exec_ite]
  split
  · exact ⟨_, h, rfl, .quiet _⟩
  split
  · exact ⟨_, h, rfl, .quiet os.ret⟩
  split
  · exact hquiet _
  split
  · exact hquiet _
  split
  · exact hquiet _
  split
  · exact hquiet _
  split
  · exact ⟨_, h, rfl, .quiet os.ret⟩
  rw [Proc.exec_bind, Proc.exec_attempt]
  cases hack : (Proc.exec (nspSendAckForPacket pkt) h).1 with
  | error e => exact ⟨_, _, rfl, .quiet _⟩
  | ok _ => exact exec_service os _ turn isNnse pkt hret hdone

/-- A turn leaves the variables in one of the ways, and never stops the program. -/
theorem exec_turn (turn : RecvOsTurn) (isNnse : Bool) (hret : os.ret = none)
    (hdone : os.completed = false) :
    ∃ os' h', Proc.exec (os.turn turn isNnse) h = (.ok os', h') ∧ Turned os os' := by
  unfold RecvOs.turn
  rw [Proc.exec_bind, Proc.exec_attempt]
  cases hrecv : (Proc.exec nspRecv h).1 with
  | error e => exact ⟨_, _, rfl, .quiet _⟩
  | ok pkt => exact exec_packet os _ turn isNnse pkt hret hdone

/-! ## the invariant -/

/-- The part that is allocated; a null pointer has none. -/
def part : List UInt8 := os.content.dataPart.getD []

/-- The counters and the part, for what has been received. -/
structure Inv : Prop where
  inside : os.overrun = false
  account : os.written + os.remaining = (osTransfer os.received).size
  allocated : os.part.length = os.content.dataLength
  size : (osTransfer os.received).size < nspOsMaxSize
  started : os.started = true → 0 < (osTransfer os.received).size
  completed : os.completed = true → os.ret = none ∧ os.remaining = 0 ∧ os.started = true
  -- once a call has failed, the transfer is not looked at any more
  length : os.ret = none → os.content.dataLength = (osTransfer os.received).size
  written : os.ret = none → os.written = (osTransfer os.received).payload.length
  filled : os.ret = none → os.part.take os.written = (osTransfer os.received).payload

theorem inv_start (content : FlashContent) : (start content).Inv where
  inside := rfl
  account := rfl
  allocated := rfl
  size := by
    show 0 < nspOsMaxSize
    decide
  started := nofun
  completed := nofun
  length := fun _ => rfl
  written := fun _ => rfl
  filled := fun _ => rfl

theorem installSize_valid {pkt : NSPRawPacket} {n : Nat} (h : installSize pkt = some n) :
    0 < n ∧ n < nspOsMaxSize := by
  unfold installSize at h
  split at h
  · rename_i hcond
    cases h
    simpa [nspOsReceiveSizeValid] using hcond.2.2
  · cases h

/-- A packet that is neither a request nor contents leaves the transfer. -/
theorem Inv.refused {os : RecvOs} (hinv : os.Inv) (hret : os.ret = none) (hdone : os.completed = false)
    {pkt : NSPRawPacket} {ret : Option RecvOsErr} (hpkt : installSize pkt = none)
    (hpayload : ret = none → contentsPayload pkt = []) : Inv { os.note pkt with ret := ret } := by
  have hreceived : osTransfer (os.received ++ [pkt]) =
      ⟨(osTransfer os.received).size, (osTransfer os.received).payload ++ contentsPayload pkt⟩ := by
    rw [osTransfer_append, OsTransfer.next_of_none hpkt]
  have hsize : (osTransfer (os.received ++ [pkt])).size = (osTransfer os.received).size := by
    rw [hreceived]
  have hsame : ret = none →
      (osTransfer (os.received ++ [pkt])).payload = (osTransfer os.received).payload := by
    intro hnone
    rw [hreceived, hpayload hnone, List.append_nil]
  constructor
  · exact hinv.inside
  · exact hinv.account.trans hsize.symm
  · exact hinv.allocated
  · exact hsize.trans_lt hinv.size
  · intro hstarted
    exact (hinv.started hstarted).trans_eq hsize.symm
  · intro hcompleted
    exact absurd hcompleted (by simp [note, hdone])
  · intro _
    exact (hinv.length hret).trans hsize.symm
  · intro hnone
    exact (hinv.written hret).trans (congrArg List.length (hsame hnone).symm)
  · intro hnone
    exact (hinv.filled hret).trans (hsame hnone).symm

/-- A request that is accepted, with or without memory for it. -/
theorem Inv.restarted {os os' : RecvOs} {pkt : NSPRawPacket} {n : Nat}
    (hpkt : installSize pkt = some n) (hreceived : os'.received = os.received ++ [pkt])
    (hinside : os'.overrun = false) (hwritten : os'.written = 0) (hremaining : os'.remaining = n)
    (hallocated : os'.part.length = os'.content.dataLength)
    (hlength : os'.ret = none → os'.content.dataLength = n)
    (hdone : os'.completed = false) : os'.Inv := by
  have htransfer : osTransfer os'.received = ⟨n, []⟩ := by
    rw [hreceived, osTransfer_append, OsTransfer.next_of_some hpkt]
  obtain ⟨hpos, hmax⟩ := installSize_valid hpkt
  constructor
  · exact hinside
  · rw [hwritten, hremaining, htransfer, Nat.zero_add]
  · exact hallocated
  · rw [htransfer]
    exact hmax
  · intro _
    rw [htransfer]
    exact hpos
  · intro hcompleted
    rw [hdone] at hcompleted
    cases hcompleted
  · intro hnone
    rw [htransfer]
    exact hlength hnone
  · intro _
    rw [htransfer, hwritten]
    rfl
  · intro _
    rw [htransfer, hwritten]
    rfl

/-- A payload that fits is copied behind what has come before it. -/
theorem Inv.copied {os : RecvOs} (hinv : os.Inv) (hret : os.ret = none) (hdone : os.completed = false)
    {pkt : NSPRawPacket} (hpkt : installSize pkt = none)
    (hfits : (contentsPayload pkt).length ≤ os.remaining) :
    ((os.note pkt).copy (contentsPayload pkt)).Inv := by
  have hreceived : osTransfer (os.received ++ [pkt]) =
      ⟨(osTransfer os.received).size, (osTransfer os.received).payload ++ contentsPayload pkt⟩ := by
    rw [osTransfer_append, OsTransfer.next_of_none hpkt]
  have haccount := hinv.account
  have hsize := hinv.size
  have hlength := hinv.allocated.trans (hinv.length hret)
  have hroom : os.written + (contentsPayload pkt).length ≤ os.part.length := by omega
  -- the counter does not wrap
  have hwritten : (os.written + (contentsPayload pkt).length) % 2 ^ 32
      = os.written + (contentsPayload pkt).length := by
    apply Nat.mod_eq_of_lt
    have hmax : nspOsMaxSize < 2 ^ 32 := by decide
    omega
  have hpart : ((os.note pkt).copy (contentsPayload pkt)).part
      = writeAt os.part os.written (contentsPayload pkt) := rfl
  constructor
  · show (os.overrun || decide (os.part.length < os.written + (contentsPayload pkt).length)) = false
    rw [hinv.inside, Bool.false_or]
    exact decide_eq_false (by omega)
  · show (os.written + (contentsPayload pkt).length) % 2 ^ 32
      + (os.remaining - (contentsPayload pkt).length) = (osTransfer (os.received ++ [pkt])).size
    rw [hwritten, hreceived]
    show _ = (osTransfer os.received).size
    omega
  · rw [hpart, length_writeAt hroom]
    exact hinv.allocated
  · show (osTransfer (os.received ++ [pkt])).size < nspOsMaxSize
    rw [hreceived]
    exact hsize
  · intro hstarted
    show 0 < (osTransfer (os.received ++ [pkt])).size
    rw [hreceived]
    exact hinv.started hstarted
  · intro hcompleted
    exact absurd hcompleted (by simp [copy, note, hdone])
  · intro _
    show os.content.dataLength = (osTransfer (os.received ++ [pkt])).size
    rw [hreceived]
    exact hinv.length hret
  · intro _
    show (os.written + (contentsPayload pkt).length) % 2 ^ 32
      = (osTransfer (os.received ++ [pkt])).payload.length
    rw [hwritten, hreceived, List.length_append, hinv.written hret]
  · intro _
    show ((os.note pkt).copy (contentsPayload pkt)).part.take
      ((os.written + (contentsPayload pkt).length) % 2 ^ 32)
        = (osTransfer (os.received ++ [pkt])).payload
    rw [hwritten, hpart, take_writeAt _ (by omega), hreceived, hinv.filled hret]

/-- The replies to contents change what the invariant says only by the end. -/
theorem Inv.answered {os : RecvOs} (hinv : os.Inv) (hret : os.ret = none)
    (hstarted : os.started = true) {ret : Option RecvOsErr} {status completed : Bool}
    (hcompleted : completed = true → ret = none ∧ os.remaining = 0) :
    Inv { os with ret := ret, sentStatus := status, completed := completed } where
  inside := hinv.inside
  account := hinv.account
  allocated := hinv.allocated
  size := hinv.size
  started := hinv.started
  completed := fun hc => ⟨(hcompleted hc).1, (hcompleted hc).2, hstarted⟩
  length := fun _ => hinv.length hret
  written := fun _ => hinv.written hret
  filled := fun _ => hinv.filled hret

/-- A turn keeps the invariant. -/
theorem Inv.turned {os os' : RecvOs} (hinv : os.Inv) (hret : os.ret = none)
    (hdone : os.completed = false) (hturn : Turned os os') : os'.Inv := by
  cases hturn with
  | quiet ret =>
      exact {
        inside := hinv.inside
        account := hinv.account
        allocated := hinv.allocated
        size := hinv.size
        started := hinv.started
        completed := fun hcompleted => absurd hcompleted (by simp [hdone])
        length := fun _ => hinv.length hret
        written := fun _ => hinv.written hret
        filled := fun _ => hinv.filled hret }
  | refused pkt ret hpkt hpayload => exact hinv.refused hret hdone hpkt hpayload
  | noMemory pkt n e hpkt =>
      exact Inv.restarted hpkt rfl hinv.inside rfl rfl rfl nofun hdone
  | installed pkt n ret hpkt =>
      exact Inv.restarted hpkt rfl hinv.inside rfl rfl List.length_replicate (fun _ => rfl) hdone
  | filled pkt os₁ ret status completed hpkt hstarted hcopy hcompleted =>
      rcases hcopy with ⟨hempty, rfl⟩ | ⟨hfits, rfl⟩
      · have hnoted : (os.note pkt).Inv := by
          rw [show os.note pkt = { os.note pkt with ret := none } by rw [← hret]; rfl]
          exact hinv.refused hret hdone hpkt fun _ => hempty
        exact hnoted.answered hret hstarted hcompleted
      · exact (hinv.copied hret hdone hpkt hfits).answered hret hstarted hcompleted

/-- The loop keeps the invariant, and never stops the program. -/
theorem exec_loop (isNnse : Bool) (turns : List RecvOsTurn) {os : RecvOs} (hinv : os.Inv)
    (h : NspHandle) :
    ∃ os' h', Proc.exec (loop isNnse turns os) h = (.ok os', h') ∧ os'.Inv := by
  induction turns generalizing os h with
  | nil => exact ⟨os, h, rfl, hinv⟩
  | cons turn turns ih =>
      unfold loop
      rw [Proc.exec_ite]
      split
      · rename_i hgoing
        have hdone : os.completed = false := by simpa using hgoing.2
        obtain ⟨os', h', hexec, hturn⟩ := exec_turn os h turn isNnse hgoing.1 hdone
        rw [Proc.exec_bind_ok hexec]
        exact ih (hinv.turned hgoing.1 hdone hturn) h'
      · exact ⟨os, h, rfl, hinv⟩

/-- A transfer that is complete has all that was announced. -/
theorem Inv.success {os : RecvOs} (hinv : os.Inv) (hcompleted : os.completed = true) :
    ∃ before install after, os.received = before ++ install :: after
      ∧ installSize install = some os.content.dataLength
      ∧ (∀ p ∈ after, installSize p = none)
      ∧ os.content.dataPart = some (after.flatMap contentsPayload)
      ∧ (after.flatMap contentsPayload).length = os.content.dataLength := by
  obtain ⟨hret, hremaining, hstarted⟩ := hinv.completed hcompleted
  have haccount := hinv.account
  have hlength := hinv.length hret
  have hpos := hinv.started hstarted
  have hpartlen := hinv.allocated
  have hall : os.written = os.part.length := by omega
  have hpart : os.part = (osTransfer os.received).payload := by
    rw [← hinv.filled hret, hall, List.take_length]
  have hsome : os.content.dataPart = some os.part := by
    cases hdata : os.content.dataPart with
    | none =>
        have hnil : os.part = [] := by
          unfold part
          rw [hdata]
          rfl
        rw [hnil] at hpartlen
        exact absurd hpartlen (by simp; omega)
    | some bytes =>
        unfold part
        rw [hdata]
        rfl
  rcases osTransfer_cases os.received with hzero | ⟨before, install, after, hreceived, hinstall,
    hafter, hpayload⟩
  · omega
  · refine ⟨before, install, after, hreceived, ?_, hafter, ?_, ?_⟩
    · rw [hinstall, hlength]
    · rw [hsome, hpart, hpayload]
    · rw [← hpayload, ← hpart, hpartlen]

end RecvOs

/-- A request for three bytes and the three bytes, on a cable. -/
example :
    let install : NSPRawPacket :=
      ⟨0x54FD, 0x6401, 0x8001, 0x6400, 0x4080, 0, 0, 1, 0, [0x03, 0, 0, 0, 3], by decide⟩
    let contents : NSPRawPacket :=
      ⟨0x54FD, 0x6401, 0x8001, 0x6400, 0x4080, 0, 0, 2, 0, [0x05, 7, 8, 9], by decide⟩
    let turns := List.replicate 3 ⟨false, fun _ => true⟩
    let h := { NspHandle.new false with cable := ⟨install.bytes ++ contents.bytes, [], none⟩ }
    (Proc.exec (recvOs turns (some ⟨"", 0, none⟩)) h).1 = .ok (some {
      content := ⟨"ti-nspire_os_received", 3, some [7, 8, 9]⟩
      ret := none, started := true, sentStatus := true, completed := true
      remaining := 0, written := 3, received := [install, contents], overrun := false }) := by
  decide +kernel

end Tilibs.Nsp
