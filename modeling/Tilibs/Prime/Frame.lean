import Tilibs.Lib.Bytes
import Tilibs.Lib.Proc

/-!
# Tilibs.Prime.Frame

Frames of the HP Prime V2 protocol (`prime_protocol_v2.c`) and the HID reports
that carry them.

The first byte of a frame says what it is: `1` starts a message, `2` to `0xFD`
continue it, `0xFE` is an acknowledgement, and `0` a report of the older
protocol.  Every frame is padded with zeros to the size of a report, so the
receiver learns the length of a message only from its start frame.
-/

namespace Tilibs.Prime

open Tilibs.Lib

/-! ## Constants -/

def primeRawHidDataSizeMax : Nat := 1024
def primeV2AckFrameSize : Nat := 12
def primeV2StartHeaderSize : Nat := 9
def primeV2ContHeaderSize : Nat := 1
def primeV2SequenceFirst : Nat := 1
def primeV2SequenceLast : Nat := 0xFD
def primeV2SequenceOob : Nat := 0xFE
def primeV2SequenceHeartbeat : Nat := 0xFF
def primeV2MaxMessageSize : Nat := 64 * 1024 * 1024
def primeV2MaxRetries : Nat := 3
def primeV2MaxControlFrames : Nat := 1024
def primeV2AckReportWindow : Nat := 77

/-! ## The handle -/

inductive PrimeErr
  | invalidHandle
  | invalidParameter
  | packetFormat
  | cableRead
  | cableWrite
  | malloc
  | undefinedBehaviour
  deriving DecidableEq, Repr

/-- The report sizes the cables open with: that of the G1, and that of the G2. -/
inductive ReportSize
  | legacy
  | g2
  deriving DecidableEq, Repr

def ReportSize.bytes : ReportSize → Nat
  | .legacy => 64
  | .g2 => 1024

theorem ReportSize.eq_or (r : ReportSize) : r.bytes = 64 ∨ r.bytes = 1024 := by
  cases r <;> simp [ReportSize.bytes]

inductive PrimeProtocol
  | legacy
  | v2
  deriving DecidableEq, Repr

/-- The part of the handle the protocol uses.  A read ends with a report or
with an error; what is sent are reports behind their report ID. -/
structure PrimeHandle where
  port : Port (Except PrimeErr (List UInt8)) (List UInt8)
  reportSize : ReportSize
  version : PrimeProtocol
  nextMessageId : Nat
  deriving DecidableEq

abbrev PrimeProc := Proc PrimeHandle PrimeErr

/-- Read the next report; when the peer sends nothing more, reading fails. -/
def primeRecv : PrimeProc (Except PrimeErr (List UInt8)) := do
  let h ← get
  match h.port.recv with
  | some (report, port) =>
      set { h with port := port }
      pure report
  | none => pure (.error .cableRead)

def primeSend (raw : List UInt8) : PrimeProc Unit := do
  let h ← get
  match h.port.send raw with
  | some port => set { h with port := port }
  | none => throw .cableWrite

/-! ## Sequence numbers -/

def primeV2NextSequence (sequence : Nat) : Nat :=
  if sequence < primeV2SequenceFirst ∨ primeV2SequenceLast ≤ sequence then primeV2SequenceFirst + 1
  else sequence + 1

/-- After the first frame the numbers stay away from the reserved ones. -/
theorem primeV2NextSequence_bounds (sequence : Nat) :
    2 ≤ primeV2NextSequence sequence ∧ primeV2NextSequence sequence ≤ primeV2SequenceLast := by
  unfold primeV2NextSequence primeV2SequenceFirst primeV2SequenceLast
  by_cases h : sequence < 1 ∨ 0xFD ≤ sequence
  · rw [if_pos h]
    omega
  · rw [if_neg h]
    omega

/-! ## Content frames -/

/-- A decoded content frame. -/
structure PrimeV2Content where
  sequence : Nat
  isStart : Bool
  messageId : Nat
  totalSize : Nat
  data : List UInt8
  deriving DecidableEq, Repr

def headerSize (first : Bool) : Nat :=
  if first then primeV2StartHeaderSize else primeV2ContHeaderSize

def primeV2EncodeContent (sequence messageId totalSize : Nat) (data : List UInt8)
    (capacity : Nat) : Except PrimeErr (List UInt8) :=
  let start := sequence = primeV2SequenceFirst
  if sequence < primeV2SequenceFirst ∨ primeV2SequenceLast < sequence then .error .packetFormat
  else if capacity < headerSize start ∨ capacity - headerSize start < data.length then
    .error .packetFormat
  else if start ∧ (messageId = 0 ∨ totalSize < data.length) then .error .packetFormat
  else
    .ok (UInt8.ofNat sequence ::
      (if start then putLE 4 messageId ++ putLE 4 totalSize else []) ++ data)

def primeV2DecodeContent (data : List UInt8) : Except PrimeErr PrimeV2Content :=
  let sequence := (data.headD 0).toNat
  let isStart := decide (sequence = primeV2SequenceFirst)
  let messageId := if isStart then getLE ((data.drop 1).take 4) else 0
  if data.length < primeV2ContHeaderSize then .error .invalidParameter
  else if sequence < primeV2SequenceFirst ∨ primeV2SequenceLast < sequence then
    .error .packetFormat
  else if data.length < headerSize isStart then .error .packetFormat
  else if isStart ∧ messageId = 0 then .error .packetFormat
  else
    .ok
      { sequence
        isStart
        messageId
        totalSize := if isStart then getLE ((data.drop 5).take 4) else 0
        data := data.drop (headerSize isStart) }

/-! ## Acknowledgements -/

structure PrimeV2Ack where
  isAck : Bool
  sequenceToResend : Nat
  blockPosition : Nat
  messageId : Nat
  deriving DecidableEq, Repr

def primeV2EncodeAck (ack : PrimeV2Ack) : Except PrimeErr (List UInt8) :=
  if ack.messageId = 0 ∨ ack.sequenceToResend = primeV2SequenceOob then .error .packetFormat
  else
    .ok (UInt8.ofNat primeV2SequenceOob :: (if ack.isAck then 1 else 0) ::
      UInt8.ofNat ack.sequenceToResend :: 0 ::
      (putLE 4 ack.blockPosition ++ putLE 4 ack.messageId))

/-- The bytes of an acknowledgement. -/
def ackBytes (isAck : Bool) (sequence position messageId : Nat) : List UInt8 :=
  UInt8.ofNat primeV2SequenceOob :: (if isAck then 1 else 0) :: UInt8.ofNat sequence :: 0 ::
    (putLE 4 position ++ putLE 4 messageId)

theorem primeV2EncodeAck_eq_ok {isAck : Bool} {sequence position messageId : Nat}
    (hid : messageId ≠ 0) (hsequence : sequence ≠ primeV2SequenceOob) :
    primeV2EncodeAck ⟨isAck, sequence, position, messageId⟩ =
      .ok (ackBytes isAck sequence position messageId) := by
  simp [primeV2EncodeAck, hid, hsequence, ackBytes]

def primeV2DecodeAck (data : List UInt8) : Except PrimeErr PrimeV2Ack :=
  let isAck := decide (data.getD 1 0 = 1)
  let sequence := (data.getD 2 0).toNat
  let messageId := getLE ((data.drop 8).take 4)
  if data.length < primeV2AckFrameSize ∨ (data.headD 0).toNat ≠ primeV2SequenceOob ∨
      1 < data.getD 1 0 ∨ data.getD 3 0 ≠ 0 then .error .packetFormat
  else if messageId = 0 then .error .packetFormat
  -- an acknowledgement may carry any sequence number
  else if ¬ isAck ∧ (sequence < primeV2SequenceFirst ∨ primeV2SequenceLast < sequence) then
    .error .packetFormat
  else
    .ok ⟨isAck, sequence, getLE ((data.drop 4).take 4), messageId⟩

def primeV2IsHeartbeat (data : List UInt8) : Bool :=
  3 ≤ data.length && (data.headD 0).toNat = primeV2SequenceOob && data.getD 1 0 = 1 &&
    (data.getD 2 0).toNat = primeV2SequenceHeartbeat &&
    (data.length < primeV2AckFrameSize || getLE ((data.drop 8).take 4) = 0)

/-! ## Sending frames -/

/-- A frame as a report of the given size behind its report ID. -/
def reportOf (size : Nat) (frame : List UInt8) : List UInt8 := 0 :: padRight size 0 frame

/-- What the cable delivers of a report that was sent. -/
def delivered (report : List UInt8) : Except PrimeErr (List UInt8) := .ok report.tail

def primeV2SendFrame (frame : List UInt8) : PrimeProc Unit := do
  let size := (← get).reportSize.bytes + 1
  if primeRawHidDataSizeMax < frame.length then throw .invalidParameter
  else if size ≤ frame.length ∨ primeRawHidDataSizeMax + 1 < size then throw .packetFormat
  else primeSend (reportOf (size - 1) frame)

def primeV2SendAckFrame (isAck : Bool) (sequence position messageId : Nat) : PrimeProc Unit := do
  let frame ← Proc.ofExcept (primeV2EncodeAck ⟨isAck, sequence, position, messageId⟩)
  primeV2SendFrame frame

section Exec

variable (rx : List (Except PrimeErr (List UInt8))) (tx : List (List UInt8)) (size : ReportSize)
  (version : PrimeProtocol) (next : Nat)

@[simp] theorem exec_primeRecv_cons (r : Except PrimeErr (List UInt8)) :
    Proc.exec primeRecv ⟨⟨r :: rx, tx, none⟩, size, version, next⟩ =
      (.ok r, ⟨⟨rx, tx, none⟩, size, version, next⟩) := by
  simp [primeRecv, Proc.exec_bind, Except.map]

@[simp] theorem exec_primeRecv_nil :
    Proc.exec primeRecv ⟨⟨[], tx, none⟩, size, version, next⟩ =
      (.ok (.error .cableRead), ⟨⟨[], tx, none⟩, size, version, next⟩) := by
  simp [primeRecv, Proc.exec_bind]

/-- A frame that fits a report goes out in one. -/
theorem exec_primeV2SendFrame (frame : List UInt8) (h : frame.length ≤ size.bytes) :
    Proc.exec (primeV2SendFrame frame) ⟨⟨rx, tx, none⟩, size, version, next⟩ =
      (.ok (), ⟨⟨rx, tx ++ [reportOf size.bytes frame], none⟩, size, version, next⟩) := by
  have hmax : size.bytes ≤ primeRawHidDataSizeMax := by cases size <;> decide
  have hinvalid : ¬ primeRawHidDataSizeMax < frame.length := by omega
  simp [primeV2SendFrame, Proc.exec_bind, hinvalid, h, hmax, primeSend]

/-- An acknowledgement fits every report. -/
theorem exec_primeV2SendAckFrame (isAck : Bool) {sequence : Nat} (position : Nat)
    {messageId : Nat} (hid : messageId ≠ 0) (hsequence : sequence ≠ primeV2SequenceOob) :
    Proc.exec (primeV2SendAckFrame isAck sequence position messageId)
        ⟨⟨rx, tx, none⟩, size, version, next⟩ =
      (.ok (), ⟨⟨rx, tx ++ [reportOf size.bytes (ackBytes isAck sequence position messageId)],
        none⟩, size, version, next⟩) := by
  have hlen : (ackBytes isAck sequence position messageId).length ≤ size.bytes := by
    cases size <;> simp [ackBytes, ReportSize.bytes]
  rw [primeV2SendAckFrame, primeV2EncodeAck_eq_ok hid hsequence,
    Proc.exec_bind_ok (Proc.exec_ofExcept _ _), exec_primeV2SendFrame _ _ _ _ _ _ hlen]

end Exec

end Tilibs.Prime
