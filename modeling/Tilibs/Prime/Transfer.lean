import Tilibs.Lib.Chunk
import Tilibs.Prime.Frame

/-!
# Tilibs.Prime.Transfer

Messages of the HP Prime V2 protocol: `prime_v2_send_frames_from` cuts a
message into frames, `prime_v2_recv_message` puts it together again.

The two loops share nothing but the frame format.  The receiver acknowledges
every 77 reports and at the end of the message; a G1 calculator may answer with
a report of the older protocol, which is taken over by a loop of its own.
-/

namespace Tilibs.Prime

open Tilibs.Lib

/-! ## Sending a message -/

/-- The loop of `prime_v2_send_frames_from`; `remaining` is the message from
the offset on.  Every turn but the last sends at least one byte, so `fuel` is
more than the bytes left. -/
def primeV2SendFramesLoop (messageId size : Nat) :
    Nat → Bool → List UInt8 → Nat → PrimeProc Unit
  | 0, _, _, _ => pure ()
  | fuel + 1, first, remaining, sequence => do
      let reportSize := (← get).reportSize.bytes
      let available := reportSize - headerSize first
      let frame ← Proc.ofExcept
        (primeV2EncodeContent sequence messageId size (remaining.take available) reportSize)
      primeV2SendFrame frame
      let remaining := remaining.drop available
      if remaining = [] then pure ()
      else primeV2SendFramesLoop messageId size fuel false remaining (primeV2NextSequence sequence)

def primeV2SendFramesFrom (messageId : Nat) (data : List UInt8) (offset sequence : Nat) :
    PrimeProc Unit := do
  let reportSize := (← get).reportSize.bytes
  if data.length < offset then throw .invalidParameter
  else if reportSize < primeV2StartHeaderSize ∨ primeRawHidDataSizeMax < reportSize then
    throw .packetFormat
  else if (offset = 0 ∧ sequence ≠ primeV2SequenceFirst) ∨
      (offset ≠ 0 ∧ (sequence < 2 ∨ primeV2SequenceLast < sequence)) then throw .packetFormat
  else
    primeV2SendFramesLoop messageId data.length (data.length - offset + 1) (decide (offset = 0))
      (data.drop offset) sequence

/-! ## Receiving a message of the older protocol -/

/-- `prime_data_size`: the size of the virtual packet that starts with `data`. -/
def primeDataSize (cmd : UInt8) (data : List UInt8) : Except PrimeErr Nat :=
  if cmd = 0xFF then .ok 1
  else if cmd = 0xFA ∨ cmd = 0xFC ∨ cmd = 0xF9 ∨ cmd = 0xF7 ∨ cmd = 0xF2 then
    if data.getD 1 0 = 0x01 ∨ data.getD 1 0 = 0x03 then
      let payloadSize := getBE ((data.drop 2).take 4)
      if 2 ^ 32 - 1 - 6 < payloadSize then .error .packetFormat else .ok (payloadSize + 6)
    else .error .packetFormat
  else .ok 0

/-- A received message and its identifier, which is 0 in the older protocol. -/
structure PrimeV2Message where
  data : List UInt8
  messageId : Nat
  deriving DecidableEq, Repr

def primeV2RecvLegacyLoop (totalSize : Nat) :
    Nat → Nat → List UInt8 → PrimeProc PrimeV2Message
  | 0, _, _ => throw .cableRead
  | fuel + 1, reportIndex, message => do
      if totalSize ≤ message.length then pure ⟨message, 0⟩
      else
        match ← primeRecv with
        | .error e => throw e
        | .ok raw =>
            let expected := (reportIndex + reportIndex / 0xFF) % 256
            if raw.length = 0 ∨ (raw.headD 0).toNat ≠ expected then throw .packetFormat
            else
              primeV2RecvLegacyLoop totalSize fuel ((reportIndex + 1) % 2 ^ 32)
                (message ++ raw.tail.take (totalSize - message.length))

/-- Take over from the first report of a message in the older protocol. -/
def primeV2RecvLegacyMessage (first : List UInt8) : PrimeProc PrimeV2Message := do
  if first.length < 7 ∨ first.headD 0 ≠ 0 then throw .packetFormat
  else
    let totalSize ← Proc.ofExcept (primeDataSize (first.getD 1 0) first.tail)
    if totalSize = 0 ∨ primeV2MaxMessageSize < totalSize then throw .packetFormat
    else
      let h ← get
      primeV2RecvLegacyLoop totalSize (h.port.rx.length + 2) 1 (first.tail.take totalSize)

/-! ## Receiving a message -/

/-- What the receive loop keeps between two reports; its `offset` is the length
of `message`. -/
structure PrimeV2Rx where
  started : Bool
  message : List UInt8
  messageId : Nat
  totalSize : Nat
  ackPosition : Nat
  reportsSinceAck : Nat
  retries : Nat
  controls : Nat
  expectedSequence : Nat
  deriving DecidableEq, Repr

def PrimeV2Rx.init : PrimeV2Rx :=
  ⟨false, [], 0, 0, 0, 0, 0, 0, primeV2SequenceFirst⟩

/-- Ask for the frame the receiver waits for. -/
def PrimeV2Rx.nack (st : PrimeV2Rx) : PrimeProc PrimeV2Rx := do
  primeV2SendAckFrame false st.expectedSequence st.message.length st.messageId
  pure { st with retries := st.retries + 1 }

/-- The first content frame says how long the message is. -/
def PrimeV2Rx.begin (st : PrimeV2Rx) (frame : PrimeV2Content) : Except PrimeErr PrimeV2Rx :=
  if st.started then .ok st
  else if ¬ frame.isStart ∨ primeV2MaxMessageSize < frame.totalSize then .error .packetFormat
  else .ok { st with started := true, totalSize := frame.totalSize, messageId := frame.messageId }

/-- Append the data of the expected frame, without its padding. -/
def PrimeV2Rx.take (st : PrimeV2Rx) (frame : PrimeV2Content) (frameCapacity : Nat) : PrimeV2Rx :=
  { st with
    message := st.message ++ frame.data.take (st.totalSize - st.message.length)
    ackPosition := st.ackPosition + frameCapacity
    reportsSinceAck := st.reportsSinceAck + 1
    expectedSequence := primeV2NextSequence st.expectedSequence
    retries := 0 }

/-- The receive loop; every turn takes an event from the cable, and at most
`primeV2MaxRetries` more fail after the last one. -/
def primeV2RecvLoop : Nat → PrimeV2Rx → PrimeProc PrimeV2Message
  | 0, _ => throw .cableRead
  | fuel + 1, st => do
      match ← primeRecv with
      | .error e =>
          if ¬ st.started ∨ primeV2MaxRetries < st.retries + 1 then throw e
          else
            let st ← st.nack
            primeV2RecvLoop fuel st
      | .ok raw =>
          -- heartbeats and delayed acknowledgements
          if primeV2IsHeartbeat raw ∨ (raw.length ≠ 0 ∧ (raw.headD 0).toNat = primeV2SequenceOob) then
            if primeV2MaxControlFrames < st.controls + 1 then throw .packetFormat
            else primeV2RecvLoop fuel { st with controls := st.controls + 1 }
          else if ¬ st.started ∧ raw.length ≠ 0 ∧ raw.headD 0 = 0 then primeV2RecvLegacyMessage raw
          else
            let frame ← Proc.ofExcept (primeV2DecodeContent raw)
            let st ← Proc.ofExcept (PrimeV2Rx.begin { st with controls := 0 } frame)
            if frame.sequence ≠ st.expectedSequence ∨ (frame.isStart ∧ st.message.length ≠ 0) then
              if primeV2MaxRetries < st.retries + 1 then throw .packetFormat
              else
                let st ← st.nack
                primeV2RecvLoop fuel st
            else
              let reportSize := (← get).reportSize.bytes
              let frameCapacity := reportSize - headerSize frame.isStart
              if reportSize < primeV2StartHeaderSize ∨
                  2 ^ 32 - 1 - frameCapacity < st.ackPosition then throw .packetFormat
              else
                let st := st.take frame frameCapacity
                if st.message.length = st.totalSize then
                  primeV2SendAckFrame true frame.sequence st.ackPosition st.messageId
                  pure ⟨st.message, st.messageId⟩
                else if st.reportsSinceAck = primeV2AckReportWindow then
                  primeV2SendAckFrame true st.expectedSequence st.ackPosition st.messageId
                  primeV2RecvLoop fuel { st with reportsSinceAck := 0 }
                else primeV2RecvLoop fuel st

def primeV2RecvMessage : PrimeProc PrimeV2Message := do
  let h ← get
  if h.version ≠ .v2 then throw .packetFormat
  else primeV2RecvLoop (h.port.rx.length + primeV2MaxRetries + 2) PrimeV2Rx.init

end Tilibs.Prime
