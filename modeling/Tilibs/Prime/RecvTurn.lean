import Tilibs.Prime.Send

/-!
# Tilibs.Prime.RecvTurn

What one turn of `prime_v2_recv_message` does with a report or a failed read, apart from the
acknowledgements it sends: it stops, skips the report, asks for a frame again, goes over to the
older protocol, or appends a frame to the message.
-/

namespace Tilibs.Prime

open Tilibs.Lib

/-! ## one turn -/

inductive RecvTurn
  | stop (err : PrimeErr)
  | skip (st : PrimeV2Rx)
  | nack (st : PrimeV2Rx)
  | legacy (first : List UInt8)
  | append (st : PrimeV2Rx) (frame : PrimeV2Content)

/-- A turn on a content frame, once the message has begun. -/
def PrimeV2Rx.contentTurn (size : ReportSize) (st : PrimeV2Rx) (frame : PrimeV2Content) :
    RecvTurn :=
  if frame.sequence ≠ st.expectedSequence ∨ (frame.isStart ∧ st.message.length ≠ 0) then
    if primeV2MaxRetries < st.retries + 1 then .stop .packetFormat else .nack st
  else if size.bytes < primeV2StartHeaderSize ∨
      2 ^ 32 - 1 - (size.bytes - headerSize frame.isStart) < st.ackPosition then
    .stop .packetFormat
  else .append st frame

/-- A turn of the loop, on a report or on an error. -/
def PrimeV2Rx.turn (size : ReportSize) (st : PrimeV2Rx) : Event → RecvTurn
  | .error e =>
      if ¬ st.started ∨ primeV2MaxRetries < st.retries + 1 then .stop e else .nack st
  | .ok raw =>
      if primeV2IsHeartbeat raw ∨ (raw.length ≠ 0 ∧ (raw.headD 0).toNat = primeV2SequenceOob) then
        if primeV2MaxControlFrames < st.controls + 1 then .stop .packetFormat
        else .skip { st with controls := st.controls + 1 }
      else if ¬ st.started ∧ raw.length ≠ 0 ∧ raw.headD 0 = 0 then .legacy raw
      else
        match primeV2DecodeContent raw with
        | .error e => .stop e
        | .ok frame =>
            match PrimeV2Rx.begin { st with controls := 0 } frame with
            | .error e => .stop e
            | .ok st => st.contentTurn size frame

/-- The state after a frame was appended. -/
def PrimeV2Rx.appended (size : ReportSize) (st : PrimeV2Rx) (frame : PrimeV2Content) :
    PrimeV2Rx :=
  st.take frame (size.bytes - headerSize frame.isStart)

/-- What follows when a frame was appended: the end, the acknowledgement of a window, or neither. -/
def PrimeV2Rx.settle (fuel : Nat) (st : PrimeV2Rx) (sequence : Nat) : PrimeProc PrimeV2Message :=
  if st.message.length = st.totalSize then do
    primeV2SendAckFrame true sequence st.ackPosition st.messageId
    pure ⟨st.message, st.messageId⟩
  else if st.reportsSinceAck = primeV2AckReportWindow then do
    primeV2SendAckFrame true st.expectedSequence st.ackPosition st.messageId
    primeV2RecvLoop fuel { st with reportsSinceAck := 0 }
  else primeV2RecvLoop fuel st

/-! ## handles -/

/-- The handle with other reports to read. -/
def PrimeHandle.withRx (h : PrimeHandle) (rx : List Event) : PrimeHandle :=
  { h with port := { h.port with rx := rx } }

@[simp] theorem PrimeHandle.withRx_rx (h : PrimeHandle) (rx : List Event) :
    (h.withRx rx).port.rx = rx := rfl

@[simp] theorem PrimeHandle.withRx_reportSize (h : PrimeHandle) (rx : List Event) :
    (h.withRx rx).reportSize = h.reportSize := rfl

@[simp] theorem PrimeHandle.withRx_version (h : PrimeHandle) (rx : List Event) :
    (h.withRx rx).version = h.version := rfl

@[simp] theorem PrimeHandle.withRx_withRx (h : PrimeHandle) (rx rx' : List Event) :
    (h.withRx rx).withRx rx' = h.withRx rx' := rfl

theorem exec_primeRecv_withRx_cons (h : PrimeHandle) (e : Event) (rx : List Event) :
    Proc.exec primeRecv (h.withRx (e :: rx)) = (.ok e, h.withRx rx) := rfl

theorem exec_primeRecv_withRx_nil (h : PrimeHandle) :
    Proc.exec primeRecv (h.withRx []) = (.ok (.error .cableRead), h.withRx []) := rfl

/-- A frame is sent, or refused, whatever there is to read. -/
theorem exec_primeV2SendFrame_withRx (frame : List UInt8) (h : PrimeHandle) (rx : List Event) :
    Proc.exec (primeV2SendFrame frame) (h.withRx rx)
      = ((Proc.exec (primeV2SendFrame frame) h).1,
        (Proc.exec (primeV2SendFrame frame) h).2.withRx rx) := by
  obtain ⟨⟨rx₀, tx, fault⟩, size, version, next⟩ := h
  unfold primeV2SendFrame primeSend PrimeHandle.withRx
  simp only [Proc.exec_bind, Proc.exec_get, Proc.exec_ite, Proc.exec_throw]
  split
  · rfl
  · split
    · rfl
    · rcases fault with _ | _ | k <;> rfl

theorem exec_primeV2SendAckFrame_withRx (isAck : Bool) (sequence position messageId : Nat)
    (h : PrimeHandle) (rx : List Event) :
    Proc.exec (primeV2SendAckFrame isAck sequence position messageId) (h.withRx rx)
      = ((Proc.exec (primeV2SendAckFrame isAck sequence position messageId) h).1,
        (Proc.exec (primeV2SendAckFrame isAck sequence position messageId) h).2.withRx rx) := by
  unfold primeV2SendAckFrame
  simp only [Proc.exec_bind, Proc.exec_ofExcept]
  cases primeV2EncodeAck ⟨isAck, sequence, position, messageId⟩ with
  | error e => rfl
  | ok frame => exact exec_primeV2SendFrame_withRx frame h rx

/-- Sending leaves the size of the reports and the version as they are. -/
theorem exec_primeV2SendFrame_keeps (frame : List UInt8) (h : PrimeHandle) :
    (Proc.exec (primeV2SendFrame frame) h).2.port.rx = h.port.rx
      ∧ (Proc.exec (primeV2SendFrame frame) h).2.reportSize = h.reportSize := by
  obtain ⟨⟨rx₀, tx, fault⟩, size, version, next⟩ := h
  unfold primeV2SendFrame primeSend
  simp only [Proc.exec_bind, Proc.exec_get, Proc.exec_ite, Proc.exec_throw]
  split
  · exact ⟨rfl, rfl⟩
  · split
    · exact ⟨rfl, rfl⟩
    · rcases fault with _ | _ | k <;> exact ⟨rfl, rfl⟩

theorem exec_primeV2SendAckFrame_keeps (isAck : Bool) (sequence position messageId : Nat)
    (h : PrimeHandle) :
    (Proc.exec (primeV2SendAckFrame isAck sequence position messageId) h).2.port.rx = h.port.rx
      ∧ (Proc.exec (primeV2SendAckFrame isAck sequence position messageId) h).2.reportSize
        = h.reportSize := by
  unfold primeV2SendAckFrame
  simp only [Proc.exec_bind, Proc.exec_ofExcept]
  cases primeV2EncodeAck ⟨isAck, sequence, position, messageId⟩ with
  | error e => exact ⟨rfl, rfl⟩
  | ok frame => exact exec_primeV2SendFrame_keeps frame h

/-! ## the loop, turn by turn -/

/-- What the handle reads next, and the handle after it. -/
def PrimeHandle.read (h : PrimeHandle) : Event × PrimeHandle :=
  match h.port.rx with
  | [] => (.error .cableRead, h)
  | e :: rx => (e, h.withRx rx)

theorem exec_primeRecv (h : PrimeHandle) :
    Proc.exec primeRecv h = (.ok h.read.1, h.read.2) := by
  obtain ⟨⟨rx, tx, fault⟩, size, version, next⟩ := h
  cases rx <;> rfl

@[simp] theorem PrimeHandle.read_reportSize (h : PrimeHandle) :
    h.read.2.reportSize = h.reportSize := by
  obtain ⟨⟨rx, tx, fault⟩, size, version, next⟩ := h
  cases rx <;> rfl

/-- A turn of the loop, and what it sends. -/
theorem exec_primeV2RecvLoop_succ (fuel : Nat) (st : PrimeV2Rx) (h : PrimeHandle) :
    Proc.exec (primeV2RecvLoop (fuel + 1) st) h =
      match st.turn h.reportSize h.read.1 with
      | .stop err => (.error err, h.read.2)
      | .skip st' => Proc.exec (primeV2RecvLoop fuel st') h.read.2
      | .nack st' => Proc.exec (do primeV2RecvLoop fuel (← st'.nack)) h.read.2
      | .legacy first => Proc.exec (primeV2RecvLegacyMessage first) h.read.2
      | .append st' frame =>
          Proc.exec ((st'.appended h.reportSize frame).settle fuel frame.sequence) h.read.2 := by
  rw [primeV2RecvLoop, Proc.exec_bind_ok (exec_primeRecv h)]
  have hsize := h.read_reportSize
  generalize h.read.2 = h₁ at *
  cases h.read.1 with
  | error e =>
      unfold PrimeV2Rx.turn
      dsimp only
      split <;> rfl
  | ok raw =>
      unfold PrimeV2Rx.turn
      dsimp only
      split
      · split <;> rfl
      · split
        · rfl
        · rw [Proc.exec_bind, Proc.exec_ofExcept]
          cases primeV2DecodeContent raw with
          | error e => rfl
          | ok frame =>
              dsimp only
              rw [Proc.exec_bind, Proc.exec_ofExcept]
              cases PrimeV2Rx.begin { st with controls := 0 } frame with
              | error e => rfl
              | ok st' =>
                  dsimp only
                  unfold PrimeV2Rx.contentTurn
                  rw [← hsize]
                  split
                  · split <;> rfl
                  · rw [Proc.exec_bind_ok (Proc.exec_get _)]
                    split <;> rfl

/-! ## what a turn can do -/

section Turn

variable {size : ReportSize} {st st' : PrimeV2Rx} {e : Event}

theorem begin_ok {frame : PrimeV2Content} (h : st.begin frame = .ok st') :
    (st.started = true ∧ st' = st)
      ∨ (st.started = false ∧ frame.isStart = true ∧ frame.totalSize ≤ primeV2MaxMessageSize
        ∧ st' = { st with
          started := true, totalSize := frame.totalSize, messageId := frame.messageId }) := by
  unfold PrimeV2Rx.begin at h
  cases hstarted : st.started with
  | true =>
      rw [if_pos hstarted] at h
      cases h
      exact .inl ⟨rfl, rfl⟩
  | false =>
      rw [if_neg (by simp [hstarted])] at h
      split at h
      · cases h
      · rename_i hstart
        cases h
        simp only [not_or, not_not, Nat.not_lt] at hstart
        exact .inr ⟨rfl, hstart.1, hstart.2, rfl⟩

end Turn

/-- The reports that keep the loop busy without content. -/
def IsControl (e : Event) : Prop :=
  ∃ raw, e = .ok raw ∧ (primeV2IsHeartbeat raw = true ∨
    (raw.length ≠ 0 ∧ (raw.headD 0).toNat = primeV2SequenceOob))

/-- A content frame that is not the one the receiver waits for. -/
def PrimeV2Rx.Unexpected (st : PrimeV2Rx) (frame : PrimeV2Content) : Prop :=
  frame.sequence ≠ st.expectedSequence ∨ (frame.isStart = true ∧ st.message.length ≠ 0)

instance (st : PrimeV2Rx) (frame : PrimeV2Content) : Decidable (st.Unexpected frame) :=
  inferInstanceAs (Decidable (_ ∨ _))

/-- All that a turn can do, and on which events. -/
inductive PrimeV2Rx.Turns (size : ReportSize) (st : PrimeV2Rx) : Event → RecvTurn → Prop
  | stop {e : Event} (err : PrimeErr) : Turns size st e (.stop err)
  | skip {e : Event} (hcontrol : IsControl e) (hlimit : st.controls + 1 ≤ primeV2MaxControlFrames) :
      Turns size st e (.skip { st with controls := st.controls + 1 })
  | legacy {raw : List UInt8} (hcontrol : ¬IsControl (.ok raw)) (hstarted : st.started = false)
      (hlength : raw.length ≠ 0) (hzero : raw.headD 0 = 0) :
      Turns size st (.ok raw) (.legacy raw)
  | silent {err : PrimeErr} (hstarted : st.started = true)
      (hlimit : st.retries + 1 ≤ primeV2MaxRetries) : Turns size st (.error err) (.nack st)
  | unexpected {raw : List UInt8} {frame : PrimeV2Content} {st' : PrimeV2Rx}
      (hcontrol : ¬IsControl (.ok raw)) (hdecode : primeV2DecodeContent raw = .ok frame)
      (hbegin : PrimeV2Rx.begin { st with controls := 0 } frame = .ok st')
      (hother : st'.Unexpected frame) (hlimit : st'.retries + 1 ≤ primeV2MaxRetries) :
      Turns size st (.ok raw) (.nack st')
  | expected {raw : List UInt8} {frame : PrimeV2Content} {st' : PrimeV2Rx}
      (hcontrol : ¬IsControl (.ok raw)) (hdecode : primeV2DecodeContent raw = .ok frame)
      (hbegin : PrimeV2Rx.begin { st with controls := 0 } frame = .ok st')
      (hnext : ¬st'.Unexpected frame)
      (hroom : st'.ackPosition + (size.bytes - headerSize frame.isStart) < 2 ^ 32) :
      Turns size st (.ok raw) (.append st' frame)

theorem isControl_ok_iff {raw : List UInt8} : IsControl (.ok raw) ↔
    (primeV2IsHeartbeat raw = true ∨
      (raw.length ≠ 0 ∧ (raw.headD 0).toNat = primeV2SequenceOob)) := by
  constructor
  · rintro ⟨raw', heq, hcontrol⟩
    cases heq
    exact hcontrol
  · exact fun hcontrol => ⟨raw, rfl, hcontrol⟩

theorem turns (size : ReportSize) (st : PrimeV2Rx) (e : Event) :
    st.Turns size e (st.turn size e) := by
  have hbytes : size.bytes ≤ 1024 := by rcases size.eq_or with h | h <;> omega
  unfold PrimeV2Rx.turn
  cases e with
  | error err =>
      dsimp only
      split
      · exact .stop err
      · rename_i hgo
        simp only [not_or, not_not, Nat.not_lt] at hgo
        exact .silent hgo.1 hgo.2
  | ok raw =>
      dsimp only
      split
      · rename_i hcontrol
        split
        · exact .stop _
        · rename_i hlimit
          exact .skip (isControl_ok_iff.mpr hcontrol) (Nat.not_lt.mp hlimit)
      · rename_i hcontent
        have hcontrol : ¬IsControl (.ok raw) := fun h => hcontent (isControl_ok_iff.mp h)
        split
        · rename_i hlegacy
          exact .legacy hcontrol (Bool.not_eq_true _ ▸ hlegacy.1) hlegacy.2.1 hlegacy.2.2
        · cases hdecode : primeV2DecodeContent raw with
          | error err => exact .stop err
          | ok frame =>
              dsimp only
              cases hbegin : PrimeV2Rx.begin { st with controls := 0 } frame with
              | error err => exact .stop err
              | ok st' =>
                  dsimp only
                  unfold PrimeV2Rx.contentTurn
                  split
                  · rename_i hother
                    split
                    · exact .stop _
                    · rename_i hlimit
                      exact .unexpected hcontrol hdecode hbegin hother (Nat.not_lt.mp hlimit)
                  · rename_i hnext
                    split
                    · exact .stop _
                    · rename_i hroom
                      refine .expected hcontrol hdecode hbegin hnext ?_
                      omega

end Tilibs.Prime
