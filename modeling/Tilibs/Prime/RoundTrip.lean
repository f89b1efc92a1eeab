import Tilibs.Prime.Transfer

/-!
# Tilibs.Prime.RoundTrip

The reports `prime_v2_send_frames_from` sends, delivered in order, make
`prime_v2_recv_message` return the message.

Both loops are compared with one description of the traffic, `messageReports`:
a start frame and the rest of the message in pieces of a report less the
sequence number.  All frames but the last are full, so the position the
receiver acknowledges is the number of bytes it has.
-/

namespace Tilibs.Prime

open Tilibs.Lib

/-! ## The reports of a message -/

/-- Continuation frames for the given pieces, numbered from `sequence`. -/
def contReports (size : Nat) : Nat → List (List UInt8) → List (List UInt8)
  | _, [] => []
  | sequence, p :: ps =>
      reportOf size (UInt8.ofNat sequence :: p) ::
        contReports size (primeV2NextSequence sequence) ps

theorem length_contReports (size sequence : Nat) (ps : List (List UInt8)) :
    (contReports size sequence ps).length = ps.length := by
  induction ps generalizing sequence with
  | nil => rfl
  | cons p ps ih => simp [contReports, ih]

/-- The start frame of a message. -/
def startFrame (size messageId : Nat) (data : List UInt8) : List UInt8 :=
  UInt8.ofNat primeV2SequenceFirst :: (putLE 4 messageId ++ putLE 4 data.length) ++
    data.take (size - primeV2StartHeaderSize)

def messageReports (size messageId : Nat) (data : List UInt8) : List (List UInt8) :=
  reportOf size (startFrame size messageId data) ::
    contReports size (primeV2NextSequence primeV2SequenceFirst)
      (pieces (size - primeV2ContHeaderSize) (data.drop (size - primeV2StartHeaderSize)))

/-! ## The sender -/

theorem primeV2EncodeContent_cont {sequence capacity : Nat} {data : List UInt8}
    (messageId totalSize : Nat) (h2 : 2 ≤ sequence) (hlast : sequence ≤ primeV2SequenceLast)
    (hlen : data.length + primeV2ContHeaderSize ≤ capacity) :
    primeV2EncodeContent sequence messageId totalSize data capacity =
      .ok (UInt8.ofNat sequence :: data) := by
  have hfirst : sequence ≠ primeV2SequenceFirst := by simp only [primeV2SequenceFirst]; omega
  have hrange : ¬ (sequence < primeV2SequenceFirst ∨ primeV2SequenceLast < sequence) := by
    simp only [primeV2SequenceFirst]; omega
  have hroom : ¬ (capacity < primeV2ContHeaderSize ∨
      capacity - primeV2ContHeaderSize < data.length) := by omega
  simp [primeV2EncodeContent, hrange, hfirst, headerSize, hroom]

theorem primeV2EncodeContent_start {messageId capacity : Nat} {data chunk : List UInt8}
    (hid : messageId ≠ 0) (hlen : chunk.length + primeV2StartHeaderSize ≤ capacity)
    (hchunk : chunk.length ≤ data.length) :
    primeV2EncodeContent primeV2SequenceFirst messageId data.length chunk capacity =
      .ok (UInt8.ofNat primeV2SequenceFirst ::
        (putLE 4 messageId ++ putLE 4 data.length) ++ chunk) := by
  have hrange : primeV2SequenceFirst ≤ primeV2SequenceLast := by decide
  have hroom : ¬ (capacity < primeV2StartHeaderSize ∨
      capacity - primeV2StartHeaderSize < chunk.length) := by omega
  have htotal : ¬ (messageId = 0 ∨ data.length < chunk.length) := by omega
  simp [primeV2EncodeContent, hrange, headerSize, hroom, htotal]

section Send

variable (rx : List (Except PrimeErr (List UInt8))) (tx : List (List UInt8)) (size : ReportSize)
  (version : PrimeProtocol) (next : Nat)

/-- The loop behind the start frame sends the rest in full frames. -/
theorem exec_primeV2SendFramesLoop_cont {messageId total fuel sequence : Nat}
    {data : List UInt8} (hdata : data ≠ []) (hfuel : data.length ≤ fuel) (h2 : 2 ≤ sequence)
    (hlast : sequence ≤ primeV2SequenceLast) :
    Proc.exec (primeV2SendFramesLoop messageId total fuel false data sequence)
        ⟨⟨rx, tx, none⟩, size, version, next⟩ =
      (.ok (), ⟨⟨rx, tx ++ contReports size.bytes sequence
        (pieces (size.bytes - primeV2ContHeaderSize) data), none⟩, size, version, next⟩) := by
  have hone : primeV2ContHeaderSize = 1 := rfl
  have hsize : 64 ≤ size.bytes := by rcases size.eq_or with h | h <;> omega
  induction fuel generalizing data sequence tx with
  | zero =>
      have hnil : data = [] := List.length_eq_zero_iff.mp (by omega)
      exact absurd hnil hdata
  | succ fuel ih =>
      have hchunk : (data.take (size.bytes - primeV2ContHeaderSize)).length +
          primeV2ContHeaderSize ≤ size.bytes := by
        rw [List.length_take]; omega
      have hsend := exec_primeV2SendFrame rx tx size version next
        (UInt8.ofNat sequence :: data.take (size.bytes - primeV2ContHeaderSize))
        (by rw [List.length_cons]; exact hchunk)
      have hencode := primeV2EncodeContent_cont messageId total h2 hlast hchunk
      have hbounds := primeV2NextSequence_bounds sequence
      rw [primeV2SendFramesLoop, Proc.exec_bind_ok (Proc.exec_get _)]
      simp only [headerSize, Bool.false_eq_true, if_false]
      rw [hencode, Proc.exec_bind_ok (Proc.exec_ofExcept _ _), Proc.exec_bind_ok hsend]
      by_cases hmore : size.bytes - primeV2ContHeaderSize < data.length
      · have hdrop : data.drop (size.bytes - primeV2ContHeaderSize) ≠ [] := by
          rw [Ne, List.drop_eq_nil_iff]; omega
        rw [if_neg hdrop, ih _ hdrop (by rw [List.length_drop]; omega) hbounds.1 hbounds.2,
          pieces_of_le_length (by omega) hmore.le, contReports, List.append_assoc,
          List.singleton_append]
      · have hdrop : data.drop (size.bytes - primeV2ContHeaderSize) = [] :=
          List.drop_eq_nil_iff.mpr (by omega)
        rw [if_pos hdrop, List.take_of_length_le (by omega),
          pieces_of_length_le hdata (by omega), contReports, contReports, Proc.exec_pure]

/-- A whole message goes out in its reports. -/
theorem exec_primeV2SendFramesFrom {messageId : Nat} (data : List UInt8) (hid : messageId ≠ 0) :
    Proc.exec (primeV2SendFramesFrom messageId data 0 primeV2SequenceFirst)
        ⟨⟨rx, tx, none⟩, size, version, next⟩ =
      (.ok (), ⟨⟨rx, tx ++ messageReports size.bytes messageId data, none⟩, size, version,
        next⟩) := by
  have hnine : primeV2StartHeaderSize = 9 := rfl
  have hsize : 64 ≤ size.bytes := by rcases size.eq_or with h | h <;> omega
  have hmax : size.bytes ≤ primeRawHidDataSizeMax := by cases size <;> decide
  have hrange : ¬ (size.bytes < primeV2StartHeaderSize ∨ primeRawHidDataSizeMax < size.bytes) := by
    omega
  have hchunk : (data.take (size.bytes - primeV2StartHeaderSize)).length +
      primeV2StartHeaderSize ≤ size.bytes := by
    rw [List.length_take]; omega
  have hencode := primeV2EncodeContent_start hid hchunk (List.length_take_le' _ data)
  have hsend := exec_primeV2SendFrame rx tx size version next
    (startFrame size.bytes messageId data)
    (by simp only [startFrame, List.length_append, List.length_cons, length_putLE]; omega)
  have hbounds := primeV2NextSequence_bounds primeV2SequenceFirst
  rw [primeV2SendFramesFrom, Proc.exec_bind_ok (Proc.exec_get _)]
  simp only [Nat.not_lt_zero, hrange, if_false, ne_eq, not_true_eq_false, and_false, false_and,
    or_false, decide_true, List.drop_zero]
  rw [primeV2SendFramesLoop, Proc.exec_bind_ok (Proc.exec_get _)]
  simp only [headerSize, if_true]
  rw [hencode, Proc.exec_bind_ok (Proc.exec_ofExcept _ _), ← startFrame,
    Proc.exec_bind_ok hsend, messageReports]
  by_cases hmore : data.drop (size.bytes - primeV2StartHeaderSize) = []
  · rw [if_pos hmore, hmore, pieces_nil, contReports, Proc.exec_pure]
  · rw [if_neg hmore, exec_primeV2SendFramesLoop_cont _ _ _ _ _ hmore
      (by rw [List.length_drop]; omega) hbounds.1 hbounds.2, List.append_assoc,
      List.singleton_append]

/-- Any other number cannot start a message. -/
theorem exec_primeV2SendFramesFrom_error {messageId sequence : Nat} (data : List UInt8)
    (hsequence : sequence ≠ primeV2SequenceFirst) (s : PrimeHandle) :
    Proc.exec (primeV2SendFramesFrom messageId data 0 sequence) s =
      (.error .packetFormat, s) := by
  rw [primeV2SendFramesFrom, Proc.exec_bind_ok (Proc.exec_get _)]
  simp [hsequence]

end Send

/-! ## The receiver -/

theorem primeV2IsHeartbeat_eq_false {raw : List UInt8}
    (h : (raw.headD 0).toNat ≠ primeV2SequenceOob) : primeV2IsHeartbeat raw = false := by
  rw [primeV2IsHeartbeat, decide_eq_false h]
  simp

section Receive

variable (rx : List (Except PrimeErr (List UInt8))) (tx : List (List UInt8)) (size : ReportSize)
  (version : PrimeProtocol) (next : Nat)

/-- The frame the receiver waits for is appended; then the message is complete,
or a window is, or the receiver goes on. -/
theorem exec_primeV2RecvLoop_content (fuel : Nat) (st st₁ : PrimeV2Rx) (raw : List UInt8)
    {frame : PrimeV2Content} (hoob : (raw.headD 0).toNat ≠ primeV2SequenceOob)
    (hlegacy : raw.headD 0 ≠ 0) (hdecode : primeV2DecodeContent raw = .ok frame)
    (hbegin : PrimeV2Rx.begin { st with controls := 0 } frame = .ok st₁)
    (hsequence : frame.sequence = st₁.expectedSequence)
    (hexpected : st₁.expectedSequence ≤ primeV2SequenceLast)
    (hstart : ¬ (frame.isStart ∧ st₁.message.length ≠ 0))
    (hposition : st₁.ackPosition + size.bytes < 2 ^ 32) (hid : st₁.messageId ≠ 0) :
    let st₂ := st₁.take frame (size.bytes - headerSize frame.isStart)
    Proc.exec (primeV2RecvLoop (fuel + 1) st) ⟨⟨.ok raw :: rx, tx, none⟩, size, version, next⟩ =
      if st₂.message.length = st₂.totalSize then
        (.ok ⟨st₂.message, st₂.messageId⟩,
          ⟨⟨rx, tx ++ [reportOf size.bytes
            (ackBytes true frame.sequence st₂.ackPosition st₂.messageId)], none⟩, size, version,
            next⟩)
      else if st₂.reportsSinceAck = primeV2AckReportWindow then
        Proc.exec (primeV2RecvLoop fuel { st₂ with reportsSinceAck := 0 })
          ⟨⟨rx, tx ++ [reportOf size.bytes
            (ackBytes true st₂.expectedSequence st₂.ackPosition st₂.messageId)], none⟩, size,
            version, next⟩
      else Proc.exec (primeV2RecvLoop fuel st₂) ⟨⟨rx, tx, none⟩, size, version, next⟩ := by
  intro st₂
  have hsize : 64 ≤ size.bytes := by rcases size.eq_or with h | h <;> omega
  have hheader : headerSize frame.isStart ≤ 9 := by
    cases frame.isStart <;> decide
  have hrange : ¬ (size.bytes < primeV2StartHeaderSize ∨
      2 ^ 32 - 1 - (size.bytes - headerSize frame.isStart) < st₁.ackPosition) := by
    simp only [primeV2StartHeaderSize]; omega
  have hfinal : frame.sequence ≠ primeV2SequenceOob := by
    simp only [primeV2SequenceLast, primeV2SequenceOob] at *; omega
  have hwindow : st₂.expectedSequence ≠ primeV2SequenceOob := by
    have h := (primeV2NextSequence_bounds st₁.expectedSequence).2
    simp only [st₂, PrimeV2Rx.take, primeV2SequenceLast, primeV2SequenceOob] at *
    omega
  have hid₂ : st₂.messageId ≠ 0 := hid
  rw [primeV2RecvLoop, Proc.exec_bind_ok (exec_primeRecv_cons _ _ _ _ _ _)]
  simp only [primeV2IsHeartbeat_eq_false hoob, hoob, hlegacy, Bool.false_eq_true, and_false,
    or_false, if_false]
  rw [hdecode, Proc.exec_bind_ok (Proc.exec_ofExcept _ _), hbegin,
    Proc.exec_bind_ok (Proc.exec_ofExcept _ _)]
  simp only [hsequence, ne_eq, not_true_eq_false, false_or]
  rw [if_neg hstart, Proc.exec_bind_ok (Proc.exec_get _)]
  simp only [hrange, if_false]
  by_cases hdone : st₂.message.length = st₂.totalSize
  · rw [if_pos hdone, if_pos hdone, hsequence.symm,
      Proc.exec_bind_ok (exec_primeV2SendAckFrame _ _ _ _ _ true _ hid₂ hfinal), Proc.exec_pure]
  · rw [if_neg hdone, if_neg hdone]
    by_cases hfull : st₂.reportsSinceAck = primeV2AckReportWindow
    · rw [if_pos hfull, if_pos hfull,
        Proc.exec_bind_ok (exec_primeV2SendAckFrame _ _ _ _ _ true _ hid₂ hwindow)]
    · rw [if_neg hfull, if_neg hfull]

end Receive

/-! ## Frames in their reports -/

theorem toNat_sequence {sequence : Nat} (h : sequence ≤ primeV2SequenceLast) :
    (UInt8.ofNat sequence).toNat = sequence := by
  simp only [primeV2SequenceLast] at h
  rw [UInt8.toNat_ofNat']
  omega

/-- The receiver cuts the padding off by what is missing of the message. -/
theorem take_padded {capacity missing : Nat} {p : List UInt8}
    (h : p.length = min capacity missing) :
    (p ++ List.replicate (capacity - p.length) 0).take missing = p := by
  rcases Nat.le_total capacity missing with hle | hle
  · rw [h, Nat.min_eq_left hle, Nat.sub_self, List.replicate_zero, List.append_nil,
      List.take_of_length_le (by omega)]
  · exact List.take_left' (by omega)

theorem delivered_cont (size sequence : Nat) (p : List UInt8) :
    delivered (reportOf size (UInt8.ofNat sequence :: p)) =
      .ok (UInt8.ofNat sequence :: (p ++ List.replicate (size - primeV2ContHeaderSize - p.length) 0)) := by
  have hsub : size - (p.length + 1) = size - 1 - p.length := by omega
  simp [delivered, reportOf, padRight, primeV2ContHeaderSize, hsub]

theorem primeV2DecodeContent_cont {sequence : Nat} (data : List UInt8) (h2 : 2 ≤ sequence)
    (hlast : sequence ≤ primeV2SequenceLast) :
    primeV2DecodeContent (UInt8.ofNat sequence :: data) = .ok ⟨sequence, false, 0, 0, data⟩ := by
  have hfirst : sequence ≠ primeV2SequenceFirst := by simp only [primeV2SequenceFirst]; omega
  have hrange : ¬ (sequence < primeV2SequenceFirst ∨ primeV2SequenceLast < sequence) := by
    simp only [primeV2SequenceFirst]; omega
  have hlen : ¬ data.length + 1 < primeV2ContHeaderSize := by
    simp only [primeV2ContHeaderSize]; omega
  simp only [primeV2DecodeContent, List.headD_cons, toNat_sequence hlast, List.length_cons, hlen,
    hrange, hfirst, decide_false, headerSize, Bool.false_eq_true, false_and, if_false]
  rfl

theorem delivered_start (size messageId : Nat) (data : List UInt8) :
    delivered (reportOf size (startFrame size messageId data)) =
      .ok (UInt8.ofNat primeV2SequenceFirst :: (putLE 4 messageId ++ putLE 4 data.length) ++
        (data.take (size - primeV2StartHeaderSize) ++
          List.replicate (size - primeV2StartHeaderSize -
            (data.take (size - primeV2StartHeaderSize)).length) 0)) := by
  have hsub : size - (startFrame size messageId data).length =
      size - primeV2StartHeaderSize - (data.take (size - primeV2StartHeaderSize)).length := by
    simp only [startFrame, List.length_append, List.length_cons, length_putLE,
      primeV2StartHeaderSize]
    omega
  rw [delivered, reportOf, padRight, List.tail_cons, hsub, startFrame, List.append_assoc]

theorem primeV2DecodeContent_start {messageId totalSize : Nat} (data : List UInt8)
    (hid : messageId ≠ 0) (hid' : messageId < 2 ^ 32) (htotal : totalSize < 2 ^ 32) :
    primeV2DecodeContent (UInt8.ofNat primeV2SequenceFirst ::
        (putLE 4 messageId ++ putLE 4 totalSize) ++ data) =
      .ok ⟨primeV2SequenceFirst, true, messageId, totalSize, data⟩ := by
  have hfirst : (UInt8.ofNat primeV2SequenceFirst).toNat = primeV2SequenceFirst := by decide
  have hgetId : getLE (putLE 4 messageId) = messageId := getLE_putLE hid'
  have hgetSize : getLE (putLE 4 totalSize) = totalSize := getLE_putLE htotal
  have hrange : ¬ (primeV2SequenceFirst < primeV2SequenceFirst ∨
      primeV2SequenceLast < primeV2SequenceFirst) := by decide
  have htake₁ : ((UInt8.ofNat primeV2SequenceFirst ::
      (putLE 4 messageId ++ putLE 4 totalSize) ++ data).drop 1).take 4 = putLE 4 messageId := by
    simp [List.take_left']
  have htake₅ : ((UInt8.ofNat primeV2SequenceFirst ::
      (putLE 4 messageId ++ putLE 4 totalSize) ++ data).drop 5).take 4 = putLE 4 totalSize := by
    simp [List.take_left', List.drop_left']
  have hdrop : (UInt8.ofNat primeV2SequenceFirst ::
      (putLE 4 messageId ++ putLE 4 totalSize) ++ data).drop primeV2StartHeaderSize = data :=
    List.drop_left' (by simp [primeV2StartHeaderSize])
  have hlen : primeV2StartHeaderSize ≤ (UInt8.ofNat primeV2SequenceFirst ::
      (putLE 4 messageId ++ putLE 4 totalSize) ++ data).length := by
    simp only [List.length_append, List.length_cons, length_putLE, primeV2StartHeaderSize]
    omega
  have hcont : ¬ (UInt8.ofNat primeV2SequenceFirst ::
      (putLE 4 messageId ++ putLE 4 totalSize) ++ data).length < primeV2ContHeaderSize :=
    Nat.not_lt.mpr (Nat.le_trans (by decide) hlen)
  have hhead : ((UInt8.ofNat primeV2SequenceFirst ::
      (putLE 4 messageId ++ putLE 4 totalSize) ++ data).headD 0).toNat = primeV2SequenceFirst := rfl
  simp only [primeV2DecodeContent, hhead, hcont, hrange, decide_true, if_true, if_false, headerSize,
    Nat.not_lt.mpr hlen, htake₁, htake₅, hdrop, hgetId, hgetSize, hid, and_false]

/-! ## A message is received -/

section Receive

variable (rx : List (Except PrimeErr (List UInt8))) (tx : List (List UInt8)) (size : ReportSize)
  (version : PrimeProtocol) (next : Nat)

/-- The receiver has taken full frames only, and waits for the frame with the
number `sequence`. -/
structure PrimeV2Rx.Waits (st : PrimeV2Rx) (sequence : Nat) : Prop where
  started : st.started = true
  expected : st.expectedSequence = sequence
  position : st.ackPosition = st.message.length
  small : st.totalSize ≤ primeV2MaxMessageSize
  id : st.messageId ≠ 0

/-- The rest of a message: what one frame does, and then the others.  The first answer is an
acknowledgement. -/
theorem exec_primeV2RecvLoop_cont {fuel sequence : Nat} (st : PrimeV2Rx) {data : List UInt8}
    (hst : st.Waits sequence) (hdata : data ≠ [])
    (hfuel : (pieces (size.bytes - primeV2ContHeaderSize) data).length ≤ fuel)
    (htotal : st.totalSize = st.message.length + data.length) (h2 : 2 ≤ sequence)
    (hlast : sequence ≤ primeV2SequenceLast) :
    ∃ acked position more, Proc.exec (primeV2RecvLoop fuel st)
        ⟨⟨(contReports size.bytes sequence
          (pieces (size.bytes - primeV2ContHeaderSize) data)).map delivered ++ rx, tx, none⟩, size,
          version, next⟩ =
      (.ok ⟨st.message ++ data, st.messageId⟩,
        ⟨⟨rx, tx ++ reportOf size.bytes (ackBytes true acked position st.messageId) :: more, none⟩,
          size, version, next⟩) := by
  have hone : primeV2ContHeaderSize = 1 := rfl
  have hsize : 64 ≤ size.bytes := by rcases size.eq_or with h | h <;> omega
  have hbytes : size.bytes ≤ 1024 := by rcases size.eq_or with h | h <;> omega
  induction fuel generalizing data sequence st tx with
  | zero =>
      have hnil := flatten_pieces (size.bytes - primeV2ContHeaderSize) data
      rw [List.length_eq_zero_iff.mp (Nat.le_zero.mp hfuel)] at hnil
      exact absurd hnil.symm hdata
  | succ fuel ih =>
      obtain ⟨p, rest, hpieces, hp, hrest⟩ : ∃ p rest,
          pieces (size.bytes - primeV2ContHeaderSize) data =
            p :: pieces (size.bytes - primeV2ContHeaderSize) rest ∧
          p.length = min (size.bytes - primeV2ContHeaderSize) data.length ∧ p ++ rest = data := by
        refine ⟨data.take (size.bytes - primeV2ContHeaderSize),
          data.drop (size.bytes - primeV2ContHeaderSize), ?_, List.length_take, ?_⟩
        · rcases Nat.lt_or_ge data.length (size.bytes - primeV2ContHeaderSize) with hlt | hge
          · rw [pieces_of_length_le hdata hlt.le, List.take_of_length_le hlt.le,
              List.drop_eq_nil_iff.mpr hlt.le, pieces_nil]
          · exact pieces_of_le_length (by omega) hge
        · exact List.take_append_drop _ _
      have hlen := congrArg List.length hrest
      rw [List.length_append] at hlen
      rw [hpieces, List.length_cons] at hfuel
      have htaken : (PrimeV2Content.data ⟨sequence, false, 0, 0,
          p ++ List.replicate (size.bytes - primeV2ContHeaderSize - p.length) 0⟩).take
            (st.totalSize - st.message.length) = p :=
        take_padded (by rw [htotal, Nat.add_sub_cancel_left]; exact hp)
      have hsmall := hst.small
      have hposition := hst.position
      have hexpected := hst.expected
      have hstep := exec_primeV2RecvLoop_content
        ((contReports size.bytes (primeV2NextSequence sequence)
          (pieces (size.bytes - primeV2ContHeaderSize) rest)).map delivered ++ rx) tx size version
        next fuel st { st with controls := 0 }
        (UInt8.ofNat sequence ::
          (p ++ List.replicate (size.bytes - primeV2ContHeaderSize - p.length) 0))
        (by rw [List.headD_cons, toNat_sequence hlast]
            simp only [primeV2SequenceLast, primeV2SequenceOob] at *; omega)
        (by rw [List.headD_cons]
            intro hzero
            have := congrArg UInt8.toNat hzero
            rw [toNat_sequence hlast] at this
            simp at this
            omega)
        (primeV2DecodeContent_cont _ h2 hlast)
        (by simp [PrimeV2Rx.begin, hst.started])
        hexpected.symm (by rw [hexpected]; exact hlast) (by simp)
        (by change st.ackPosition + size.bytes < 2 ^ 32
            simp only [primeV2MaxMessageSize] at hsmall; omega) hst.id
      have hbounds := primeV2NextSequence_bounds sequence
      rw [hpieces, contReports, List.map_cons, delivered_cont, List.cons_append, hstep]
      have hmessage : (PrimeV2Rx.take { st with controls := 0 } ⟨sequence, false, 0, 0,
          p ++ List.replicate (size.bytes - primeV2ContHeaderSize - p.length) 0⟩
          (size.bytes - headerSize false)).message = st.message ++ p :=
        congrArg (st.message ++ ·) htaken
      generalize hst₂ : PrimeV2Rx.take { st with controls := 0 } ⟨sequence, false, 0, 0,
          p ++ List.replicate (size.bytes - primeV2ContHeaderSize - p.length) 0⟩
          (size.bytes - headerSize false) = st₂ at hmessage
      have hid : st₂.messageId = st.messageId := by rw [← hst₂]; rfl
      have htotal₂ : st₂.totalSize = st.totalSize := by rw [← hst₂]; rfl
      by_cases hdone : rest = []
      · subst hdone
        rw [List.append_nil] at hrest
        rw [if_pos (by rw [hmessage, htotal₂, htotal, hrest, List.length_append]), hmessage, hid,
          hrest, pieces_nil, contReports, List.map_nil, List.nil_append]
        exact ⟨_, _, [], rfl⟩
      · have hpos : 0 < rest.length := List.length_pos_iff.mpr hdone
        have hwaits (n : Nat) :
            ({ st₂ with reportsSinceAck := n } : PrimeV2Rx).Waits (primeV2NextSequence sequence) := by
          refine ⟨?_, ?_, ?_, ?_, ?_⟩
          · rw [← hst₂]; exact hst.started
          · rw [← hst₂, ← hexpected]; rfl
          · change st₂.ackPosition = st₂.message.length
            rw [hmessage, List.length_append, ← hposition, ← hst₂]
            change st.ackPosition + (size.bytes - primeV2ContHeaderSize) = _
            omega
          · exact htotal₂ ▸ hsmall
          · exact hid ▸ hst.id
        have hgo (n : Nat) (tx : List (List UInt8)) := ih tx
          { st₂ with reportsSinceAck := n } (hwaits n) hdone (Nat.le_of_succ_le_succ hfuel)
          (by change st₂.totalSize = st₂.message.length + _
              rw [htotal₂, htotal, hmessage, List.length_append]; omega) hbounds.1 hbounds.2
        have hmore : st₂.message.length ≠ st₂.totalSize := by
          rw [hmessage, htotal₂, htotal, List.length_append]; omega
        rw [if_neg hmore]
        split
        · obtain ⟨acked, position, more, hgo⟩ := hgo 0 _
          refine ⟨st₂.expectedSequence, st₂.ackPosition,
            reportOf size.bytes (ackBytes true acked position st₂.messageId) :: more, ?_⟩
          rw [hgo, hmessage, hid, List.append_assoc, hrest, List.append_assoc,
            List.singleton_append]
        · obtain ⟨acked, position, more, hgo⟩ := hgo st₂.reportsSinceAck tx
          exact ⟨acked, position, more, by rw [hgo, hmessage, hid, List.append_assoc, hrest]⟩

/-- The whole message, from its start frame on. -/
theorem exec_primeV2RecvMessage {messageId : Nat} {data : List UInt8} (hid : messageId ≠ 0)
    (hid' : messageId < 2 ^ 32) (hdata : data.length ≤ primeV2MaxMessageSize) :
    ∃ tx', Proc.exec primeV2RecvMessage
        ⟨⟨(messageReports size.bytes messageId data).map delivered ++ rx, tx, none⟩, size, .v2,
          next⟩ =
      (.ok ⟨data, messageId⟩, ⟨⟨rx, tx', none⟩, size, .v2, next⟩) := by
  have hnine : primeV2StartHeaderSize = 9 := rfl
  have hsize : 64 ≤ size.bytes := by rcases size.eq_or with h | h <;> omega
  have hbytes : size.bytes ≤ 1024 := by rcases size.eq_or with h | h <;> omega
  have hbounds := primeV2NextSequence_bounds primeV2SequenceFirst
  have hsmall : data.length < 2 ^ 32 := by
    simp only [primeV2MaxMessageSize] at hdata; omega
  let begun : PrimeV2Rx :=
    { PrimeV2Rx.init with started := true, totalSize := data.length, messageId }
  let frame : PrimeV2Content := ⟨primeV2SequenceFirst, true, messageId, data.length,
    data.take (size.bytes - primeV2StartHeaderSize) ++
      List.replicate (size.bytes - primeV2StartHeaderSize -
        (data.take (size.bytes - primeV2StartHeaderSize)).length) 0⟩
  let reports := contReports size.bytes (primeV2NextSequence primeV2SequenceFirst)
    (pieces (size.bytes - primeV2ContHeaderSize)
      (data.drop (size.bytes - primeV2StartHeaderSize)))
  have hreports : reports.length = (pieces (size.bytes - primeV2ContHeaderSize)
      (data.drop (size.bytes - primeV2StartHeaderSize))).length := length_contReports _ _ _
  have hstep (fuel : Nat) := exec_primeV2RecvLoop_content (reports.map delivered ++ rx) tx size .v2
    next fuel PrimeV2Rx.init begun
    (UInt8.ofNat primeV2SequenceFirst :: (putLE 4 messageId ++ putLE 4 data.length) ++
      frame.data)
    (show (UInt8.ofNat primeV2SequenceFirst).toNat ≠ primeV2SequenceOob by decide)
    (show UInt8.ofNat primeV2SequenceFirst ≠ 0 by decide)
    (primeV2DecodeContent_start frame.data hid hid' hsmall)
    (by simp [PrimeV2Rx.begin, PrimeV2Rx.init, begun, Nat.not_lt.mpr hdata]) rfl
    (show primeV2SequenceFirst ≤ primeV2SequenceLast by decide)
    (by simp [begun, PrimeV2Rx.init])
    (by change 0 + size.bytes < 2 ^ 32; omega) hid
  have htaken : frame.data.take (begun.totalSize - begun.message.length) =
      data.take (size.bytes - primeV2StartHeaderSize) :=
    take_padded List.length_take
  rw [primeV2RecvMessage, Proc.exec_bind_ok (Proc.exec_get _)]
  simp only [ne_eq, not_true_eq_false, if_false]
  rw [messageReports, List.map_cons, delivered_start, List.cons_append, List.length_cons,
    List.length_append, List.length_map]
  change ∃ tx', Proc.exec (primeV2RecvLoop (reports.length + rx.length + 1 + primeV2MaxRetries + 1 + 1)
    PrimeV2Rx.init) _ = _
  rw [hstep]
  have hmessage : (begun.take frame (size.bytes - headerSize frame.isStart)).message =
      data.take (size.bytes - primeV2StartHeaderSize) := by
    change [] ++ _ = _
    rw [List.nil_append, htaken]
  have hlen : (data.take (size.bytes - primeV2StartHeaderSize)).length =
      min (size.bytes - primeV2StartHeaderSize) data.length := List.length_take
  generalize hst₂ : begun.take frame (size.bytes - headerSize frame.isStart) = st₂ at hmessage
  have htotal : st₂.totalSize = data.length := by rw [← hst₂]; rfl
  have hid₂ : st₂.messageId = messageId := by rw [← hst₂]; rfl
  by_cases hdone : data.length ≤ size.bytes - primeV2StartHeaderSize
  · have hnone : reports = [] := by
      change contReports _ _ (pieces _ (data.drop _)) = []
      rw [List.drop_eq_nil_iff.mpr hdone, pieces_nil, contReports]
    rw [if_pos (by rw [hmessage, htotal]; omega), hmessage, hid₂, List.take_of_length_le hdone,
      hnone, List.map_nil, List.nil_append]
    exact ⟨_, rfl⟩
  · have hrest : data.drop (size.bytes - primeV2StartHeaderSize) ≠ [] := by
      rw [Ne, List.drop_eq_nil_iff]; exact hdone
    have hwaits : st₂.Waits (primeV2NextSequence primeV2SequenceFirst) := by
      refine ⟨?_, ?_, ?_, ?_, ?_⟩
      · rw [← hst₂]; rfl
      · rw [← hst₂]; rfl
      · rw [hmessage, hlen, ← hst₂]
        change 0 + (size.bytes - primeV2StartHeaderSize) = _
        omega
      · exact htotal ▸ hdata
      · exact hid₂ ▸ hid
    have hwindow : st₂.reportsSinceAck ≠ primeV2AckReportWindow := by
      rw [← hst₂]
      change 0 + 1 ≠ 77
      decide
    have hfuel : (pieces (size.bytes - primeV2ContHeaderSize)
        (data.drop (size.bytes - primeV2StartHeaderSize))).length ≤
          reports.length + rx.length + 1 + primeV2MaxRetries + 1 := by omega
    obtain ⟨_, _, _, hgo⟩ := exec_primeV2RecvLoop_cont rx tx size .v2 next st₂ hwaits hrest hfuel
      (by rw [htotal, hmessage, hlen, List.length_drop]; omega) hbounds.1 hbounds.2
    rw [if_neg (by rw [hmessage, htotal]; omega), if_neg hwindow]
    exact ⟨_, by rw [hgo, hmessage, hid₂, List.take_append_drop]⟩

end Receive

/-- The reports of a message that starts with the first sequence number, which
is the only one the sender accepts, are put together to the message. -/
theorem exec_primeV2_transfer (size : ReportSize) {messageId : Nat} {data : List UInt8}
    (sequence : Nat) (hid : messageId ≠ 0) (hid' : messageId < 2 ^ 32)
    (hdata : data.length ≤ primeV2MaxMessageSize) (rx : List (Except PrimeErr (List UInt8)))
    (version : PrimeProtocol) (next next' : Nat) :
    (sequence = primeV2SequenceFirst →
      ∃ reports tx', Proc.exec (primeV2SendFramesFrom messageId data 0 sequence)
          ⟨⟨rx, [], none⟩, size, version, next⟩ =
        (.ok (), ⟨⟨rx, reports, none⟩, size, version, next⟩) ∧
      Proc.exec primeV2RecvMessage ⟨⟨reports.map delivered, [], none⟩, size, .v2, next'⟩ =
        (.ok ⟨data, messageId⟩, ⟨⟨[], tx', none⟩, size, .v2, next'⟩)) ∧
    (sequence ≠ primeV2SequenceFirst →
      Proc.exec (primeV2SendFramesFrom messageId data 0 sequence)
          ⟨⟨rx, [], none⟩, size, version, next⟩ =
        (.error .packetFormat, ⟨⟨rx, [], none⟩, size, version, next⟩)) := by
  constructor
  · rintro rfl
    obtain ⟨tx', hrecv⟩ := exec_primeV2RecvMessage [] [] size next' hid hid' hdata
    rw [List.append_nil] at hrecv
    exact ⟨_, tx', exec_primeV2SendFramesFrom rx [] size version next data hid, hrecv⟩
  · intro hsequence
    exact exec_primeV2SendFramesFrom_error data hsequence _

theorem exec_primeV2_transfer_short :
    ((1 : Nat) = primeV2SequenceFirst →
      ∃ reports tx', Proc.exec (primeV2SendFramesFrom 7 [0x41, 0x42] 0 1)
          ⟨⟨[], [], none⟩, .legacy, .v2, 8⟩ =
        (.ok (), ⟨⟨[], reports, none⟩, .legacy, .v2, 8⟩) ∧
      Proc.exec primeV2RecvMessage ⟨⟨reports.map delivered, [], none⟩, .legacy, .v2, 1⟩ =
        (.ok ⟨[0x41, 0x42], 7⟩, ⟨⟨[], tx', none⟩, .legacy, .v2, 1⟩)) ∧
    ((1 : Nat) ≠ primeV2SequenceFirst →
      Proc.exec (primeV2SendFramesFrom 7 [0x41, 0x42] 0 1) ⟨⟨[], [], none⟩, .legacy, .v2, 8⟩ =
        (.error .packetFormat, ⟨⟨[], [], none⟩, .legacy, .v2, 8⟩)) :=
  exec_primeV2_transfer .legacy 1 (by decide) (by decide) (by decide) [] .v2 8 1

/-- A message is refused when it is to start with another number, and nothing
of it reaches the receiver. -/
theorem exec_primeV2SendFramesFrom_second :
    Proc.exec (primeV2SendFramesFrom 7 [0x41, 0x42] 0 2) ⟨⟨[], [], none⟩, .legacy, .v2, 8⟩ =
      (.error .packetFormat, ⟨⟨[], [], none⟩, .legacy, .v2, 8⟩) ∧
    (Proc.exec primeV2RecvMessage ⟨⟨[], [], none⟩, .legacy, .v2, 1⟩).1 = .error .cableRead := by
  decide

end Tilibs.Prime
