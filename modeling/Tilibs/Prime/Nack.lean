import Tilibs.Prime.RecvSound

/-!
# Tilibs.Prime.Nack

Lost reports of a message, and what the sender and the receiver make of them together.  The sender
puts all frames on the cable before it reads what the receiver says.  The receiver answers each
frame that it does not wait for with the position and the number of the one it does, and gives up
at the fourth.
-/

namespace Tilibs.Prime

open Tilibs.Lib

/-! ## the reports by their index -/

/-- The number of reports of a message. -/
def reportCount (size : ReportSize) (length : Nat) : Nat :=
  1 + (length - (size.bytes - primeV2StartHeaderSize) + (size.bytes - primeV2ContHeaderSize - 1))
    / (size.bytes - primeV2ContHeaderSize)

/-- Where the data of a report begins in the message. -/
def reportOffset (size : ReportSize) (i : Nat) : Nat :=
  if i = 0 then 0
  else size.bytes - primeV2StartHeaderSize + (i - 1) * (size.bytes - primeV2ContHeaderSize)

/-- The data that follows the start frame, from a report on. -/
def contReport (size : ReportSize) (data : List UInt8) (i : Nat) : List UInt8 :=
  UInt8.ofNat (frameSequence i)
    :: (data.drop (reportOffset size i)).take (size.bytes - primeV2ContHeaderSize)

theorem frameSequence_bounds {i : Nat} (h : 1 ≤ i) :
    2 ≤ frameSequence i ∧ frameSequence i ≤ primeV2SequenceLast := by
  obtain ⟨j, rfl⟩ := Nat.exists_eq_add_of_le' h
  rw [frameSequence_succ]
  exact primeV2NextSequence_bounds _

/-- The numbers after the first repeat after 252 frames. -/
theorem frameSequence_eq {i : Nat} (h : 1 ≤ i) : frameSequence i = 2 + (i - 1) % 252 := by
  obtain ⟨j, rfl⟩ := Nat.exists_eq_add_of_le' h
  induction j with
  | zero => rfl
  | succ j ih =>
      rw [frameSequence_succ, ih (by omega)]
      unfold primeV2NextSequence primeV2SequenceFirst primeV2SequenceLast
      split <;> omega

theorem frameSequence_eq_iff {i d : Nat} (h : 1 ≤ i) :
    frameSequence (i + d) = frameSequence i ↔ 252 ∣ d := by
  rw [frameSequence_eq h, frameSequence_eq (by omega)]
  omega

theorem contReports_pieces {c size sequence : Nat} {xs : List UInt8} (hc : 0 < c) (h : xs ≠ []) :
    contReports size sequence (pieces c xs)
      = reportOf size (UInt8.ofNat sequence :: xs.take c)
        :: contReports size (primeV2NextSequence sequence) (pieces c (xs.drop c)) := by
  rcases Nat.lt_or_ge c xs.length with hlt | hge
  · rw [pieces_of_le_length hc hlt.le, contReports]
  · rw [pieces_of_length_le h hge, contReports, contReports, List.take_of_length_le hge,
      List.drop_eq_nil_iff.mpr hge, pieces_nil, contReports]

/-- The reports from an index on are those of the rest of the message. -/
theorem drop_messageReports (size : ReportSize) (messageId : Nat) (data : List UInt8) {i : Nat}
    (h : 1 ≤ i) :
    (messageReports size.bytes messageId data).drop i
      = contReports size.bytes (frameSequence i)
        (pieces (size.bytes - primeV2ContHeaderSize) (data.drop (reportOffset size i))) := by
  have hcapacity : 0 < size.bytes - primeV2ContHeaderSize := by cases size <;> decide
  obtain ⟨j, rfl⟩ := Nat.exists_eq_add_of_le' h
  induction j with
  | zero =>
      unfold messageReports reportOffset
      simp [frameSequence]
  | succ j ih =>
      have hnext : reportOffset size (j + 1 + 1)
          = reportOffset size (j + 1) + (size.bytes - primeV2ContHeaderSize) := by
        simp only [reportOffset, Nat.add_eq_zero_iff, one_ne_zero, and_false, if_false,
          Nat.add_sub_cancel]
        rw [Nat.succ_mul]
        omega
      rw [← List.drop_drop, ih (by omega), hnext, frameSequence_succ (j + 1)]
      by_cases hnil : data.drop (reportOffset size (j + 1)) = []
      · rw [hnil, ← List.drop_drop, hnil]
        simp [contReports]
      · rw [contReports_pieces hcapacity hnil, List.drop_one, List.tail_cons, List.drop_drop]

theorem length_messageReports (size : ReportSize) (messageId : Nat) (data : List UInt8) :
    (messageReports size.bytes messageId data).length = reportCount size data.length := by
  have hcapacity : 0 < size.bytes - primeV2ContHeaderSize := by cases size <;> decide
  have hpieces := congrArg List.length (map_length_pieces (size.bytes - primeV2ContHeaderSize)
    (data.drop (size.bytes - primeV2StartHeaderSize)))
  rw [List.length_map, List.length_append, List.length_replicate, List.length_drop] at hpieces
  unfold messageReports reportCount
  rw [List.length_cons, length_contReports, hpieces, Nat.add_comm 1]
  congr 1
  have hnone : (if (data.length - (size.bytes - primeV2StartHeaderSize))
      % (size.bytes - primeV2ContHeaderSize) = 0 then ([] : List Nat)
      else [(data.length - (size.bytes - primeV2StartHeaderSize))
        % (size.bytes - primeV2ContHeaderSize)]).length
      = if (data.length - (size.bytes - primeV2StartHeaderSize))
        % (size.bytes - primeV2ContHeaderSize) = 0 then 0 else 1 := by
    split <;> rfl
  rw [hnone]
  unfold primeV2ContHeaderSize primeV2StartHeaderSize
  rcases size.eq_or with hbytes | hbytes <;> rw [hbytes] <;> split <;> omega

/-- A report exists when its data does. -/
theorem lt_reportCount_iff (size : ReportSize) (length : Nat) {i : Nat} (h : 1 ≤ i) :
    i < reportCount size length ↔ reportOffset size i < length := by
  unfold reportCount reportOffset primeV2ContHeaderSize primeV2StartHeaderSize
  rw [if_neg (by omega)]
  rcases size.eq_or with hbytes | hbytes <;> rw [hbytes] <;> omega

/-- The first report from an index on, and the others. -/
theorem drop_messageReports_cons (size : ReportSize) (messageId : Nat) (data : List UInt8)
    {i : Nat} (h : 1 ≤ i) (hmore : i < reportCount size data.length) :
    (messageReports size.bytes messageId data).drop i
      = reportOf size.bytes (contReport size data i)
        :: (messageReports size.bytes messageId data).drop (i + 1) := by
  have hcapacity : 0 < size.bytes - primeV2ContHeaderSize := by cases size <;> decide
  have hoffset := (lt_reportCount_iff size data.length h).mp hmore
  have hdata : data.drop (reportOffset size i) ≠ [] := by
    rw [Ne, List.drop_eq_nil_iff]
    omega
  rw [← List.drop_drop, drop_messageReports size messageId data h,
    contReports_pieces hcapacity hdata, List.drop_one, List.tail_cons]
  rfl

theorem reportOffset_succ (size : ReportSize) {i : Nat} (h : 1 ≤ i) :
    reportOffset size (i + 1) = reportOffset size i + (size.bytes - primeV2ContHeaderSize) := by
  obtain ⟨j, rfl⟩ := Nat.exists_eq_add_of_le' h
  simp only [reportOffset, Nat.add_eq_zero_iff, one_ne_zero, and_false, if_false,
    Nat.add_sub_cancel]
  rw [Nat.succ_mul]
  omega

theorem reportOffset_lt (size : ReportSize) {i k : Nat} (h : 1 ≤ i) (hk : 1 ≤ k) :
    reportOffset size i < reportOffset size (i + k) := by
  have hcapacity : 0 < size.bytes - primeV2ContHeaderSize := by cases size <;> decide
  unfold reportOffset
  rw [if_neg (by omega), if_neg (by omega)]
  exact Nat.add_lt_add_left (Nat.mul_lt_mul_of_pos_right (by omega) hcapacity) _

/-! ## the receiver -/

/-- The receiver with the reports before an index, the last of them not acknowledged, and some
retries. -/
def waiting (size : ReportSize) (messageId : Nat) (data : List UInt8) (i retries : Nat) :
    PrimeV2Rx where
  started := true
  message := data.take (reportOffset size i)
  messageId := messageId
  totalSize := data.length
  ackPosition := reportOffset size i
  reportsSinceAck := i
  retries := retries
  controls := 0
  expectedSequence := frameSequence i

/-- A continuation frame as the cable delivers it. -/
theorem turn_continuation (size : ReportSize) (st : PrimeV2Rx) {sequence : Nat} (h2 : 2 ≤ sequence)
    (hlast : sequence ≤ primeV2SequenceLast) (data : List UInt8) :
    st.turn size (.ok (UInt8.ofNat sequence :: data))
      = match PrimeV2Rx.begin { st with controls := 0 } ⟨sequence, false, 0, 0, data⟩ with
        | .error e => .stop e
        | .ok st => st.contentTurn size ⟨sequence, false, 0, 0, data⟩ := by
  have hhead : (UInt8.ofNat sequence).toNat = sequence := toNat_sequence hlast
  have hoob : ((UInt8.ofNat sequence :: data).headD 0).toNat ≠ primeV2SequenceOob := by
    rw [List.headD_cons, hhead]
    unfold primeV2SequenceLast at hlast
    unfold primeV2SequenceOob
    omega
  have hzero : (UInt8.ofNat sequence :: data).headD 0 ≠ 0 := by
    rw [List.headD_cons]
    intro hzero
    rw [hzero] at hhead
    simp at hhead
    omega
  unfold PrimeV2Rx.turn
  dsimp only
  rewrite [if_neg (by rw [primeV2IsHeartbeat_eq_false hoob]; simp only [hoob, and_false]; decide),
    if_neg (fun h => hzero h.2.2), primeV2DecodeContent_cont data h2 hlast]
  rfl

theorem turn_cont (size : ReportSize) {st : PrimeV2Rx} (hstarted : st.started = true)
    {sequence : Nat} (h2 : 2 ≤ sequence) (hlast : sequence ≤ primeV2SequenceLast)
    (data : List UInt8) :
    st.turn size (.ok (UInt8.ofNat sequence :: data))
      = PrimeV2Rx.contentTurn size { st with controls := 0 } ⟨sequence, false, 0, 0, data⟩ := by
  have hbegin : PrimeV2Rx.begin { st with controls := 0 } ⟨sequence, false, 0, 0, data⟩
      = .ok { st with controls := 0 } := if_pos hstarted
  rw [turn_continuation size st h2 hlast, hbegin]

/-- No message begins with a continuation frame. -/
theorem turn_cont_init (size : ReportSize) {sequence : Nat} (h2 : 2 ≤ sequence)
    (hlast : sequence ≤ primeV2SequenceLast) (data : List UInt8) :
    PrimeV2Rx.init.turn size (.ok (UInt8.ofNat sequence :: data)) = .stop .packetFormat := by
  rw [turn_continuation size .init h2 hlast]
  rfl

/-- An empty report has no frame. -/
theorem turn_empty (size : ReportSize) (st : PrimeV2Rx) :
    st.turn size (.ok []) = .stop .invalidParameter := by
  unfold PrimeV2Rx.turn
  dsimp only
  rw [if_neg (by decide), if_neg (fun h => h.2.1 rfl)]
  rfl

theorem exec_primeV2RecvLoop_stop (fuel : Nat) {st : PrimeV2Rx} {h : PrimeHandle} {err : PrimeErr}
    (hturn : st.turn h.reportSize h.read.1 = .stop err) :
    Proc.exec (primeV2RecvLoop (fuel + 1) st) h = (.error err, h.read.2) := by
  rw [exec_primeV2RecvLoop_succ, hturn]

theorem exec_primeV2RecvLoop_nack (fuel : Nat) {st st' : PrimeV2Rx} {h : PrimeHandle}
    (hturn : st.turn h.reportSize h.read.1 = .nack st') :
    Proc.exec (primeV2RecvLoop (fuel + 1) st) h
      = Proc.exec (do primeV2RecvLoop fuel (← st'.nack)) h.read.2 := by
  rw [exec_primeV2RecvLoop_succ, hturn]

section Receive

variable (size : ReportSize) (next : Nat)

/-- The receiver's handle, with what it reads and what it has sent. -/
abbrev receiver (rx : List Event) (tx : List (List UInt8)) : PrimeHandle :=
  ⟨⟨rx, tx, none⟩, size, .v2, next⟩

/-- The answer to a frame that is not expected. -/
def nackReport (messageId i : Nat) : List UInt8 :=
  reportOf size.bytes (ackBytes false (frameSequence i) (reportOffset size i) messageId)

variable {messageId : Nat} {data : List UInt8} {i : Nat}

/-- The receiver asks for the report it waits for. -/
theorem exec_nack_waiting (hid : messageId ≠ 0) (hi : 1 ≤ i)
    (hmore : i < reportCount size data.length) (retries fuel : Nat) (rx : List Event)
    (tx : List (List UInt8)) :
    Proc.exec (do primeV2RecvLoop fuel (← (waiting size messageId data i retries).nack))
        (receiver size next rx tx)
      = Proc.exec (primeV2RecvLoop fuel (waiting size messageId data i (retries + 1)))
        (receiver size next rx (tx ++ [nackReport size messageId i])) := by
  have hoffset := (lt_reportCount_iff size data.length hi).mp hmore
  have hbounds := frameSequence_bounds hi
  have hsequence : frameSequence i ≠ primeV2SequenceOob := by
    unfold primeV2SequenceLast at hbounds
    unfold primeV2SequenceOob
    omega
  have hlength : (data.take (reportOffset size i)).length = reportOffset size i := by
    rw [List.length_take]
    omega
  have hsend := exec_primeV2SendAckFrame rx tx size .v2 next false
    (data.take (reportOffset size i)).length hid hsequence
  have hnack : Proc.exec (waiting size messageId data i retries).nack (receiver size next rx tx)
      = (.ok (waiting size messageId data i (retries + 1)),
        receiver size next rx (tx ++ [nackReport size messageId i])) := by
    unfold nackReport
    rw [← hlength]
    exact Proc.exec_bind_ok hsend
  exact Proc.exec_bind_ok hnack

/-- An event on which the receiver asks for the report it waits for, unless it has done so too
often. -/
def Asks (messageId : Nat) (data : List UInt8) (i : Nat) (e : Event) : Prop :=
  ∃ err, ∀ retries, (waiting size messageId data i retries).turn size e
    = if primeV2MaxRetries < retries + 1 then .stop err
      else .nack (waiting size messageId data i retries)

theorem asks_error (messageId : Nat) (data : List UInt8) (i : Nat) (err : PrimeErr) :
    Asks size messageId data i (.error err) := by
  refine ⟨err, fun retries => ?_⟩
  unfold PrimeV2Rx.turn
  simp only [waiting, not_true_eq_false, false_or]

/-- A frame with another number than the expected one. -/
theorem asks_late (messageId : Nat) (data : List UInt8) {sequence : Nat} (h2 : 2 ≤ sequence)
    (hlast : sequence ≤ primeV2SequenceLast) (hother : sequence ≠ frameSequence i)
    (piece : List UInt8) :
    Asks size messageId data i (delivered (reportOf size.bytes (UInt8.ofNat sequence :: piece))) := by
  refine ⟨.packetFormat, fun retries => ?_⟩
  rw [delivered_cont, turn_cont size rfl h2 hlast]
  unfold PrimeV2Rx.contentTurn
  rw [if_pos (.inl hother)]
  rfl

/-- The receiver asks at each of these events, until it gives up. -/
theorem exec_primeV2RecvLoop_asks (hid : messageId ≠ 0) (hi : 1 ≤ i)
    (hmore : i < reportCount size data.length) {es : List Event}
    (h : ∀ e ∈ es, Asks size messageId data i e) (retries fuel : Nat) (rx : List Event)
    (tx : List (List UInt8)) :
    (retries + es.length ≤ primeV2MaxRetries →
      Proc.exec (primeV2RecvLoop (fuel + es.length) (waiting size messageId data i retries))
          (receiver size next (es ++ rx) tx)
        = Proc.exec (primeV2RecvLoop fuel (waiting size messageId data i (retries + es.length)))
          (receiver size next rx
            (tx ++ List.replicate es.length (nackReport size messageId i)))) ∧
    (retries ≤ primeV2MaxRetries → primeV2MaxRetries < retries + es.length → ∃ err h',
      Proc.exec (primeV2RecvLoop (fuel + es.length) (waiting size messageId data i retries))
          (receiver size next (es ++ rx) tx) = (.error err, h')) := by
  induction es generalizing retries tx with
  | nil =>
      constructor
      · intro _
        simp
      · intro hle hlt
        exact absurd hlt (Nat.not_lt.mpr hle)
  | cons e es ih =>
      obtain ⟨err, hturn⟩ := h e List.mem_cons_self
      have hrest := ih (fun e he => h e (List.mem_cons_of_mem _ he)) (retries + 1)
        (tx ++ [nackReport size messageId i])
      have hstep : Proc.exec (primeV2RecvLoop (fuel + (e :: es).length)
            (waiting size messageId data i retries)) (receiver size next (e :: es ++ rx) tx)
          = if primeV2MaxRetries < retries + 1 then
              (.error err, receiver size next (es ++ rx) tx)
            else Proc.exec (primeV2RecvLoop (fuel + es.length)
                (waiting size messageId data i (retries + 1)))
              (receiver size next (es ++ rx) (tx ++ [nackReport size messageId i])) := by
        rw [List.length_cons, ← Nat.add_assoc]
        have hturn := hturn retries
        by_cases hlimit : primeV2MaxRetries < retries + 1
        · rw [if_pos hlimit] at hturn ⊢
          exact exec_primeV2RecvLoop_stop _ hturn
        · rw [if_neg hlimit] at hturn ⊢
          exact (exec_primeV2RecvLoop_nack _ hturn).trans
            (exec_nack_waiting size next hid hi hmore retries _ _ tx)
      have hcount : retries + (e :: es).length = retries + 1 + es.length := by
        rw [List.length_cons]
        omega
      rw [hstep, hcount]
      constructor
      · intro hfew
        rw [if_neg (by omega), hrest.1 hfew, List.length_cons, List.replicate_succ,
          List.append_assoc, List.singleton_append]
      · intro hle hmany
        split
        · exact ⟨_, _, rfl⟩
        · exact hrest.2 (by omega) hmany

/-- A frame with the expected number, whatever its data. -/
theorem exec_primeV2RecvLoop_accepts (hid : messageId ≠ 0)
    (hdata : data.length ≤ primeV2MaxMessageSize) (hi : 1 ≤ i)
    (hmore : i < reportCount size data.length) (piece : List UInt8) (retries fuel : Nat)
    (rx : List Event) (tx : List (List UInt8)) :
    let st := (waiting size messageId data i retries).take
      ⟨frameSequence i, false, 0, 0,
        piece ++ List.replicate (size.bytes - primeV2ContHeaderSize - piece.length) 0⟩
      (size.bytes - primeV2ContHeaderSize)
    Proc.exec (primeV2RecvLoop (fuel + 1) (waiting size messageId data i retries))
        (receiver size next
          (delivered (reportOf size.bytes (UInt8.ofNat (frameSequence i) :: piece)) :: rx) tx)
      = if st.message.length = data.length then
          (.ok ⟨st.message, messageId⟩, receiver size next rx
            (tx ++ [reportOf size.bytes
              (ackBytes true (frameSequence i) st.ackPosition messageId)]))
        else if i + 1 = primeV2AckReportWindow then
          Proc.exec (primeV2RecvLoop fuel { st with reportsSinceAck := 0 }) (receiver size next rx
            (tx ++ [reportOf size.bytes
              (ackBytes true st.expectedSequence st.ackPosition messageId)]))
        else Proc.exec (primeV2RecvLoop fuel st) (receiver size next rx tx) := by
  intro st
  have hbytes : size.bytes ≤ 1024 := by rcases size.eq_or with h | h <;> omega
  have hoffset := (lt_reportCount_iff size data.length hi).mp hmore
  obtain ⟨h2, hlast⟩ := frameSequence_bounds hi
  have hhead : (UInt8.ofNat (frameSequence i)).toNat = frameSequence i := toNat_sequence hlast
  rw [delivered_cont]
  refine exec_primeV2RecvLoop_content rx tx size .v2 next fuel
    (waiting size messageId data i retries) (waiting size messageId data i retries) _ ?_ ?_
    (primeV2DecodeContent_cont _ h2 hlast) rfl rfl hlast (by simp) ?_ hid
  · rw [List.headD_cons, hhead]
    unfold primeV2SequenceLast at hlast
    unfold primeV2SequenceOob
    omega
  · rw [List.headD_cons]
    intro hzero
    rw [hzero] at hhead
    simp at hhead
    omega
  · show reportOffset size i + size.bytes < 2 ^ 32
    unfold primeV2MaxMessageSize at hdata
    omega

/-- The report the receiver waits for, when there are more behind it. -/
theorem exec_primeV2RecvLoop_report (hid : messageId ≠ 0)
    (hdata : data.length ≤ primeV2MaxMessageSize) (hi : 1 ≤ i)
    (hmore : i + 1 < reportCount size data.length) (hwindow : i + 1 < primeV2AckReportWindow)
    (retries fuel : Nat) (rx : List Event) (tx : List (List UInt8)) :
    Proc.exec (primeV2RecvLoop (fuel + 1) (waiting size messageId data i retries))
        (receiver size next
          (delivered (reportOf size.bytes (contReport size data i)) :: rx) tx)
      = Proc.exec (primeV2RecvLoop fuel (waiting size messageId data (i + 1) 0))
        (receiver size next rx tx) := by
  have hoffset := (lt_reportCount_iff size data.length (Nat.succ_pos i)).mp hmore
  rw [reportOffset_succ size hi] at hoffset
  have hpiece : ((data.drop (reportOffset size i)).take
      (size.bytes - primeV2ContHeaderSize)).length = size.bytes - primeV2ContHeaderSize := by
    rw [List.length_take, List.length_drop]
    omega
  have hstep := exec_primeV2RecvLoop_accepts size next hid hdata hi (Nat.lt_of_succ_lt hmore)
    ((data.drop (reportOffset size i)).take (size.bytes - primeV2ContHeaderSize)) retries fuel rx tx
  have hmessage : data.take (reportOffset size i) ++ ((data.drop (reportOffset size i)).take
        (size.bytes - primeV2ContHeaderSize)).take
          (data.length - (data.take (reportOffset size i)).length)
      = data.take (reportOffset size (i + 1)) := by
    have hall : ((data.drop (reportOffset size i)).take (size.bytes - primeV2ContHeaderSize)).length
        ≤ data.length - (data.take (reportOffset size i)).length := by
      rw [hpiece, List.length_take]
      omega
    rw [reportOffset_succ size hi, List.take_add, List.take_of_length_le hall]
  have hnext : (waiting size messageId data i retries).take
        ⟨frameSequence i, false, 0, 0, (data.drop (reportOffset size i)).take
          (size.bytes - primeV2ContHeaderSize)⟩ (size.bytes - primeV2ContHeaderSize)
      = waiting size messageId data (i + 1) 0 := by
    unfold PrimeV2Rx.take waiting
    rw [hmessage, reportOffset_succ size hi, frameSequence_succ]
  rw [hpiece, Nat.sub_self, List.replicate_zero, List.append_nil, hnext] at hstep
  have hshort : (waiting size messageId data (i + 1) 0).message.length ≠ data.length := by
    show (data.take (reportOffset size (i + 1))).length ≠ data.length
    rw [reportOffset_succ size hi, List.length_take]
    omega
  exact hstep.trans ((if_neg hshort).trans (if_neg (Nat.ne_of_lt hwindow)))

/-- The start frame, when there are more reports. -/
theorem exec_primeV2RecvLoop_start (hid : messageId ≠ 0) (hid' : messageId < 2 ^ 32)
    (hdata : data.length ≤ primeV2MaxMessageSize) (hmore : 1 < reportCount size data.length)
    (fuel : Nat) (rx : List Event) (tx : List (List UInt8)) :
    Proc.exec (primeV2RecvLoop (fuel + 1) .init)
        (receiver size next
          (delivered (reportOf size.bytes (startFrame size.bytes messageId data)) :: rx) tx)
      = Proc.exec (primeV2RecvLoop fuel (waiting size messageId data 1 0))
        (receiver size next rx tx) := by
  have hbytes : size.bytes ≤ 1024 := by rcases size.eq_or with h | h <;> omega
  have hsmall : data.length < 2 ^ 32 := by
    unfold primeV2MaxMessageSize at hdata
    omega
  have hoffset := (lt_reportCount_iff size data.length le_rfl).mp hmore
  have hfirst : reportOffset size 1 = size.bytes - primeV2StartHeaderSize := by
    unfold reportOffset
    simp
  rw [hfirst] at hoffset
  have hpiece : (data.take (size.bytes - primeV2StartHeaderSize)).length
      = size.bytes - primeV2StartHeaderSize := by
    rw [List.length_take]
    omega
  have hdelivered := delivered_start size.bytes messageId data
  rw [hpiece, Nat.sub_self, List.replicate_zero, List.append_nil] at hdelivered
  have hstep := exec_primeV2RecvLoop_content rx tx size .v2 next fuel .init
    { PrimeV2Rx.init with started := true, totalSize := data.length, messageId }
    (UInt8.ofNat primeV2SequenceFirst :: (putLE 4 messageId ++ putLE 4 data.length) ++
      data.take (size.bytes - primeV2StartHeaderSize))
    (show (UInt8.ofNat primeV2SequenceFirst).toNat ≠ primeV2SequenceOob by decide)
    (show UInt8.ofNat primeV2SequenceFirst ≠ 0 by decide)
    (primeV2DecodeContent_start (data.take (size.bytes - primeV2StartHeaderSize)) hid hid' hsmall)
    (by simp [PrimeV2Rx.begin, PrimeV2Rx.init, Nat.not_lt.mpr hdata]) rfl
    (show primeV2SequenceFirst ≤ primeV2SequenceLast by decide) (by simp [PrimeV2Rx.init])
    (show 0 + size.bytes < 2 ^ 32 by omega) hid
  have hnext : PrimeV2Rx.take
        { PrimeV2Rx.init with started := true, totalSize := data.length, messageId }
        ⟨primeV2SequenceFirst, true, messageId, data.length,
          data.take (size.bytes - primeV2StartHeaderSize)⟩ (size.bytes - headerSize true)
      = waiting size messageId data 1 0 := by
    have hmessage : [] ++ (data.take (size.bytes - primeV2StartHeaderSize)).take
        (data.length - ([] : List UInt8).length) = data.take (reportOffset size 1) := by
      rw [List.nil_append, hfirst, List.take_take, List.length_nil, Nat.sub_zero]
      congr 1
      omega
    unfold PrimeV2Rx.take waiting PrimeV2Rx.init headerSize
    rw [hmessage, hfirst]
    simp [frameSequence]
  rw [hdelivered]
  rw [hnext] at hstep
  have hshort : (waiting size messageId data 1 0).message.length ≠ data.length := by
    show (data.take (reportOffset size 1)).length ≠ data.length
    rw [hfirst, List.length_take]
    omega
  have hwindow : 1 ≠ primeV2AckReportWindow := by decide
  exact hstep.trans ((if_neg hshort).trans (if_neg hwindow))

/-- The reports before an index, when it is not the last of its window. -/
theorem exec_primeV2RecvLoop_before (hid : messageId ≠ 0) (hid' : messageId < 2 ^ 32)
    (hdata : data.length ≤ primeV2MaxMessageSize) (hi : 1 ≤ i)
    (hmore : i < reportCount size data.length) (hwindow : i < primeV2AckReportWindow)
    (fuel : Nat) (rx : List Event) (tx : List (List UInt8)) :
    Proc.exec (primeV2RecvLoop (fuel + i) .init)
        (receiver size next
          (((messageReports size.bytes messageId data).take i).map delivered ++ rx) tx)
      = Proc.exec (primeV2RecvLoop fuel (waiting size messageId data i 0))
        (receiver size next rx tx) := by
  obtain ⟨j, rfl⟩ := Nat.exists_eq_add_of_le' hi
  induction j generalizing fuel rx with
  | zero => exact exec_primeV2RecvLoop_start size next hid hid' hdata hmore fuel rx tx
  | succ j ih =>
      have hone : ((messageReports size.bytes messageId data).drop (j + 1)).take 1
          = [reportOf size.bytes (contReport size data (j + 1))] := by
        rw [drop_messageReports_cons size messageId data (by omega) (by omega)]
        rfl
      rw [List.take_add, hone, List.map_append, List.append_assoc, ← Nat.add_assoc,
        Nat.add_right_comm, ih _ _ (by omega) (by omega) (by omega)]
      exact exec_primeV2RecvLoop_report size next hid hdata (by omega) hmore hwindow 0 fuel rx tx

/-- The reports from the expected one on complete the message. -/
theorem exec_primeV2RecvLoop_rest (hid : messageId ≠ 0)
    (hdata : data.length ≤ primeV2MaxMessageSize) (hi : 1 ≤ i)
    (hmore : i < reportCount size data.length) (retries : Nat) {fuel : Nat}
    (hfuel : reportCount size data.length - i ≤ fuel) (rx : List Event) (tx : List (List UInt8)) :
    ∃ acked position more,
      Proc.exec (primeV2RecvLoop fuel (waiting size messageId data i retries))
          (receiver size next
            (((messageReports size.bytes messageId data).drop i).map delivered ++ rx) tx)
        = (.ok ⟨data, messageId⟩, receiver size next rx
          (tx ++ reportOf size.bytes (ackBytes true acked position messageId) :: more)) := by
  have hoffset := (lt_reportCount_iff size data.length hi).mp hmore
  have hrest : data.drop (reportOffset size i) ≠ [] := by
    rw [Ne, List.drop_eq_nil_iff]
    omega
  have hlength : (data.take (reportOffset size i)).length = reportOffset size i := by
    rw [List.length_take]
    omega
  have hwaits : (waiting size messageId data i retries).Waits (frameSequence i) :=
    ⟨rfl, rfl, hlength.symm, hdata, hid⟩
  have hcount : (pieces (size.bytes - primeV2ContHeaderSize)
      (data.drop (reportOffset size i))).length = reportCount size data.length - i := by
    rw [← length_contReports size.bytes (frameSequence i), ← drop_messageReports size messageId data hi,
      List.length_drop, length_messageReports]
  obtain ⟨acked, position, more, hrun⟩ := exec_primeV2RecvLoop_cont rx tx size .v2 next
    (waiting size messageId data i retries) hwaits hrest (hcount.trans_le hfuel)
    (by show data.length = (data.take (reportOffset size i)).length + _
        rw [hlength, List.length_drop]
        omega)
    (frameSequence_bounds hi).1 (frameSequence_bounds hi).2
  refine ⟨acked, position, more, ?_⟩
  have hall : (waiting size messageId data i retries).message ++ data.drop (reportOffset size i)
      = data := List.take_append_drop _ data
  rw [drop_messageReports size messageId data hi]
  rw [hall] at hrun
  exact hrun

/-- The receiver asks at each of the reports behind the lost ones, as long as their numbers are
not those of the lost ones again. -/
theorem asks_reports (messageId : Nat) (data : List UInt8) (hi : 1 ≤ i) {count k : Nat}
    (h : ∀ j < count, i + k + j < reportCount size data.length → ¬ 252 ∣ k + j) :
    ∀ e ∈ (((messageReports size.bytes messageId data).drop (i + k)).take count).map delivered,
      Asks size messageId data i e := by
  induction count generalizing k with
  | zero => simp
  | succ count ih =>
      rcases Nat.lt_or_ge (i + k) (reportCount size data.length) with hmore | hend
      · obtain ⟨h2, hlast⟩ := frameSequence_bounds (Nat.le_add_right_of_le hi : 1 ≤ i + k)
        have hother : frameSequence (i + k) ≠ frameSequence i := by
          rw [Ne, frameSequence_eq_iff hi]
          exact h 0 (Nat.succ_pos count) hmore
        have hrest := ih (k := k + 1) (fun j hj hlt => by
          have hstep := h (j + 1) (Nat.succ_lt_succ hj) (by omega)
          rwa [show k + 1 + j = k + (j + 1) by omega])
        rw [drop_messageReports_cons size messageId data (by omega) hmore, List.take_succ_cons,
          List.map_cons]
        intro e he
        rcases List.mem_cons.mp he with rfl | he
        · exact asks_late size messageId data h2 hlast hother _
        · exact hrest e he
      · rw [List.drop_eq_nil_of_le (by rw [length_messageReports]; exact hend)]
        simp

end Receive

/-! ## what is received stays -/

theorem message_prefix_of_exec {fuel : Nat} {st : PrimeV2Rx} {h h' : PrimeHandle}
    {m : PrimeV2Message} (hstarted : st.started = true)
    (hrun : Proc.exec (primeV2RecvLoop fuel st) h = (.ok m, h')) : st.message <+: m.data := by
  induction fuel generalizing st h with
  | zero => cases hrun
  | succ fuel ih =>
      rw [exec_primeV2RecvLoop_succ] at hrun
      have hturn := turns h.reportSize st h.read.1
      generalize h.read.2 = h₀ at hrun
      generalize h.read.1 = e at hrun hturn
      generalize st.turn h.reportSize e = t at hrun hturn
      have hkeep {st' : PrimeV2Rx} {h : PrimeHandle}
          (hrun : Proc.exec (primeV2RecvLoop fuel st') h = (.ok m, h'))
          (hmessage : st'.message = st.message) (hgo : st'.started = true) :
          st.message <+: m.data := hmessage ▸ ih hgo hrun
      cases hturn with
      | stop err => cases hrun
      | skip =>
          dsimp only at hrun
          exact hkeep hrun rfl hstarted
      | legacy hcontrol hnew =>
          rw [hstarted] at hnew
          cases hnew
      | silent =>
          obtain ⟨h₁, -, -, hrun⟩ := exec_nack_ok hrun
          exact hkeep hrun rfl hstarted
      | unexpected hcontrol hdecode hbegin =>
          obtain ⟨h₁, -, -, hrun⟩ := exec_nack_ok hrun
          rcases begin_ok hbegin with ⟨-, rfl⟩ | ⟨hnew, -⟩
          · exact hkeep hrun rfl hstarted
          · rw [hstarted] at hnew
            cases hnew
      | @expected raw frame st' hcontrol hdecode hbegin =>
          have hmessage : st.message <+: (st'.appended h.reportSize frame).message := by
            rcases begin_ok hbegin with ⟨-, rfl⟩ | ⟨-, -, -, rfl⟩ <;> exact List.prefix_append _ _
          rcases exec_settle_ok hrun with ⟨-, rfl, -⟩ | ⟨-, h₁, -, -, hrun⟩
          · exact hmessage
          · have hwindowed : (st'.appended h.reportSize frame).windowed.message
                = (st'.appended h.reportSize frame).message := by
              unfold PrimeV2Rx.windowed
              split <;> rfl
            have hnew : st'.started = true := begin_started hbegin
            have hgo : (st'.appended h.reportSize frame).windowed.started = true := by
              unfold PrimeV2Rx.windowed
              split <;> exact hnew
            exact hmessage.trans (hwindowed ▸ ih hgo hrun)

/-- Whatever frame has the expected number, its data goes where the lost data belongs. -/
theorem getElem?_of_exec_accepted {size : ReportSize} {next messageId : Nat} {data : List UInt8}
    {i retries fuel : Nat} {rx : List Event} {tx : List (List UInt8)} {b : UInt8}
    {piece : List UInt8} {m : PrimeV2Message} {h' : PrimeHandle} (hid : messageId ≠ 0)
    (hdata : data.length ≤ primeV2MaxMessageSize) (hi : 1 ≤ i)
    (hmore : i < reportCount size data.length)
    (hrun : Proc.exec (primeV2RecvLoop (fuel + 1) (waiting size messageId data i retries))
      (receiver size next
        (delivered (reportOf size.bytes (UInt8.ofNat (frameSequence i) :: b :: piece)) :: rx) tx)
      = (.ok m, h')) :
    m.data[reportOffset size i]? = some b := by
  have hoffset := (lt_reportCount_iff size data.length hi).mp hmore
  have hlength : (data.take (reportOffset size i)).length = reportOffset size i := by
    rw [List.length_take]
    omega
  obtain ⟨missing, hmissing⟩ : ∃ missing,
      data.length - (data.take (reportOffset size i)).length = missing + 1 :=
    ⟨data.length - reportOffset size i - 1, by omega⟩
  have hstep := exec_primeV2RecvLoop_accepts size next hid hdata hi hmore (b :: piece) retries fuel
    rx tx
  dsimp only at hstep
  generalize hst : (waiting size messageId data i retries).take
    ⟨frameSequence i, false, 0, 0, b :: piece ++ List.replicate
      (size.bytes - primeV2ContHeaderSize - (b :: piece).length) 0⟩
    (size.bytes - primeV2ContHeaderSize) = st at hstep
  have hmessage : ∃ more, st.message = data.take (reportOffset size i) ++ b :: more := by
    rw [← hst]
    show ∃ more, _ ++ List.take (data.length - (data.take (reportOffset size i)).length)
      (b :: piece ++ _) = _
    rw [hmissing]
    exact ⟨_, rfl⟩
  have hstarted : st.started = true := by
    rw [← hst]
    rfl
  have hprefix : st.message <+: m.data := by
    rw [hstep] at hrun
    split at hrun
    · cases hrun
      exact List.prefix_rfl
    · split at hrun
      · exact @message_prefix_of_exec _ { st with reportsSinceAck := 0 } _ _ _ hstarted hrun
      · exact message_prefix_of_exec hstarted hrun
  obtain ⟨more, hmore'⟩ := hmessage
  obtain ⟨rest, hrest⟩ := hprefix
  rw [← hrest, hmore', List.append_assoc, List.getElem?_append_right hlength.le, hlength,
    Nat.sub_self]
  rfl

end Tilibs.Prime
