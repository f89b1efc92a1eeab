import Tilibs.Prime.Nack

/-!
# Tilibs.Prime.NackRecovers

When a message is received although some consecutive reports of it are lost.  The position and the
number in the receiver's request are those of the first lost report, so the sender goes on with
exactly the reports from there on.  What can go wrong is that the request is never made: the start
frame is lost, the receiver gives up, or it takes a later frame for the lost one since the numbers
repeat after 252 frames.
-/

namespace Tilibs.Prime

open Tilibs.Lib

/-! ## what the sender reads -/

section Control

variable (size : ReportSize) {messageId : Nat}

/-- A control frame in its report. -/
theorem padRight_ackBytes (isAck : Bool) (sequence position messageId : Nat) :
    padRight size.bytes 0 (ackBytes isAck sequence position messageId)
      = UInt8.ofNat primeV2SequenceOob :: (if isAck then 1 else 0) :: UInt8.ofNat sequence :: 0 ::
        (putLE 4 position ++ (putLE 4 messageId
          ++ List.replicate (size.bytes - primeV2AckFrameSize) 0)) := by
  have hlength : (ackBytes isAck sequence position messageId).length = primeV2AckFrameSize := by
    simp only [ackBytes, List.length_cons, List.length_append, length_putLE]
    rfl
  unfold padRight
  rw [hlength]
  simp only [ackBytes, List.cons_append, List.append_assoc]

theorem length_padRight_ackBytes (isAck : Bool) (sequence position messageId : Nat) :
    (padRight size.bytes 0 (ackBytes isAck sequence position messageId)).length = size.bytes := by
  have hsize : 64 ≤ size.bytes := by rcases size.eq_or with h | h <;> omega
  apply length_padRight
  simp only [ackBytes, List.length_cons, List.length_append, length_putLE]
  omega

/-- The identifier of the message stands behind the position. -/
theorem take_drop_ackBytes (isAck : Bool) (sequence position : Nat) (hid' : messageId < 2 ^ 32) :
    getLE (((padRight size.bytes 0 (ackBytes isAck sequence position messageId)).drop 8).take 4)
      = messageId := by
  rw [padRight_ackBytes]
  simp only [List.drop_succ_cons]
  rw [List.drop_left' (length_putLE 4 position), List.take_left' (length_putLE 4 messageId)]
  exact getLE_putLE hid'

/-- The receiver's control frames, as the sender decodes them. -/
theorem primeV2DecodeAck_ackBytes (isAck : Bool) (sequence position : Nat) (hid : messageId ≠ 0)
    (hid' : messageId < 2 ^ 32)
    (hsequence : isAck = true ∨ (1 ≤ (UInt8.ofNat sequence).toNat
      ∧ (UInt8.ofNat sequence).toNat ≤ primeV2SequenceLast)) :
    primeV2DecodeAck (padRight size.bytes 0 (ackBytes isAck sequence position messageId))
      = .ok ⟨isAck, (UInt8.ofNat sequence).toNat, getLE (putLE 4 position), messageId⟩ := by
  have hshort : ¬size.bytes < primeV2AckFrameSize := by cases size <;> decide
  have hbound : ¬(1 : UInt8) < (if isAck = true then 1 else 0) := by cases isAck <;> decide
  have hkind : ((if isAck = true then 1 else 0 : UInt8) = 1) ↔ isAck = true := by
    cases isAck <;> decide
  have hoob : (UInt8.ofNat primeV2SequenceOob).toNat = primeV2SequenceOob := by decide
  unfold primeV2DecodeAck
  rw [take_drop_ackBytes size isAck sequence position hid', length_padRight_ackBytes,
    padRight_ackBytes]
  simp only [List.headD_cons, List.getD_cons_succ, List.getD_cons_zero, List.drop_succ_cons,
    List.drop_zero]
  rw [List.take_left' (length_putLE 4 position),
    if_neg (by simp only [hshort, hoob, hbound]; decide), if_neg hid]
  simp only [hkind, Bool.decide_eq_true]
  unfold primeV2SequenceFirst
  cases hsequence with
  | inl hack => rw [if_neg (by simp [hack])]
  | inr hrange => rw [if_neg (by omega)]

/-- They are no heartbeats, which have no message. -/
theorem primeV2IsHeartbeat_ackBytes (isAck : Bool) (sequence position : Nat) (hid : messageId ≠ 0)
    (hid' : messageId < 2 ^ 32) :
    primeV2IsHeartbeat (padRight size.bytes 0 (ackBytes isAck sequence position messageId))
      = false := by
  have hshort : ¬size.bytes < primeV2AckFrameSize := by cases size <;> decide
  unfold primeV2IsHeartbeat
  rw [take_drop_ackBytes size isAck sequence position hid', length_padRight_ackBytes]
  simp [hshort, hid]

end Control

/-! ## the sender -/

section Send

variable (size : ReportSize) (version : PrimeProtocol) (next : Nat) {messageId i : Nat}
  {data : List UInt8}

/-- From the place of a report the reports from there on go out again. -/
theorem exec_primeV2SendFramesFrom_report (hi : 1 ≤ i)
    (hmore : i < reportCount size data.length) (rx : List Event) (tx : List (List UInt8)) :
    Proc.exec (primeV2SendFramesFrom messageId data (reportOffset size i) (frameSequence i))
        ⟨⟨rx, tx, none⟩, size, version, next⟩
      = (.ok (), ⟨⟨rx, tx ++ (messageReports size.bytes messageId data).drop i, none⟩, size,
        version, next⟩) := by
  have hoffset := (lt_reportCount_iff size data.length hi).mp hmore
  obtain ⟨h2, hlast⟩ := frameSequence_bounds hi
  have hmax : size.bytes ≤ primeRawHidDataSizeMax := by cases size <;> decide
  have hmin : primeV2StartHeaderSize ≤ size.bytes := by cases size <;> decide
  have hzero : reportOffset size i ≠ 0 := by
    unfold reportOffset primeV2StartHeaderSize
    rw [if_neg (by omega)]
    rcases size.eq_or with h | h <;> omega
  have hsequence : ¬(frameSequence i < 2 ∨ primeV2SequenceLast < frameSequence i) := by omega
  have hdata : data.drop (reportOffset size i) ≠ [] := by
    rw [Ne, List.drop_eq_nil_iff]
    omega
  rw [primeV2SendFramesFrom, Proc.exec_bind_ok (Proc.exec_get _)]
  simp only [Nat.not_lt.mpr hoffset.le, Nat.not_lt.mpr hmax, Nat.not_lt.mpr hmin, hzero, hsequence,
    false_and, and_false, or_self, if_false, decide_false]
  rw [drop_messageReports size messageId data hi]
  exact exec_primeV2SendFramesLoop_cont rx tx size version next hdata
    (by rw [List.length_drop]; omega) h2 hlast

/-- The sender does what the receiver asks for, as often as it may. -/
theorem exec_primeV2SendLoop_nack (hid : messageId ≠ 0) (hid' : messageId < 2 ^ 32)
    (hdata : data.length ≤ primeV2MaxMessageSize) (hi : 1 ≤ i)
    (hmore : i < reportCount size data.length) {maxRetries retries : Nat}
    (hretries : retries < maxRetries) (controls : Nat) (rx : List Event)
    (tx : List (List UInt8)) :
    Proc.exec (primeV2SendLoop messageId data maxRetries (controls + 1) retries)
        ⟨⟨delivered (nackReport size messageId i) :: rx, tx, none⟩, size, version, next⟩
      = Proc.exec (primeV2SendLoop messageId data maxRetries controls (retries + 1))
        ⟨⟨rx, tx ++ (messageReports size.bytes messageId data).drop i, none⟩, size, version,
          next⟩ := by
  have hoffset := (lt_reportCount_iff size data.length hi).mp hmore
  obtain ⟨h2, hlast⟩ := frameSequence_bounds hi
  have hsequence : (UInt8.ofNat (frameSequence i)).toNat = frameSequence i := toNat_sequence hlast
  have hposition : getLE (putLE 4 (reportOffset size i)) = reportOffset size i := by
    apply getLE_putLE
    unfold primeV2MaxMessageSize at hdata
    omega
  have hdecode := primeV2DecodeAck_ackBytes size false (frameSequence i) (reportOffset size i) hid
    hid' (.inr (by omega))
  rw [hsequence, hposition] at hdecode
  rw [primeV2SendLoop, Proc.exec_bind_ok (exec_primeRecv_cons _ _ _ _ _ _)]
  show Proc.exec (if primeV2IsHeartbeat (padRight size.bytes 0
    (ackBytes false (frameSequence i) (reportOffset size i) messageId)) then _ else _) _ = _
  rw [primeV2IsHeartbeat_ackBytes size false _ _ hid hid', if_neg (by simp), nackReport, reportOf,
    List.tail_cons, hdecode, Proc.exec_bind_ok (Proc.exec_ofExcept _ _)]
  simp only [ne_eq, not_true_eq_false, if_false, Bool.false_eq_true]
  rw [if_neg (by omega), Proc.exec_bind_ok
    (exec_primeV2SendFramesFrom_report size version next hi hmore rx tx)]

/-- The first acknowledgement ends it. -/
theorem exec_primeV2SendLoop_ack (hid : messageId ≠ 0) (hid' : messageId < 2 ^ 32)
    (maxRetries retries controls sequence position : Nat) (rx : List Event)
    (tx : List (List UInt8)) :
    Proc.exec (primeV2SendLoop messageId data maxRetries (controls + 1) retries)
        ⟨⟨delivered (reportOf size.bytes (ackBytes true sequence position messageId)) :: rx, tx,
          none⟩, size, version, next⟩
      = (.ok (), ⟨⟨rx, tx, none⟩, size, version, next⟩) := by
  have hdecode := primeV2DecodeAck_ackBytes size true sequence position hid hid' (.inl rfl)
  rw [primeV2SendLoop, Proc.exec_bind_ok (exec_primeRecv_cons _ _ _ _ _ _)]
  show Proc.exec (if primeV2IsHeartbeat (padRight size.bytes 0
    (ackBytes true sequence position messageId)) then _ else _) _ = _
  rw [primeV2IsHeartbeat_ackBytes size true _ _ hid hid', if_neg (by simp), reportOf,
    List.tail_cons, hdecode, Proc.exec_bind_ok (Proc.exec_ofExcept _ _)]
  simp only [ne_eq, not_true_eq_false, if_false, if_true]
  rfl

/-- Some requests and an acknowledgement. -/
theorem exec_primeV2SendLoop_nacks (hid : messageId ≠ 0) (hid' : messageId < 2 ^ 32)
    (hdata : data.length ≤ primeV2MaxMessageSize) (hi : 1 ≤ i)
    (hmore : i < reportCount size data.length) {maxRetries count controls retries : Nat}
    (hretries : retries + count ≤ maxRetries) (hcontrols : count < controls)
    (sequence position : Nat) (rx : List Event) (tx : List (List UInt8)) :
    Proc.exec (primeV2SendLoop messageId data maxRetries controls retries)
        ⟨⟨(List.replicate count (nackReport size messageId i)).map delivered
          ++ delivered (reportOf size.bytes (ackBytes true sequence position messageId)) :: rx, tx,
          none⟩, size, version, next⟩
      = (.ok (), ⟨⟨rx, tx ++ (List.replicate count
          ((messageReports size.bytes messageId data).drop i)).flatten, none⟩, size, version,
        next⟩) := by
  induction count generalizing controls retries tx with
  | zero =>
      obtain ⟨controls, rfl⟩ := Nat.exists_eq_add_of_le' hcontrols
      rw [List.replicate_zero, List.replicate_zero, List.flatten_nil, List.append_nil]
      exact exec_primeV2SendLoop_ack size version next hid hid' maxRetries retries controls sequence
        position rx tx
  | succ count ih =>
      obtain ⟨controls, rfl⟩ := Nat.exists_eq_add_of_le' (Nat.lt_of_le_of_lt (Nat.zero_le _) hcontrols)
      rw [List.replicate_succ, List.map_cons, List.cons_append,
        exec_primeV2SendLoop_nack size version next hid hid' hdata hi hmore (by omega) controls,
        ih (by omega) (by omega), List.replicate_succ, List.flatten_cons, List.append_assoc]

/-- What the sender puts on the cable when the receiver asks for a report some times. -/
theorem exec_primeV2SendMessage_nacks (hid : messageId ≠ 0) (hid' : messageId < 2 ^ 32)
    (hdata : data.length ≤ primeV2MaxMessageSize) (hi : 1 ≤ i)
    (hmore : i < reportCount size data.length) {count : Nat} (hcount : count ≤ primeV2MaxRetries)
    (sequence position : Nat) (rx : List Event) :
    ∃ hs : PrimeHandle, Proc.exec (primeV2SendMessage data)
        ⟨⟨(List.replicate count (nackReport size messageId i)).map delivered
          ++ delivered (reportOf size.bytes (ackBytes true sequence position messageId)) :: rx, [],
          none⟩, size, .v2, messageId⟩ = (.ok messageId, hs)
      ∧ hs.port.tx = messageReports size.bytes messageId data
        ++ (List.replicate count ((messageReports size.bytes messageId data).drop i)).flatten := by
  obtain ⟨next', hnext⟩ := exec_primeProtocolNextMessageId
    ((List.replicate count (nackReport size messageId i)).map delivered
      ++ delivered (reportOf size.bytes (ackBytes true sequence position messageId)) :: rx) []
    size .v2 messageId
  have hcontrols : count < primeV2MaxControlFrames := Nat.lt_of_le_of_lt hcount (by decide)
  have hloop := exec_primeV2SendLoop_nacks size .v2 next' hid hid' hdata hi hmore
    (Nat.zero_add count ▸ hcount) hcontrols sequence position rx
    ([] ++ messageReports size.bytes messageId data)
  unfold primeV2SendMessage primeV2SendMessageWithRetries
  rw [Proc.exec_bind_ok (Proc.exec_get _), if_neg (by simp [Nat.not_lt.mpr hdata]),
    Proc.exec_bind_ok hnext, if_neg hid,
    Proc.exec_bind_ok (exec_primeV2SendFramesFrom _ [] size .v2 next' data hid),
    Proc.exec_bind_ok hloop]
  exact ⟨_, rfl, rfl⟩

end Send

/-! ## a message some reports of which are lost -/

/-- A read that ends without a report: as an error (WebHID), or as an empty report (hidapi). -/
def TimesOut (e : Event) : Prop :=
  e = .ok [] ∨ ∃ err, e = .error err

/-- Of the reports that the sender puts on the cable first, `k` are lost from the report `i` on;
`silence` is what the receiver's reads return before something comes again.  The sender reads what
the receiver sends, the receiver what the sender resends, and at the end it has the message. -/
def Recovers (size : ReportSize) (messageId next i k : Nat) (silence : List Event)
    (data : List UInt8) : Prop :=
  ∃ resent hs hr,
    Proc.exec (primeV2SendMessage data)
        ⟨⟨hr.port.tx.map delivered, [], none⟩, size, .v2, messageId⟩ = (.ok messageId, hs)
    ∧ hs.port.tx = messageReports size.bytes messageId data ++ resent
    ∧ Proc.exec primeV2RecvMessage
        ⟨⟨((messageReports size.bytes messageId data).take i).map delivered
            ++ (((messageReports size.bytes messageId data).drop (i + k)).map delivered
              ++ (silence ++ resent.map delivered)), [], none⟩, size, .v2, next⟩
      = (.ok ⟨data, messageId⟩, hr)

section Recovers

variable {size : ReportSize} {messageId next i k : Nat} {silence : List Event}
  {data : List UInt8}

/-- The receiver when it has read the reports before the lost ones. -/
theorem exec_primeV2RecvMessage_before (hid : messageId ≠ 0) (hid' : messageId < 2 ^ 32)
    (hdata : data.length ≤ primeV2MaxMessageSize) (hi : 1 ≤ i)
    (hmore : i < reportCount size data.length) (hwindow : i < primeV2AckReportWindow)
    (rx : List Event) :
    Proc.exec primeV2RecvMessage (receiver size next
        (((messageReports size.bytes messageId data).take i).map delivered ++ rx) [])
      = Proc.exec (primeV2RecvLoop (rx.length + primeV2MaxRetries + 2)
          (waiting size messageId data i 0)) (receiver size next rx []) := by
  have hlength : (((messageReports size.bytes messageId data).take i).map delivered).length = i := by
    rw [List.length_map, List.length_take, length_messageReports]
    omega
  unfold primeV2RecvMessage
  rw [Proc.exec_bind_ok (Proc.exec_get _), if_neg (by simp)]
  dsimp only
  rw [List.length_append, hlength,
    show i + rx.length + primeV2MaxRetries + 2 = rx.length + primeV2MaxRetries + 2 + i by omega]
  exact exec_primeV2RecvLoop_before size next hid hid' hdata hi hmore hwindow _ rx []

/-- All the receiver needs for the whole message is that it asks, and not too often. -/
theorem recovers_of_asks (hid : messageId ≠ 0) (hid' : messageId < 2 ^ 32)
    (hdata : data.length ≤ primeV2MaxMessageSize) (hi : 1 ≤ i)
    (hmore : i < reportCount size data.length) (hwindow : i < primeV2AckReportWindow)
    {es : List Event} (hes : ((messageReports size.bytes messageId data).drop (i + k)).map delivered
      ++ silence = es) (hasks : ∀ e ∈ es, Asks size messageId data i e) (hne : es ≠ [])
    (hlimit : es.length ≤ primeV2MaxRetries) :
    Recovers size messageId next i k silence data := by
  obtain ⟨count, hcount⟩ : ∃ count, es.length = count + 1 :=
    Nat.exists_eq_add_of_le' (List.length_pos_iff.mpr hne)
  obtain ⟨resent, hresent, again, hagain⟩ : ∃ resent, (List.replicate es.length
      ((messageReports size.bytes messageId data).drop i)).flatten = resent ∧ ∃ again,
        resent.map delivered
          = ((messageReports size.bytes messageId data).drop i).map delivered ++ again := by
    refine ⟨_, rfl, ((List.replicate count
      ((messageReports size.bytes messageId data).drop i)).flatten).map delivered, ?_⟩
    rw [hcount, List.replicate_succ, List.flatten_cons, List.map_append]
  have hfuel : reportCount size data.length - i
      ≤ (resent.map delivered).length + primeV2MaxRetries + 2 := by
    rw [hagain, List.length_append, List.length_map, List.length_drop, length_messageReports]
    omega
  obtain ⟨acked, position, more, hrest⟩ := exec_primeV2RecvLoop_rest size next hid hdata hi hmore
    (0 + es.length) hfuel again ([] ++ List.replicate es.length (nackReport size messageId i))
  rw [← hagain] at hrest
  have hasked := (exec_primeV2RecvLoop_asks size next hid hi hmore hasks 0
    ((resent.map delivered).length + primeV2MaxRetries + 2) (resent.map delivered) []).1
    ((Nat.zero_add _).trans_le hlimit)
  have hrecv := @exec_primeV2RecvMessage_before _ _ next _ _ hid hid' hdata hi hmore hwindow
    (es ++ resent.map delivered)
  rw [List.length_append, Nat.add_comm es.length, Nat.add_right_comm _ es.length,
    Nat.add_right_comm _ es.length, hasked, hrest] at hrecv
  obtain ⟨hs, hsent, htx⟩ := exec_primeV2SendMessage_nacks size hid hid' hdata hi hmore hlimit acked
    position (more.map delivered)
  rw [hresent] at htx
  refine ⟨resent, hs, receiver size next again (List.replicate es.length (nackReport size messageId i)
    ++ reportOf size.bytes (ackBytes true acked position messageId) :: more), ?_, htx, ?_⟩
  · rw [List.map_append, List.map_cons]
    exact hsent
  · rw [← List.append_assoc _ silence, hes]
    exact hrecv

/-! ### what can go wrong -/

/-- Without its start frame no message is received. -/
theorem not_recovers_zero (hk : 1 ≤ k) (hsilence : ∀ e ∈ silence, TimesOut e)
    (hask : 0 + k < reportCount size data.length ∨ silence ≠ []) :
    ¬Recovers size messageId next 0 k silence data := by
  rintro ⟨resent, hs, hr, -, -, hrecv⟩
  have hstop (e : Event) (rx : List Event) (h : ∃ err, PrimeV2Rx.init.turn size e = .stop err) :
      Proc.exec primeV2RecvMessage (receiver size next (e :: rx) []) ≠ (.ok ⟨data, messageId⟩, hr) := by
    obtain ⟨err, hturn⟩ := h
    have hrun (fuel : Nat) : Proc.exec (primeV2RecvLoop (fuel + 1) .init)
        (receiver size next (e :: rx) []) = (.error err, receiver size next rx []) :=
      exec_primeV2RecvLoop_stop fuel hturn
    unfold primeV2RecvMessage
    rw [Proc.exec_bind_ok (Proc.exec_get _), if_neg (by simp), hrun]
    intro heq
    cases heq
  rw [List.take_zero, List.map_nil, List.nil_append] at hrecv
  rcases Nat.lt_or_ge (0 + k) (reportCount size data.length) with hlt | hge
  · obtain ⟨h2, hlast⟩ := frameSequence_bounds (show 1 ≤ 0 + k by omega)
    rw [drop_messageReports_cons size messageId data (by omega) hlt, List.map_cons,
      List.cons_append, contReport, delivered_cont] at hrecv
    exact hstop _ _ ⟨_, turn_cont_init size h2 hlast _⟩ hrecv
  · rw [List.drop_eq_nil_of_le (by rw [length_messageReports]; exact hge), List.map_nil,
      List.nil_append] at hrecv
    cases silence with
    | nil =>
        cases hask with
        | inl hlt => exact Nat.not_lt.mpr hge hlt
        | inr hne => exact hne rfl
    | cons e silence =>
        rw [List.cons_append] at hrecv
        refine hstop e _ ?_ hrecv
        rcases hsilence e List.mem_cons_self with rfl | ⟨err, rfl⟩
        · exact ⟨_, turn_empty size .init⟩
        · exact ⟨err, rfl⟩

/-- The receiver's run behind the lost reports. -/
theorem Recovers.exec_waiting (h : Recovers size messageId next i k silence data)
    (hid : messageId ≠ 0) (hid' : messageId < 2 ^ 32) (hdata : data.length ≤ primeV2MaxMessageSize)
    (hi : 1 ≤ i) (hmore : i < reportCount size data.length)
    (hwindow : i < primeV2AckReportWindow) :
    ∃ fuel rx hr, Proc.exec (primeV2RecvLoop
          (fuel + silence.length + (reportCount size data.length - (i + k)))
          (waiting size messageId data i 0))
        (receiver size next (((messageReports size.bytes messageId data).drop (i + k)).map delivered
          ++ (silence ++ rx)) []) = (.ok ⟨data, messageId⟩, hr) := by
  obtain ⟨resent, hs, hr, -, -, hrecv⟩ := h
  rw [exec_primeV2RecvMessage_before hid hid' hdata hi hmore hwindow] at hrecv
  have hfuel : (((messageReports size.bytes messageId data).drop (i + k)).map delivered
        ++ (silence ++ resent.map delivered)).length + primeV2MaxRetries + 2
      = resent.length + primeV2MaxRetries + 2 + silence.length
        + (reportCount size data.length - (i + k)) := by
    rw [List.length_append, List.length_append, List.length_map, List.length_map, List.length_drop,
      length_messageReports]
    omega
  rw [hfuel] at hrecv
  exact ⟨_, _, hr, hrecv⟩

/-- The receiver does not ask more often than it may. -/
theorem asks_le_of_exec_ok (hid : messageId ≠ 0) (hi : 1 ≤ i)
    (hmore : i < reportCount size data.length) {es : List Event}
    (h : ∀ e ∈ es, Asks size messageId data i e) {retries fuel : Nat}
    (hretries : retries ≤ primeV2MaxRetries) {rx : List Event} {tx : List (List UInt8)}
    {m : PrimeV2Message} {hr : PrimeHandle}
    (hrun : Proc.exec (primeV2RecvLoop (fuel + es.length) (waiting size messageId data i retries))
      (receiver size next (es ++ rx) tx) = (.ok m, hr)) :
    retries + es.length ≤ primeV2MaxRetries
      ∧ Proc.exec (primeV2RecvLoop fuel (waiting size messageId data i (retries + es.length)))
        (receiver size next rx (tx ++ List.replicate es.length (nackReport size messageId i)))
        = (.ok m, hr) := by
  have hasks := exec_primeV2RecvLoop_asks size next hid hi hmore h retries fuel rx tx
  by_cases hfew : retries + es.length ≤ primeV2MaxRetries
  · rw [hasks.1 hfew] at hrun
    exact ⟨hfew, hrun⟩
  · obtain ⟨err, h', herror⟩ := hasks.2 hretries (Nat.not_le.mp hfew)
    rw [herror] at hrun
    cases hrun

/-- Nor does it go on at an empty report. -/
theorem silence_of_exec_ok (hid : messageId ≠ 0) (hi : 1 ≤ i)
    (hmore : i < reportCount size data.length) (hsilence : ∀ e ∈ silence, TimesOut e)
    {retries fuel : Nat} (hretries : retries ≤ primeV2MaxRetries) {rx : List Event}
    {tx : List (List UInt8)} {m : PrimeV2Message} {hr : PrimeHandle}
    (hrun : Proc.exec (primeV2RecvLoop (fuel + silence.length) (waiting size messageId data i retries))
      (receiver size next (silence ++ rx) tx) = (.ok m, hr)) :
    retries + silence.length ≤ primeV2MaxRetries ∧ ∀ e ∈ silence, ∃ err, e = .error err := by
  induction silence generalizing retries tx with
  | nil => exact ⟨hretries, by simp⟩
  | cons e silence ih =>
      rcases hsilence e List.mem_cons_self with rfl | ⟨err, rfl⟩
      · have hstop : Proc.exec (primeV2RecvLoop (fuel + silence.length + 1)
              (waiting size messageId data i retries))
            (receiver size next (.ok [] :: silence ++ rx) tx)
            = (.error .invalidParameter, receiver size next (silence ++ rx) tx) :=
          exec_primeV2RecvLoop_stop _ (turn_empty size _)
        rw [List.length_cons, ← Nat.add_assoc] at hrun
        cases hrun.symm.trans hstop
      · have hone : ∀ e ∈ [(.error err : Event)], Asks size messageId data i e := by
          intro e he
          rw [List.mem_singleton.mp he]
          exact asks_error size messageId data i err
        rw [List.length_cons, ← Nat.add_assoc] at hrun
        obtain ⟨hfew, hrest⟩ := asks_le_of_exec_ok hid hi hmore hone hretries hrun
        obtain ⟨hle, hall⟩ := ih (fun e he => hsilence e (List.mem_cons_of_mem _ he)) hfew hrest
        rw [List.length_singleton] at hle
        refine ⟨by rw [List.length_cons]; omega, ?_⟩
        intro e he
        rcases List.mem_cons.mp he with rfl | he
        · exact ⟨err, rfl⟩
        · exact hall e he

/-- A later frame with the number of the lost one is taken for it. -/
theorem Recovers.getElem?_eq (h : Recovers size messageId next i k silence data)
    (hid : messageId ≠ 0) (hid' : messageId < 2 ^ 32) (hdata : data.length ≤ primeV2MaxMessageSize)
    (hi : 1 ≤ i) (hk : 1 ≤ k) (hwindow : i < primeV2AckReportWindow) {j : Nat}
    (hmore : i + k + j < reportCount size data.length) (hbefore : ∀ j' < j, ¬ 252 ∣ k + j')
    (halias : 252 ∣ k + j) (hj : j ≤ primeV2MaxRetries) :
    data[reportOffset size i]? = data[reportOffset size (i + k + j)]? := by
  obtain ⟨fuel, rx, hr, hrun⟩ := h.exec_waiting hid hid' hdata hi (by omega) hwindow
  obtain ⟨fuel', hfuel⟩ : ∃ fuel', fuel + silence.length + (reportCount size data.length - (i + k))
      = fuel' + 1 + j :=
    ⟨fuel + silence.length + (reportCount size data.length - (i + k)) - 1 - j, by omega⟩
  have hasks := asks_reports size messageId data hi (fun j' hj' _ => hbefore j' hj')
  have hlength : ((((messageReports size.bytes messageId data).drop (i + k)).take j).map
      delivered).length = j := by
    rw [List.length_map, List.length_take, List.length_drop, length_messageReports]
    omega
  have hoffset := (lt_reportCount_iff size data.length (by omega : 1 ≤ i + k + j)).mp hmore
  have hcapacity : ∃ capacity, size.bytes - primeV2ContHeaderSize = capacity + 1 := by
    cases size
    · exact ⟨62, rfl⟩
    · exact ⟨1022, rfl⟩
  obtain ⟨capacity, hcapacity⟩ := hcapacity
  have hsame : frameSequence (i + k + j) = frameSequence i := by
    rw [Nat.add_assoc]
    exact (frameSequence_eq_iff hi).mpr halias
  have hhead : contReport size data (i + k + j)
      = UInt8.ofNat (frameSequence i) :: data[reportOffset size (i + k + j)]
        :: (data.drop (reportOffset size (i + k + j) + 1)).take capacity := by
    unfold contReport
    rw [hsame, hcapacity, List.drop_eq_getElem_cons hoffset, List.take_succ_cons]
  rw [← List.take_append_drop j (((messageReports size.bytes messageId data).drop (i + k))),
    List.map_append, List.append_assoc, hfuel] at hrun
  rw [show fuel' + 1 + j = fuel' + 1 + ((((messageReports size.bytes messageId data).drop
    (i + k)).take j).map delivered).length by rw [hlength]] at hrun
  obtain ⟨-, hrun⟩ := asks_le_of_exec_ok hid hi (by omega) hasks (Nat.zero_le _) hrun
  rw [List.drop_drop, drop_messageReports_cons size messageId data (by omega) hmore, List.map_cons,
    List.cons_append, hhead] at hrun
  have htaken := getElem?_of_exec_accepted hid hdata hi (by omega) hrun
  rw [List.getElem?_eq_getElem hoffset]
  exact htaken

/-- With all numbers different, the receiver has to ask for each of the later reports, and for each
read that ends without one. -/
theorem Recovers.retries_le (h : Recovers size messageId next i k silence data)
    (hid : messageId ≠ 0) (hid' : messageId < 2 ^ 32) (hdata : data.length ≤ primeV2MaxMessageSize)
    (hi : 1 ≤ i) (hmore : i < reportCount size data.length)
    (hwindow : i < primeV2AckReportWindow) (hsilence : ∀ e ∈ silence, TimesOut e)
    (hother : ∀ j, j ≤ primeV2MaxRetries → i + k + j < reportCount size data.length →
      ¬ 252 ∣ k + j) :
    reportCount size data.length - (i + k) + silence.length ≤ primeV2MaxRetries
      ∧ ∀ e ∈ silence, ∃ err, e = .error err := by
  obtain ⟨fuel, rx, hr, hrun⟩ := h.exec_waiting hid hid' hdata hi hmore hwindow
  have hlength (count : Nat) : ((((messageReports size.bytes messageId data).drop (i + k)).take
      count).map delivered).length = min count (reportCount size data.length - (i + k)) := by
    rw [List.length_map, List.length_take, List.length_drop, length_messageReports]
  have hasks (count : Nat) (hcount : count ≤ primeV2MaxRetries + 1) := asks_reports size messageId
    data hi (fun j (hj : j < count) hlt => hother j (by omega) hlt)
  have hfew : reportCount size data.length - (i + k) ≤ primeV2MaxRetries := by
    by_contra hmany
    obtain ⟨fuel', hfuel⟩ : ∃ fuel', fuel + silence.length
        + (reportCount size data.length - (i + k)) = fuel' + (primeV2MaxRetries + 1) :=
      ⟨fuel + silence.length + (reportCount size data.length - (i + k)) - (primeV2MaxRetries + 1),
        by omega⟩
    have hfour := hlength (primeV2MaxRetries + 1)
    rw [Nat.min_eq_left (by omega)] at hfour
    rw [← hfour] at hfuel
    rw [← List.take_append_drop (primeV2MaxRetries + 1)
      (((messageReports size.bytes messageId data).drop (i + k))), List.map_append,
      List.append_assoc, hfuel] at hrun
    have hle := (asks_le_of_exec_ok hid hi hmore (hasks _ le_rfl) (Nat.zero_le _) hrun).1
    omega
  have hall := hasks (primeV2MaxRetries + 1) le_rfl
  have hcount := hlength (primeV2MaxRetries + 1)
  rw [Nat.min_eq_right (by omega)] at hcount
  rw [List.take_of_length_le (by rw [List.length_drop, length_messageReports]; omega)]
    at hall hcount
  rw [← hcount] at hrun
  obtain ⟨hle, hrun⟩ := asks_le_of_exec_ok hid hi hmore hall (Nat.zero_le _) hrun
  obtain ⟨hlimit, herrors⟩ := silence_of_exec_ok hid hi hmore hsilence hle hrun
  rw [hcount, Nat.zero_add] at hlimit
  exact ⟨hlimit, herrors⟩

end Recovers

/-! ### exactly when it goes right -/

/-- A message of zeros but for one byte. -/
theorem getElem?_set_replicate {N i k : Nat} (hi : i < N) (hk : k < N) (hne : i ≠ k) :
    ((List.replicate N (0 : UInt8)).set i 1)[i]? ≠ ((List.replicate N (0 : UInt8)).set i 1)[k]? := by
  rw [List.getElem?_set_self (by rw [List.length_replicate]; exact hi),
    List.getElem?_set_ne hne, List.getElem?_replicate, if_pos hk]
  decide

/-- Reports that are lost in the first window are recovered exactly when the start frame is not one
of them, the receiver asks three times at most, each read that ends without a report is an error,
and no later report has the number of the first lost one. -/
theorem recovers_iff {size : ReportSize} {messageId next N i k : Nat} {silence : List Event}
    (hid : messageId ≠ 0) (hid' : messageId < 2 ^ 32) (hN : N ≤ primeV2MaxMessageSize)
    (hk : 1 ≤ k) (hlost : i + k ≤ reportCount size N) (hwindow : i < primeV2AckReportWindow)
    (hsilence : ∀ e ∈ silence, TimesOut e)
    (hask : i + k < reportCount size N ∨ silence ≠ []) :
    (∀ data : List UInt8, data.length = N → Recovers size messageId next i k silence data) ↔
      1 ≤ i
      ∧ reportCount size N - (i + k) + silence.length ≤ primeV2MaxRetries
      ∧ (∀ e ∈ silence, ∃ err, e = .error err)
      ∧ ∀ j < reportCount size N - (i + k), ¬ 252 ∣ k + j := by
  constructor
  · intro h
    have hi : 1 ≤ i := by
      by_contra hzero
      obtain rfl : i = 0 := by omega
      have hrecovers := h (List.replicate N 0) (List.length_replicate ..)
      exact not_recovers_zero hk hsilence (by rw [List.length_replicate]; exact hask) hrecovers
    have hother (j : Nat) (hj : j ≤ primeV2MaxRetries) (hmore : i + k + j < reportCount size N) :
        ¬ 252 ∣ k + j := by
      induction j using Nat.strong_induction_on with
      | _ j ih =>
          intro halias
          have hfirst := (lt_reportCount_iff size N hi).mp (by omega)
          have hlater := (lt_reportCount_iff size N (by omega : 1 ≤ i + k + j)).mp hmore
          have hlt := reportOffset_lt size hi (by omega : 1 ≤ k + j)
          rw [← Nat.add_assoc] at hlt
          have hlength : ((List.replicate N (0 : UInt8)).set (reportOffset size i) 1).length = N := by
            rw [List.length_set, List.length_replicate]
          refine getElem?_set_replicate hfirst hlater (Nat.ne_of_lt hlt) ?_
          exact (h _ hlength).getElem?_eq hid hid' (hlength.trans_le hN) hi hk hwindow
            (by rw [hlength]; exact hmore) (fun j' hj' => ih j' hj' (by omega) (by omega)) halias hj
    have hzeros : (List.replicate N (0 : UInt8)).length = N := List.length_replicate ..
    obtain ⟨hlimit, herrors⟩ := (h _ hzeros).retries_le hid hid' (hzeros.trans_le hN) hi
      (by rw [hzeros]; omega) hwindow hsilence (by rw [hzeros]; exact hother)
    rw [hzeros] at hlimit
    exact ⟨hi, hlimit, herrors, fun j hj => hother j (by omega) (by omega)⟩
  · rintro ⟨hi, hlimit, herrors, hother⟩ data rfl
    refine recovers_of_asks hid hid' hN hi (by omega) hwindow rfl ?_ ?_ ?_
    · intro e he
      rcases List.mem_append.mp he with he | he
      · have hasks := asks_reports size messageId data hi
          (fun j (hj : j < reportCount size data.length - (i + k)) _ => hother j hj)
        rw [List.take_of_length_le (by rw [List.length_drop, length_messageReports])] at hasks
        exact hasks e he
      · obtain ⟨err, rfl⟩ := herrors e he
        exact asks_error size messageId data i err
    · intro hnil
      obtain ⟨hreports, hnil⟩ := List.append_eq_nil_iff.mp hnil
      have hcount := congrArg List.length hreports
      rw [List.length_map, List.length_drop, length_messageReports, List.length_nil] at hcount
      cases hask with
      | inl hlt => omega
      | inr hne => exact hne hnil
    · rw [List.length_append, List.length_map, List.length_drop, length_messageReports]
      exact hlimit

/-- The last of two reports is lost, and the receiver asks for it after its read has failed. -/
theorem recovers_secondOfTwo :
    Recovers .legacy 1 1 1 1 [.error .cableRead] (List.replicate 100 0x41) := by
  have hcount : reportCount .legacy 100 = 2 := by decide
  refine (recovers_iff (by decide) (by decide) (by decide) le_rfl (by rw [hcount]) (by decide) ?_
    (.inr (by simp))).mpr ⟨le_rfl, by rw [hcount]; decide, ?_, ?_⟩ _ (List.length_replicate ..)
  · simp [TimesOut]
  · simp
  · intro j hj
    rw [hcount] at hj
    omega

/-- Not every loss is recovered: not that of the start frame, and not that of the second of six
reports, behind which four reports come that the receiver does not wait for. -/
theorem not_recovers_startOrSecondOfSix :
    ¬Recovers .legacy 1 1 0 1 [.error .cableRead] [0x41, 0x42]
      ∧ ¬Recovers .legacy 1 1 1 1 [] (List.replicate 308 0x41) := by
  constructor
  · exact not_recovers_zero le_rfl (by simp [TimesOut]) (.inr (by simp))
  · intro h
    have hcount : reportCount .legacy (List.replicate 308 (0x41 : UInt8)).length = 6 := by
      rw [List.length_replicate]
      decide
    obtain ⟨hlimit, -⟩ := h.retries_le (by decide) (by decide)
      (by rw [List.length_replicate]; decide) le_rfl (by rw [hcount]; decide) (by decide) (by simp)
      (by
        intro j hj hmore
        unfold primeV2MaxRetries at hj
        omega)
    rw [hcount] at hlimit
    revert hlimit
    decide

end Tilibs.Prime
