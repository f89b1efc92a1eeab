import Tilibs.Lib.Feed
import Tilibs.Prime.RecvSound

/-!
# Tilibs.Prime.RecvStops

On which endless streams of reports `prime_v2_recv_message` returns.  The loop for version 2 always
does: every accepted frame moves the acknowledged position on, even a frame without data, and the
position may not exceed 32 bits; between two of them the retries are limited, and between two of
those the control reports.  The loop for the older protocol has no such limit on reports without
data.
-/

namespace Tilibs.Prime

open Tilibs.Lib

/-! ## the older protocol -/

/-- The data of a report of the older protocol. -/
def payloadLength : Event → Nat
  | .error _ => 0
  | .ok raw => raw.length - 1

/-- The data of the first reports of a stream. -/
def payloadBefore (events : Nat → Event) (n : Nat) : Nat :=
  ((inputs events n).map payloadLength).sum

/-- The report at an index is the one that is expected, and the reports before it were not
enough. -/
def LegacyGoesOn (totalSize index length : Nat) (events : Nat → Event) (n : Nat) : Prop :=
  length + payloadBefore events n < totalSize
    ∧ ∃ raw, events n = .ok raw ∧ raw.length ≠ 0
      ∧ (raw.headD 0).toNat = legacySequence (index + n)

/-- Every report is the one that is expected, and there are never enough. -/
def LegacyStuck (totalSize index length : Nat) (events : Nat → Event) : Prop :=
  ∀ n, LegacyGoesOn totalSize index length events n

theorem payloadBefore_succ (events : Nat → Event) (n : Nat) :
    payloadBefore events (n + 1) = payloadLength (events 0) + payloadBefore (later events) n := by
  unfold payloadBefore
  rw [inputs_succ, List.map_cons, List.sum_cons]

theorem legacySequence_mod (i n : Nat) : legacySequence (i % 2 ^ 32 + n) = legacySequence (i + n) := by
  unfold legacySequence
  rw [Nat.mod_add_mod]

/-- One report on. -/
theorem legacyGoesOn_succ_iff {totalSize index : Nat} {message raw : List UInt8}
    {events : Nat → Event} (hraw : events 0 = .ok raw) (n : Nat) :
    LegacyGoesOn totalSize index message.length events (n + 1)
      ↔ LegacyGoesOn totalSize ((index + 1) % 2 ^ 32)
        (message ++ raw.tail.take (totalSize - message.length)).length (later events) n := by
  unfold LegacyGoesOn
  rw [payloadBefore_succ, hraw, legacySequence_mod, List.length_append, List.length_take,
    List.length_tail]
  show _ + (raw.length - 1 + _) < _ ∧ _ ↔ _
  rw [show index + (n + 1) = index + 1 + n by omega]
  refine and_congr_left fun _ => ?_
  omega

/-- A turn of the loop on a report that goes on. -/
theorem exec_primeV2RecvLegacyLoop_goesOn {totalSize index : Nat} {message raw : List UInt8}
    (hindex : index < 2 ^ 32) (hmore : message.length < totalSize) (hlength : raw.length ≠ 0)
    (hsequence : (raw.headD 0).toNat = legacySequence index) (h : PrimeHandle) (rx : List Event)
    (fuel : Nat) :
    Proc.exec (primeV2RecvLegacyLoop totalSize (fuel + 1) index message) (h.withRx (.ok raw :: rx))
      = Proc.exec (primeV2RecvLegacyLoop totalSize fuel ((index + 1) % 2 ^ 32)
        (message ++ raw.tail.take (totalSize - message.length))) (h.withRx rx) := by
  have hexpected : (raw.headD 0).toNat = (index + index / 0xFF) % 256 := by
    rw [hsequence, legacySequence, Nat.mod_eq_of_lt hindex]
  rw [primeV2RecvLegacyLoop, if_neg (Nat.not_le.mpr hmore),
    Proc.exec_bind_ok (exec_primeRecv_withRx_cons h _ rx)]
  dsimp only
  rw [if_neg (not_or.mpr ⟨hlength, not_not.mpr hexpected⟩)]

theorem legacyGoesOn_zero_iff {totalSize index length : Nat} {events : Nat → Event} :
    LegacyGoesOn totalSize index length events 0 ↔ length < totalSize
      ∧ ∃ raw, events 0 = .ok raw ∧ raw.length ≠ 0
        ∧ (raw.headD 0).toNat = legacySequence index :=
  Iff.rfl

/-- A turn of the loop that ends it. -/
theorem primeV2RecvLegacyLoop_stops_now {totalSize index : Nat} {message : List UInt8}
    {events : Nat → Event} (hindex : index < 2 ^ 32)
    (hnot : ¬LegacyGoesOn totalSize index message.length events 0) (h : PrimeHandle) :
    StopsOn PrimeHandle.withRx (fun fuel => primeV2RecvLegacyLoop totalSize fuel index message) h
      events := by
  by_cases hmore : message.length < totalSize
  · have hturn : ∀ rx fuel, Proc.exec (primeV2RecvLegacyLoop totalSize (fuel + 1) index message)
        (h.withRx (events 0 :: rx)) = (.error (match events 0 with
          | .error err => err
          | .ok _ => .packetFormat), h.withRx rx) := by
      intro rx fuel
      rw [primeV2RecvLegacyLoop, if_neg (Nat.not_le.mpr hmore),
        Proc.exec_bind_ok (exec_primeRecv_withRx_cons h _ rx)]
      cases hevent : events 0 with
      | error err => rfl
      | ok raw =>
          have hbad : raw.length = 0
              ∨ (raw.headD 0).toNat ≠ (index + index / 0xFF) % 256 := by
            by_contra hgood
            simp only [not_or, not_not] at hgood
            refine hnot (legacyGoesOn_zero_iff.mpr ⟨hmore, raw, hevent, hgood.1, ?_⟩)
            rw [hgood.2, legacySequence, Nat.mod_eq_of_lt hindex]
          dsimp only
          rw [if_pos hbad]
          rfl
    exact StopsOn.once hturn
  · have hturn : ∀ rx fuel, Proc.exec (primeV2RecvLegacyLoop totalSize (fuel + 1) index message)
        (h.withRx rx) = (.ok ⟨message, 0⟩, h.withRx rx) := by
      intro rx fuel
      rw [primeV2RecvLegacyLoop, if_pos (Nat.not_lt.mp hmore)]
      rfl
    exact StopsOn.now hturn

/-- A report that is not the expected one, or enough of them, end the loop. -/
theorem primeV2RecvLegacyLoop_stops {totalSize index n : Nat} {message : List UInt8}
    {events : Nat → Event} (hindex : index < 2 ^ 32)
    (hnot : ¬LegacyGoesOn totalSize index message.length events n) (h : PrimeHandle) :
    StopsOn PrimeHandle.withRx (fun fuel => primeV2RecvLegacyLoop totalSize fuel index message) h
      events := by
  induction n generalizing index message events with
  | zero => exact primeV2RecvLegacyLoop_stops_now hindex hnot h
  | succ n ih =>
      by_cases hzero : LegacyGoesOn totalSize index message.length events 0
      · obtain ⟨hmore, raw, hevent, hlength, hsequence⟩ := legacyGoesOn_zero_iff.mp hzero
        rw [legacyGoesOn_succ_iff hevent] at hnot
        refine StopsOn.step (fun rx fuel => ?_) (ih (Nat.mod_lt _ (by decide)) hnot)
        rw [hevent]
        exact exec_primeV2RecvLegacyLoop_goesOn hindex hmore hlength hsequence h rx fuel
      · exact primeV2RecvLegacyLoop_stops_now hindex hzero h

/-- A stuck loop reads everything. -/
theorem primeV2RecvLegacyLoop_hangs {totalSize index : Nat} {message : List UInt8}
    {events : Nat → Event} (hindex : index < 2 ^ 32)
    (hstuck : LegacyStuck totalSize index message.length events) (h : PrimeHandle) :
    HangsOn PrimeHandle.withRx (fun h => h.port.rx)
      (fun fuel => primeV2RecvLegacyLoop totalSize fuel index message) h events := by
  refine ⟨0, fun m fuel _ hfuel => ?_⟩
  induction m generalizing fuel index message events with
  | zero =>
      cases fuel with
      | zero => omega
      | succ fuel =>
          have hmore := (hstuck 0).1
          dsimp only
          rw [primeV2RecvLegacyLoop, if_neg (by simp [payloadBefore] at hmore; omega), inputs_zero,
            Proc.exec_bind_ok (exec_primeRecv_withRx_nil h)]
          rfl
  | succ m ih =>
      cases fuel with
      | zero => omega
      | succ fuel =>
          obtain ⟨hmore, raw, hevent, hlength, hsequence⟩ := legacyGoesOn_zero_iff.mp (hstuck 0)
          rw [inputs_succ, hevent]
          dsimp only
          rw [exec_primeV2RecvLegacyLoop_goesOn hindex hmore hlength hsequence]
          exact ih (Nat.mod_lt _ (by decide))
            (fun n => (legacyGoesOn_succ_iff hevent n).mp (hstuck (n + 1))) fuel (Nat.zero_le m)
            (by omega)

/-- The header of a message in the older protocol, with the size that it announces. -/
def LegacyHeader (first : List UInt8) (totalSize : Nat) : Prop :=
  7 ≤ first.length ∧ first.headD 0 = 0
    ∧ primeDataSize (first.getD 1 0) first.tail = .ok totalSize
    ∧ totalSize ≠ 0 ∧ totalSize ≤ primeV2MaxMessageSize

theorem exec_primeV2RecvLegacyMessage_header {first : List UInt8} {totalSize : Nat}
    (hheader : LegacyHeader first totalSize) (h : PrimeHandle) (rx : List Event) :
    Proc.exec (primeV2RecvLegacyMessage first) (h.withRx rx)
      = Proc.exec (primeV2RecvLegacyLoop totalSize (rx.length + 2) 1 (first.tail.take totalSize))
        (h.withRx rx) := by
  obtain ⟨hlength, hzero, hsize, hne, hmax⟩ := hheader
  unfold primeV2RecvLegacyMessage
  rw [if_neg (not_or.mpr ⟨Nat.not_lt.mpr hlength, not_not.mpr hzero⟩), Proc.exec_bind,
    Proc.exec_ofExcept, hsize]
  dsimp only
  rw [if_neg (by omega), Proc.exec_bind_ok (Proc.exec_get _)]
  rfl

/-- Without a header the message is refused. -/
theorem exec_primeV2RecvLegacyMessage_error {first : List UInt8}
    (hnone : ∀ totalSize, ¬LegacyHeader first totalSize) :
    ∃ err, ∀ h : PrimeHandle, Proc.exec (primeV2RecvLegacyMessage first) h = (.error err, h) := by
  unfold primeV2RecvLegacyMessage
  by_cases hbad : first.length < 7 ∨ first.headD 0 ≠ 0
  · exact ⟨.packetFormat, fun h => by rw [if_pos hbad]; rfl⟩
  · simp only [if_neg hbad, Proc.exec_bind, Proc.exec_ofExcept]
    cases hsize : primeDataSize (first.getD 1 0) first.tail with
    | error err => exact ⟨err, fun h => rfl⟩
    | ok totalSize =>
        have hlimit : totalSize = 0 ∨ primeV2MaxMessageSize < totalSize := by
          by_contra hgood
          simp only [not_or, not_not, Nat.not_lt] at hbad hgood
          exact hnone totalSize ⟨hbad.1, hbad.2, hsize, hgood.1, hgood.2⟩
        exact ⟨.packetFormat, fun h => by dsimp only; rw [if_pos hlimit]; rfl⟩

/-- The first report starts a message of the older protocol, and the others never end it. -/
def LegacyEndless (events : Nat → Event) : Prop :=
  ∃ first totalSize, events 0 = .ok first ∧ LegacyHeader first totalSize
    ∧ LegacyStuck totalSize 1 (first.tail.take totalSize).length (later events)

theorem primeV2RecvLegacyMessage_stops {first : List UInt8} {events : Nat → Event}
    (hevent : events 0 = .ok first) (hnot : ¬LegacyEndless events) (h : PrimeHandle) :
    StopsOn PrimeHandle.withRx (fun _ => primeV2RecvLegacyMessage first) h (later events) := by
  by_cases hheader : ∃ totalSize, LegacyHeader first totalSize
  · obtain ⟨totalSize, hheader⟩ := hheader
    have hends : ∃ n, ¬LegacyGoesOn totalSize 1 (first.tail.take totalSize).length
        (later events) n := by
      by_contra hall
      simp only [not_exists, not_not] at hall
      exact hnot ⟨first, totalSize, hevent, hheader, hall⟩
    obtain ⟨n, hends⟩ := hends
    obtain ⟨k, r, h', hrun⟩ := primeV2RecvLegacyLoop_stops (by decide) hends h
    refine ⟨k, r, h', fun tail fuel _ => ?_⟩
    rw [exec_primeV2RecvLegacyMessage_header hheader]
    exact hrun tail _ (by rw [List.length_append, length_inputs]; omega)
  · obtain ⟨err, hrun⟩ := exec_primeV2RecvLegacyMessage_error (not_exists.mp hheader)
    exact StopsOn.now fun rx fuel => hrun (h.withRx rx)

theorem primeV2RecvLegacyMessage_hangs {first : List UInt8} {totalSize : Nat}
    {events : Nat → Event} (hheader : LegacyHeader first totalSize)
    (hstuck : LegacyStuck totalSize 1 (first.tail.take totalSize).length events)
    (h : PrimeHandle) :
    HangsOn PrimeHandle.withRx (fun h => h.port.rx) (fun _ => primeV2RecvLegacyMessage first) h
      events := by
  obtain ⟨k, hrun⟩ := primeV2RecvLegacyLoop_hangs (by decide) hstuck h
  refine ⟨k, fun m fuel hk _ => ?_⟩
  rw [exec_primeV2RecvLegacyMessage_header hheader, length_inputs]
  exact hrun m (m + 2) hk (by omega)

/-! ## version 2 -/

/-- What is left of the three limits, each between two changes of the one before it. -/
def PrimeV2Rx.left (st : PrimeV2Rx) : Nat :=
  (2 ^ 32 - st.ackPosition) * 5130 + (4 - st.retries) * 1026 + (1025 - st.controls)

/-- Control reports, as many as the loop takes, and then an endless message of the older
protocol. -/
def StuckFrom (controls : Nat) (events : Nat → Event) : Prop :=
  ∃ k, controls + k ≤ primeV2MaxControlFrames ∧ (∀ i < k, IsControl (events i))
    ∧ LegacyEndless fun i => events (k + i)

/-- The loop asks again, or the cable refuses. -/
theorem exec_nack_withRx (st : PrimeV2Rx) (h : PrimeHandle) :
    (∃ err h₁, ∀ fuel rx, Proc.exec (do primeV2RecvLoop fuel (← st.nack)) (h.withRx rx)
        = (.error err, PrimeHandle.withRx h₁ rx))
      ∨ ∃ h₁, ∀ fuel rx, Proc.exec (do primeV2RecvLoop fuel (← st.nack)) (h.withRx rx)
        = Proc.exec (primeV2RecvLoop fuel { st with retries := st.retries + 1 })
          (PrimeHandle.withRx h₁ rx) := by
  have hsend := exec_primeV2SendAckFrame_withRx false st.expectedSequence st.message.length
    st.messageId h
  unfold PrimeV2Rx.nack
  cases hrun : Proc.exec (primeV2SendAckFrame false st.expectedSequence st.message.length
      st.messageId) h with
  | mk result h₁ =>
      rw [hrun] at hsend
      cases result with
      | error err =>
          refine .inl ⟨err, h₁, fun fuel rx => ?_⟩
          rw [Proc.exec_bind_error (Proc.exec_bind_error (hsend rx))]
      | ok _ =>
          refine .inr ⟨h₁, fun fuel rx => ?_⟩
          exact Proc.exec_bind_ok (Proc.exec_bind_ok (hsend rx))

/-- After a frame the loop returns, or the cable refuses, or the loop goes on. -/
theorem exec_settle_withRx (st : PrimeV2Rx) (sequence : Nat) (h : PrimeHandle) :
    (∃ r h₁, ∀ fuel rx, Proc.exec (st.settle fuel sequence) (h.withRx rx)
        = (r, PrimeHandle.withRx h₁ rx))
      ∨ ∃ h₁, ∀ fuel rx, Proc.exec (st.settle fuel sequence) (h.withRx rx)
        = Proc.exec (primeV2RecvLoop fuel st.windowed) (PrimeHandle.withRx h₁ rx) := by
  unfold PrimeV2Rx.settle PrimeV2Rx.windowed
  by_cases hdone : st.message.length = st.totalSize
  · simp only [if_pos hdone]
    have hsend := exec_primeV2SendAckFrame_withRx true sequence st.ackPosition st.messageId h
    cases hrun : Proc.exec (primeV2SendAckFrame true sequence st.ackPosition st.messageId) h with
    | mk result h₁ =>
        rw [hrun] at hsend
        cases result with
        | error err => exact .inl ⟨.error err, h₁, fun fuel rx => Proc.exec_bind_error (hsend rx)⟩
        | ok _ => exact .inl ⟨_, h₁, fun fuel rx => Proc.exec_bind_ok (hsend rx)⟩
  · simp only [if_neg hdone]
    by_cases hfull : st.reportsSinceAck = primeV2AckReportWindow
    · simp only [if_pos hfull]
      have hsend := exec_primeV2SendAckFrame_withRx true st.expectedSequence st.ackPosition
        st.messageId h
      cases hrun : Proc.exec (primeV2SendAckFrame true st.expectedSequence st.ackPosition
          st.messageId) h with
      | mk result h₁ =>
          rw [hrun] at hsend
          cases result with
          | error err =>
              exact .inl ⟨.error err, h₁, fun fuel rx => Proc.exec_bind_error (hsend rx)⟩
          | ok _ => exact .inr ⟨h₁, fun fuel rx => Proc.exec_bind_ok (hsend rx)⟩
    · simp only [if_neg hfull]
      exact .inr ⟨h, fun fuel rx => rfl⟩

/-- A turn on the first report of a stream. -/
theorem exec_primeV2RecvLoop_withRx (fuel : Nat) (st : PrimeV2Rx) (h : PrimeHandle) (e : Event)
    (rx : List Event) :
    Proc.exec (primeV2RecvLoop (fuel + 1) st) (h.withRx (e :: rx)) =
      match st.turn h.reportSize e with
      | .stop err => (.error err, h.withRx rx)
      | .skip st' => Proc.exec (primeV2RecvLoop fuel st') (h.withRx rx)
      | .nack st' => Proc.exec (do primeV2RecvLoop fuel (← st'.nack)) (h.withRx rx)
      | .legacy first => Proc.exec (primeV2RecvLegacyMessage first) (h.withRx rx)
      | .append st' frame =>
          Proc.exec ((st'.appended h.reportSize frame).settle fuel frame.sequence) (h.withRx rx) :=
  exec_primeV2RecvLoop_succ fuel st (h.withRx (e :: rx))

/-- Every other stream ends the loop. -/
theorem primeV2RecvLoop_stops {st : PrimeV2Rx} {events : Nat → Event}
    (hfew : st.controls ≤ primeV2MaxControlFrames)
    (hnot : st.started = false → ¬StuckFrom st.controls events) (h : PrimeHandle) :
    StopsOn PrimeHandle.withRx (fun fuel => primeV2RecvLoop fuel st) h events := by
  induction hleft : st.left using Nat.strong_induction_on generalizing st events h with
  | _ n ih =>
      have hturn := turns h.reportSize st (events 0)
      have hexec := fun rx fuel => exec_primeV2RecvLoop_withRx fuel st h (events 0) rx
      generalize st.turn h.reportSize (events 0) = t at hturn hexec
      generalize hevent : events 0 = e at hturn
      unfold PrimeV2Rx.left at hleft
      cases hturn with
      | stop err => exact StopsOn.once hexec
      | skip hcontrol hlimit =>
          refine StopsOn.step hexec (ih _ ?_ hlimit ?_ h rfl)
          · unfold primeV2MaxControlFrames at hlimit
            unfold PrimeV2Rx.left
            dsimp only
            omega
          · rintro hstarted ⟨k, hk, hcontrols, hendless⟩
            refine hnot hstarted ⟨k + 1, by dsimp only at hk; omega, fun i hi => ?_, ?_⟩
            · cases i with
              | zero =>
                  rw [hevent]
                  exact hcontrol
              | succ i => exact hcontrols i (by omega)
            · have hshift : (fun i => events (k + 1 + i)) = fun i => later events (k + i) := by
                funext i
                show _ = events (k + i + 1)
                congr 1
                omega
              rw [hshift]
              exact hendless
      | legacy hcontrol hstarted =>
          refine StopsOn.step hexec (primeV2RecvLegacyMessage_stops hevent ?_ h)
          intro hendless
          refine hnot hstarted ⟨0, ?_, nofun, ?_⟩
          · omega
          · simpa using hendless
      | silent hstarted hlimit =>
          rcases exec_nack_withRx st h with ⟨err, h₁, hnack⟩ | ⟨h₁, hnack⟩
          · exact StopsOn.once fun rx fuel => (hexec rx fuel).trans (hnack fuel rx)
          · refine StopsOn.step (fun rx fuel => (hexec rx fuel).trans (hnack fuel rx))
              (ih _ ?_ ?_ ?_ h₁ rfl)
            · unfold primeV2MaxRetries at hlimit
              unfold PrimeV2Rx.left
              dsimp only
              omega
            · exact hfew
            · exact fun hnot => absurd (hstarted.symm.trans hnot) (by decide)
      | @unexpected raw frame st' hcontrol hdecode hbegin hother hlimit =>
          have hstarted : st'.started = true := begin_started hbegin
          have hsame : st'.ackPosition = st.ackPosition ∧ st'.retries = st.retries
              ∧ st'.controls = 0 := by
            rcases begin_ok hbegin with ⟨-, rfl⟩ | ⟨-, -, -, rfl⟩ <;> exact ⟨rfl, rfl, rfl⟩
          rcases exec_nack_withRx st' h with ⟨err, h₁, hnack⟩ | ⟨h₁, hnack⟩
          · exact StopsOn.once fun rx fuel => (hexec rx fuel).trans (hnack fuel rx)
          · refine StopsOn.step (fun rx fuel => (hexec rx fuel).trans (hnack fuel rx))
              (ih _ ?_ ?_ ?_ h₁ rfl)
            · unfold primeV2MaxRetries at hlimit
              unfold PrimeV2Rx.left
              dsimp only
              rw [hsame.1, hsame.2.2]
              omega
            · exact hsame.2.2.le.trans (Nat.zero_le _)
            · exact fun hnot => absurd (hstarted.symm.trans hnot) (by decide)
      | @expected raw frame st' hcontrol hdecode hbegin hnext hroom =>
          have hstarted : st'.started = true := begin_started hbegin
          have hsame : st'.ackPosition = st.ackPosition ∧ st'.controls = 0 := by
            rcases begin_ok hbegin with ⟨-, rfl⟩ | ⟨-, -, -, rfl⟩ <;> exact ⟨rfl, rfl⟩
          rcases exec_settle_withRx (st'.appended h.reportSize frame) frame.sequence h with
            ⟨r, h₁, hsettle⟩ | ⟨h₁, hsettle⟩
          · exact StopsOn.once fun rx fuel => (hexec rx fuel).trans (hsettle fuel rx)
          · refine StopsOn.step (fun rx fuel => (hexec rx fuel).trans (hsettle fuel rx))
              (ih _ ?_ ?_ ?_ h₁ rfl)
            · -- a report holds more than the header of any frame
              have hcapacity : 0 < h.reportSize.bytes - headerSize frame.isStart := by
                have hheader : headerSize frame.isStart ≤ 9 := by
                  cases frame.isStart <;> decide
                rcases h.reportSize.eq_or with hsize | hsize <;> omega
              have hposition : (st'.appended h.reportSize frame).windowed.ackPosition
                  = st.ackPosition + (h.reportSize.bytes - headerSize frame.isStart) := by
                rw [← hsame.1]
                unfold PrimeV2Rx.windowed
                split <;> rfl
              have hretries : (st'.appended h.reportSize frame).windowed.retries = 0 := by
                unfold PrimeV2Rx.windowed
                split <;> rfl
              rw [hsame.1] at hroom
              unfold PrimeV2Rx.left
              rw [hposition, hretries]
              omega
            · have hkeeps : (st'.appended h.reportSize frame).windowed.controls = st'.controls := by
                unfold PrimeV2Rx.windowed
                split <;> rfl
              rw [hkeeps, hsame.2]
              exact Nat.zero_le _
            · intro hnot'
              have hkeeps : (st'.appended h.reportSize frame).windowed.started = st'.started := by
                unfold PrimeV2Rx.windowed
                split <;> rfl
              rw [hkeeps, hstarted] at hnot'
              cases hnot'

/-- A control report keeps the loop where it is. -/
theorem turn_control {size : ReportSize} {st : PrimeV2Rx} {e : Event} (h : IsControl e)
    (hfew : st.controls + 1 ≤ primeV2MaxControlFrames) :
    st.turn size e = .skip { st with controls := st.controls + 1 } := by
  obtain ⟨raw, rfl, hcontrol⟩ := h
  unfold PrimeV2Rx.turn
  dsimp only
  rw [if_pos hcontrol, if_neg (Nat.not_lt.mpr hfew)]

/-- A report with the number zero begins a message of the older protocol. -/
theorem turn_legacy {size : ReportSize} {st : PrimeV2Rx} {first : List UInt8} {totalSize : Nat}
    (hstarted : st.started = false) (hheader : LegacyHeader first totalSize) :
    st.turn size (.ok first) = .legacy first := by
  have hcontrol : ¬(primeV2IsHeartbeat first = true
      ∨ (first.length ≠ 0 ∧ (first.headD 0).toNat = primeV2SequenceOob)) := by
    have hhead : (first.headD 0).toNat ≠ primeV2SequenceOob := by
      rw [hheader.2.1]
      decide
    rintro (hbeat | hoob)
    · rw [primeV2IsHeartbeat_eq_false hhead] at hbeat
      cases hbeat
    · exact hhead hoob.2
  have hlength : first.length ≠ 0 := by
    have hseven := hheader.1
    omega
  unfold PrimeV2Rx.turn
  dsimp only
  rw [if_neg hcontrol, if_pos ⟨by simp [hstarted], hlength, hheader.2.1⟩]

/-- A stuck loop reads everything. -/
theorem primeV2RecvLoop_hangs {st : PrimeV2Rx} {events : Nat → Event}
    (hstarted : st.started = false) (hstuck : StuckFrom st.controls events) (h : PrimeHandle) :
    HangsOn PrimeHandle.withRx (fun h => h.port.rx) (fun fuel => primeV2RecvLoop fuel st) h
      events := by
  obtain ⟨k, hk, hcontrols, hendless⟩ := hstuck
  induction k generalizing st events with
  | zero =>
      obtain ⟨first, totalSize, hevent, hheader, hstuck⟩ := hendless
      have hlater : later (fun i => events (0 + i)) = later events := by
        funext i
        show events (0 + (i + 1)) = events (i + 1)
        rw [Nat.zero_add]
      have hevent : events 0 = .ok first := by simpa using hevent
      rw [hlater] at hstuck
      refine HangsOn.step (fun rx fuel => ?_) (primeV2RecvLegacyMessage_hangs hheader hstuck h)
      rw [exec_primeV2RecvLoop_withRx, hevent, turn_legacy hstarted hheader]
  | succ k ih =>
      have hfew : st.controls + 1 ≤ primeV2MaxControlFrames := by omega
      refine HangsOn.step (fun rx fuel => ?_)
        (@ih { st with controls := st.controls + 1 } (later events) hstarted ?_ ?_ ?_)
      · rw [exec_primeV2RecvLoop_withRx, turn_control (hcontrols 0 (by omega)) hfew]
      · dsimp only
        omega
      · exact fun i hi => hcontrols (i + 1) (by omega)
      · have hshift : (fun i => later events (k + i)) = fun i => events (k + 1 + i) := by
          funext i
          show events (k + i + 1) = _
          congr 1
          omega
        rw [hshift]
        exact hendless

/-! ## the message -/

/-- The receiver returns after finitely many reports of the stream. -/
def RecvReturns (h : PrimeHandle) (events : Nat → Event) : Prop :=
  ∃ n r h', ∀ tail, Proc.exec primeV2RecvMessage (h.withRx (inputs events n ++ tail))
    = (r, PrimeHandle.withRx h' tail)

theorem recvReturns_iff_stopsOn {h : PrimeHandle} {events : Nat → Event} :
    RecvReturns h events
      ↔ StopsOn PrimeHandle.withRx (fun _ => primeV2RecvMessage) h events := by
  constructor
  · rintro ⟨n, r, h', hrun⟩
    exact ⟨n, r, h', fun tail _ _ => hrun tail⟩
  · rintro ⟨n, r, h', hrun⟩
    exact ⟨n, r, h', fun tail => hrun tail (n + 1) (Nat.lt_succ_self n)⟩

/-- The fuel of the receiver is more than the reports it is given. -/
theorem exec_primeV2RecvMessage_withRx {h : PrimeHandle} (hversion : h.version = .v2)
    (rx : List Event) :
    Proc.exec primeV2RecvMessage (h.withRx rx)
      = Proc.exec (primeV2RecvLoop (rx.length + primeV2MaxRetries + 2) .init) (h.withRx rx) := by
  unfold primeV2RecvMessage
  rw [Proc.exec_bind_ok (Proc.exec_get _)]
  simp [hversion]

theorem not_recvReturns {h : PrimeHandle} {events : Nat → Event} (hversion : h.version = .v2)
    (hstuck : StuckFrom 0 events) : ¬RecvReturns h events := by
  rw [recvReturns_iff_stopsOn]
  have hhangs : HangsOn PrimeHandle.withRx (fun h => h.port.rx) (fun _ => primeV2RecvMessage) h
      events := by
    obtain ⟨k, hrun⟩ := @primeV2RecvLoop_hangs .init events rfl hstuck h
    refine ⟨k, fun m fuel hk _ => ?_⟩
    rw [exec_primeV2RecvMessage_withRx hversion, length_inputs]
    exact hrun m _ hk (by omega)
  exact hhangs.not_stopsOn fun h rx => rfl

/-- The receiver returns on every stream but these: control reports, then the header of a message of
the older protocol, then the expected reports for ever, all but finitely many of them without
data. -/
theorem recvReturns_iff (h : PrimeHandle) (events : Nat → Event) :
    RecvReturns h events ↔ (h.version = .v2 → ¬StuckFrom 0 events) := by
  constructor
  · exact fun hreturns hversion hstuck => not_recvReturns hversion hstuck hreturns
  · intro hnot
    rw [recvReturns_iff_stopsOn]
    by_cases hversion : h.version = .v2
    · obtain ⟨n, r, h', hrun⟩ := @primeV2RecvLoop_stops .init events (Nat.zero_le _)
        (fun _ => hnot hversion) h
      refine ⟨n, r, h', fun tail fuel _ => ?_⟩
      rw [exec_primeV2RecvMessage_withRx hversion]
      exact hrun tail _ (by rw [List.length_append, length_inputs]; omega)
    · have hrefused : ∀ rx (_ : Nat), Proc.exec primeV2RecvMessage (h.withRx rx)
          = (.error .packetFormat, h.withRx rx) := by
        intro rx _
        unfold primeV2RecvMessage
        rw [Proc.exec_bind_ok (Proc.exec_get _)]
        simp [hversion]
      exact StopsOn.now hrefused

/-- A header that announces 22 bytes and has six of them, and then reports with their number
alone. -/
def emptyReports : Nat → Event
  | 0 => .ok [0, 0xF7, 0x01, 0, 0, 0, 16]
  | n + 1 => .ok [UInt8.ofNat (legacySequence (n + 1))]

theorem legacySequence_lt (i : Nat) : legacySequence i < 256 := Nat.mod_lt _ (by decide)

theorem stuckFrom_emptyReports : StuckFrom 0 emptyReports := by
  have hpayload : ∀ n, payloadBefore (later emptyReports) n = 0 := by
    intro n
    unfold payloadBefore
    rw [List.sum_eq_zero]
    intro x hx
    simp only [inputs, later, List.map_map, List.mem_map, List.mem_range, Function.comp] at hx
    obtain ⟨i, -, rfl⟩ := hx
    rfl
  have hheader : LegacyHeader [0, 0xF7, 0x01, 0, 0, 0, 16] 22 := by
    unfold LegacyHeader
    decide
  refine ⟨0, by decide, fun i hi => absurd hi (Nat.not_lt_zero i),
    [0, 0xF7, 0x01, 0, 0, 0, 16], 22, rfl, hheader, fun n => ?_⟩
  constructor
  · have hlater : later (fun i => emptyReports (0 + i)) = later emptyReports := by
      funext i
      show emptyReports (0 + (i + 1)) = emptyReports (i + 1)
      rw [Nat.zero_add]
    rw [hlater, hpayload]
    decide
  · refine ⟨[UInt8.ofNat (legacySequence (n + 1))], ?_, by simp, ?_⟩
    · show emptyReports (0 + (n + 1)) = _
      rw [Nat.zero_add]
      rfl
    · rw [List.headD_cons, UInt8.toNat_ofNat', Nat.mod_eq_of_lt (legacySequence_lt _),
        Nat.add_comm 1 n]

theorem not_recvReturns_emptyReports :
    ¬∀ (h : PrimeHandle) (events : Nat → Event), RecvReturns h events := fun hall =>
  @not_recvReturns ⟨⟨[], [], none⟩, .legacy, .v2, 1⟩ emptyReports rfl stuckFrom_emptyReports
    (hall _ _)

end Tilibs.Prime
