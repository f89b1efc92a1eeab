import Tilibs.Lib.Fallible
import Tilibs.Prime.RecvTurn

/-!
# Tilibs.Prime.RecvSound

What `prime_v2_recv_message` returns, whatever the cable delivers: the data of reports that it
read in this order, with the numbers that it waited for one after the other, as long as the first
of them announced.  What it copies never falls outside the buffer of that size.
-/

namespace Tilibs.Prime

open Tilibs.Lib

/-! ## what was read -/

/-- The number of the frame at an index. -/
def frameSequence (i : Nat) : Nat := primeV2NextSequence^[i] primeV2SequenceFirst

theorem frameSequence_succ (i : Nat) :
    frameSequence (i + 1) = primeV2NextSequence (frameSequence i) :=
  Function.iterate_succ_apply' primeV2NextSequence i primeV2SequenceFirst

/-- Reports that were read, in this order, with frames that have the numbers from the first on. -/
structure Taken (read : List Event) (reports : List (List UInt8)) (frames : List PrimeV2Content) :
    Prop where
  read : (reports.map Except.ok).Sublist read
  decoded : List.Forall₂ (fun raw frame => primeV2DecodeContent raw = .ok frame) reports frames
  numbered : frames.map PrimeV2Content.sequence = (List.range frames.length).map frameSequence

/-- A message out of the data of its frames, as long as the start frame announces. -/
def AssembledV2 (read : List Event) (m : PrimeV2Message) : Prop :=
  ∃ reports frames start, Taken read reports frames ∧ frames.head? = some start
    ∧ start.isStart = true ∧ start.messageId = m.messageId ∧ start.totalSize = m.data.length
    ∧ m.data = (frames.flatMap PrimeV2Content.data).take start.totalSize

/-- The number of the report at an index, in the older protocol; the index is an `uint32_t`. -/
def legacySequence (i : Nat) : Nat := (i % 2 ^ 32 + i % 2 ^ 32 / 0xFF) % 256

/-- A message of the older protocol, as long as its first report announces. -/
def AssembledLegacy (read : List Event) (m : PrimeV2Message) : Prop :=
  ∃ (reports : List (List UInt8)) (first : List UInt8), (reports.map Except.ok).Sublist read ∧ reports.head? = some first
    ∧ reports.map (fun raw => (raw.headD 0).toNat) = (List.range reports.length).map legacySequence
    ∧ primeDataSize (first.getD 1 0) first.tail = .ok m.data.length ∧ m.messageId = 0
    ∧ m.data = (reports.flatMap List.tail).take m.data.length

theorem Taken.append_read {read : List Event} {reports : List (List UInt8)}
    {frames : List PrimeV2Content} (h : Taken read reports frames) (more : List Event) :
    Taken (read ++ more) reports frames where
  read := h.read.trans (List.sublist_append_left read more)
  decoded := h.decoded
  numbered := h.numbered

/-- One more frame. -/
theorem Taken.snoc {read : List Event} {reports : List (List UInt8)}
    {frames : List PrimeV2Content} (h : Taken read reports frames) {raw : List UInt8}
    {frame : PrimeV2Content} (hdecode : primeV2DecodeContent raw = .ok frame)
    (hsequence : frame.sequence = frameSequence frames.length) :
    Taken (read ++ [.ok raw]) (reports ++ [raw]) (frames ++ [frame]) where
  read := by
    rw [List.map_append]
    exact h.read.append (List.Sublist.refl _)
  decoded := List.rel_append h.decoded (.cons hdecode .nil)
  numbered := by
    rw [List.map_append, h.numbered, List.length_append, List.length_singleton, List.range_succ,
      List.map_append, List.map_singleton, List.map_singleton, hsequence]

/-! ## what is copied -/

/-- A `memcpy` into the message: where to, what, and the size of the buffer. -/
structure BufferWrite where
  offset : Nat
  bytes : List UInt8
  size : Nat

/-- The copies of the loop for the older protocol. -/
def legacyWrites (totalSize : Nat) : Nat → List UInt8 → List Event → List BufferWrite
  | _, _, [] => []
  | reportIndex, message, e :: es =>
      if totalSize ≤ message.length then []
      else
        match e with
        | .error _ => []
        | .ok raw =>
            if raw.length = 0 ∨
                (raw.headD 0).toNat ≠ (reportIndex + reportIndex / 0xFF) % 256 then []
            else
              ⟨message.length, raw.tail.take (totalSize - message.length), totalSize⟩ ::
                legacyWrites totalSize ((reportIndex + 1) % 2 ^ 32)
                  (message ++ raw.tail.take (totalSize - message.length)) es

/-- The copies of a message in the older protocol, from its first report on. -/
def legacyMessageWrites (first : List UInt8) (es : List Event) : List BufferWrite :=
  match primeDataSize (first.getD 1 0) first.tail with
  | .error _ => []
  | .ok totalSize =>
      if first.length < 7 ∨ first.headD 0 ≠ 0 then []
      else if totalSize = 0 ∨ primeV2MaxMessageSize < totalSize then []
      else
        ⟨0, first.tail.take totalSize, totalSize⟩ ::
          legacyWrites totalSize 1 (first.tail.take totalSize) es

/-- The state in which the loop goes on after a frame. -/
def PrimeV2Rx.windowed (st : PrimeV2Rx) : PrimeV2Rx :=
  if st.reportsSinceAck = primeV2AckReportWindow then { st with reportsSinceAck := 0 } else st

/-- The copies that the receiver makes on the reports it reads. -/
def PrimeV2Rx.writes (size : ReportSize) : PrimeV2Rx → List Event → List BufferWrite
  | _, [] => []
  | st, e :: es =>
      match st.turn size e with
      | .stop _ => []
      | .skip st' => st'.writes size es
      | .nack st' => PrimeV2Rx.writes size { st' with retries := st'.retries + 1 } es
      | .legacy first => legacyMessageWrites first es
      | .append st' frame =>
          ⟨st'.message.length, frame.data.take (st'.totalSize - st'.message.length),
              st'.totalSize⟩ ::
            if (st'.appended size frame).message.length = st'.totalSize then []
            else (st'.appended size frame).windowed.writes size es

/-- A copy that stays in its buffer. -/
def BufferWrite.InBuffer (w : BufferWrite) : Prop := w.offset + w.bytes.length ≤ w.size

theorem inBuffer_take {message data : List UInt8} {size : Nat} (h : message.length ≤ size) :
    BufferWrite.InBuffer ⟨message.length, data.take (size - message.length), size⟩ := by
  unfold BufferWrite.InBuffer
  dsimp only
  rw [List.length_take]
  omega

theorem length_append_take_le {message data : List UInt8} {size : Nat} (h : message.length ≤ size) :
    (message ++ data.take (size - message.length)).length ≤ size := by
  rw [List.length_append]
  exact inBuffer_take h

theorem legacyWrites_inBuffer {totalSize reportIndex : Nat} {message : List UInt8}
    {es : List Event} (h : message.length ≤ totalSize) :
    ∀ w ∈ legacyWrites totalSize reportIndex message es, w.InBuffer := by
  induction es generalizing reportIndex message with
  | nil => nofun
  | cons e es ih =>
      unfold legacyWrites
      split
      · nofun
      · cases e with
        | error err => nofun
        | ok raw =>
            dsimp only
            split
            · nofun
            · intro w hw
              cases hw with
              | head => exact inBuffer_take h
              | tail _ hw => exact ih (length_append_take_le h) w hw

theorem legacyMessageWrites_inBuffer (first : List UInt8) (es : List Event) :
    ∀ w ∈ legacyMessageWrites first es, w.InBuffer := by
  unfold legacyMessageWrites
  split
  · nofun
  · rename_i totalSize hsize
    split
    · nofun
    · split
      · nofun
      · have hfits : (first.tail.take totalSize).length ≤ totalSize := List.length_take_le _ _
        intro w hw
        cases hw with
        | head =>
            unfold BufferWrite.InBuffer
            dsimp only
            omega
        | tail _ hw => exact legacyWrites_inBuffer hfits w hw

/-- What the loop keeps: the message fits its buffer, and there is none before the start frame. -/
structure PrimeV2Rx.Fits (st : PrimeV2Rx) : Prop where
  length : st.message.length ≤ st.totalSize
  empty : st.started = false → st.message = []

theorem fits_init : PrimeV2Rx.init.Fits where
  length := Nat.le_refl 0
  empty := fun _ => rfl

theorem PrimeV2Rx.Fits.begin {st st' : PrimeV2Rx} {frame : PrimeV2Content} (h : st.Fits)
    (hbegin : PrimeV2Rx.begin { st with controls := 0 } frame = .ok st') : st'.Fits := by
  rcases begin_ok hbegin with ⟨-, rfl⟩ | ⟨hstarted, -, -, rfl⟩
  · exact ⟨h.length, h.empty⟩
  · constructor
    · show st.message.length ≤ _
      rw [h.empty hstarted]
      exact Nat.zero_le _
    · nofun

theorem begin_started {st st' : PrimeV2Rx} {frame : PrimeV2Content}
    (h : st.begin frame = .ok st') : st'.started = true := by
  rcases begin_ok h with ⟨hstarted, rfl⟩ | ⟨-, -, -, rfl⟩
  · exact hstarted
  · rfl

theorem PrimeV2Rx.Fits.appended {st : PrimeV2Rx} (h : st.Fits) (hstarted : st.started = true)
    (size : ReportSize) (frame : PrimeV2Content) : (st.appended size frame).Fits where
  length := length_append_take_le h.length
  empty := fun hnot => by
    have hsame : (st.appended size frame).started = st.started := rfl
    rw [hsame, hstarted] at hnot
    cases hnot

theorem PrimeV2Rx.Fits.windowed {st : PrimeV2Rx} (h : st.Fits) : st.windowed.Fits := by
  unfold PrimeV2Rx.windowed
  split
  · exact ⟨h.length, h.empty⟩
  · exact h

/-- No copy falls outside the buffer, on any reports. -/
theorem writes_inBuffer {size : ReportSize} {st : PrimeV2Rx} {es : List Event} (h : st.Fits) :
    ∀ w ∈ st.writes size es, w.InBuffer := by
  induction es generalizing st with
  | nil => nofun
  | cons e es ih =>
      have hturn := turns size st e
      unfold PrimeV2Rx.writes
      generalize st.turn size e = t at *
      cases hturn with
      | stop err => nofun
      | skip => exact ih ⟨h.length, h.empty⟩
      | legacy => exact legacyMessageWrites_inBuffer _ es
      | silent => exact ih ⟨h.length, h.empty⟩
      | unexpected hcontrol hdecode hbegin =>
          have hfits := h.begin hbegin
          exact ih ⟨hfits.length, hfits.empty⟩
      | expected hcontrol hdecode hbegin =>
          have hfits := h.begin hbegin
          intro w hw
          cases hw with
          | head => exact inBuffer_take hfits.length
          | tail _ hw =>
              split at hw
              · cases hw
              · exact ih (hfits.appended (begin_started hbegin) size _).windowed w hw

/-! ## the older protocol -/

/-- Reports of the older protocol that were read, with the numbers from the first on. -/
structure TakenLegacy (read : List Event) (reports : List (List UInt8)) : Prop where
  read : (reports.map Except.ok).Sublist read
  numbered : reports.map (fun raw => (raw.headD 0).toNat)
    = (List.range reports.length).map legacySequence

/-- One more report. -/
theorem TakenLegacy.snoc {read : List Event} {reports : List (List UInt8)}
    (h : TakenLegacy read reports) {raw : List UInt8}
    (hsequence : (raw.headD 0).toNat = legacySequence reports.length) :
    TakenLegacy (read ++ [.ok raw]) (reports ++ [raw]) where
  read := by
    rw [List.map_append]
    exact h.read.append (List.Sublist.refl _)
  numbered := by
    rw [List.map_append, h.numbered, List.length_append, List.length_singleton, List.range_succ,
      List.map_append, List.map_singleton, List.map_singleton, hsequence]

/-- A cut message and one more piece. -/
theorem take_append_take {α : Type} (n : Nat) (xs ys : List α) :
    xs.take n ++ ys.take (n - (xs.take n).length) = (xs ++ ys).take n := by
  rw [List.take_append, List.length_take]
  congr 2
  omega

/-- The reports that a handle reads. -/
theorem PrimeHandle.read_cases (h : PrimeHandle) :
    (h.port.rx = [] ∧ h.read = (.error .cableRead, h))
      ∨ ∃ e, h.port.rx = e :: h.read.2.port.rx ∧ h.read.1 = e := by
  obtain ⟨⟨rx, tx, fault⟩, size, version, next⟩ := h
  cases rx with
  | nil => exact .inl ⟨rfl, rfl⟩
  | cons e rx => exact .inr ⟨e, rfl, rfl⟩

theorem PrimeHandle.read_ok {h : PrimeHandle} {raw : List UInt8} (hread : h.read.1 = .ok raw) :
    h.port.rx = .ok raw :: h.read.2.port.rx := by
  rcases h.read_cases with ⟨-, hnone⟩ | ⟨e, hrx, he⟩
  · rw [hnone] at hread
    cases hread
  · rw [hrx, ← hread, he]

/-- What the loop of the older protocol returns. -/
theorem primeV2RecvLegacyLoop_sound {totalSize fuel reportIndex : Nat} {message : List UInt8}
    {h h' : PrimeHandle} {m : PrimeV2Message} {read : List Event} {reports : List (List UInt8)}
    (htaken : TakenLegacy read reports) (hindex : reportIndex = reports.length % 2 ^ 32)
    (hmessage : message = (reports.flatMap List.tail).take totalSize)
    (hrun : Proc.exec (primeV2RecvLegacyLoop totalSize fuel reportIndex message) h
      = (.ok m, h')) :
    ∃ more reports', h.port.rx = more ++ h'.port.rx
      ∧ TakenLegacy (read ++ more) (reports ++ reports')
      ∧ m.data = ((reports ++ reports').flatMap List.tail).take totalSize
      ∧ m.data.length = totalSize ∧ m.messageId = 0
      ∧ m.data = message ++ (legacyWrites totalSize reportIndex message h.port.rx).flatMap
        BufferWrite.bytes := by
  induction fuel generalizing reportIndex message h read reports with
  | zero => cases hrun
  | succ fuel ih =>
      unfold primeV2RecvLegacyLoop at hrun
      split at hrun
      · rename_i hdone
        cases hrun
        have hlen := congrArg List.length hmessage
        rw [List.length_take] at hlen
        have hexact : message.length = totalSize := by omega
        refine ⟨[], [], rfl, ?_, ?_, hexact, rfl, ?_⟩
        · rw [List.append_nil, List.append_nil]
          exact htaken
        · rw [List.append_nil]
          exact hmessage
        · cases h'.port.rx with
          | nil => simp [legacyWrites]
          | cons e es => simp [legacyWrites, hdone]
      · rename_i hgo
        rw [Proc.exec_bind_ok (exec_primeRecv h)] at hrun
        cases hread : h.read.1 with
        | error err =>
            rw [hread] at hrun
            cases hrun
        | ok raw =>
            have hrx := PrimeHandle.read_ok hread
            rw [hread] at hrun
            dsimp only at hrun
            split at hrun
            · cases hrun
            · rename_i hgood
              simp only [not_or, not_not] at hgood
              have hsequence : (raw.headD 0).toNat = legacySequence reports.length := by
                rw [hgood.2, hindex]
                rfl
              obtain ⟨more, reports', hmore, htaken', hdata, hlen, hid, hwrites⟩ := ih
                (htaken.snoc hsequence)
                (by rw [hindex, List.length_append, List.length_singleton, Nat.mod_add_mod])
                (by rw [hmessage, take_append_take, List.flatMap_append, List.flatMap_singleton])
                hrun
              refine ⟨.ok raw :: more, raw :: reports', ?_, ?_, ?_, hlen, hid, ?_⟩
              · rw [hrx, hmore, List.cons_append]
              · simpa using htaken'
              · simpa using hdata
              · rw [hrx, hwrites, legacyWrites, if_neg hgo]
                rw [if_neg (by simpa using hgood), List.flatMap_cons, List.append_assoc]

/-- What the older protocol returns, from its first report on. -/
theorem primeV2RecvLegacyMessage_sound {first : List UInt8} {h h' : PrimeHandle}
    {m : PrimeV2Message} (read : List Event)
    (hrun : Proc.exec (primeV2RecvLegacyMessage first) h = (.ok m, h')) :
    ∃ more, h.port.rx = more ++ h'.port.rx
      ∧ AssembledLegacy (read ++ .ok first :: more) m
      ∧ m.data = (legacyMessageWrites first h.port.rx).flatMap BufferWrite.bytes := by
  unfold primeV2RecvLegacyMessage at hrun
  split at hrun
  · cases hrun
  · rename_i hfirst
    simp only [not_or, not_not] at hfirst
    rw [Proc.exec_bind, Proc.exec_ofExcept] at hrun
    cases hsize : primeDataSize (first.getD 1 0) first.tail with
    | error err =>
        rw [hsize] at hrun
        cases hrun
    | ok totalSize =>
        rw [hsize] at hrun
        dsimp only at hrun
        split at hrun
        · cases hrun
        · rename_i hgood
          rw [Proc.exec_bind_ok (Proc.exec_get _)] at hrun
          have htaken : TakenLegacy (read ++ [.ok first]) [first] := by
            constructor
            · exact List.sublist_append_right read _
            · rw [List.map_singleton, hfirst.2]
              rfl
          obtain ⟨more, reports, hmore, htaken', hdata, hlen, hid, hwrites⟩ :=
            primeV2RecvLegacyLoop_sound htaken rfl (by rw [List.flatMap_singleton]) hrun
          refine ⟨more, hmore, ⟨first :: reports, first, ?_, rfl, ?_, ?_, hid, ?_⟩, ?_⟩
          · simpa using htaken'.read
          · simpa using htaken'.numbered
          · rw [hlen]
            exact hsize
          · rw [hlen]
            simpa using hdata
          · unfold legacyMessageWrites
            rw [hsize]
            dsimp only
            rw [if_neg (by simpa using hfirst), if_neg hgood, List.flatMap_cons]
            exact hwrites

/-! ## messages of version 2 -/

/-- What the loop knows of the frames that it has appended. -/
structure Built (st : PrimeV2Rx) (read : List Event) (reports : List (List UInt8))
    (frames : List PrimeV2Content) : Prop extends Taken read reports frames where
  expected : st.expectedSequence = frameSequence frames.length
  message : st.message = (frames.flatMap PrimeV2Content.data).take st.totalSize
  notStarted : st.started = false → frames = []
  start : st.started = true → ∃ start, frames.head? = some start ∧ start.isStart = true
    ∧ start.messageId = st.messageId ∧ start.totalSize = st.totalSize

theorem Built.append_read {st : PrimeV2Rx} {read : List Event} {reports : List (List UInt8)}
    {frames : List PrimeV2Content} (h : Built st read reports frames) (more : List Event) :
    Built st (read ++ more) reports frames :=
  ⟨h.toTaken.append_read more, h.expected, h.message, h.notStarted, h.start⟩

/-- The counters do not matter. -/
theorem Built.counters {st : PrimeV2Rx} {read : List Event} {reports : List (List UInt8)}
    {frames : List PrimeV2Content} (h : Built st read reports frames) (retries controls : Nat) :
    Built { st with retries, controls } read reports frames :=
  ⟨h.toTaken, h.expected, h.message, h.notStarted, h.start⟩

theorem built_init : Built .init [] [] [] :=
  ⟨⟨List.Sublist.refl _, .nil, rfl⟩, rfl, rfl, fun _ => rfl, nofun⟩

/-- A start frame is one with the first number. -/
theorem isStart_of_decode {raw : List UInt8} {frame : PrimeV2Content}
    (h : primeV2DecodeContent raw = .ok frame) :
    frame.isStart = decide (frame.sequence = primeV2SequenceFirst) := by
  unfold primeV2DecodeContent at h
  dsimp only at h
  rw [check_eq_ok_iff, check_eq_ok_iff, check_eq_ok_iff, check_eq_ok_iff] at h
  obtain ⟨-, -, -, -, h⟩ := h
  cases h
  rfl

/-- The first frame is the one that the receiver waits for. -/
theorem Built.started_of_unexpected {st st' : PrimeV2Rx} {read : List Event}
    {reports : List (List UInt8)} {frames : List PrimeV2Content} {raw : List UInt8}
    {frame : PrimeV2Content} (h : Built st read reports frames)
    (hdecode : primeV2DecodeContent raw = .ok frame)
    (hbegin : PrimeV2Rx.begin { st with controls := 0 } frame = .ok st')
    (hother : st'.Unexpected frame) : st' = { st with controls := 0 } := by
  rcases begin_ok hbegin with ⟨-, hsame⟩ | ⟨hstarted, hstart, -, rfl⟩
  · exact hsame
  · have hnone := h.notStarted hstarted
    subst hnone
    have hfirst : frame.sequence = primeV2SequenceFirst := by
      simpa [hstart] using isStart_of_decode hdecode
    rcases hother with hsequence | ⟨-, hlength⟩
    · exact absurd (hfirst.trans h.expected.symm) hsequence
    · rw [h.message] at hlength
      exact absurd (by simp) hlength

/-- The frame that the receiver waits for goes to the end. -/
theorem Built.appended {st st' : PrimeV2Rx} {read : List Event} {reports : List (List UInt8)}
    {frames : List PrimeV2Content} {raw : List UInt8} {frame : PrimeV2Content}
    (h : Built st read reports frames) (hdecode : primeV2DecodeContent raw = .ok frame)
    (hbegin : PrimeV2Rx.begin { st with controls := 0 } frame = .ok st')
    (hnext : ¬st'.Unexpected frame) (size : ReportSize) :
    Built (st'.appended size frame) (read ++ [.ok raw]) (reports ++ [raw]) (frames ++ [frame]) := by
  have hsequence : frame.sequence = st'.expectedSequence := by
    by_contra hne
    exact hnext (.inl hne)
  rcases begin_ok hbegin with ⟨hstarted, rfl⟩ | ⟨hstarted, hstart, -, rfl⟩
  · obtain ⟨start, hhead, hstart, hid, htotal⟩ := h.start hstarted
    refine ⟨h.toTaken.snoc hdecode (hsequence.trans h.expected), ?_, ?_, ?_, fun _ => ?_⟩
    · show primeV2NextSequence st.expectedSequence = _
      rw [h.expected, List.length_append, List.length_singleton, frameSequence_succ]
    · show st.message ++ frame.data.take (st.totalSize - st.message.length) = _
      rw [h.message, take_append_take, List.flatMap_append, List.flatMap_singleton]
      rfl
    · intro hnot
      exact absurd (hstarted.symm.trans hnot) (by decide)
    · refine ⟨start, ?_, hstart, hid, htotal⟩
      rw [List.head?_append, hhead]
      rfl
  · have hnone := h.notStarted hstarted
    subst hnone
    have hempty : st.message = [] := by simpa using h.message
    refine ⟨h.toTaken.snoc hdecode (hsequence.trans h.expected), ?_, ?_, nofun, fun _ =>
      ⟨frame, rfl, hstart, rfl, rfl⟩⟩
    · show primeV2NextSequence st.expectedSequence = _
      rw [h.expected]
      rfl
    · show st.message ++ frame.data.take (frame.totalSize - st.message.length) = _
      rw [hempty, List.nil_append, List.nil_append, List.flatMap_singleton]
      rfl

/-- The state after a frame, when the message is not complete. -/
theorem Built.windowed {st : PrimeV2Rx} {read : List Event} {reports : List (List UInt8)}
    {frames : List PrimeV2Content} (h : Built st read reports frames) :
    Built st.windowed read reports frames := by
  unfold PrimeV2Rx.windowed
  split
  · exact ⟨h.toTaken, h.expected, h.message, h.notStarted, h.start⟩
  · exact h

theorem exec_nack_ok {fuel : Nat} {st : PrimeV2Rx} {h h' : PrimeHandle} {m : PrimeV2Message}
    (hrun : Proc.exec (do primeV2RecvLoop fuel (← st.nack)) h = (.ok m, h')) :
    ∃ h₁ : PrimeHandle, h₁.port.rx = h.port.rx ∧ h₁.reportSize = h.reportSize
      ∧ Proc.exec (primeV2RecvLoop fuel { st with retries := st.retries + 1 }) h₁
        = (.ok m, h') := by
  obtain ⟨st', h₁, hnack, hrun⟩ := Proc.exec_bind_eq_ok_iff.mp hrun
  obtain ⟨_, h₂, hsend, hpure⟩ := Proc.exec_bind_eq_ok_iff.mp hnack
  cases hpure
  have hkeeps := exec_primeV2SendAckFrame_keeps false st.expectedSequence st.message.length
    st.messageId h
  rw [hsend] at hkeeps
  exact ⟨h₁, hkeeps.1, hkeeps.2, hrun⟩

theorem exec_settle_ok {fuel sequence : Nat} {st : PrimeV2Rx} {h h' : PrimeHandle}
    {m : PrimeV2Message} (hrun : Proc.exec (st.settle fuel sequence) h = (.ok m, h')) :
    (st.message.length = st.totalSize ∧ m = ⟨st.message, st.messageId⟩
        ∧ h'.port.rx = h.port.rx)
      ∨ (st.message.length ≠ st.totalSize ∧ ∃ h₁ : PrimeHandle, h₁.port.rx = h.port.rx
        ∧ h₁.reportSize = h.reportSize
        ∧ Proc.exec (primeV2RecvLoop fuel st.windowed) h₁ = (.ok m, h')) := by
  unfold PrimeV2Rx.settle at hrun
  unfold PrimeV2Rx.windowed
  split at hrun
  · rename_i hdone
    obtain ⟨_, h₁, hsend, hpure⟩ := Proc.exec_bind_eq_ok_iff.mp hrun
    cases hpure
    have hkeeps := exec_primeV2SendAckFrame_keeps true sequence st.ackPosition st.messageId h
    rw [hsend] at hkeeps
    exact .inl ⟨hdone, rfl, hkeeps.1⟩
  · rename_i hmore
    refine .inr ⟨hmore, ?_⟩
    split at hrun
    · rename_i hfull
      obtain ⟨_, h₁, hsend, hrun⟩ := Proc.exec_bind_eq_ok_iff.mp hrun
      have hkeeps := exec_primeV2SendAckFrame_keeps true st.expectedSequence st.ackPosition
        st.messageId h
      rw [hsend] at hkeeps
      rw [if_pos hfull]
      exact ⟨h₁, hkeeps.1, hkeeps.2, hrun⟩
    · rename_i hopen
      rw [if_neg hopen]
      exact ⟨h, rfl, rfl, hrun⟩

/-- What the loop returns, and what it has copied for it. -/
theorem primeV2RecvLoop_sound {fuel : Nat} {st : PrimeV2Rx} {h h' : PrimeHandle}
    {m : PrimeV2Message} {read : List Event} {reports : List (List UInt8)}
    {frames : List PrimeV2Content} (hbuilt : Built st read reports frames)
    (hrun : Proc.exec (primeV2RecvLoop fuel st) h = (.ok m, h')) :
    ∃ more, h.port.rx = more ++ h'.port.rx
      ∧ (AssembledV2 (read ++ more) m ∨ AssembledLegacy (read ++ more) m)
      ∧ m.data = st.message
        ++ (st.writes h.reportSize h.port.rx).flatMap BufferWrite.bytes := by
  induction fuel generalizing st h read reports frames with
  | zero => cases hrun
  | succ fuel ih =>
      rw [exec_primeV2RecvLoop_succ] at hrun
      have hturn := turns h.reportSize st h.read.1
      rcases h.read_cases with ⟨hnil, hread⟩ | ⟨e, hrx, he⟩
      · -- nothing is left to read
        rw [hread] at hrun hturn
        dsimp only at hrun hturn
        generalize st.turn h.reportSize (.error .cableRead) = t at hrun hturn
        cases hturn with
        | stop err => cases hrun
        | skip hcontrol =>
            obtain ⟨raw, hraw, -⟩ := hcontrol
            cases hraw
        | silent =>
            obtain ⟨h₁, hrx₁, hsize₁, hrun⟩ := exec_nack_ok hrun
            obtain ⟨more, hmore, hassembled, hdata⟩ := ih (hbuilt.counters _ _) hrun
            rw [hrx₁, hnil] at hmore hdata
            rw [hnil]
            exact ⟨more, hmore, hassembled, hdata⟩
      · rw [he] at hrun hturn
        rw [hrx, PrimeV2Rx.writes]
        generalize st.turn h.reportSize e = t at hrun hturn ⊢
        have hsize := h.read_reportSize
        generalize h.read.2 = h₀ at *
        have hsplit : ∀ more, read ++ e :: more = (read ++ [e]) ++ more := by simp
        cases hturn with
        | stop err => cases hrun
        | skip =>
            dsimp only at hrun ⊢
            obtain ⟨more, hmore, hassembled, hdata⟩ :=
              ih ((hbuilt.append_read [e]).counters _ _) hrun
            refine ⟨e :: more, by rw [hmore, List.cons_append], ?_, ?_⟩
            · rw [hsplit]
              exact hassembled
            · rw [← hsize]
              exact hdata
        | legacy hcontrol hstarted =>
            obtain ⟨more, hmore, hassembled, hdata⟩ := primeV2RecvLegacyMessage_sound read hrun
            refine ⟨_ :: more, by rw [hmore, List.cons_append], .inr hassembled, ?_⟩
            have hempty : st.message = [] := by
              rw [hbuilt.message, hbuilt.notStarted hstarted, List.flatMap_nil, List.take_nil]
            rw [hempty]
            exact hdata
        | silent =>
            obtain ⟨h₁, hrx₁, hsize₁, hrun⟩ := exec_nack_ok hrun
            obtain ⟨more, hmore, hassembled, hdata⟩ :=
              ih ((hbuilt.append_read [_]).counters _ _) hrun
            refine ⟨_ :: more, by rw [← hrx₁, hmore, List.cons_append], ?_, ?_⟩
            · rw [hsplit]
              exact hassembled
            · rw [← hsize, ← hsize₁, ← hrx₁]
              exact hdata
        | unexpected hcontrol hdecode hbegin hother =>
            have hsame := hbuilt.started_of_unexpected hdecode hbegin hother
            subst hsame
            obtain ⟨h₁, hrx₁, hsize₁, hrun⟩ := exec_nack_ok hrun
            obtain ⟨more, hmore, hassembled, hdata⟩ :=
              ih ((hbuilt.append_read [_]).counters _ _) hrun
            refine ⟨_ :: more, by rw [← hrx₁, hmore, List.cons_append], ?_, ?_⟩
            · rw [hsplit]
              exact hassembled
            · rw [← hsize, ← hsize₁, ← hrx₁]
              exact hdata
        | @expected raw frame st' hcontrol hdecode hbegin hnext =>
            have hnew := hbuilt.appended hdecode hbegin hnext h.reportSize
            have hmessage : st'.message = st.message := by
              rcases begin_ok hbegin with ⟨-, rfl⟩ | ⟨-, -, -, rfl⟩ <;> rfl
            have happended : (st'.appended h.reportSize frame).message
                = st.message ++ frame.data.take (st'.totalSize - st'.message.length) := by
              rw [← hmessage]
              rfl
            have htotal : (st'.appended h.reportSize frame).totalSize = st'.totalSize := rfl
            have hstarted : st'.started = true := begin_started hbegin
            dsimp only at hrun ⊢
            rcases exec_settle_ok hrun with ⟨hdone, rfl, hrx'⟩ | ⟨hmore', h₁, hrx₁, hsize₁, hrun⟩
            · obtain ⟨start, hhead, hstart, hid, htotal'⟩ := hnew.start hstarted
              refine ⟨[.ok raw], by rw [hrx']; rfl, .inl ⟨_, _, start, hnew.toTaken, hhead, hstart,
                hid, ?_, ?_⟩, ?_⟩
              · rw [htotal', ← hdone]
              · rw [htotal']
                exact hnew.message
              · rw [if_pos (hdone.trans htotal), happended]
                simp
            · obtain ⟨more, hmore, hassembled, hdata⟩ := ih hnew.windowed hrun
              have hwindowed : (st'.appended h.reportSize frame).windowed.message
                  = (st'.appended h.reportSize frame).message := by
                unfold PrimeV2Rx.windowed
                split <;> rfl
              refine ⟨_ :: more, by rw [← hrx₁, hmore, List.cons_append], ?_, ?_⟩
              · rw [hsplit]
                exact hassembled
              · rw [if_neg (fun h => hmore' (h.trans htotal.symm)), List.flatMap_cons, hdata, hwindowed,
                  happended, hsize₁, hsize, hrx₁, List.append_assoc]

/-- A message that is returned was put together from the reports it needs, by the copies that were
made, and no copy leaves the buffer, whether a message is returned or not. -/
theorem primeV2RecvMessage_sound (h : PrimeHandle) :
    (∀ m h', Proc.exec primeV2RecvMessage h = (.ok m, h') →
      ∃ read, h.port.rx = read ++ h'.port.rx ∧ (AssembledV2 read m ∨ AssembledLegacy read m)
        ∧ m.data = (PrimeV2Rx.init.writes h.reportSize h.port.rx).flatMap BufferWrite.bytes)
    ∧ ∀ w ∈ PrimeV2Rx.init.writes h.reportSize h.port.rx, w.InBuffer := by
  constructor
  · intro m h' hrun
    unfold primeV2RecvMessage at hrun
    rw [Proc.exec_bind_ok (Proc.exec_get h)] at hrun
    split at hrun
    · cases hrun
    · exact primeV2RecvLoop_sound built_init hrun
  · exact writes_inBuffer fits_init

/-- A report with the message of two bytes, after a delayed acknowledgement. -/
def shortHandle : PrimeHandle :=
  ⟨⟨[.ok (ackBytes true 2 55 6), delivered (reportOf 64 (startFrame 64 7 [0x41, 0x42]))], [],
    none⟩, .legacy, .v2, 1⟩

theorem primeV2RecvMessage_sound_short :
    ∃ m h', Proc.exec primeV2RecvMessage shortHandle = (.ok m, h') ∧ m.data = [0x41, 0x42]
      ∧ ∃ read, shortHandle.port.rx = read ++ h'.port.rx
        ∧ (AssembledV2 read m ∨ AssembledLegacy read m)
        ∧ m.data = (PrimeV2Rx.init.writes shortHandle.reportSize shortHandle.port.rx).flatMap
          BufferWrite.bytes := by
  have hrun : Proc.exec primeV2RecvMessage shortHandle = (.ok ⟨[0x41, 0x42], 7⟩,
      ⟨⟨[], [reportOf 64 (ackBytes true 1 55 7)], none⟩, .legacy, .v2, 1⟩) := by
    decide
  exact ⟨_, _, hrun, rfl, (primeV2RecvMessage_sound shortHandle).1 _ _ hrun⟩

end Tilibs.Prime
