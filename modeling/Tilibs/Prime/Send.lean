import Tilibs.Prime.RoundTrip

/-!
# Tilibs.Prime.Send

Sending a message with retries (`prime_v2_send_message`): all frames go out
first, then the sender reads what the peer says.

The sender takes the first acknowledgement for its message as the end of the
exchange and does not look at the position in it.  A receiver also
acknowledges each window of 77 reports, with the position it has reached; such
an acknowledgement ends the exchange as well.
-/

namespace Tilibs.Prime

open Tilibs.Lib

/-! ## The sender -/

def primeProtocolNextMessageId : PrimeProc Nat := do
  let h ← get
  let next := (h.nextMessageId + 1) % 2 ^ 32
  set { h with nextMessageId := if next = 0 then 1 else next }
  pure h.nextMessageId

/-- The loop that reads control frames; the first argument is how many more it
reads. -/
def primeV2SendLoop (messageId : Nat) (data : List UInt8) (maxRetries : Nat) :
    Nat → Nat → PrimeProc Unit
  | 0, _ => throw .packetFormat
  | controls + 1, retries => do
      match ← primeRecv with
      | .error e =>
          if maxRetries < retries + 1 then throw e
          else
            primeV2SendFramesFrom messageId data 0 primeV2SequenceFirst
            primeV2SendLoop messageId data maxRetries controls (retries + 1)
      | .ok raw =>
          if primeV2IsHeartbeat raw then primeV2SendLoop messageId data maxRetries controls retries
          else
            let ack ← Proc.ofExcept (primeV2DecodeAck raw)
            if ack.messageId ≠ messageId then
              primeV2SendLoop messageId data maxRetries controls retries
            else if ack.isAck then pure ()
            else if maxRetries < retries + 1 ∨ data.length < ack.blockPosition then
              throw .packetFormat
            else
              primeV2SendFramesFrom messageId data ack.blockPosition ack.sequenceToResend
              primeV2SendLoop messageId data maxRetries controls (retries + 1)

/-- Send a message; the result is its identifier. -/
def primeV2SendMessageWithRetries (data : List UInt8) (maxRetries : Nat) : PrimeProc Nat := do
  let h ← get
  if h.version ≠ .v2 ∨ primeV2MaxMessageSize < data.length then throw .packetFormat
  else
    let messageId ← primeProtocolNextMessageId
    if messageId = 0 then throw .invalidHandle
    else
      primeV2SendFramesFrom messageId data 0 primeV2SequenceFirst
      primeV2SendLoop messageId data maxRetries primeV2MaxControlFrames 0
      pure messageId

def primeV2SendMessage (data : List UInt8) : PrimeProc Nat :=
  primeV2SendMessageWithRetries data primeV2MaxRetries

/-! ## What the peer says -/

abbrev Event := Except PrimeErr (List UInt8)

/-- The peer has the whole message: an acknowledgement for it that covers its
last byte. -/
def Confirms (messageId size : Nat) (e : Event) : Prop :=
  ∃ raw ack, e = .ok raw ∧ primeV2IsHeartbeat raw = false ∧ primeV2DecodeAck raw = .ok ack ∧
    ack.isAck = true ∧ ack.messageId = messageId ∧ size ≤ ack.blockPosition

/-- Where `primeV2SendFramesFrom` can start again. -/
def Resumes (size position sequence : Nat) : Prop :=
  position ≤ size ∧ (position = 0 → sequence = primeV2SequenceFirst) ∧
    (position ≠ 0 → 2 ≤ sequence ∧ sequence ≤ primeV2SequenceLast)

instance (size position sequence : Nat) : Decidable (Resumes size position sequence) :=
  inferInstanceAs (Decidable (_ ∧ _))

theorem resumes_start (size : Nat) : Resumes size 0 primeV2SequenceFirst := by
  refine ⟨Nat.zero_le size, fun _ => rfl, ?_⟩
  intro h
  contradiction

/-- What the sender does at an event. -/
inductive Control
  | skip
  | resend (position sequence : Nat)
  | acked (position : Nat)
  | stop
  deriving DecidableEq, Repr

def control (messageId size : Nat) : Event → Control
  | .error _ => .resend 0 primeV2SequenceFirst
  | .ok raw =>
      if primeV2IsHeartbeat raw then .skip
      else
        match primeV2DecodeAck raw with
        | .error _ => .stop
        | .ok ack =>
            if ack.messageId ≠ messageId then .skip
            else if ack.isAck then .acked ack.blockPosition
            else if Resumes size ack.blockPosition ack.sequenceToResend then
              .resend ack.blockPosition ack.sequenceToResend
            else .stop

/-- The events up to the first acknowledgement of the message, with its
position: at most `controls` of them, and at most `budget` that make the sender
start again. -/
inductive FirstAck (messageId size : Nat) : Nat → Nat → List Event → Nat → List Event → Prop
  | here {controls budget position : Nat} {e : Event} {left : List Event}
      (h : control messageId size e = .acked position) :
      FirstAck messageId size (controls + 1) budget (e :: left) position left
  | skip {controls budget position : Nat} {e : Event} {rx left : List Event}
      (h : control messageId size e = .skip)
      (rest : FirstAck messageId size controls budget rx position left) :
      FirstAck messageId size (controls + 1) budget (e :: rx) position left
  | resend {controls budget position p sequence : Nat} {e : Event} {rx left : List Event}
      (h : control messageId size e = .resend p sequence)
      (rest : FirstAck messageId size controls budget rx position left) :
      FirstAck messageId size (controls + 1) (budget + 1) (e :: rx) position left

section Control

variable {messageId size position : Nat} {e : Event}

theorem confirms_iff :
    Confirms messageId size e ↔
      ∃ position, control messageId size e = .acked position ∧ size ≤ position := by
  cases e with
  | error e => simp [Confirms, control]
  | ok raw =>
      cases hbeat : primeV2IsHeartbeat raw with
      | true => simp [Confirms, control, hbeat]
      | false =>
          cases hack : primeV2DecodeAck raw with
          | error e => simp [Confirms, control, hbeat, hack]
          | ok ack =>
              simp only [Confirms, control, hbeat, hack, Except.ok.injEq]
              by_cases hid : ack.messageId = messageId
              · cases hkind : ack.isAck with
                | true => simp [hid, hkind, hbeat, hack]
                | false =>
                    simp [hid, hkind, hbeat, hack]
                    split <;> simp
              · simp [hid, hbeat, hack]

theorem not_firstAck_nil {controls budget : Nat} {left : List Event} :
    ¬ FirstAck messageId size controls budget [] position left := by
  intro h
  cases h

/-- Only the last of the events can confirm anything. -/
theorem FirstAck.split {controls budget : Nat} {rx left : List Event}
    (h : FirstAck messageId size controls budget rx position left) :
    ∃ pre, rx = pre ++ left ∧
      ((∃ e ∈ pre, Confirms messageId size e) ↔ size ≤ position) := by
  induction h with
  | here h =>
      refine ⟨[_], rfl, ?_⟩
      simp [confirms_iff, h]
  | skip h rest ih =>
      obtain ⟨pre, rfl, hpre⟩ := ih
      refine ⟨_ :: pre, rfl, ?_⟩
      rw [← hpre]
      simp [confirms_iff, h]
  | resend h rest ih =>
      obtain ⟨pre, rfl, hpre⟩ := ih
      refine ⟨_ :: pre, rfl, ?_⟩
      rw [← hpre]
      simp [confirms_iff, h]

end Control

/-! ## The loop stops at the first acknowledgement -/

section Loop

variable (size : ReportSize) (version : PrimeProtocol) (next : Nat)

/-- The message goes out again from a place the frames can start at. -/
theorem exec_primeV2SendFramesFrom_resumes {messageId position sequence : Nat}
    {data : List UInt8} (hid : messageId ≠ 0) (h : Resumes data.length position sequence)
    (rx : List Event) (tx : List (List UInt8)) :
    ∃ tx', Proc.exec (primeV2SendFramesFrom messageId data position sequence)
        ⟨⟨rx, tx, none⟩, size, version, next⟩ =
      (.ok (), ⟨⟨rx, tx', none⟩, size, version, next⟩) := by
  obtain ⟨hposition, hfirst, hcont⟩ := h
  by_cases hzero : position = 0
  · rw [hzero, hfirst hzero]
    exact ⟨_, exec_primeV2SendFramesFrom rx tx size version next data hid⟩
  · obtain ⟨h2, hlast⟩ := hcont hzero
    have hmax : size.bytes ≤ primeRawHidDataSizeMax := by cases size <;> decide
    have hmin : primeV2StartHeaderSize ≤ size.bytes := by cases size <;> decide
    have hsequence : ¬ (sequence < 2 ∨ primeV2SequenceLast < sequence) := by omega
    rw [primeV2SendFramesFrom, Proc.exec_bind_ok (Proc.exec_get _)]
    simp only [Nat.not_lt.mpr hposition, Nat.not_lt.mpr hmax, Nat.not_lt.mpr hmin, hzero,
      hsequence, false_and, and_false, or_self, ne_eq, not_false_eq_true, if_false,
      decide_false]
    by_cases hdata : data.drop position = []
    · have hone : ([] : List UInt8).length + primeV2ContHeaderSize ≤ size.bytes := by
        cases size <;> decide
      rw [hdata, primeV2SendFramesLoop, Proc.exec_bind_ok (Proc.exec_get _)]
      simp only [List.take_nil, List.drop_nil, if_true]
      rw [primeV2EncodeContent_cont messageId data.length h2 hlast hone,
        Proc.exec_bind_ok (Proc.exec_ofExcept _ _),
        Proc.exec_bind_ok (exec_primeV2SendFrame rx tx size version next [UInt8.ofNat sequence]
          hone)]
      exact ⟨_, rfl⟩
    · exact ⟨_, exec_primeV2SendFramesLoop_cont rx tx size version next hdata
        (by rw [List.length_drop]; omega) h2 hlast⟩

/-- From any other place nothing goes out. -/
theorem exec_primeV2SendFramesFrom_not_resumes (messageId : Nat) {position sequence : Nat}
    {data : List UInt8} (h : ¬ Resumes data.length position sequence) (s : PrimeHandle) :
    ∃ e, (Proc.exec (primeV2SendFramesFrom messageId data position sequence) s).1 = .error e := by
  unfold primeV2SendFramesFrom
  rw [Proc.exec_bind_ok (Proc.exec_get _)]
  by_cases hposition : data.length < position
  · rw [if_pos hposition]
    exact ⟨_, rfl⟩
  · rw [if_neg hposition]
    split
    · exact ⟨_, rfl⟩
    · have hrefused : (position = 0 ∧ sequence ≠ primeV2SequenceFirst) ∨
          (position ≠ 0 ∧ (sequence < 2 ∨ primeV2SequenceLast < sequence)) := by
        unfold Resumes at h
        omega
      rw [if_pos hrefused]
      exact ⟨_, rfl⟩

variable {messageId : Nat} (data : List UInt8) (maxRetries controls : Nat)

/-- One turn of the loop. -/
theorem exec_primeV2SendLoop_cons (hid : messageId ≠ 0) (retries : Nat) (e : Event)
    (rx : List Event) (tx : List (List UInt8)) :
    let run := Proc.exec (primeV2SendLoop messageId data maxRetries (controls + 1) retries)
      ⟨⟨e :: rx, tx, none⟩, size, version, next⟩
    match control messageId data.length e with
    | .skip => run = Proc.exec (primeV2SendLoop messageId data maxRetries controls retries)
        ⟨⟨rx, tx, none⟩, size, version, next⟩
    | .resend _ _ =>
        if retries < maxRetries then
          ∃ tx', run = Proc.exec (primeV2SendLoop messageId data maxRetries controls (retries + 1))
            ⟨⟨rx, tx', none⟩, size, version, next⟩
        else ∃ e, run.1 = .error e
    | .acked _ => run = (.ok (), ⟨⟨rx, tx, none⟩, size, version, next⟩)
    | .stop => ∃ e, run.1 = .error e := by
  intro run
  have hrun : run = Proc.exec (primeV2SendLoop messageId data maxRetries (controls + 1) retries)
    ⟨⟨e :: rx, tx, none⟩, size, version, next⟩ := rfl
  rw [primeV2SendLoop, Proc.exec_bind_ok (exec_primeRecv_cons rx tx size version next e)] at hrun
  -- what is sent again before the loop goes on
  have hagain (p sequence : Nat) (hresumes : Resumes data.length p sequence) :
      ∃ tx', Proc.exec (do
          primeV2SendFramesFrom messageId data p sequence
          primeV2SendLoop messageId data maxRetries controls (retries + 1))
        ⟨⟨rx, tx, none⟩, size, version, next⟩ =
      Proc.exec (primeV2SendLoop messageId data maxRetries controls (retries + 1))
        ⟨⟨rx, tx', none⟩, size, version, next⟩ := by
    obtain ⟨tx', hsend⟩ := exec_primeV2SendFramesFrom_resumes size version next hid hresumes rx tx
    exact ⟨tx', Proc.exec_bind_ok hsend⟩
  cases e with
  | error e =>
      dsimp only at hrun
      simp only [control]
      by_cases hretries : retries < maxRetries
      · rw [if_pos hretries, hrun, if_neg (by omega)]
        exact hagain 0 primeV2SequenceFirst (resumes_start _)
      · rw [if_neg hretries, hrun, if_pos (by omega)]
        exact ⟨e, rfl⟩
  | ok raw =>
      cases hbeat : primeV2IsHeartbeat raw with
      | true => simp [control, hbeat, hrun]
      | false =>
          cases hack : primeV2DecodeAck raw with
          | error e =>
              simp only [control, hbeat, hack, hrun, Bool.false_eq_true, if_false]
              exact ⟨e, rfl⟩
          | ok ack =>
              simp only [hbeat, hack, Bool.false_eq_true, if_false] at hrun
              rw [Proc.exec_bind_ok (Proc.exec_ofExcept _ _)] at hrun
              simp only [control, hbeat, hack, Bool.false_eq_true, if_false]
              by_cases hother : ack.messageId = messageId
              · cases hkind : ack.isAck with
                | true => simp [hother, hkind, hrun]
                | false =>
                    simp only [hother, hkind, ne_eq, not_true_eq_false, if_false,
                      Bool.false_eq_true] at hrun ⊢
                    by_cases hresumes : Resumes data.length ack.blockPosition ack.sequenceToResend
                    · simp only [hresumes, if_true]
                      by_cases hretries : retries < maxRetries
                      · rw [if_pos hretries, hrun,
                          if_neg (by have := hresumes.1; omega)]
                        exact hagain _ _ hresumes
                      · rw [if_neg hretries, hrun, if_pos (by omega)]
                        exact ⟨_, rfl⟩
                    · simp only [hresumes, if_false]
                      rw [hrun]
                      split
                      · exact ⟨_, rfl⟩
                      · obtain ⟨e, hstop⟩ :=
                          exec_primeV2SendFramesFrom_not_resumes messageId hresumes
                            ⟨⟨rx, tx, none⟩, size, version, next⟩
                        exact ⟨e, Proc.exec_bind_fst_error hstop⟩
              · simp [hother, hrun]

variable {data maxRetries controls}

/-- Up to the first acknowledgement the loop goes on, and there it returns. -/
theorem exec_primeV2SendLoop_firstAck (hid : messageId ≠ 0) {budget : Nat}
    {rx left : List Event} {position : Nat}
    (h : FirstAck messageId data.length controls budget rx position left) {retries : Nat}
    (hretries : retries + budget = maxRetries) (tx : List (List UInt8)) :
    ∃ tx', Proc.exec (primeV2SendLoop messageId data maxRetries controls retries)
        ⟨⟨rx, tx, none⟩, size, version, next⟩ =
      (.ok (), ⟨⟨left, tx', none⟩, size, version, next⟩) := by
  induction h generalizing retries tx with
  | @here controls _ _ e left h =>
      have hturn := exec_primeV2SendLoop_cons size version next data maxRetries controls hid
        retries e left tx
      rw [h] at hturn
      exact ⟨tx, hturn⟩
  | @skip controls _ _ e rx _ h rest ih =>
      have hturn := exec_primeV2SendLoop_cons size version next data maxRetries controls hid
        retries e rx tx
      rw [h] at hturn
      obtain ⟨tx', hrest⟩ := ih hretries tx
      exact ⟨tx', hturn.trans hrest⟩
  | @resend controls budget _ _ _ e rx _ h rest ih =>
      have hturn := exec_primeV2SendLoop_cons size version next data maxRetries controls hid
        retries e rx tx
      rw [h] at hturn
      simp only [show retries < maxRetries by omega, if_true] at hturn
      obtain ⟨tx₁, hturn⟩ := hturn
      obtain ⟨tx', hrest⟩ := ih (by omega : retries + 1 + budget = maxRetries) tx₁
      exact ⟨tx', hturn.trans hrest⟩

/-- It returns nowhere else. -/
theorem firstAck_of_exec_primeV2SendLoop (hid : messageId ≠ 0) {retries : Nat}
    {rx : List Event} {tx : List (List UInt8)} {h' : PrimeHandle}
    (hretries : retries ≤ maxRetries)
    (h : Proc.exec (primeV2SendLoop messageId data maxRetries controls retries)
      ⟨⟨rx, tx, none⟩, size, version, next⟩ = (.ok (), h')) :
    ∃ position, FirstAck messageId data.length controls (maxRetries - retries) rx position
      h'.port.rx := by
  induction controls generalizing retries rx tx with
  | zero => cases h
  | succ controls ih =>
      cases rx with
      | nil =>
          -- every further read fails, which never leads to an acknowledgement
          rw [primeV2SendLoop, Proc.exec_bind_ok (exec_primeRecv_nil tx size version next)] at h
          dsimp only at h
          by_cases hlimit : maxRetries < retries + 1
          · rw [if_pos hlimit] at h
            cases h
          · rw [if_neg hlimit] at h
            obtain ⟨tx', hsend⟩ := exec_primeV2SendFramesFrom_resumes size version next hid
              (resumes_start data.length) [] tx
            rw [Proc.exec_bind_ok hsend] at h
            obtain ⟨position, hnone⟩ := ih (by omega) h
            exact absurd hnone not_firstAck_nil
      | cons e rx =>
          have hturn := exec_primeV2SendLoop_cons size version next data maxRetries controls hid
            retries e rx tx
          simp only [h] at hturn
          cases hcontrol : control messageId data.length e with
          | skip =>
              rw [hcontrol] at hturn
              obtain ⟨position, hrest⟩ := ih hretries hturn.symm
              exact ⟨position, .skip hcontrol hrest⟩
          | resend p sequence =>
              simp only [hcontrol] at hturn
              split at hturn
              · obtain ⟨tx', hturn⟩ := hturn
                obtain ⟨position, hrest⟩ := ih (by omega) hturn.symm
                rw [show maxRetries - retries = maxRetries - (retries + 1) + 1 by omega]
                exact ⟨position, .resend hcontrol hrest⟩
              · obtain ⟨e, hstop⟩ := hturn
                cases hstop
          | acked position =>
              simp only [hcontrol, Prod.mk.injEq, true_and] at hturn
              rw [hturn]
              exact ⟨position, .here hcontrol⟩
          | stop =>
              simp only [hcontrol] at hturn
              obtain ⟨e, hstop⟩ := hturn
              cases hstop

end Loop

/-! ## Success is faithful, or not -/

/-- When the message is reported as sent, something the sender has read says
that the peer has all of it. -/
def Faithful (h : PrimeHandle) (data : List UInt8) : Prop :=
  ∀ messageId h', Proc.exec (primeV2SendMessage data) h = (.ok messageId, h') →
    ∃ pre, h.port.rx = pre ++ h'.port.rx ∧ ∃ e ∈ pre, Confirms messageId data.length e

section Send

variable {rx : List Event} {tx : List (List UInt8)} {size : ReportSize}
  {version : PrimeProtocol} {next : Nat} {data : List UInt8}

theorem exec_primeProtocolNextMessageId (rx : List Event) (tx : List (List UInt8))
    (size : ReportSize) (version : PrimeProtocol) (next : Nat) :
    ∃ next', Proc.exec primeProtocolNextMessageId ⟨⟨rx, tx, none⟩, size, version, next⟩ =
      (.ok next, ⟨⟨rx, tx, none⟩, size, version, next'⟩) := by
  exact ⟨_, rfl⟩

/-- The message is sent exactly when it is accepted and its first
acknowledgement arrives in time. -/
theorem exec_primeV2SendMessage_ok {messageId : Nat} {left : List Event} :
    (∃ h', Proc.exec (primeV2SendMessage data) ⟨⟨rx, tx, none⟩, size, version, next⟩ =
        (.ok messageId, h') ∧ h'.port.rx = left) ↔
      version = .v2 ∧ data.length ≤ primeV2MaxMessageSize ∧ next ≠ 0 ∧ messageId = next ∧
        ∃ position, FirstAck next data.length primeV2MaxControlFrames primeV2MaxRetries rx
          position left := by
  obtain ⟨next', hnext⟩ := exec_primeProtocolNextMessageId rx tx size version next
  unfold primeV2SendMessage primeV2SendMessageWithRetries
  rw [Proc.exec_bind_ok (Proc.exec_get _)]
  by_cases hrefused : version ≠ .v2 ∨ primeV2MaxMessageSize < data.length
  · rw [if_pos hrefused]
    constructor
    · rintro ⟨h', hsent, -⟩
      cases hsent
    · rintro ⟨hversion, hdata, -⟩
      cases hrefused with
      | inl hlegacy => contradiction
      | inr hlong => omega
  · rw [if_neg hrefused, Proc.exec_bind_ok hnext]
    by_cases hid : next = 0
    · rw [if_pos hid]
      constructor
      · rintro ⟨h', hsent, -⟩
        cases hsent
      · rintro ⟨-, -, hne, -⟩
        contradiction
    · rw [if_neg hid, Proc.exec_bind_ok (exec_primeV2SendFramesFrom rx tx size version next' data hid)]
      constructor
      · rintro ⟨h', hsent, rfl⟩
        rw [Proc.exec_bind] at hsent
        split at hsent
        · next h'' hloop =>
          cases hsent
          obtain ⟨position, hfirst⟩ := firstAck_of_exec_primeV2SendLoop size version next' hid
            (Nat.zero_le primeV2MaxRetries) hloop
          exact ⟨by tauto, by omega, hid, rfl, position, hfirst⟩
        · cases hsent
      · rintro ⟨-, -, -, rfl, position, hfirst⟩
        obtain ⟨tx', hloop⟩ := exec_primeV2SendLoop_firstAck size version next' hid hfirst
          (Nat.zero_add primeV2MaxRetries) (tx ++ messageReports size.bytes messageId data)
        exact ⟨_, Proc.exec_bind_ok hloop, rfl⟩

theorem Faithful.covers (h : Faithful ⟨⟨rx, tx, none⟩, size, .v2, next⟩ data)
    (hdata : data.length ≤ primeV2MaxMessageSize) (hid : next ≠ 0) {position : Nat}
    {left : List Event} (hfirst : FirstAck next data.length primeV2MaxControlFrames
      primeV2MaxRetries rx position left) : data.length ≤ position := by
  obtain ⟨h', hsent, hleft⟩ :=
    exec_primeV2SendMessage_ok.mpr ⟨rfl, hdata, hid, rfl, position, hfirst⟩
  obtain ⟨pre, hpre, hconfirms⟩ := h next h' hsent
  obtain ⟨pre', hpre', hiff⟩ := hfirst.split
  rw [hleft] at hpre
  have hsame : pre = pre' := List.append_cancel_right (hpre.symm.trans hpre')
  rw [← hiff, ← hsame]
  exact hconfirms

/-- Success is faithful exactly when the first acknowledgement the sender meets
covers the message. -/
theorem faithful_iff :
    Faithful ⟨⟨rx, tx, none⟩, size, version, next⟩ data ↔
      (version = .v2 → data.length ≤ primeV2MaxMessageSize → next ≠ 0 →
        ∀ position left, FirstAck next data.length primeV2MaxControlFrames primeV2MaxRetries rx
          position left → data.length ≤ position) := by
  constructor
  · intro h hversion hdata hid position left hfirst
    subst hversion
    exact h.covers hdata hid hfirst
  · intro h messageId h' hsent
    obtain ⟨hversion, hdata, hid, rfl, position, hfirst⟩ :=
      exec_primeV2SendMessage_ok.mp ⟨h', hsent, rfl⟩
    obtain ⟨pre, hpre, hiff⟩ := hfirst.split
    exact ⟨pre, hpre, hiff.mpr (h hversion hdata hid position _ hfirst)⟩

end Send

/-- The acknowledgement of the first window, which ends with byte 4843 on a G1,
is taken for that of a message of 5000 bytes. -/
theorem not_faithful_window :
    ¬ Faithful ⟨⟨[.ok (padRight 64 0 (ackBytes true 78 4843 1))], [], none⟩, .legacy, .v2, 1⟩
      (List.replicate 5000 0x41) := by
  intro h
  have hfirst : FirstAck 1 (List.replicate 5000 (0x41 : UInt8)).length primeV2MaxControlFrames
      primeV2MaxRetries [.ok (padRight 64 0 (ackBytes true 78 4843 1))] 4843 [] := by
    rw [List.length_replicate]
    exact .here (by decide)
  have hsmall : (List.replicate 5000 (0x41 : UInt8)).length ≤ primeV2MaxMessageSize := by
    rw [List.length_replicate]
    decide
  have hcovers := h.covers hsmall Nat.one_ne_zero hfirst
  rw [List.length_replicate] at hcovers
  omega

end Tilibs.Prime
