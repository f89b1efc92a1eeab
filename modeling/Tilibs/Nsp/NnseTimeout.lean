import Tilibs.Nsp.NnseCable

/-!
# Tilibs.Nsp.NnseTimeout

The timeout of the cable behind the NNSE operations (`nsp_nnse.cc`,
`nsp_vpkt.cc`).

Every override is undone on each way out, whatever the cable does.  What it is
set back to is what `ticables_options_set_timeout` has returned, and that is not
the previous timeout when the cable is closed or busy
(`nspNnse_restores_timeout_iff`).
-/

namespace Tilibs.Nsp.Cable

open Tilibs.Lib Proc

variable {δ α : Type}

/-- What `ticables_options_set_timeout` returns as the previous timeout. -/
def CableHandle.reported (c : CableHandle δ) : UInt32 :=
  if c.isOpen = false then -1 else if c.busy then 1 else c.timeout

/-- The cable is as it was, but for a timeout that may be set to what the cable
reported. -/
structure Restores (h h' : CalcHandle δ) : Prop where
  isOpen : h'.cable.isOpen = h.cable.isOpen
  busy : h'.cable.busy = h.cable.busy
  timeout : h'.cable.timeout = h.cable.timeout ∨ h'.cable.timeout = h.cable.reported

/-! ## The frame -/

theorem Restores.reported {h h' : CalcHandle δ} (hr : Restores h h') :
    h'.cable.reported = h.cable.reported := by
  unfold CableHandle.reported
  rw [hr.isOpen, hr.busy]
  split
  · rfl
  · split
    · rfl
    · rename_i hopen hbusy
      cases hr.timeout with
      | inl hsame => exact hsame
      | inr hreported =>
          rw [hreported, CableHandle.reported, if_neg hopen, if_neg hbusy]

instance : Std.Refl (Restores (δ := δ)) := ⟨fun _ => ⟨rfl, rfl, .inl rfl⟩⟩

instance : IsTrans (CalcHandle δ) Restores where
  trans := by
    intro h h' h'' hr hr'
    constructor
    · exact hr'.isOpen.trans hr.isOpen
    · exact hr'.busy.trans hr.busy
    · cases hr'.timeout with
      | inl hsame =>
          rw [hsame]
          exact hr.timeout
      | inr hreported =>
          right
          rw [hreported, hr.reported]

/-- A procedure that gives the timeout back, as far as the cable reports it. -/
abbrev Restoring (p : CableProc δ α) : Prop := Within Restores p

theorem exec_ticablesOptionsSetTimeout (timeout : UInt32) (h : CalcHandle δ) :
    exec (ticablesOptionsSetTimeout timeout) h
      = (.ok h.cable.reported, { h with cable := { h.cable with timeout } }) := by
  unfold ticablesOptionsSetTimeout CableHandle.reported
  rw [exec_bind_ok (exec_get h), exec_bind_ok (exec_set _ h)]
  split
  · rfl
  · split <;> rfl

/-- An override is undone on every way out of its body. -/
theorem exec_withTimeout {timeout : UInt32} {body : CableProc δ α} (hbody : Restoring body)
    (h : CalcHandle δ) :
    Restores h (exec (withTimeout timeout body) h).2 ∧
      (exec (withTimeout timeout body) h).2.cable.timeout = h.cable.reported := by
  have hacquire := exec_ticablesOptionsSetTimeout timeout h
  refine exec_bracket (P := fun t => Restores h t ∧ t.cable.timeout = h.cable.reported) hacquire
    hbody fun u hu => ?_
  refine ⟨{ u with cable := { u.cable with timeout := h.cable.reported } }, ?_, ?_⟩
  · rw [exec_bind_ok (exec_ticablesOptionsSetTimeout _ u)]
    rfl
  · exact ⟨⟨hu.isOpen, hu.busy, .inr rfl⟩, rfl⟩

theorem restoring_withTimeout {timeout : UInt32} {body : CableProc δ α} (hbody : Restoring body) :
    Restoring (withTimeout timeout body) :=
  fun h => (exec_withTimeout hbody h).1

/-! ## Steps that leave the timeout alone -/

theorem restoring_check (ret : Int) : Restoring (check ret : CableProc δ Unit) := by
  unfold check
  exact within_ite (fun _ => within_pure ()) fun _ => within_throw ret

theorem restoring_cableUsable : Restoring (cableUsable : CableProc δ Unit) := by
  refine within_bind within_get fun h => ?_
  refine within_ite (fun _ => within_throw errNotOpen) fun _ => ?_
  exact within_ite (fun _ => within_throw errBusy) fun _ => within_pure ()

/-- Protocol fields are no part of the cable. -/
theorem restoring_onHandle (p : NspProc α) : Restoring (onHandle p : CableProc δ α) := by
  refine within_bind (within_zoom fun _ => ⟨rfl, rfl, .inl rfl⟩) fun ret => ?_
  cases ret with
  | ok a => exact within_pure a
  | error e => exact within_throw (codeOf e)

/-- A state that replaces the one a procedure has read. -/
theorem restoring_get_set {p : CalcHandle δ → CableProc δ α} {f : CalcHandle δ → CalcHandle δ}
    (hf : ∀ h, Restores h (f h)) (hp : ∀ h, Restoring (p h)) :
    Restoring (do
      let h ← get
      set (f h)
      p h) := by
  intro h
  rw [exec_bind_ok (exec_get h), exec_bind_ok (exec_set (f h) h)]
  exact trans_of Restores (hf h) (hp h (f h))

section Driver

variable {fncts : CableFncts δ}

theorem restoring_cableSend (data : List UInt8) : Restoring (cableSend fncts data) := by
  refine within_bind restoring_cableUsable fun _ => ?_
  exact restoring_get_set (fun _ => ⟨rfl, rfl, .inl rfl⟩) fun _ => restoring_check _

theorem restoring_cableRecv : Restoring (cableRecv fncts) := by
  refine within_bind restoring_cableUsable fun _ => ?_
  refine restoring_get_set (fun _ => ⟨rfl, rfl, .inl rfl⟩) fun _ => ?_
  exact within_bind (restoring_check _) fun _ => within_pure _

theorem restoring_cableCheck : Restoring (cableCheck fncts) := by
  refine within_bind restoring_cableUsable fun _ => ?_
  refine restoring_get_set (fun _ => ⟨rfl, rfl, .inl rfl⟩) fun _ => ?_
  exact within_bind (restoring_check _) fun _ => within_pure _

theorem restoring_cableReset : Restoring (cableReset fncts) :=
  restoring_get_set (fun _ => ⟨rfl, rfl, .inl rfl⟩) fun _ => restoring_check _

theorem restoring_gGetMonotonicTime : Restoring (gGetMonotonicTime fncts) :=
  restoring_get_set (fun _ => ⟨rfl, rfl, .inl rfl⟩) fun _ => within_pure _

/-! ## Reading bytes -/

theorem restoring_deadlineIn (timeout : UInt32) : Restoring (deadlineIn fncts timeout) :=
  within_bind restoring_gGetMonotonicTime fun _ => within_pure _

theorem restoring_nnseBufferResync : Restoring (nnseBufferResync : CableProc δ Bool) :=
  restoring_get_set (fun _ => ⟨rfl, rfl, .inl rfl⟩) fun _ => within_pure _

theorem restoring_nnseBufferPoll (wanted : Nat) (resync : Bool) (turns deadline : Nat)
    (hadPartial : Bool) :
    Restoring (nnseBufferPoll fncts wanted resync turns deadline hadPartial) := by
  induction turns generalizing deadline hadPartial with
  | zero => exact within_throw errReadTimeout
  | succ turns ih =>
      refine within_bind within_get fun h => ?_
      refine within_ite (fun _ => within_pure ()) fun _ => ?_
      refine within_bind restoring_cableCheck fun rx => ?_
      refine within_ite (fun _ => ?_) fun _ => ?_
      · refine within_bind restoring_cableRecv fun byte => ?_
        refine within_bind (within_modify fun _ => ⟨rfl, rfl, .inl rfl⟩) fun _ => ?_
        have hstart (deadline : Nat) (c : Prop) [Decidable c] :
            Restoring (if c then deadlineIn fncts nspNnseResyncTimeout else pure deadline) :=
          within_ite (fun _ => restoring_deadlineIn _) fun _ => within_pure deadline
        refine within_bind (hstart deadline _) fun deadline => ?_
        refine within_bind ?_ fun dropped => ?_
        · exact within_ite (fun _ => restoring_nnseBufferResync) fun _ => within_pure false
        refine within_bind (hstart deadline _) fun deadline => ?_
        exact within_bind within_get fun h => ih _ _
      · refine within_bind restoring_gGetMonotonicTime fun now => ?_
        exact within_ite (fun _ => within_throw errReadTimeout) fun _ => ih _ _

theorem restoring_nnseBufferRead (turns wanted : Nat) :
    Restoring (nnseBufferRead fncts turns wanted) := by
  refine within_bind within_get fun h => ?_
  exact within_bind (restoring_deadlineIn _) fun _ => restoring_nnseBufferPoll _ _ _ _ _

theorem restoring_nnsePrefetch (n : Nat) : Restoring (nnsePrefetch fncts n) := by
  induction n with
  | zero => exact within_pure ()
  | succ n ih =>
      refine within_bind within_get fun h => ?_
      refine within_ite (fun _ => within_pure ()) fun _ => ?_
      refine within_bind (within_attempt restoring_cableCheck) fun ret => ?_
      split
      · refine within_bind (within_attempt restoring_cableRecv) fun ret => ?_
        cases ret with
        | ok byte => exact within_bind (within_modify fun _ => ⟨rfl, rfl, .inl rfl⟩) fun _ => ih
        | error e => exact within_pure ()
      · exact within_pure ()

theorem restoring_nnsePrefetchImmediate : Restoring (nnsePrefetchImmediate fncts) :=
  within_bind (restoring_nnsePrefetch _) fun _ =>
    within_bind restoring_nnseBufferResync fun _ => within_pure _

/-! ## Messages -/

theorem restoring_nnseSendMessage (m : NnseMessage) : Restoring (nnseSendMessage fncts m) := by
  unfold nnseSendMessage
  split
  · exact within_throw _
  · exact restoring_cableSend _

/-- What is left in the buffer is thrown away, or the error is passed on. -/
theorem restoring_giveUp (e : Int) (c : CalcHandle δ → Prop) [∀ h, Decidable (c h)] :
    Restoring (do
      let h ← get
      if c h then
        set { h with rxBuffer := [] }
        throw errInvalidPacket
      else throw e : CableProc δ α) := by
  intro h
  rw [exec_bind_ok (exec_get h)]
  split
  · rw [exec_bind_ok (exec_set _ h), exec_throw]
    exact ⟨rfl, rfl, .inl rfl⟩
  · exact refl_of Restores h

theorem restoring_nnseReadCandidate (turns : Nat) (form : NnseForm) :
    Restoring (nnseReadCandidate fncts turns form) := by
  refine within_bind within_get fun h => ?_
  refine within_bind (within_attempt (restoring_nnseBufferRead _ _)) fun ret => ?_
  cases ret with
  | ok => exact within_bind within_get fun h => within_pure _
  | error e => exact restoring_giveUp e _

theorem restoring_nnseTakeCandidate (form : NnseForm) :
    Restoring (nnseTakeCandidate fncts form) := by
  refine restoring_get_set (fun _ => ⟨rfl, rfl, .inl rfl⟩) fun _ => ?_
  exact within_bind restoring_nnsePrefetchImmediate fun _ => within_pure _

theorem restoring_nnseFindCandidate (turns : Nat) : Restoring (nnseFindCandidate fncts turns) := by
  refine within_bind within_get fun h => ?_
  refine within_bind ?_ fun _ => ?_
  · exact within_ite (fun _ => restoring_nnseBufferRead _ _) fun _ => within_pure ()
  refine within_bind within_get fun h => ?_
  have hread (form : NnseForm) : Restoring (do
      if ← nnseReadCandidate fncts turns form then pure (some form) else pure none) :=
    within_bind (restoring_nnseReadCandidate turns form) fun _ =>
      within_ite (fun _ => within_pure _) fun _ => within_pure _
  refine within_ite (fun _ => hread .full) fun _ => ?_
  exact within_ite (fun _ => hread .compact) fun _ => within_pure none

theorem restoring_nnseSkipByte (turns : Nat) : Restoring (nnseSkipByte fncts turns) := by
  refine within_bind (within_modify fun _ => ⟨rfl, rfl, .inl rfl⟩) fun _ => ?_
  refine within_bind within_get fun h => ?_
  refine within_ite (fun _ => ?_) fun _ => within_pure ()
  have hread : Restoring (nnseBufferReadWithTimeout fncts turns nspNnseHeaderSize
      nspNnseResyncTimeout) :=
    restoring_withTimeout (restoring_nnseBufferRead _ _)
  refine within_bind (within_attempt hread) fun ret => ?_
  cases ret with
  | ok => exact within_pure ()
  | error e => exact restoring_giveUp e _

theorem restoring_nnseRecvLoop (turns skips : Nat) : Restoring (nnseRecvLoop fncts turns skips) := by
  induction skips with
  | zero =>
      refine within_bind (restoring_nnseFindCandidate turns) fun found => ?_
      cases found with
      | some form => exact restoring_nnseTakeCandidate form
      | none => exact within_throw errInvalidPacket
  | succ skips ih =>
      refine within_bind (restoring_nnseFindCandidate turns) fun found => ?_
      cases found with
      | some form => exact restoring_nnseTakeCandidate form
      | none => exact within_bind (restoring_nnseSkipByte turns) fun _ => ih

theorem restoring_nnseRecvMessage (turns : Nat) : Restoring (nnseRecvMessage fncts turns) := by
  refine within_bind (within_attempt (restoring_nnseBufferRead _ _)) fun ret => ?_
  cases ret with
  | ok => exact restoring_nnseRecvLoop _ _
  | error e => exact restoring_giveUp e _

theorem restoring_recvWithTimeout (turns : Nat) (timeout : UInt32) :
    Restoring (withTimeout timeout (nnseRecvMessage fncts turns)) :=
  restoring_withTimeout (restoring_nnseRecvMessage turns)

/-! ## Answering messages -/

theorem restoring_setHandshakeDone (done : Bool) :
    Restoring (setHandshakeDone done : CableProc δ Unit) :=
  within_modify fun _ => ⟨rfl, rfl, .inl rfl⟩

theorem restoring_nnseClearBuffers : Restoring (nnseClearBuffers : CableProc δ Unit) :=
  within_modify fun _ => ⟨rfl, rfl, .inl rfl⟩

theorem restoring_nnseClearStreamHistory : Restoring (nnseClearStreamHistory : CableProc δ Unit) :=
  within_modify fun _ => ⟨rfl, rfl, .inl rfl⟩

theorem restoring_nnseSendPlain (service dest : UInt8) (payload : List UInt8) :
    Restoring (nnseSendPlain fncts service dest payload) :=
  within_bind (restoring_onHandle _) fun _ => restoring_nnseSendMessage _

theorem restoring_nnseSendAddrResponseTwice : Restoring (nnseSendAddrResponseTwice fncts) :=
  within_bind (restoring_nnseSendPlain _ _ _) fun _ => restoring_nnseSendPlain _ _ _

theorem restoring_nnseAcknowledge (m : NnseMessage) : Restoring (nnseAcknowledge fncts m) :=
  within_ite (fun _ => restoring_nnseSendMessage _) fun _ => within_pure ()

theorem restoring_nnseHandleAddrReq (m : NnseMessage) : Restoring (nnseHandleAddrReq fncts m) := by
  refine within_ite (fun _ => within_pure ()) fun _ => ?_
  refine within_bind (within_attempt restoring_nnseSendAddrResponseTwice) fun ret => ?_
  exact within_bind (restoring_setHandshakeDone false) fun _ => within_ofExcept ret

theorem restoring_nnseHandleTime (m : NnseMessage) : Restoring (nnseHandleTime fncts m) := by
  refine within_ite (fun _ => within_pure ()) fun _ => ?_
  refine within_bind within_get fun h => ?_
  exact within_bind (restoring_nnseSendPlain _ _ _) fun _ => restoring_setHandshakeDone true

theorem restoring_nnseHandleStreamCtrl (m : NnseMessage) :
    Restoring (nnseHandleStreamCtrl fncts m) := by
  refine within_ite (fun _ => restoring_nnseSendPlain _ _ _) fun _ => ?_
  refine within_ite (fun _ => ?_) fun _ => ?_
  · refine within_bind restoring_nnseClearBuffers fun _ => ?_
    exact within_bind restoring_nnseClearStreamHistory fun _ => restoring_nnseSendPlain _ _ _
  · exact within_ite (fun _ => restoring_nnseSendPlain _ _ _) fun _ => within_pure ()

theorem restoring_nnseHandleMessage (m : NnseMessage) : Restoring (nnseHandleMessage fncts m) := by
  refine within_ite (fun _ => within_pure false) fun _ => ?_
  refine within_bind (restoring_nnseAcknowledge m) fun _ => ?_
  refine within_bind ?_ fun _ => within_pure _
  refine within_ite (fun _ => restoring_nnseHandleAddrReq m) fun _ => ?_
  refine within_ite (fun _ => restoring_nnseHandleTime m) fun _ => ?_
  exact within_ite (fun _ => restoring_nnseHandleStreamCtrl m) fun _ => within_pure ()

/-! ## The handshake -/

theorem restoring_nnseProcessHandshakeMessages (turns : Nat) (timeout : UInt32) (n : Nat)
    (ret : Except Int Unit) :
    Restoring (nnseProcessHandshakeMessages fncts turns timeout n ret) := by
  induction n generalizing ret with
  | zero => exact within_ofExcept ret
  | succ n ih =>
      refine within_bind within_get fun h => ?_
      refine within_ite (fun _ => within_ofExcept ret) fun _ => ?_
      refine within_bind (within_attempt (restoring_recvWithTimeout _ _)) fun received => ?_
      cases received with
      | error e => exact within_ite (fun _ => ih _) fun _ => within_throw e
      | ok m => exact within_bind (restoring_nnseHandleMessage m) fun _ => ih _

theorem restoring_timeoutIsNone {body : CableProc δ Unit} (hbody : Restoring body) :
    Restoring (timeoutIsNone body) := by
  refine within_bind (within_attempt hbody) fun ret => ?_
  cases ret with
  | ok => exact within_pure ()
  | error e => exact within_ite (fun _ => within_pure ()) fun _ => within_throw e

theorem restoring_nnseProvokeHandshake (turns : Nat) :
    Restoring (nnseProvokeHandshake fncts turns) := by
  have hprocess : Restoring (nnseProcessHandshakeMessages fncts turns nspNnseHandshakeTimeout
      nspNnseMaxIterations (.ok ())) := restoring_nnseProcessHandshakeMessages _ _ _ _
  refine within_bind restoring_cableReset fun _ => ?_
  refine within_bind (restoring_timeoutIsNone (restoring_withTimeout hprocess)) fun _ => ?_
  refine within_bind within_get fun h => ?_
  refine within_ite (fun _ => within_pure ()) fun _ => ?_
  exact within_bind restoring_nnseSendAddrResponseTwice fun _ => restoring_timeoutIsNone hprocess

theorem restoring_nspNnseEnsureReady (turns : Nat) : Restoring (nspNnseEnsureReady fncts turns) := by
  refine within_bind within_get fun h => ?_
  refine within_ite (fun _ => within_pure ()) fun _ => ?_
  refine within_bind restoring_nnseSendAddrResponseTwice fun _ => ?_
  refine within_bind (restoring_timeoutIsNone (restoring_withTimeout
    (restoring_nnseProcessHandshakeMessages _ _ _ _))) fun _ => ?_
  refine within_bind within_get fun h => ?_
  refine within_bind ?_ fun _ => restoring_setHandshakeDone true
  exact within_ite (fun _ => within_pure ()) fun _ => restoring_nnseProvokeHandshake turns

theorem restoring_nnseWaitResetLoop (turns : Nat) (resetSeqno : UInt16) (n : Nat)
    (progress : ResetProgress) :
    Restoring (nnseWaitResetLoop fncts turns resetSeqno n progress) := by
  induction n generalizing progress with
  | zero => exact within_throw errReadTimeout
  | succ n ih =>
      refine within_bind (within_attempt (restoring_recvWithTimeout _ _)) fun received => ?_
      cases received with
      | error e =>
          refine within_ite (fun _ => ih _) fun _ => ?_
          exact within_ite (fun _ => within_pure ()) fun _ => within_throw e
      | ok m =>
          refine within_ite (fun _ => ih _) fun _ => ?_
          refine within_bind (restoring_nnseHandleMessage m) fun _ => ?_
          refine within_bind within_get fun h => ?_
          refine within_ite (fun _ => ?_) fun _ => ih _
          exact within_bind restoring_nnseClearBuffers fun _ => restoring_nnseClearStreamHistory

theorem restoring_nspNnseReassociateNext (turns : Nat) :
    Restoring (nspNnseReassociateNext fncts turns) := by
  refine within_bind restoring_nnseClearBuffers fun _ => ?_
  refine within_bind restoring_nnseClearStreamHistory fun _ => ?_
  refine within_bind within_get fun h => ?_
  refine within_ite (fun _ => ?_) fun _ => restoring_setHandshakeDone false
  refine within_bind (restoring_onHandle _) fun resetSeqno => ?_
  refine within_bind (within_attempt (restoring_nnseSendMessage _)) fun ret => ?_
  cases ret with
  | error e => exact within_pure ()
  | ok =>
      refine within_bind (within_attempt ?_) fun _ => within_pure ()
      exact within_bind (restoring_setHandshakeDone false) fun _ => restoring_nnseWaitResetLoop _ _ _ _

/-! ## Streams -/

theorem restoring_nnseSendHandleMessage (m : NnseMessage) (reassociated : Bool) :
    Restoring (nnseSendHandleMessage fncts m reassociated) := by
  refine within_bind (restoring_nnseHandleMessage m) fun isStream => ?_
  refine within_bind within_get fun h => ?_
  refine within_ite (fun _ => within_pure false) fun _ => ?_
  refine within_bind (restoring_onHandle _) fun queued => ?_
  refine within_ite (fun _ => ?_) fun _ => within_pure false
  exact within_bind (restoring_onHandle _) fun _ => within_pure true

theorem restoring_nnseWaitStreamAck (turns : Nat) (seqno : UInt16) (n : Nat)
    (reassociated : Bool) :
    Restoring (nnseWaitStreamAck fncts turns seqno n reassociated) := by
  induction n generalizing reassociated with
  | zero => exact within_pure _
  | succ n ih =>
      refine within_bind within_get fun h => ?_
      refine within_bind (within_attempt (restoring_recvWithTimeout _ _)) fun received => ?_
      cases received with
      | error e =>
          refine within_ite (fun _ => ih _) fun _ => ?_
          exact within_ite (fun _ => within_pure _) fun _ => within_throw e
      | ok m =>
          refine within_ite (fun _ => within_pure _) fun _ => ?_
          refine within_bind (restoring_nnseSendHandleMessage m _) fun kept => ?_
          refine within_bind within_get fun h => ?_
          refine within_ite (fun _ => within_pure _) fun _ => ?_
          exact within_ite (fun _ => within_pure _) fun _ => ih _

theorem restoring_nnseSendAttempts (turns : Nat) (seqno : UInt16) (data : List UInt8) (n : Nat) :
    Restoring (nnseSendAttempts fncts turns seqno data n) := by
  induction n with
  | zero => exact within_throw errNack
  | succ n ih =>
      refine within_bind (restoring_nnseSendMessage _) fun _ => ?_
      refine within_bind (restoring_nnseWaitStreamAck _ _ _ _) fun wait => ?_
      exact within_ite (fun _ => within_pure ()) fun _ => ih

theorem restoring_nspNnseSendStream (turns : Nat) (data : List UInt8) :
    Restoring (nspNnseSendStream fncts turns data) := by
  refine within_bind (restoring_nspNnseEnsureReady turns) fun _ => ?_
  refine within_bind (restoring_onHandle _) fun seqno => ?_
  exact within_ite (fun _ => restoring_nnseSendMessage _) fun _ => restoring_nnseSendAttempts _ _ _ _

theorem restoring_nnseRecvStreamLoop (turns maxsize n : Nat) (reassociated : Bool)
    (resyncFragments : Nat) :
    Restoring (nnseRecvStreamLoop fncts turns maxsize n reassociated resyncFragments) := by
  induction n generalizing reassociated resyncFragments with
  | zero => exact within_throw _
  | succ n ih =>
      refine within_bind (within_attempt (restoring_nnseRecvMessage turns)) fun received => ?_
      cases received with
      | error e =>
          refine within_ite (fun _ => ?_) fun _ => within_throw e
          exact within_ite (fun _ => within_throw errReadTimeout) fun _ => ih _ _
      | ok m =>
          refine within_bind (restoring_nnseHandleMessage m) fun isStream => ?_
          refine within_bind within_get fun h => ?_
          refine within_ite (fun _ => ?_) fun _ => ?_
          · refine within_ite (fun _ => ih _ _) fun _ => ?_
            refine within_ite (fun _ => within_throw errInvalidPacket) fun _ => ?_
            exact within_bind (restoring_onHandle _) fun _ => within_pure _
          · exact within_ite (fun _ => within_throw errReadTimeout) fun _ => ih _ _

theorem restoring_nspNnseRecvStream (turns maxsize : Nat) :
    Restoring (nspNnseRecvStream fncts turns maxsize) := by
  refine within_bind (restoring_nspNnseEnsureReady turns) fun _ => ?_
  refine within_bind within_get fun h => ?_
  refine within_bind (restoring_onHandle _) fun pending => ?_
  cases pending with
  | some payload => exact within_pure payload
  | none =>
      refine within_bind within_get fun h => ?_
      exact restoring_withTimeout (restoring_nnseRecvStreamLoop _ _ _ _ _)

/-! ## Raw packets -/

theorem restoring_nspNnseSendControlForParsed (turns : Nat) (pkt : NSPParsedRawPacket)
    (controlPort : UInt16) :
    Restoring (nspNnseSendControlForParsed fncts turns pkt controlPort) := by
  unfold nspNnseSendControlForParsed
  split
  · exact within_throw _
  · exact restoring_nspNnseSendStream turns _

theorem restoring_nspNnseHandleStalePacket (turns : Nat) (pkt : NSPParsedRawPacket) :
    Restoring (nspNnseHandleStalePacket fncts turns pkt) := by
  refine within_ite (fun _ => within_pure ()) fun _ => ?_
  exact within_ite (fun _ => restoring_nspNnseSendControlForParsed _ _ _)
    fun _ => restoring_nspNnseSendControlForParsed _ _ _

theorem restoring_nspNnseQueueTrailingPackets (turns n : Nat) (msg : List UInt8) :
    Restoring (nspNnseQueueTrailingPackets fncts turns n msg) := by
  induction n generalizing msg with
  | zero => exact within_pure ()
  | succ n ih =>
      refine within_ite (fun _ => within_pure ()) fun _ => ?_
      split
      · exact within_pure ()
      · refine within_bind within_get fun h => ?_
        refine within_bind ?_ fun _ => ih _
        exact within_ite (fun _ => restoring_onHandle _)
          fun _ => restoring_nspNnseHandleStalePacket turns _

theorem restoring_nspNnseRecvRawPacket (turns n : Nat) :
    Restoring (nspNnseRecvRawPacket fncts turns n) := by
  induction n with
  | zero => exact within_throw errReadTimeout
  | succ n ih =>
      refine within_bind (restoring_nspNnseRecvStream _ _) fun msg => ?_
      split
      · exact ih
      · refine within_bind (restoring_nspNnseQueueTrailingPackets _ _ _) fun _ => ?_
        refine within_bind within_get fun h => ?_
        refine within_ite (fun _ => ?_) fun _ => ?_
        · refine within_bind (restoring_nspNnseHandleStalePacket turns _) fun _ => ?_
          refine within_bind ?_ fun _ => ih
          exact within_ite (fun _ => within_pure ()) fun _ => restoring_onHandle _
        · exact within_bind (restoring_onHandle _) fun _ => within_pure _

theorem restoring_nspNnseDrainLoop (turns n : Nat) :
    Restoring (nspNnseDrainLoop fncts turns n) := by
  induction n with
  | zero => exact within_pure ()
  | succ n ih =>
      refine within_bind (within_attempt (restoring_nspNnseRecvRawPacket _ _)) fun received => ?_
      cases received with
      | error e =>
          refine within_ite (fun _ => within_pure ()) fun _ => ?_
          exact within_ite (fun _ => ih) fun _ => within_throw e
      | ok pkt => exact within_bind (restoring_nspNnseHandleStalePacket turns pkt) fun _ => ih

end Driver

/-! ## The operations -/

/-- What the rest of the library calls, and the helpers with an override. -/
inductive NnseOperation
  | bufferReadWithTimeout (wanted : Nat) (timeout : UInt32)
  | recvMessage
  | processHandshakeMessages (timeout : UInt32)
  | waitStreamControlReset (resetSeqno : UInt16)
  | ensureReady
  | reassociateNext
  | sendStream (data : List UInt8)
  | recvStream (maxsize : Nat)
  | recvRawPacket
  | drainAfterClose

/-- The handle behind an operation, whatever it returns. -/
def NnseOperation.run (fncts : CableFncts δ) (turns : Nat) (h : CalcHandle δ) :
    NnseOperation → CalcHandle δ
  | bufferReadWithTimeout wanted timeout =>
      (exec (nnseBufferReadWithTimeout fncts turns wanted timeout) h).2
  | recvMessage => (exec (nnseRecvMessage fncts turns) h).2
  | processHandshakeMessages timeout =>
      (exec (nnseProcessHandshakeMessages fncts turns timeout nspNnseMaxIterations (.ok ())) h).2
  | waitStreamControlReset resetSeqno =>
      (exec (nnseWaitStreamControlReset fncts turns resetSeqno) h).2
  | ensureReady => (exec (nspNnseEnsureReady fncts turns) h).2
  | reassociateNext => (exec (nspNnseReassociateNext fncts turns) h).2
  | sendStream data => (exec (nspNnseSendStream fncts turns data) h).2
  | recvStream maxsize => (exec (nspNnseRecvStream fncts turns maxsize) h).2
  | recvRawPacket => (exec (nspNnseRecvRawPacket fncts turns turns) h).2
  | drainAfterClose => (exec (nspNnseDrainAfterClose fncts turns) h).2

theorem NnseOperation.restores (fncts : CableFncts δ) (turns : Nat) (h : CalcHandle δ)
    (op : NnseOperation) : Restores h (op.run fncts turns h) := by
  cases op with
  | bufferReadWithTimeout wanted timeout =>
      exact restoring_withTimeout (restoring_nnseBufferRead turns wanted) h
  | recvMessage => exact restoring_nnseRecvMessage turns h
  | processHandshakeMessages timeout =>
      exact restoring_nnseProcessHandshakeMessages turns timeout _ _ h
  | waitStreamControlReset resetSeqno =>
      exact within_bind (restoring_setHandshakeDone false)
        (fun _ => restoring_nnseWaitResetLoop turns resetSeqno _ _) h
  | ensureReady => exact restoring_nspNnseEnsureReady turns h
  | reassociateNext => exact restoring_nspNnseReassociateNext turns h
  | sendStream data => exact restoring_nspNnseSendStream turns data h
  | recvStream maxsize => exact restoring_nspNnseRecvStream turns maxsize h
  | recvRawPacket => exact restoring_nspNnseRecvRawPacket turns turns h
  | drainAfterClose => exact restoring_withTimeout (restoring_nspNnseDrainLoop turns _) h

theorem CableHandle.reported_eq_timeout_iff (c : CableHandle δ) :
    c.reported = c.timeout ↔
      c.isOpen ∧ ¬ c.busy ∨ ¬ c.isOpen ∧ c.timeout = -1 ∨
        c.isOpen ∧ c.busy ∧ c.timeout = 1 := by
  obtain ⟨timeout, isOpen, busy, device⟩ := c
  cases isOpen with
  | false => simp [reported, eq_comm]
  | true =>
      cases busy with
      | false => simp [reported]
      | true => simp [reported, eq_comm]

/-- A driver that delivers nothing. -/
def silentDriver (δ : Type) : CableFncts δ where
  send _ _ device := (0, device)
  recv _ device := (errReadTimeout, 0, device)
  check device := (0, false, device)
  reset device := (0, device)
  clock device := (0, device)

/-- Whatever the cable does, every operation leaves the timeout as it was, provided
that the cable is open and not busy (or has the timeout that is reported for one that is
not). -/
theorem nspNnse_restores_timeout_iff (h : CalcHandle δ) :
    (∀ (fncts : CableFncts δ) (turns : Nat) (op : NnseOperation),
      (op.run fncts turns h).cable.timeout = h.cable.timeout) ↔
      h.cable.isOpen ∧ ¬ h.cable.busy ∨ ¬ h.cable.isOpen ∧ h.cable.timeout = -1 ∨
        h.cable.isOpen ∧ h.cable.busy ∧ h.cable.timeout = 1 := by
  rw [← CableHandle.reported_eq_timeout_iff]
  constructor
  · intro hall
    have hloop : Restoring (nspNnseDrainLoop (silentDriver δ) 0 nspNnseCloseDrainMax) :=
      restoring_nspNnseDrainLoop 0 _
    have hdrain : (exec (nspNnseDrainAfterClose (silentDriver δ) 0) h).2.cable.timeout
        = h.cable.reported := (exec_withTimeout hloop h).2
    exact hdrain.symm.trans (hall (silentDriver δ) 0 .drainAfterClose)
  · intro hreported fncts turns op
    cases (op.restores fncts turns h).timeout with
    | inl hsame => exact hsame
    | inr hback => exact hback.trans hreported

/-- The calculator is associated and its cable has been closed: a receive is
refused, and leaves no timeout at all. -/
theorem nspNnseRecvStream_loses_timeout :
    ((NnseOperation.recvStream nspNnseMaxPayload).run (silentDriver Unit) 1
      { nsp := { NspHandle.new true with handshakeDone := true }
        rxBuffer := []
        isOpen := true
        cable := ⟨15, false, false, ()⟩ }).cable.timeout = -1 := by
  decide

end Tilibs.Nsp.Cable
