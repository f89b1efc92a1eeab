import Tilibs.Nsp.Packet

/-!
# Tilibs.Nsp.Nnse

NNSE, the transport of NavNet packets to a CX II (`nsp_nnse.cc`).

Stream messages carry the packets and are acknowledged one by one.  A stream
message that arrives while the sender waits for an acknowledgement is kept in a
list, which the receiver empties before it looks at the cable again.

The model begins where `nnse_recv_message` has found the next message, or has
returned an error.
-/

namespace Tilibs.Nsp

open Tilibs.Lib

/-! ## Constants -/

def nspNnseAddrAll : UInt8 := 0xFF
def nspNnseAddrPc : UInt8 := 0xFE
def nspNnseAddrCalc : UInt8 := 0x01

def nspNnseSrvAddrReq : UInt8 := 0x01
def nspNnseSrvTime : UInt8 := 0x02
def nspNnseSrvStream : UInt8 := 0x04
def nspNnseSrvStreamCtrl : UInt8 := 0x08
def nspNnseSrvAckFlag : UInt8 := 0x80

def nspNnseStreamCtrlStatus : UInt8 := 0x00
def nspNnseStreamCtrlStart : UInt8 := 0x01
def nspNnseStreamCtrlReset : UInt8 := 0x02

def nspNnseMaxPayload : Nat := 1472
def nspNnseMaxIterations : Nat := 10
def nspNnseSendRetries : Nat := 5
def nspNnseMaxResyncFragments : Nat := 2
def nspNnseMaxPending : Nat := 64

/-! ## The handle -/

structure NnseMessage where
  misc : UInt8
  service : UInt8
  src : UInt8
  dest : UInt8
  unknown : UInt8
  reqack : UInt8
  seqno : UInt16
  payload : List UInt8
  deriving DecidableEq

/-- What a read of the cable ends with. -/
abbrev NnseEvent := Except NspErr NnseMessage

/-- The part of the handle the protocol uses.  A calculator without NNSE is
read and written through `cable`, one with it through `link`; `now` is what
`time` returns, and `cableReset` what resetting the cable does. -/
structure NspHandle where
  nnse : Bool
  cable : Port UInt8 UInt8
  link : Port NnseEvent NnseMessage
  srcPort : UInt16
  dstPort : UInt16
  passivePort : UInt16
  seq : UInt8
  seqPc : UInt8
  pendingCmd : UInt8
  pendingStatus : Option UInt8
  handshakeDone : Bool
  nnseSeqno : UInt16
  lastStreamSeqno : Option UInt16
  pending : List (List UInt8)
  now : Nat
  cableReset : Except NspErr Unit

/-- The handle as `ticalcs_handle_new` leaves it, with a link that has nothing
to deliver. -/
def NspHandle.new (nnse : Bool) : NspHandle where
  nnse := nnse
  cable := ⟨[], [], none⟩
  link := ⟨[], [], none⟩
  srcPort := 0x8001
  dstPort := nspPortAddrRequest
  passivePort := 0
  seq := 0
  seqPc := 0
  pendingCmd := 0
  pendingStatus := none
  handshakeDone := false
  nnseSeqno := 0
  lastStreamSeqno := none
  pending := []
  now := 0
  cableReset := .ok ()

abbrev NspProc := Proc NspHandle NspErr

/-! ## Ports -/

def NspHandle.portMatches (h : NspHandle) (dstPort : UInt16) : Bool :=
  dstPort = h.srcPort || dstPort = nspPortLogin || (h.passivePort ≠ 0 && dstPort = h.passivePort)

def NspHandle.streamIsForCurrentPort (h : NspHandle) (payload : List UInt8) : Bool :=
  payload.length < 16 || h.portMatches (getWord payload 8)

def nnseStreamRequiresAck (data : List UInt8) : Bool :=
  data.length < nspHeaderSize || data.getD 0 0 ≠ 0x54 || data.getD 1 0 ≠ 0xFD ||
    getWord data 8 ≠ nspPortKeypresses

/-! ## Messages -/

def nnseSendMessage (m : NnseMessage) : NspProc Unit := do
  let h ← get
  if nspNnseMaxPayload < m.payload.length then throw .invalidPacket
  else
    match h.link.send m with
    | some link => set { h with link := link }
    | none => throw .writeError

def nnseRecvMessage : NspProc NnseEvent := do
  let h ← get
  match h.link.recv with
  | some (event, link) =>
      set { h with link := link }
      pure event
  | none => pure (.error .readTimeout)

section Message

variable {h : NspHandle} {rx : List NnseEvent} {tx : List NnseMessage}

theorem exec_nnseSendMessage (h : NspHandle) (m : NnseMessage) (hlink : h.link = ⟨rx, tx, none⟩)
    (hfits : m.payload.length ≤ nspNnseMaxPayload) :
    Proc.exec (nnseSendMessage m) h = (.ok (), { h with link := ⟨rx, tx ++ [m], none⟩ }) := by
  simp [nnseSendMessage, Proc.exec_bind, Nat.not_lt.mpr hfits, hlink]

theorem exec_nnseRecvMessage_cons {event : NnseEvent} (hlink : h.link = ⟨event :: rx, tx, none⟩) :
    Proc.exec nnseRecvMessage h = (.ok event, { h with link := ⟨rx, tx, none⟩ }) := by
  simp [nnseRecvMessage, Proc.exec_bind, hlink, Except.map]

theorem exec_nnseRecvMessage_nil (hlink : h.link = ⟨[], tx, none⟩) :
    Proc.exec nnseRecvMessage h = (.ok (.error .readTimeout), h) := by
  simp [nnseRecvMessage, Proc.exec_bind, hlink]

end Message

def nnseNextSeqno : NspProc UInt16 := do
  let h ← get
  set { h with nnseSeqno := h.nnseSeqno + 1 }
  pure h.nnseSeqno

theorem exec_nnseNextSeqno (h : NspHandle) :
    Proc.exec nnseNextSeqno h = (.ok h.nnseSeqno, { h with nnseSeqno := h.nnseSeqno + 1 }) := by
  simp [nnseNextSeqno, Proc.exec_bind, Except.map]

/-- A message of ours that asks for no acknowledgement. -/
def nnseSendPlain (service dest : UInt8) (payload : List UInt8) : NspProc Unit := do
  let seqno ← nnseNextSeqno
  nnseSendMessage ⟨0, service, nspNnseAddrPc, dest, 0, 0, seqno, payload⟩

def nnseSendAddrResponseTwice : NspProc Unit := do
  nnseSendPlain nspNnseSrvAddrReq nspNnseAddrCalc [0x80]
  nnseSendPlain nspNnseSrvAddrReq nspNnseAddrCalc [0x80]

def nnseSendStreamControlStatus (dest control status : UInt8) : NspProc Unit :=
  nnseSendPlain nspNnseSrvStreamCtrl dest [control ||| 0x80, status]

/-! ## Answering messages -/

def NnseMessage.addressed (m : NnseMessage) : Bool :=
  m.dest = nspNnseAddrPc || m.dest = nspNnseAddrAll

def NnseMessage.isAck (m : NnseMessage) : Bool := m.service &&& nspNnseSrvAckFlag ≠ 0

/-- Acknowledge a message, if it asks for that. -/
def nnseAcknowledge (m : NnseMessage) : NspProc Unit :=
  if m.reqack &&& 1 ≠ 0 then
    nnseSendMessage ⟨m.misc, m.service ||| nspNnseSrvAckFlag, m.dest, m.src, m.unknown,
      m.reqack &&& 0xFE, m.seqno, []⟩
  else pure ()

def nnseHandleStreamCtrl (m : NnseMessage) : NspProc Unit :=
  if m.payload = [nspNnseStreamCtrlStart] then
    nnseSendStreamControlStatus m.src nspNnseStreamCtrlStart 0x03
  else if m.payload = [nspNnseStreamCtrlReset] then do
    modify fun h => { h with pending := [], lastStreamSeqno := none }
    nnseSendStreamControlStatus m.src nspNnseStreamCtrlReset 0x00
  else if m.payload = [nspNnseStreamCtrlStatus] then
    nnseSendStreamControlStatus m.src nspNnseStreamCtrlStatus 0x00
  else pure ()

/-- Answer a message; the result says whether it carries a stream payload. -/
def nnseHandleMessage (m : NnseMessage) : NspProc Bool := do
  if ¬ m.addressed ∨ m.isAck then pure false
  else
    nnseAcknowledge m
    if m.service = nspNnseSrvAddrReq then
      if m.payload.length < 1 ∨ m.payload.getD 0 0 ≠ 0x00 then pure false
      else
        nnseSendAddrResponseTwice
        -- the calculator has restarted
        modify fun h => { h with handshakeDone := false }
        pure false
    else if m.service = nspNnseSrvTime then
      if m.payload.length < 1 ∨ m.payload.getD 0 0 ≠ 0x00 then pure false
      else
        let h ← get
        nnseSendPlain m.service nspNnseAddrCalc (0x80 :: putBE 4 h.now ++ List.replicate 12 0)
        modify fun h => { h with handshakeDone := true }
        pure false
    else if m.service = nspNnseSrvStreamCtrl then
      nnseHandleStreamCtrl m
      pure false
    else pure (decide (m.service = nspNnseSrvStream))

/-- The message carries a stream payload for us. -/
def NnseMessage.carriesStream (m : NnseMessage) : Bool :=
  m.addressed && m.service = nspNnseSrvStream

/-- The message does not start the association or the stream over. -/
def NnseMessage.Quiet (m : NnseMessage) : Prop :=
  m.service ≠ nspNnseSrvAddrReq ∧
    ¬ (m.service = nspNnseSrvStreamCtrl ∧ m.payload = [nspNnseStreamCtrlReset])

section Handle

variable {h : NspHandle} {rx : List NnseEvent} {tx : List NnseMessage} {m : NnseMessage}

theorem exec_nnseSendPlain (h : NspHandle) (service dest : UInt8) (payload : List UInt8)
    (hlink : h.link = ⟨rx, tx, none⟩) (hfits : payload.length ≤ nspNnseMaxPayload) :
    Proc.exec (nnseSendPlain service dest payload) h =
      (.ok (), { h with
        link := ⟨rx, tx ++ [⟨0, service, nspNnseAddrPc, dest, 0, 0, h.nnseSeqno, payload⟩], none⟩
        nnseSeqno := h.nnseSeqno + 1 }) := by
  rw [nnseSendPlain, Proc.exec_bind_ok (exec_nnseNextSeqno h)]
  exact exec_nnseSendMessage { h with nnseSeqno := h.nnseSeqno + 1 } _ hlink hfits

theorem exec_nnseAcknowledge (hlink : h.link = ⟨rx, tx, none⟩) :
    ∃ tx', Proc.exec (nnseAcknowledge m) h = (.ok (), { h with link := ⟨rx, tx', none⟩ }) := by
  unfold nnseAcknowledge
  split
  · exact ⟨_, exec_nnseSendMessage h _ hlink (Nat.zero_le _)⟩
  · refine ⟨tx, ?_⟩
    rw [Proc.exec_pure, ← hlink]

theorem exec_nnseHandleStreamCtrl (h : NspHandle) (hlink : h.link = ⟨rx, tx, none⟩)
    (hreset : m.payload ≠ [nspNnseStreamCtrlReset]) :
    ∃ tx' seqno, Proc.exec (nnseHandleStreamCtrl m) h =
      (.ok (), { h with link := ⟨rx, tx', none⟩, nnseSeqno := seqno }) := by
  unfold nnseHandleStreamCtrl nnseSendStreamControlStatus
  split
  · exact ⟨_, _, exec_nnseSendPlain h _ _ _ hlink (by decide)⟩
  · split
    · exact ⟨_, _, exec_nnseSendPlain h _ _ _ hlink (by decide)⟩
    · refine ⟨tx, h.nnseSeqno, ?_⟩
      rw [Proc.exec_pure, ← hlink]

/-- A quiet message is answered, and changes nothing else. -/
theorem exec_nnseHandleMessage (hready : h.handshakeDone = true) (hquiet : m.Quiet)
    (hlink : h.link = ⟨rx, tx, none⟩) :
    ∃ tx' seqno, Proc.exec (nnseHandleMessage m) h =
      (.ok m.carriesStream, { h with link := ⟨rx, tx', none⟩, nnseSeqno := seqno }) := by
  obtain ⟨haddrReq, hreset⟩ := hquiet
  obtain ⟨tx₁, hack⟩ := exec_nnseAcknowledge hlink
  unfold nnseHandleMessage NnseMessage.carriesStream
  by_cases hignored : ¬ m.addressed ∨ m.isAck
  · rw [if_pos hignored, Proc.exec_pure]
    refine ⟨tx, h.nnseSeqno, ?_⟩
    have hnone : (m.addressed && m.service = nspNnseSrvStream) = false := by
      cases hignored with
      | inl hother => simp [hother]
      | inr hkind =>
          have hservice : m.service ≠ nspNnseSrvStream := by
            intro hstream
            rw [NnseMessage.isAck, hstream] at hkind
            contradiction
          simp [hservice]
    rw [hnone, ← hlink]
  · rw [if_neg hignored, Proc.exec_bind_ok hack, if_neg haddrReq]
    obtain ⟨haddressed, -⟩ := not_or.mp hignored
    rw [not_not] at haddressed
    by_cases htime : m.service = nspNnseSrvTime
    · have hnone : (m.addressed && m.service = nspNnseSrvStream) = false := by
        rw [htime, haddressed]
        decide
      rw [if_pos htime, hnone]
      split
      · exact ⟨tx₁, h.nnseSeqno, rfl⟩
      · rw [Proc.exec_bind_ok (Proc.exec_get _)]
        have hsend := exec_nnseSendPlain { h with link := ⟨rx, tx₁, none⟩ } m.service
          nspNnseAddrCalc (0x80 :: putBE 4 h.now ++ List.replicate 12 0) rfl (by simp [nspNnseMaxPayload])
        rw [Proc.exec_bind_ok hsend, ← hready]
        exact ⟨_, _, rfl⟩
    · rw [if_neg htime]
      by_cases hctrl : m.service = nspNnseSrvStreamCtrl
      · have hnone : (m.addressed && m.service = nspNnseSrvStream) = false := by
          rw [hctrl, haddressed]
          decide
        obtain ⟨tx₂, seqno, hstatus⟩ := exec_nnseHandleStreamCtrl
          { h with link := ⟨rx, tx₁, none⟩ } rfl (fun hpayload => hreset ⟨hctrl, hpayload⟩)
        rw [if_pos hctrl, hnone, Proc.exec_bind_ok hstatus]
        exact ⟨tx₂, seqno, rfl⟩
      · rw [if_neg hctrl, haddressed, Bool.true_and]
        exact ⟨tx₁, h.nnseSeqno, rfl⟩

end Handle

/-! ## The handshake -/

/-- The loop of `nnse_process_handshake_messages`; `ret` is what it returns
when it ends here. -/
def nnseProcessHandshakeMessages : Nat → Except NspErr Unit → NspProc Unit
  | 0, ret => Proc.ofExcept ret
  | n + 1, ret => do
      let h ← get
      if h.handshakeDone then Proc.ofExcept ret
      else
        match ← nnseRecvMessage with
        | .error e =>
            if e = .invalidPacket ∨ e = .checksum then nnseProcessHandshakeMessages n (.error e)
            else throw e
        | .ok m =>
            -- a stream payload of an earlier session is dropped
            let _ ← nnseHandleMessage m
            nnseProcessHandshakeMessages n (.ok ())

/-- No further message is no error here. -/
def nnseAwaitHandshake : NspProc Unit :=
  tryCatch (nnseProcessHandshakeMessages nspNnseMaxIterations (.ok ())) fun e =>
    if e = .readTimeout then pure () else throw e

def nspNnseEnsureReady : NspProc Unit := do
  let h ← get
  if h.handshakeDone then pure ()
  else
    nnseSendAddrResponseTwice
    nnseAwaitHandshake
    let h ← get
    if ¬ h.handshakeDone then
      Proc.ofExcept h.cableReset
      nnseAwaitHandshake
      let h ← get
      if ¬ h.handshakeDone then
        nnseSendAddrResponseTwice
        nnseAwaitHandshake
    -- without an answer the calculator is taken to know us already
    modify fun h => { h with handshakeDone := true }

theorem exec_nspNnseEnsureReady {h : NspHandle} (hready : h.handshakeDone = true) :
    Proc.exec nspNnseEnsureReady h = (.ok (), h) := by
  simp [nspNnseEnsureReady, Proc.exec_bind, hready]

/-! ## Stream payloads -/

def NspHandle.streamIsDuplicate (h : NspHandle) (m : NnseMessage) : Bool :=
  m.reqack &&& 0x08 ≠ 0 && h.lastStreamSeqno = some m.seqno

def nnseNoteStreamDelivered (m : NnseMessage) : NspProc Unit :=
  modify fun h => { h with lastStreamSeqno := some m.seqno }

/-- Append a payload to the list; the result says whether it was for us. -/
def nnseQueuePayloadEx (payload : List UInt8) : NspProc Bool := do
  let h ← get
  if ¬ h.streamIsForCurrentPort payload then pure false
  else if nspNnseMaxPending ≤ h.pending.length then throw .busy
  else
    set { h with pending := h.pending ++ [payload] }
    pure true

def nspNnseQueueStream (payload : List UInt8) : NspProc Unit := do
  let _ ← nnseQueuePayloadEx payload
  pure ()

def nspNnseDropQueuedStreams : NspProc Unit :=
  modify fun h => { h with pending := [] }

/-! ## Sending -/

/-- How waiting for an acknowledgement ends. -/
inductive StreamWait
  | done
  | retry
  | nothing
  deriving DecidableEq, Repr

/-- What the sender does with a message that is not its acknowledgement; the
result says whether a payload was kept. -/
def nnseSendHandleMessage (m : NnseMessage) (reassociated : Bool) : NspProc Bool := do
  let isStream ← nnseHandleMessage m
  let h ← get
  if ¬ isStream ∨ reassociated ∨ h.streamIsDuplicate m then pure false
  else
    let queued ← nnseQueuePayloadEx m.payload
    if queued then
      nnseNoteStreamDelivered m
      pure true
    else pure false

def nnseWaitStreamAck (seqno : UInt16) : Nat → Bool → NspProc StreamWait
  | 0, _ => pure .nothing
  | n + 1, reassociated => do
      match ← nnseRecvMessage with
      | .error e =>
          if e = .invalidPacket ∨ e = .checksum then nnseWaitStreamAck seqno n reassociated
          else if e = .readTimeout then pure .retry
          else throw e
      | .ok m =>
          if m.addressed ∧ m.service = nspNnseSrvStream ||| nspNnseSrvAckFlag ∧ m.seqno = seqno then
            pure .done
          else
            let reassociated := reassociated || m.service = nspNnseSrvAddrReq
            -- a payload that arrives first stands for the acknowledgement
            let kept ← nnseSendHandleMessage m reassociated
            let h ← get
            if kept then pure .done
            else if reassociated ∧ h.handshakeDone then pure .retry
            else nnseWaitStreamAck seqno n reassociated

def nnseSendAttempts (seqno : UInt16) (data : List UInt8) : Nat → NspProc Unit
  | 0 => throw .nack
  | n + 1 => do
      nnseSendMessage ⟨0, nspNnseSrvStream, nspNnseAddrPc, nspNnseAddrCalc, 0, 1, seqno, data⟩
      let wait ← nnseWaitStreamAck seqno nspNnseMaxIterations false
      if wait = .done then pure () else nnseSendAttempts seqno data n

def nspNnseSendStream (data : List UInt8) : NspProc Unit := do
  nspNnseEnsureReady
  let seqno ← nnseNextSeqno
  if ¬ nnseStreamRequiresAck data then
    nnseSendMessage ⟨0, nspNnseSrvStream, nspNnseAddrPc, nspNnseAddrCalc, 0, 0, seqno, data⟩
  else nnseSendAttempts seqno data nspNnseSendRetries

/-! ## Receiving -/

/-- Take the first payload of the list that is for us. -/
def nnseTakePending (maxsize : Nat) : List (List UInt8) → NspProc (Option (List UInt8))
  | [] => pure none
  | entry :: pending => do
      modify fun h => { h with pending := pending }
      let h ← get
      if ¬ h.streamIsForCurrentPort entry then nnseTakePending maxsize pending
      else if maxsize < entry.length then throw .invalidPacket
      else pure (some entry)

def nnseRecvStreamLoop (maxsize : Nat) : Nat → Bool → Nat → NspProc (List UInt8)
  | 0, _, resyncFragments => throw (if resyncFragments ≠ 0 then .readTimeout else .invalidPacket)
  | n + 1, reassociated, resyncFragments => do
      match ← nnseRecvMessage with
      | .error e =>
          if e = .invalidPacket ∨ e = .checksum then
            if nspNnseMaxResyncFragments ≤ resyncFragments + 1 then throw .readTimeout
            else nnseRecvStreamLoop maxsize n reassociated (resyncFragments + 1)
          else throw e
      | .ok m =>
          let isStream ← nnseHandleMessage m
          let reassociated := reassociated || m.service = nspNnseSrvAddrReq
          let h ← get
          if isStream then
            if reassociated ∨ h.streamIsDuplicate m then
              nnseRecvStreamLoop maxsize n reassociated resyncFragments
            else if maxsize < m.payload.length then throw .invalidPacket
            else
              nnseNoteStreamDelivered m
              pure m.payload
          else if reassociated ∧ h.handshakeDone then throw .readTimeout
          else nnseRecvStreamLoop maxsize n reassociated resyncFragments

/-- The next stream payload. -/
def nspNnseRecvStream (maxsize : Nat) : NspProc (List UInt8) := do
  nspNnseEnsureReady
  let h ← get
  match ← nnseTakePending maxsize h.pending with
  | some payload => pure payload
  | none => nnseRecvStreamLoop maxsize nspNnseMaxIterations false 0

/-! ## One message after the other -/

/-- A stream message as the sender builds it. -/
def streamMessage (reqack : UInt8) (seqno : UInt16) (payload : List UInt8) : NnseMessage :=
  ⟨0, nspNnseSrvStream, nspNnseAddrPc, nspNnseAddrCalc, 0, reqack, seqno, payload⟩

/-- The message acknowledges the stream message with the given number. -/
def NnseMessage.Acks (m : NnseMessage) (seqno : UInt16) : Prop :=
  m.addressed ∧ m.service = nspNnseSrvStream ||| nspNnseSrvAckFlag ∧ m.seqno = seqno

section Stream

variable {h : NspHandle} {rx : List NnseEvent} {tx : List NnseMessage} {payload : List UInt8}

/-- A message whose acknowledgement comes next is sent once. -/
theorem exec_nspNnseSendStream_acked {ack : NnseMessage} (hready : h.handshakeDone = true)
    (hneeds : nnseStreamRequiresAck payload = true) (hfits : payload.length ≤ nspNnseMaxPayload)
    (hack : ack.Acks h.nnseSeqno) (hlink : h.link = ⟨.ok ack :: rx, tx, none⟩) :
    Proc.exec (nspNnseSendStream payload) h =
      (.ok (), { h with
        link := ⟨rx, tx ++ [streamMessage 1 h.nnseSeqno payload], none⟩
        nnseSeqno := h.nnseSeqno + 1 }) := by
  have hsend := exec_nnseSendMessage { h with nnseSeqno := h.nnseSeqno + 1 }
    (streamMessage 1 h.nnseSeqno payload) hlink hfits
  have hwait (g : NspHandle) (tx' : List NnseMessage)
      (hg : g.link = ⟨.ok ack :: rx, tx', none⟩) :
      Proc.exec (nnseWaitStreamAck h.nnseSeqno nspNnseMaxIterations false) g =
        (.ok .done, { g with link := ⟨rx, tx', none⟩ }) := by
    obtain ⟨haddressed, hservice, hseqno⟩ := hack
    rw [nspNnseMaxIterations, nnseWaitStreamAck, Proc.exec_bind_ok (exec_nnseRecvMessage_cons hg)]
    dsimp only
    rw [if_pos ⟨haddressed, hservice, hseqno⟩, Proc.exec_pure]
  rw [nspNnseSendStream, Proc.exec_bind_ok (exec_nspNnseEnsureReady hready),
    Proc.exec_bind_ok (exec_nnseNextSeqno h), if_neg (not_not.mpr hneeds), nspNnseSendRetries,
    nnseSendAttempts, ← streamMessage, Proc.exec_bind_ok hsend,
    Proc.exec_bind_ok (hwait _ _ rfl), if_pos rfl]
  rfl

/-- A message that is not acknowledged is sent once, too. -/
theorem exec_nspNnseSendStream_plain (hready : h.handshakeDone = true)
    (hack : nnseStreamRequiresAck payload = false) (hfits : payload.length ≤ nspNnseMaxPayload)
    (hlink : h.link = ⟨rx, tx, none⟩) :
    Proc.exec (nspNnseSendStream payload) h =
      (.ok (), { h with
        link := ⟨rx, tx ++ [streamMessage 0 h.nnseSeqno payload], none⟩
        nnseSeqno := h.nnseSeqno + 1 }) := by
  rw [nspNnseSendStream, Proc.exec_bind_ok (exec_nspNnseEnsureReady hready),
    Proc.exec_bind_ok (exec_nnseNextSeqno h), if_pos (by simp [hack])]
  exact exec_nnseSendMessage { h with nnseSeqno := h.nnseSeqno + 1 }
    (streamMessage 0 h.nnseSeqno payload) hlink hfits

/-- A stream message of the peer, addressed to us. -/
def fromPeer (m : NnseMessage) : NnseEvent :=
  .ok { m with src := nspNnseAddrCalc, dest := nspNnseAddrPc }

theorem NnseMessage.quiet_of_carriesStream {m : NnseMessage} (h : m.carriesStream = true) :
    m.Quiet := by
  simp only [NnseMessage.carriesStream, Bool.and_eq_true, decide_eq_true_eq] at h
  constructor
  · rw [h.2]
    decide
  · rintro ⟨hctrl, -⟩
    rw [h.2] at hctrl
    contradiction

/-- A stream message that is not a repetition is delivered. -/
theorem exec_nnseRecvStreamLoop_stream {m : NnseMessage} {maxsize : Nat} (n resyncFragments : Nat)
    (hready : h.handshakeDone = true) (hstream : m.carriesStream = true)
    (hfresh : h.streamIsDuplicate m = false) (hfits : m.payload.length ≤ maxsize)
    (hlink : h.link = ⟨.ok m :: rx, tx, none⟩) :
    ∃ tx' seqno, Proc.exec (nnseRecvStreamLoop maxsize (n + 1) false resyncFragments) h =
      (.ok m.payload, { h with
        link := ⟨rx, tx', none⟩
        nnseSeqno := seqno
        lastStreamSeqno := some m.seqno }) := by
  have hquiet := NnseMessage.quiet_of_carriesStream hstream
  obtain ⟨tx', seqno, hhandle⟩ := exec_nnseHandleMessage (h := { h with link := ⟨rx, tx, none⟩ })
    hready hquiet rfl
  refine ⟨tx', seqno, ?_⟩
  rw [nnseRecvStreamLoop, Proc.exec_bind_ok (exec_nnseRecvMessage_cons hlink)]
  dsimp only
  rw [Proc.exec_bind_ok hhandle, Proc.exec_bind_ok (Proc.exec_get _), hstream, if_pos rfl,
    if_neg, if_neg (Nat.not_lt.mpr hfits)]
  · rfl
  · have hservice : m.service ≠ nspNnseSrvAddrReq := hquiet.1
    simpa [hservice, NspHandle.streamIsDuplicate] using hfresh

/-- A message of the peer is received at once when nothing is queued. -/
theorem exec_nspNnseRecvStream_fromPeer {reqack : UInt8} {seqno : UInt16} {maxsize : Nat}
    (hready : h.handshakeDone = true) (hpending : h.pending = [])
    (hretry : reqack &&& 0x08 = 0) (hfits : payload.length ≤ maxsize)
    (hlink : h.link = ⟨fromPeer (streamMessage reqack seqno payload) :: rx, tx, none⟩) :
    ∃ tx' seqno', Proc.exec (nspNnseRecvStream maxsize) h =
      (.ok payload, { h with
        link := ⟨rx, tx', none⟩
        nnseSeqno := seqno'
        lastStreamSeqno := some seqno }) := by
  obtain ⟨tx', seqno', hloop⟩ := exec_nnseRecvStreamLoop_stream 9 0 hready rfl
    (by simp [NspHandle.streamIsDuplicate, streamMessage, hretry]) hfits hlink
  refine ⟨tx', seqno', ?_⟩
  have htake : Proc.exec (nnseTakePending maxsize h.pending) h = (.ok none, h) := by
    rw [hpending]
    rfl
  rw [nspNnseRecvStream, Proc.exec_bind_ok (exec_nspNnseEnsureReady hready),
    Proc.exec_bind_ok (Proc.exec_get _), Proc.exec_bind_ok htake]
  exact hloop

end Stream

end Tilibs.Nsp
