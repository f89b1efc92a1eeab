import Tilibs.Lib.Frame
import Tilibs.Nsp.NnseResync
import Tilibs.Nsp.Virtual

/-!
# Tilibs.Nsp.NnseCable

NNSE on the bytes of a cable (`nsp_nnse.cc`, `nsp_vpkt.cc`).

The functions are those of `Tilibs.Nsp.Nnse` with the cable below them: every
read polls it byte by byte until a deadline, which the timeout of the cable
sets, and many of them change that timeout for a while.  What the cable does is
arbitrary: a device that answers each call with a code.

A loop that only a clock ends has a number of turns, at the end of which the
time is up.
-/

namespace Tilibs.Nsp.Cable

open Tilibs.Lib Proc

/-! ## Error codes -/

def errBusy : Int := 1
def errReadTimeout : Int := 4
def errNotOpen : Int := 51
def errChecksum : Int := 258
def errNack : Int := 265
def errInvalidPacket : Int := 266

/-- The code of an error of the protocol; what is undefined has none. -/
def codeOf : NspErr → Int
  | .readTimeout => errReadTimeout
  | .writeError => 5
  | .invalidParameter => 283
  | .invalidPacket => errInvalidPacket
  | .checksum => errChecksum
  | .busy => 269
  | .nack => errNack
  | .malloc => 267
  | .calcError3 index => 430 + index
  | .undefinedBehaviour => -1

/-! ## The cable -/

/-- What the driver of a cable does, given the timeout: each call ends with a
code and leaves the device in some state. -/
structure CableFncts (δ : Type) where
  send : UInt32 → List UInt8 → δ → Int × δ
  recv : UInt32 → δ → Int × UInt8 × δ
  check : δ → Int × Bool × δ
  reset : δ → Int × δ
  clock : δ → Nat × δ

structure CableHandle (δ : Type) where
  timeout : UInt32
  isOpen : Bool
  busy : Bool
  device : δ

/-- A calculator on a cable: the fields of the protocol, the bytes that were
read and not used, and whether the calculator counts as connected.  The ports of
`nsp` are not used. -/
structure CalcHandle (δ : Type) where
  nsp : NspHandle
  rxBuffer : List UInt8
  isOpen : Bool
  cable : CableHandle δ

variable {δ : Type}

abbrev CableProc (δ : Type) := Proc (CalcHandle δ) Int

def CalcHandle.withDevice (h : CalcHandle δ) (device : δ) : CalcHandle δ :=
  { h with cable := { h.cable with device } }

/-- Stop on a code other than 0. -/
def check (ret : Int) : CableProc δ Unit := if ret = 0 then pure () else throw ret

/-- `RETURN_IF_HANDLE_NOT_OPEN` and `RETURN_IF_HANDLE_BUSY`. -/
def cableUsable : CableProc δ Unit := do
  let h ← get
  if h.cable.isOpen = false then throw errNotOpen
  else if h.cable.busy then throw errBusy
  else pure ()

/-- The previous timeout, or what stands for it when the cable cannot be told. -/
def ticablesOptionsSetTimeout (timeout : UInt32) : CableProc δ UInt32 := do
  let h ← get
  set { h with cable := { h.cable with timeout } }
  if h.cable.isOpen = false then pure (-1)
  else if h.cable.busy then pure 1
  else pure h.cable.timeout

/-- A step of the protocol that does not use the cable. -/
def onHandle {α : Type} (p : NspProc α) : CableProc δ α := do
  match ← zoom CalcHandle.nsp (fun nsp h => { h with nsp }) p with
  | .ok a => pure a
  | .error e => throw (codeOf e)

/-- A body during which the cable has another timeout. -/
def withTimeout {α : Type} (timeout : UInt32) (body : CableProc δ α) : CableProc δ α :=
  bracket (ticablesOptionsSetTimeout timeout)
    (fun old => do let _ ← ticablesOptionsSetTimeout old) body

/-! ## Constants -/

def nspNnseHandshakeTimeout : UInt32 := 40
def nspNnseAssocPromptTimeout : UInt32 := 3
def nspNnseStreamTimeoutCeiling : UInt32 := 80
def nspNnseResyncTimeout : UInt32 := 1
def nspNnseStreamResetTimeout : UInt32 := 15
def nspNnseCloseDrainTimeout : UInt32 := 1
def nspNnseCloseDrainMax : Nat := 3
def nspNnsePrefetchMax : Nat := nspNnseHeaderSize - 1

section Driver

variable (fncts : CableFncts δ)

/-! ## Calls of the driver -/

def cableSend (data : List UInt8) : CableProc δ Unit := do
  cableUsable
  let h ← get
  let (ret, device) := fncts.send h.cable.timeout data h.cable.device
  set (h.withDevice device)
  check ret

def cableRecv : CableProc δ UInt8 := do
  cableUsable
  let h ← get
  let (ret, byte, device) := fncts.recv h.cable.timeout h.cable.device
  set (h.withDevice device)
  check ret
  pure byte

/-- Whether a byte waits to be read. -/
def cableCheck : CableProc δ Bool := do
  cableUsable
  let h ← get
  let (ret, rx, device) := fncts.check h.cable.device
  set (h.withDevice device)
  check ret
  pure rx

/-- The driver's own function, which the protocol calls directly. -/
def cableReset : CableProc δ Unit := do
  let h ← get
  let (ret, device) := fncts.reset h.cable.device
  set (h.withDevice device)
  check ret

def gGetMonotonicTime : CableProc δ Nat := do
  let h ← get
  let (now, device) := fncts.clock h.cable.device
  set (h.withDevice device)
  pure now

/-! ## Reading bytes -/

/-- A deadline that many tenths of a second from now. -/
def deadlineIn (timeout : UInt32) : CableProc δ Nat := do
  let now ← gGetMonotonicTime fncts
  pure (now + timeout.toNat * 100000)

/-- Drop what cannot begin a header; the result says whether there was any. -/
def nnseBufferResync : CableProc δ Bool := do
  let h ← get
  let rest := nnseDiscardImpossiblePrefix h.rxBuffer
  set { h with rxBuffer := rest }
  pure (rest.length < h.rxBuffer.length)

/-- The loop of `nnse_buffer_read_polled`. -/
def nnseBufferPoll (wanted : Nat) (resync : Bool) : Nat → Nat → Bool → CableProc δ Unit
  | 0, _, _ => throw errReadTimeout
  | turns + 1, deadline, hadPartial => do
      let h ← get
      if wanted ≤ h.rxBuffer.length then pure ()
      else if ← cableCheck fncts then
        let byte ← cableRecv fncts
        modify fun h => { h with rxBuffer := h.rxBuffer ++ [byte] }
        let deadline ← (if resync ∧ ¬ hadPartial then deadlineIn fncts nspNnseResyncTimeout
          else pure deadline)
        let dropped ← (if resync then nnseBufferResync else pure false)
        let deadline ← (if dropped then deadlineIn fncts nspNnseResyncTimeout else pure deadline)
        let h ← get
        nnseBufferPoll wanted resync turns deadline (¬ dropped ∨ h.rxBuffer ≠ [])
      else
        let now ← gGetMonotonicTime fncts
        if deadline ≤ now then throw errReadTimeout
        else nnseBufferPoll wanted resync turns deadline hadPartial

def nnseBufferRead (turns wanted : Nat) : CableProc δ Unit := do
  let h ← get
  let resync := decide (wanted ≤ nspNnseHeaderSize)
  let hadPartial := decide (0 < h.rxBuffer.length)
  let deadline ← deadlineIn fncts
    (if resync ∧ hadPartial then nspNnseResyncTimeout else h.cable.timeout)
  nnseBufferPoll fncts wanted resync turns deadline hadPartial

def nnseBufferReadWithTimeout (turns wanted : Nat) (timeout : UInt32) : CableProc δ Unit :=
  withTimeout timeout (nnseBufferRead fncts turns wanted)

/-- The turns of `nnse_prefetch_immediate`. -/
def nnsePrefetch : Nat → CableProc δ Unit
  | 0 => pure ()
  | n + 1 => do
      let h ← get
      if nspNnsePrefetchMax ≤ h.rxBuffer.length then pure ()
      else
        match ← attempt (cableCheck fncts) with
        | .ok true =>
            match ← attempt (cableRecv fncts) with
            | .ok byte =>
                modify fun h => { h with rxBuffer := h.rxBuffer ++ [byte] }
                nnsePrefetch n
            | .error _ => pure ()
        | _ => pure ()

def nnsePrefetchImmediate : CableProc δ Unit := do
  nnsePrefetch fncts nspNnsePrefetchMax
  let _ ← nnseBufferResync

/-! ## Messages -/

def nnseSendMessage (m : NnseMessage) : CableProc δ Unit :=
  match nnseMessageBytes m with
  | .error e => throw (codeOf e)
  | .ok frame => cableSend fncts frame

/-- Read the rest of a message whose header is at the front of the buffer; the
result says whether its checksum is right. -/
def nnseReadCandidate (turns : Nat) (form : NnseForm) : CableProc δ Bool := do
  let h ← get
  match ← attempt (nnseBufferRead fncts turns (form.wireLength h.rxBuffer).toNat) with
  | .ok () =>
      let h ← get
      pure (form.verifies h.rxBuffer)
  | .error e =>
      let h ← get
      if e = errReadTimeout ∧ nspNnseHeaderSize ≤ h.rxBuffer.length then
        set { h with rxBuffer := [] }
        throw errInvalidPacket
      else throw e

/-- Take the message at the front of the buffer. -/
def nnseTakeCandidate (form : NnseForm) : CableProc δ NnseMessage := do
  let h ← get
  let length := (form.wireLength h.rxBuffer).toNat
  set { h with rxBuffer := h.rxBuffer.drop length }
  nnsePrefetchImmediate fncts
  pure (nnseReadMessage (form.expand (h.rxBuffer.take length)))

/-- The form in which there is a message at the front of the buffer. -/
def nnseFindCandidate (turns : Nat) : CableProc δ (Option NnseForm) := do
  let h ← get
  (if h.rxBuffer.length < nspNnseHeaderSize then nnseBufferRead fncts turns nspNnseHeaderSize
    else pure ())
  let h ← get
  if NnseForm.full.headerPlausible h.rxBuffer nspNnseMaxPayload then
    if ← nnseReadCandidate fncts turns .full then pure (some .full) else pure none
  else if NnseForm.compact.headerPlausible h.rxBuffer nspNnseMaxPayload then
    if ← nnseReadCandidate fncts turns .compact then pure (some .compact) else pure none
  else pure none

/-- Go on one byte behind a candidate that is none. -/
def nnseSkipByte (turns : Nat) : CableProc δ Unit := do
  modify fun h => { h with rxBuffer := h.rxBuffer.drop 1 }
  let h ← get
  if h.rxBuffer.length < nspNnseHeaderSize then
    match ← attempt
        (nnseBufferReadWithTimeout fncts turns nspNnseHeaderSize nspNnseResyncTimeout) with
    | .ok () => pure ()
    | .error e =>
        let h ← get
        if e = errReadTimeout ∧ h.rxBuffer ≠ [] then
          set { h with rxBuffer := [] }
          throw errInvalidPacket
        else throw e

/-- The loop of `nnse_recv_message`; the number says how many bytes may still
be skipped. -/
def nnseRecvLoop (turns : Nat) : Nat → CableProc δ NnseMessage
  | 0 => do
      match ← nnseFindCandidate fncts turns with
      | some form => nnseTakeCandidate fncts form
      | none => throw errInvalidPacket
  | skips + 1 => do
      match ← nnseFindCandidate fncts turns with
      | some form => nnseTakeCandidate fncts form
      | none =>
          nnseSkipByte fncts turns
          nnseRecvLoop turns skips

def nnseRecvMessage (turns : Nat) : CableProc δ NnseMessage := do
  match ← attempt (nnseBufferRead fncts turns nspNnseHeaderSize) with
  | .ok () => nnseRecvLoop fncts turns (nspNnseHeaderSize + nspNnseMaxPayload)
  | .error e =>
      let h ← get
      if e = errReadTimeout ∧ h.rxBuffer ≠ [] then
        set { h with rxBuffer := [] }
        throw errInvalidPacket
      else throw e

/-! ## Answering messages -/

def nnseNextSeqno : CableProc δ UInt16 := onHandle Nsp.nnseNextSeqno

def nnseClearBuffers : CableProc δ Unit :=
  modify fun h => { h with rxBuffer := [], nsp := { h.nsp with pending := [] } }

def nnseClearStreamHistory : CableProc δ Unit :=
  modify fun h => { h with nsp := { h.nsp with lastStreamSeqno := none } }

def setHandshakeDone (done : Bool) : CableProc δ Unit :=
  modify fun h => { h with nsp := { h.nsp with handshakeDone := done } }

/-- A message of ours that asks for no acknowledgement. -/
def nnseSendPlain (service dest : UInt8) (payload : List UInt8) : CableProc δ Unit := do
  let seqno ← nnseNextSeqno
  nnseSendMessage fncts ⟨0, service, nspNnseAddrPc, dest, 0, 0, seqno, payload⟩

def nnseSendAddrResponseTwice : CableProc δ Unit := do
  nnseSendPlain fncts nspNnseSrvAddrReq nspNnseAddrCalc [0x80]
  nnseSendPlain fncts nspNnseSrvAddrReq nspNnseAddrCalc [0x80]

def nnseSendStreamControlStatus (dest control status : UInt8) : CableProc δ Unit :=
  nnseSendPlain fncts nspNnseSrvStreamCtrl dest [control ||| 0x80, status]

def nnseSendStreamControlReset (seqno : UInt16) : CableProc δ Unit :=
  nnseSendMessage fncts
    ⟨0, nspNnseSrvStreamCtrl, nspNnseAddrPc, 0x01, 0, 1, seqno, [nspNnseStreamCtrlReset]⟩

def nnseAcknowledge (m : NnseMessage) : CableProc δ Unit :=
  if m.reqack &&& 1 ≠ 0 then
    nnseSendMessage fncts ⟨m.misc, m.service ||| nspNnseSrvAckFlag, m.dest, m.src, m.unknown,
      m.reqack &&& 0xFE, m.seqno, []⟩
  else pure ()

def nnseHandleAddrReq (m : NnseMessage) : CableProc δ Unit :=
  if m.payload.length < 1 ∨ m.payload.getD 0 0 ≠ 0x00 then pure ()
  else do
    let ret ← attempt (nnseSendAddrResponseTwice fncts)
    -- the calculator has restarted
    setHandshakeDone false
    Proc.ofExcept ret

def nnseHandleTime (m : NnseMessage) : CableProc δ Unit :=
  if m.payload.length < 1 ∨ m.payload.getD 0 0 ≠ 0x00 then pure ()
  else do
    let h ← get
    nnseSendPlain fncts m.service nspNnseAddrCalc
      (0x80 :: putBE 4 h.nsp.now ++ List.replicate 12 0)
    setHandshakeDone true

def nnseHandleStreamCtrl (m : NnseMessage) : CableProc δ Unit :=
  if m.payload = [nspNnseStreamCtrlStart] then
    nnseSendStreamControlStatus fncts m.src nspNnseStreamCtrlStart 0x03
  else if m.payload = [nspNnseStreamCtrlReset] then do
    nnseClearBuffers
    nnseClearStreamHistory
    nnseSendStreamControlStatus fncts m.src nspNnseStreamCtrlReset 0x00
  else if m.payload = [nspNnseStreamCtrlStatus] then
    nnseSendStreamControlStatus fncts m.src nspNnseStreamCtrlStatus 0x00
  else pure ()

/-- Answer a message; the result says whether it carries a stream payload. -/
def nnseHandleMessage (m : NnseMessage) : CableProc δ Bool := do
  if ¬ m.addressed ∨ m.isAck then pure false
  else
    nnseAcknowledge fncts m
    (if m.service = nspNnseSrvAddrReq then nnseHandleAddrReq fncts m
      else if m.service = nspNnseSrvTime then nnseHandleTime fncts m
      else if m.service = nspNnseSrvStreamCtrl then nnseHandleStreamCtrl fncts m
      else pure ())
    pure (decide (m.service = nspNnseSrvStream))

/-! ## The handshake -/

/-- The loop of `nnse_process_handshake_messages`; `ret` is what it returns
when it ends here. -/
def nnseProcessHandshakeMessages (turns : Nat) (timeout : UInt32) :
    Nat → Except Int Unit → CableProc δ Unit
  | 0, ret => Proc.ofExcept ret
  | n + 1, ret => do
      let h ← get
      if h.nsp.handshakeDone then Proc.ofExcept ret
      else
        match ← attempt (withTimeout timeout (nnseRecvMessage fncts turns)) with
        | .error e =>
            if e = errInvalidPacket ∨ e = errChecksum then
              nnseProcessHandshakeMessages turns timeout n (.error e)
            else throw e
        | .ok m =>
            -- a stream payload of an earlier session is dropped
            let _ ← nnseHandleMessage fncts m
            nnseProcessHandshakeMessages turns timeout n (.ok ())

/-- No further message is no error here. -/
def timeoutIsNone (body : CableProc δ Unit) : CableProc δ Unit := do
  match ← attempt body with
  | .ok () => pure ()
  | .error e => if e = errReadTimeout then pure () else throw e

/-- Reset the device, and prompt it once more when that brings no handshake. -/
def nnseProvokeHandshake (turns : Nat) : CableProc δ Unit := do
  cableReset fncts
  timeoutIsNone <| withTimeout nspNnseHandshakeTimeout <|
    nnseProcessHandshakeMessages fncts turns nspNnseHandshakeTimeout nspNnseMaxIterations (.ok ())
  let h ← get
  if h.nsp.handshakeDone then pure ()
  else
    nnseSendAddrResponseTwice fncts
    timeoutIsNone <|
      nnseProcessHandshakeMessages fncts turns nspNnseHandshakeTimeout nspNnseMaxIterations (.ok ())

def nspNnseEnsureReady (turns : Nat) : CableProc δ Unit := do
  let h ← get
  if h.nsp.handshakeDone then pure ()
  else
    nnseSendAddrResponseTwice fncts
    timeoutIsNone <| withTimeout nspNnseAssocPromptTimeout <|
      nnseProcessHandshakeMessages fncts turns nspNnseAssocPromptTimeout nspNnseMaxIterations (.ok ())
    let h ← get
    (if h.nsp.handshakeDone then pure () else nnseProvokeHandshake fncts turns)
    -- without an answer the calculator is taken to know us already
    setHandshakeDone true

/-- How far the calculator has answered a reset of the stream. -/
structure ResetProgress where
  sawResetAck : Bool
  sawStreamRestart : Bool

/-- The loop of `nnse_wait_stream_control_reset`. -/
def nnseWaitResetLoop (turns : Nat) (resetSeqno : UInt16) : Nat → ResetProgress → CableProc δ Unit
  | 0, _ => throw errReadTimeout
  | n + 1, progress => do
      match ← attempt (withTimeout nspNnseStreamResetTimeout (nnseRecvMessage fncts turns)) with
      | .error e =>
          if e = errInvalidPacket ∨ e = errChecksum then nnseWaitResetLoop turns resetSeqno n progress
          else if progress.sawResetAck then pure ()
          else throw e
      | .ok m =>
          if m.addressed ∧ m.service = nspNnseSrvStreamCtrl ||| nspNnseSrvAckFlag ∧
              m.seqno = resetSeqno then
            nnseWaitResetLoop turns resetSeqno n { progress with sawResetAck := true }
          else
            let progress :=
              if m.service = nspNnseSrvStreamCtrl ∧ m.payload = [nspNnseStreamCtrlStart] then
                { progress with sawStreamRestart := true }
              else progress
            -- a stream payload is dropped
            let _ ← nnseHandleMessage fncts m
            let h ← get
            if progress.sawResetAck ∧ progress.sawStreamRestart ∧ h.nsp.handshakeDone then
              nnseClearBuffers
              nnseClearStreamHistory
            else nnseWaitResetLoop turns resetSeqno n progress

def nnseWaitStreamControlReset (turns : Nat) (resetSeqno : UInt16) : CableProc δ Unit := do
  setHandshakeDone false
  nnseWaitResetLoop fncts turns resetSeqno (nspNnseMaxIterations * 2) ⟨false, false⟩

/-- Start the association over; what the calculator answers is only logged. -/
def nspNnseReassociateNext (turns : Nat) : CableProc δ Unit := do
  nnseClearBuffers
  nnseClearStreamHistory
  let h ← get
  if h.nsp.nnse ∧ h.isOpen then
    let resetSeqno ← nnseNextSeqno
    match ← attempt (nnseSendStreamControlReset fncts resetSeqno) with
    | .error _ => pure ()
    | .ok () =>
        let _ ← attempt (nnseWaitStreamControlReset fncts turns resetSeqno)
        pure ()
  else setHandshakeDone false

/-! ## Streams -/

/-- The timeout of the cable, under a ceiling. -/
def nnseEffectiveStreamTimeout (h : CalcHandle δ) : UInt32 :=
  if 0 < h.cable.timeout ∧ h.cable.timeout < nspNnseStreamTimeoutCeiling then h.cable.timeout
  else nspNnseStreamTimeoutCeiling

/-- What the sender does with a message that is not its acknowledgement; the
result says whether a payload was kept. -/
def nnseSendHandleMessage (m : NnseMessage) (reassociated : Bool) : CableProc δ Bool := do
  let isStream ← nnseHandleMessage fncts m
  let h ← get
  if ¬ isStream ∨ reassociated ∨ h.nsp.streamIsDuplicate m then pure false
  else if ← onHandle (nnseQueuePayloadEx m.payload) then
    onHandle (nnseNoteStreamDelivered m)
    pure true
  else pure false

def nnseWaitStreamAck (turns : Nat) (seqno : UInt16) : Nat → Bool → CableProc δ StreamWait
  | 0, _ => pure .nothing
  | n + 1, reassociated => do
      let h ← get
      match ← attempt (withTimeout (nnseEffectiveStreamTimeout h) (nnseRecvMessage fncts turns)) with
      | .error e =>
          if e = errInvalidPacket ∨ e = errChecksum then
            nnseWaitStreamAck turns seqno n reassociated
          else if e = errReadTimeout then pure .retry
          else throw e
      | .ok m =>
          if m.addressed ∧ m.service = nspNnseSrvStream ||| nspNnseSrvAckFlag ∧ m.seqno = seqno then
            pure .done
          else
            let reassociated := reassociated || m.service = nspNnseSrvAddrReq
            -- a payload that arrives first stands for the acknowledgement
            let kept ← nnseSendHandleMessage fncts m reassociated
            let h ← get
            if kept then pure .done
            else if reassociated ∧ h.nsp.handshakeDone then pure .retry
            else nnseWaitStreamAck turns seqno n reassociated

def nnseSendAttempts (turns : Nat) (seqno : UInt16) (data : List UInt8) : Nat → CableProc δ Unit
  | 0 => throw errNack
  | n + 1 => do
      nnseSendMessage fncts
        ⟨0, nspNnseSrvStream, nspNnseAddrPc, nspNnseAddrCalc, 0, 1, seqno, data⟩
      let wait ← nnseWaitStreamAck fncts turns seqno nspNnseMaxIterations false
      if wait = .done then pure () else nnseSendAttempts turns seqno data n

def nspNnseSendStream (turns : Nat) (data : List UInt8) : CableProc δ Unit := do
  nspNnseEnsureReady fncts turns
  let seqno ← nnseNextSeqno
  if ¬ nnseStreamRequiresAck data then
    nnseSendMessage fncts
      ⟨0, nspNnseSrvStream, nspNnseAddrPc, nspNnseAddrCalc, 0, 0, seqno, data⟩
  else nnseSendAttempts fncts turns seqno data nspNnseSendRetries

def nnseRecvStreamLoop (turns maxsize : Nat) : Nat → Bool → Nat → CableProc δ (List UInt8)
  | 0, _, resyncFragments =>
      throw (if resyncFragments ≠ 0 then errReadTimeout else errInvalidPacket)
  | n + 1, reassociated, resyncFragments => do
      match ← attempt (nnseRecvMessage fncts turns) with
      | .error e =>
          if e = errInvalidPacket ∨ e = errChecksum then
            if nspNnseMaxResyncFragments ≤ resyncFragments + 1 then throw errReadTimeout
            else nnseRecvStreamLoop turns maxsize n reassociated (resyncFragments + 1)
          else throw e
      | .ok m =>
          let isStream ← nnseHandleMessage fncts m
          let reassociated := reassociated || m.service = nspNnseSrvAddrReq
          let h ← get
          if isStream then
            if reassociated ∨ h.nsp.streamIsDuplicate m then
              nnseRecvStreamLoop turns maxsize n reassociated resyncFragments
            else if maxsize < m.payload.length then throw errInvalidPacket
            else
              onHandle (nnseNoteStreamDelivered m)
              pure m.payload
          else if reassociated ∧ h.nsp.handshakeDone then throw errReadTimeout
          else nnseRecvStreamLoop turns maxsize n reassociated resyncFragments

/-- The next stream payload. -/
def nspNnseRecvStream (turns maxsize : Nat) : CableProc δ (List UInt8) := do
  nspNnseEnsureReady fncts turns
  let h ← get
  match ← onHandle (nnseTakePending maxsize h.nsp.pending) with
  | some payload => pure payload
  | none =>
      let h ← get
      withTimeout (nnseEffectiveStreamTimeout h)
        (nnseRecvStreamLoop fncts turns maxsize nspNnseMaxIterations false 0)

/-! ## Raw packets from stream messages -/

def nspNnseSendControlForParsed (turns : Nat) (pkt : NSPParsedRawPacket) (controlPort : UInt16) :
    CableProc δ Unit :=
  match nspNnseRawData nspSrcAddr controlPort nspDevAddr pkt.srcPort 0x0A pkt.seq
      (putWord pkt.dstPort) with
  | .error e => throw (codeOf e)
  | .ok msg => nspNnseSendStream fncts turns msg

/-- Answer a packet nobody waits for. -/
def nspNnseHandleStalePacket (turns : Nat) (pkt : NSPParsedRawPacket) : CableProc δ Unit :=
  if pkt.ack ≠ 0x00 ∨ pkt.data.length = 0 then pure ()
  else if pkt.srcPort = nspPortDisconnect ∨ pkt.dstPort = nspPortDisconnect ∨
      0x8000 ≤ pkt.dstPort then
    nspNnseSendControlForParsed fncts turns pkt
      (if pkt.seq = 0 then nspPortPktAck1 else nspPortPktAck2)
  else nspNnseSendControlForParsed fncts turns pkt nspPortPktNack

/-- Queue the packets behind the first one of a message; every turn skips a
packet. -/
def nspNnseQueueTrailingPackets (turns : Nat) : Nat → List UInt8 → CableProc δ Unit
  | 0, _ => pure ()
  | n + 1, msg =>
      if msg = [] then pure ()
      else
        match nspFindRawPacketBoundary msg with
        | .error _ => pure ()
        | .ok (tail, boundary) => do
            let h ← get
            (if h.nsp.portMatches tail.dstPort then
                onHandle (nspNnseQueueStream ((msg.drop boundary).take tail.rawSize))
              else nspNnseHandleStalePacket fncts turns tail)
            nspNnseQueueTrailingPackets turns n (msg.drop (boundary + tail.rawSize))

/-- The loop of `nsp_nnse_recv_raw_packet`. -/
def nspNnseRecvRawPacket (turns : Nat) : Nat → CableProc δ NSPParsedRawPacket
  | 0 => throw errReadTimeout
  | n + 1 => do
      let msg ← nspNnseRecvStream fncts turns nspNnseMaxPayload
      match nspFindRawPacketBoundary msg with
      | .error _ => nspNnseRecvRawPacket turns n
      | .ok (pkt, offset) =>
          -- there may be nothing behind the packet
          nspNnseQueueTrailingPackets fncts turns msg.length (msg.drop (offset + pkt.rawSize))
          let h ← get
          if ¬ h.nsp.portMatches pkt.dstPort then
            nspNnseHandleStalePacket fncts turns pkt
            (if pkt.ack = 0x00 ∧ 0 < pkt.data.length then pure ()
              else onHandle nspNnseDropQueuedStreams)
            nspNnseRecvRawPacket turns n
          else
            onHandle (nspNoteSequence pkt.srcPort pkt.seq)
            pure pkt

def nspNnseDrainLoop (turns : Nat) : Nat → CableProc δ Unit
  | 0 => pure ()
  | n + 1 => do
      match ← attempt (nspNnseRecvRawPacket fncts turns turns) with
      | .error e =>
          if e = errReadTimeout then pure ()
          else if e = errInvalidPacket ∨ e = errChecksum then nspNnseDrainLoop turns n
          else throw e
      | .ok pkt =>
          nspNnseHandleStalePacket fncts turns pkt
          nspNnseDrainLoop turns n

def nspNnseDrainAfterClose (turns : Nat) : CableProc δ Unit :=
  withTimeout nspNnseCloseDrainTimeout (nspNnseDrainLoop fncts turns nspNnseCloseDrainMax)

end Driver

end Tilibs.Nsp.Cable
