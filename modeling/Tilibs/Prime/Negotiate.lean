import Tilibs.Lib.Frame
import Tilibs.Prime.Legacy
import Tilibs.Prime.Send

/-!
# Tilibs.Prime.Negotiate

Choosing the protocol (`prime_protocol_negotiate`): the calculator is asked for
V2, the answer to a first V2 message tells whether it has it, and without one
the handle goes back to the older protocol.

The read timeout is shortened for the probes and restored at every exit.
-/

namespace Tilibs.Prime

open Tilibs.Lib Proc

/-! ## The handle -/

inductive NegotiateErr
  | noCable
  | prime (e : PrimeErr)
  deriving DecidableEq, Repr

/-- What the cable's functions make of a new read timeout: there may be none,
the null cable forgets it, the others store it. -/
inductive CableFncts
  | missing
  | nul
  | hid
  deriving DecidableEq, Repr

/-- The handle of the calculator and, once attached, that of the cable. -/
structure CalcHandle where
  prime : PrimeHandle
  supportsV2 : Bool
  hasCable : Bool
  isOpen : Bool
  attached : Bool
  cableBusy : Bool
  fncts : CableFncts
  readTimeout : Int

abbrev NegotiateProc := Proc CalcHandle NegotiateErr

/-- Run a procedure of the protocol on the handle, for its result. -/
def onPrime {α : Type} (p : PrimeProc α) : NegotiateProc (Except PrimeErr α) :=
  zoom CalcHandle.prime (fun prime h => { h with prime }) p

/-- Set the read timeout of the cable, and tell whether that succeeded. -/
def hpcablesOptionsSetReadTimeout (timeout : Int) : NegotiateProc Bool := do
  let h ← get
  if h.cableBusy then pure false
  else
    match h.fncts with
    | .missing => pure false
    | .nul => pure true
    | .hid =>
        set { h with readTimeout := timeout }
        pure true

/-! ## The probes -/

def primeProtocolProbeTimeoutMs : Int := 1500

/-- The report that selects the protocol: `FF EC` behind the report ID, and a
zero for V2. -/
def selector : List UInt8 := [0x00, 0xFF, 0xEC, 0x00, 0x00, 0x00, 0x00, 0x00, 0x00]

def probeRequest : List UInt8 := [0xFD, 0x01, 0x00, 0x00, 0x00, 0x01, 0x03]

def responsePrefix : List UInt8 := [0xFD, 0x03, 0x00, 0x00, 0x00, 0x01, 0x03]

/-- A reply that announces V2: the request again, or the longer response, as a
V2 message. -/
def AnnouncesV2 (reply : PrimeV2Message) : Prop :=
  reply.messageId ≠ 0
    ∧ (reply.data.length = probeRequest.length ∧ reply.data.take probeRequest.length = probeRequest
      ∨ responsePrefix.length ≤ reply.data.length
        ∧ reply.data.take responsePrefix.length = responsePrefix)

instance (reply : PrimeV2Message) : Decidable (AnnouncesV2 reply) :=
  inferInstanceAs (Decidable (_ ∧ _))

def primeProtocolProbeV2 : PrimeProc Unit := do
  let _ ← primeV2SendMessageWithRetries probeRequest 0
  let reply ← primeV2RecvMessage
  if AnnouncesV2 reply then pure () else throw .packetFormat

def primeProtocolProbeLegacy : PrimeProc Unit := do
  primeSendData [cmdPrimeCheckReady]
  let reply ← primeRecvData cmdPrimeCheckReady
  if reply.length ≠ 1 ∨ reply.headD 0 ≠ cmdPrimeCheckReady then throw .packetFormat else pure ()

/-! ## Negotiation -/

def primeProtocolResetLegacy : NegotiateProc Unit :=
  modify fun h =>
    { h with prime := { h.prime with version := .legacy, nextMessageId := 1 }, supportsV2 := false }

/-- The probes do not wait as long as other transfers; the timeout that is
saved is the one to restore. -/
def shortenTimeout : NegotiateProc (Option Int) := do
  let originalTimeout := (← get).readTimeout
  if primeProtocolProbeTimeoutMs < originalTimeout then
    if ← hpcablesOptionsSetReadTimeout primeProtocolProbeTimeoutMs then pure (some originalTimeout)
    else pure none
  else pure none

def restoreTimeout : Option Int → NegotiateProc Unit
  | none => pure ()
  | some originalTimeout => do
      let _ ← hpcablesOptionsSetReadTimeout originalTimeout

/-- An unsupported selector leaves the calculator with the older protocol; a
normal command proves it. -/
def negotiateLegacy (v2Res : PrimeErr) : NegotiateProc Unit := do
  primeProtocolResetLegacy
  match ← onPrime primeProtocolProbeLegacy with
  | .ok () => pure ()
  | .error _ => throw (.prime v2Res)

/-- What `prime_protocol_negotiate` does with the timeout shortened. -/
def negotiateShortened : NegotiateProc Unit := do
  match ← onPrime (primeSend selector) with
  | .error e => throw (.prime e)
  | .ok () =>
      -- the selector has no reply: try a V2 message
      modify fun h => { h with prime := { h.prime with version := .v2 } }
      match ← onPrime primeProtocolProbeV2 with
      | .ok () => modify fun h => { h with supportsV2 := true }
      | .error v2Res => negotiateLegacy v2Res

def primeProtocolNegotiate : NegotiateProc Unit := do
  let h ← get
  if ¬(h.hasCable ∧ h.isOpen ∧ h.attached) then throw .noCable
  else if h.prime.version = .v2 then pure ()
  else bracket shortenTimeout restoreTimeout negotiateShortened

/-! ## What the transfers keep -/

/-- The protocol and the next identifier. -/
def PrimeHandle.protocolState (h : PrimeHandle) : PrimeProtocol × Nat := (h.version, h.nextMessageId)

theorem keeps_primeRecv : Keeps PrimeHandle.protocolState primeRecv := by
  intro s
  cases hrecv : s.port.recv with
  | none => simp [primeRecv, exec_bind, hrecv, Same]
  | some p => simp [primeRecv, exec_bind, hrecv, Same, PrimeHandle.protocolState]

theorem keeps_primeSend (raw : List UInt8) : Keeps PrimeHandle.protocolState (primeSend raw) := by
  intro s
  cases hsend : s.port.send raw with
  | none => simp [primeSend, exec_bind, hsend, Same]
  | some p => simp [primeSend, exec_bind, hsend, Same, PrimeHandle.protocolState]

theorem keeps_primeV2SendFrame (frame : List UInt8) :
    Keeps PrimeHandle.protocolState (primeV2SendFrame frame) := by
  unfold primeV2SendFrame
  refine within_bind within_get fun h => ?_
  refine within_ite (fun _ => within_throw _) fun _ => ?_
  exact within_ite (fun _ => within_throw _) fun _ => keeps_primeSend _

theorem keeps_primeV2SendAckFrame (isAck : Bool) (sequence position messageId : Nat) :
    Keeps PrimeHandle.protocolState (primeV2SendAckFrame isAck sequence position messageId) :=
  within_bind (within_ofExcept _) fun frame => keeps_primeV2SendFrame frame

theorem keeps_primeV2SendFramesLoop {messageId size : Nat} (fuel : Nat) (first : Bool)
    (remaining : List UInt8) (sequence : Nat) : Keeps PrimeHandle.protocolState
      (primeV2SendFramesLoop messageId size fuel first remaining sequence) := by
  induction fuel generalizing first remaining sequence with
  | zero => exact within_pure ()
  | succ fuel ih =>
      unfold primeV2SendFramesLoop
      refine within_bind within_get fun h => ?_
      refine within_bind (within_ofExcept _) fun frame => ?_
      refine within_bind (keeps_primeV2SendFrame frame) fun _ => ?_
      exact within_ite (fun _ => within_pure ()) fun _ => ih _ _ _

theorem keeps_primeV2SendFramesFrom (messageId : Nat) (data : List UInt8) (offset sequence : Nat) :
    Keeps PrimeHandle.protocolState
      (primeV2SendFramesFrom messageId data offset sequence) := by
  unfold primeV2SendFramesFrom
  refine within_bind within_get fun h => ?_
  refine within_ite (fun _ => within_throw _) fun _ => ?_
  refine within_ite (fun _ => within_throw _) fun _ => ?_
  exact within_ite (fun _ => within_throw _) fun _ => keeps_primeV2SendFramesLoop _ _ _ _

theorem keeps_primeV2SendLoop {messageId : Nat} {data : List UInt8} {maxRetries : Nat}
    (controls retries : Nat) : Keeps PrimeHandle.protocolState
      (primeV2SendLoop messageId data maxRetries controls retries) := by
  induction controls generalizing retries with
  | zero => exact within_throw _
  | succ controls ih =>
      unfold primeV2SendLoop
      refine within_bind keeps_primeRecv fun event => ?_
      cases event with
      | error e =>
          refine within_ite (fun _ => within_throw e) fun _ => ?_
          exact within_bind (keeps_primeV2SendFramesFrom _ _ _ _) fun _ => ih _
      | ok raw =>
          refine within_ite (fun _ => ih _) fun _ => ?_
          refine within_bind (within_ofExcept _) fun ack => ?_
          refine within_ite (fun _ => ih _) fun _ => ?_
          refine within_ite (fun _ => within_pure ()) fun _ => ?_
          refine within_ite (fun _ => within_throw _) fun _ => ?_
          exact within_bind (keeps_primeV2SendFramesFrom _ _ _ _) fun _ => ih _

/-- Sending a V2 message takes an identifier and leaves the protocol alone. -/
theorem keeps_version_primeV2SendMessageWithRetries (data : List UInt8) (maxRetries : Nat) :
    Keeps PrimeHandle.version (primeV2SendMessageWithRetries data maxRetries) := by
  have hfst {α : Type} {p : PrimeProc α} (h : Keeps PrimeHandle.protocolState p) :
      Keeps PrimeHandle.version p := h.mono fun _ _ heq => congrArg Prod.fst heq
  unfold primeV2SendMessageWithRetries
  refine within_bind within_get fun h => within_ite (fun _ => within_throw _) fun _ => ?_
  have hnext : Keeps PrimeHandle.version primeProtocolNextMessageId := by
    intro s
    rfl
  refine within_bind hnext fun messageId => within_ite (fun _ => within_throw _) fun _ => ?_
  refine within_bind (hfst (keeps_primeV2SendFramesFrom _ _ _ _)) fun _ => ?_
  exact within_bind (hfst (keeps_primeV2SendLoop _ _)) fun _ => within_pure messageId

theorem keeps_primeV2RecvLegacyLoop {totalSize : Nat} (fuel reportIndex : Nat)
    (message : List UInt8) : Keeps PrimeHandle.protocolState
      (primeV2RecvLegacyLoop totalSize fuel reportIndex message) := by
  induction fuel generalizing reportIndex message with
  | zero => exact within_throw _
  | succ fuel ih =>
      unfold primeV2RecvLegacyLoop
      refine within_ite (fun _ => within_pure _) fun _ => ?_
      refine within_bind keeps_primeRecv fun event => ?_
      cases event with
      | error e => exact within_throw e
      | ok raw => exact within_ite (fun _ => within_throw _) fun _ => ih _ _

theorem keeps_primeV2RecvLegacyMessage (first : List UInt8) :
    Keeps PrimeHandle.protocolState (primeV2RecvLegacyMessage first) := by
  unfold primeV2RecvLegacyMessage
  refine within_ite (fun _ => within_throw _) fun _ => ?_
  refine within_bind (within_ofExcept _) fun totalSize => ?_
  refine within_ite (fun _ => within_throw _) fun _ => ?_
  exact within_bind within_get fun h => keeps_primeV2RecvLegacyLoop _ _ _

theorem keeps_nack (st : PrimeV2Rx) : Keeps PrimeHandle.protocolState st.nack :=
  within_bind (keeps_primeV2SendAckFrame _ _ _ _) fun _ => within_pure _

theorem keeps_primeV2RecvLoop (fuel : Nat) (st : PrimeV2Rx) :
    Keeps PrimeHandle.protocolState (primeV2RecvLoop fuel st) := by
  induction fuel generalizing st with
  | zero => exact within_throw _
  | succ fuel ih =>
      unfold primeV2RecvLoop
      refine within_bind keeps_primeRecv fun event => ?_
      cases event with
      | error e =>
          refine within_ite (fun _ => within_throw e) fun _ => ?_
          exact within_bind (keeps_nack st) fun st => ih st
      | ok raw =>
          refine within_ite (fun _ => within_ite (fun _ => within_throw _) fun _ => ih _) fun _ => ?_
          refine within_ite (fun _ => keeps_primeV2RecvLegacyMessage raw) fun _ => ?_
          refine within_bind (within_ofExcept _) fun frame => ?_
          refine within_bind (within_ofExcept _) fun st => ?_
          refine within_ite (fun _ => ?_) fun _ => ?_
          · refine within_ite (fun _ => within_throw _) fun _ => ?_
            exact within_bind (keeps_nack st) fun st => ih st
          · refine within_bind within_get fun h => ?_
            refine within_ite (fun _ => within_throw _) fun _ => ?_
            refine within_ite (fun _ => ?_) fun _ => within_ite (fun _ => ?_) fun _ => ih _
            · exact within_bind (keeps_primeV2SendAckFrame _ _ _ _) fun _ => within_pure _
            · exact within_bind (keeps_primeV2SendAckFrame _ _ _ _) fun _ => ih _

theorem keeps_primeV2RecvMessage : Keeps PrimeHandle.protocolState primeV2RecvMessage := by
  unfold primeV2RecvMessage
  refine within_bind within_get fun h => ?_
  exact within_ite (fun _ => within_throw _) fun _ => keeps_primeV2RecvLoop _ _

theorem keeps_primeSendDataLoop {size payloadSize : Nat} (q : Nat) (pktId : UInt8)
    (data : List UInt8) :
    Keeps PrimeHandle.protocolState (primeSendDataLoop size payloadSize q pktId data) := by
  induction q generalizing pktId data with
  | zero => exact within_ite (fun _ => keeps_primeSend _) fun _ => within_pure ()
  | succ q ih => exact within_bind (keeps_primeSend _) fun _ => ih _ _

theorem keeps_primeRecvDataLoop {cmd : UInt8} (fuel stale count expected : Nat)
    (data : List UInt8) : Keeps PrimeHandle.protocolState
      (primeRecvDataLoop cmd fuel stale count expected data) := by
  induction fuel generalizing stale count expected data with
  | zero => exact within_throw _
  | succ fuel ih =>
      unfold primeRecvDataLoop
      refine within_bind keeps_primeRecv fun event => ?_
      cases event with
      | error e => exact within_throw e
      | ok raw =>
          refine within_ite (fun _ => within_throw _) fun _ => ?_
          refine within_ite (fun _ => within_ite (fun _ => within_throw _) fun _ => ih _ _ _ _)
            fun _ => ?_
          refine within_ite (fun _ => ih _ _ _ _) fun _ => ?_
          refine within_ite (fun _ => within_throw _) fun _ => ?_
          refine within_bind (within_ofExcept _) fun expected => ?_
          refine within_bind (within_ofExcept _) fun data => ?_
          exact within_ite (fun _ => within_pure _) fun _ => ih _ _ _ _

/-- The probe of the older protocol does not touch the protocol state. -/
theorem keeps_primeProtocolProbeLegacy :
    Keeps PrimeHandle.protocolState primeProtocolProbeLegacy := by
  unfold primeProtocolProbeLegacy
  refine within_bind (within_bind within_get fun h => keeps_primeSendDataLoop _ _ _) fun _ => ?_
  refine within_bind (within_bind within_get fun h => keeps_primeRecvDataLoop _ _ _ _ _)
    fun reply => ?_
  exact within_ite (fun _ => within_throw _) fun _ => within_pure ()

/-- The probe of V2 leaves the protocol as it is set. -/
theorem keeps_version_primeProtocolProbeV2 : Keeps PrimeHandle.version primeProtocolProbeV2 := by
  unfold primeProtocolProbeV2
  refine within_bind (keeps_version_primeV2SendMessageWithRetries _ _) fun _ => ?_
  refine within_bind (keeps_primeV2RecvMessage.mono fun _ _ heq => congrArg Prod.fst heq)
    fun reply => ?_
  exact within_ite (fun _ => within_pure ()) fun _ => within_throw _

/-! ## The timeout -/

/-- What the negotiation itself leaves alone. -/
def CalcHandle.cableState (h : CalcHandle) : Int × Bool × CableFncts :=
  (h.readTimeout, h.cableBusy, h.fncts)

theorem keeps_onPrime {α : Type} (p : PrimeProc α) : Keeps CalcHandle.cableState (onPrime p) :=
  within_zoom fun _ => rfl

theorem keeps_negotiateLegacy (v2Res : PrimeErr) :
    Keeps CalcHandle.cableState (negotiateLegacy v2Res) := by
  unfold negotiateLegacy
  refine within_bind (within_modify fun _ => rfl) fun _ => ?_
  refine within_bind (keeps_onPrime _) fun ret => ?_
  cases ret with
  | ok _ => exact within_pure ()
  | error e => exact within_throw _

theorem keeps_negotiateShortened : Keeps CalcHandle.cableState negotiateShortened := by
  unfold negotiateShortened
  refine within_bind (keeps_onPrime _) fun ret => ?_
  cases ret with
  | error e => exact within_throw _
  | ok _ =>
      refine within_bind (within_modify fun _ => rfl) fun _ => ?_
      refine within_bind (keeps_onPrime _) fun ret => ?_
      cases ret with
      | ok _ => exact within_modify fun _ => rfl
      | error v2Res => exact keeps_negotiateLegacy v2Res

/-- The cable stores a new timeout. -/
def CalcHandle.stores (h : CalcHandle) : Bool := !h.cableBusy && h.fncts == .hid

theorem exec_hpcablesOptionsSetReadTimeout (timeout : Int) (h : CalcHandle) :
    exec (hpcablesOptionsSetReadTimeout timeout) h
      = (.ok (!h.cableBusy && h.fncts != .missing),
        { h with readTimeout := if h.stores then timeout else h.readTimeout }) := by
  obtain ⟨prime, supportsV2, hasCable, isOpen, attached, cableBusy, fncts, readTimeout⟩ := h
  cases cableBusy <;> cases fncts <;> rfl

/-- The first timeout is there again, stored once more or never lost. -/
theorem exec_restoreTimeout {s u : CalcHandle} {timeout : Int}
    (h : Same CalcHandle.cableState
      { s with readTimeout := if s.stores then timeout else s.readTimeout } u) :
    exec (restoreTimeout (some s.readTimeout)) u
      = (.ok (), { u with readTimeout := s.readTimeout }) := by
  have htimeout : u.readTimeout = if s.stores then timeout else s.readTimeout :=
    congrArg Prod.fst h
  have hstores : u.stores = s.stores := by
    have hrest := congrArg Prod.snd h
    unfold CalcHandle.stores
    rw [show u.cableBusy = s.cableBusy from congrArg Prod.fst hrest,
      show u.fncts = s.fncts from congrArg Prod.snd hrest]
  rw [restoreTimeout, exec_bind_ok (exec_hpcablesOptionsSetReadTimeout _ u), exec_pure, hstores,
    htimeout]
  cases s.stores <;> rfl

theorem exec_restoreTimeout_none {s u : CalcHandle} (h : Same CalcHandle.cableState s u) :
    exec (restoreTimeout none) u = (.ok (), { u with readTimeout := s.readTimeout }) := by
  rw [← show u.readTimeout = s.readTimeout from congrArg Prod.fst h]
  rfl

/-- Whatever shortening does to the timeout, restoring undoes it. -/
theorem exec_shortenTimeout (s : CalcHandle) :
    ∃ saved timeout, exec shortenTimeout s = (.ok saved, { s with readTimeout := timeout })
      ∧ ∀ u, Same CalcHandle.cableState { s with readTimeout := timeout } u →
        exec (restoreTimeout saved) u = (.ok (), { u with readTimeout := s.readTimeout }) := by
  have hset := exec_hpcablesOptionsSetReadTimeout primeProtocolProbeTimeoutMs s
  unfold shortenTimeout
  rw [exec_bind_ok (exec_get s)]
  by_cases hlong : primeProtocolProbeTimeoutMs < s.readTimeout
  · rw [if_pos hlong, exec_bind_ok hset]
    cases hsuccess : !s.cableBusy && s.fncts != .missing with
    | false =>
        have hstores : s.stores = false := by
          unfold CalcHandle.stores
          revert hsuccess
          cases s.cableBusy <;> cases s.fncts <;> decide
        rw [hstores]
        exact ⟨none, s.readTimeout, rfl, fun u hu => exec_restoreTimeout_none hu⟩
    | true => exact ⟨some s.readTimeout, _, rfl, fun u hu => exec_restoreTimeout hu⟩
  · rw [if_neg hlong]
    exact ⟨none, s.readTimeout, rfl, fun u hu => exec_restoreTimeout_none hu⟩

/-! ## The protocol -/

/-- The state of a handle that uses the older protocol. -/
def CalcHandle.IsLegacy (h : CalcHandle) : Prop :=
  h.prime.version = .legacy ∧ h.prime.nextMessageId = 1 ∧ h.supportsV2 = false

/-- The report that selects the protocol goes out. -/
def SelectorSent (h : PrimeHandle) : Prop := (exec (primeSend selector) h).1 = .ok ()

/-- Behind the selector, the request for session information is sent as a V2
message, and the reply to it announces V2. -/
def ReplyAnnouncesV2 (h : PrimeHandle) : Prop :=
  ∃ h₁ id h₂ reply h₃, exec (primeSend selector) h = (.ok (), h₁)
    ∧ exec (primeV2SendMessageWithRetries probeRequest 0) { h₁ with version := .v2 } = (.ok id, h₂)
    ∧ exec primeV2RecvMessage h₂ = (.ok reply, h₃) ∧ AnnouncesV2 reply

theorem exec_primeProtocolProbeV2_eq_ok_iff {h : PrimeHandle} :
    (exec primeProtocolProbeV2 h).1 = .ok ()
      ↔ ∃ id h₂ reply h₃, exec (primeV2SendMessageWithRetries probeRequest 0) h = (.ok id, h₂)
        ∧ exec primeV2RecvMessage h₂ = (.ok reply, h₃) ∧ AnnouncesV2 reply := by
  unfold primeProtocolProbeV2
  cases hsend : exec (primeV2SendMessageWithRetries probeRequest 0) h with
  | mk sent h₂ =>
      cases sent with
      | error e =>
          rw [exec_bind_error hsend]
          simp
      | ok id =>
          rw [exec_bind_ok hsend]
          cases hrecv : exec primeV2RecvMessage h₂ with
          | mk received h₃ =>
              cases received with
              | error e =>
                  rw [exec_bind_error hrecv]
                  simp [hrecv]
              | ok reply =>
                  rw [exec_bind_ok hrecv]
                  by_cases hreply : AnnouncesV2 reply
                  · rw [if_pos hreply]
                    simp [hrecv, hreply]
                  · rw [if_neg hreply]
                    simp [hrecv, hreply]

theorem exec_onPrime {α : Type} (p : PrimeProc α) (s : CalcHandle) :
    exec (onPrime p) s = (.ok (exec p s.prime).1, { s with prime := (exec p s.prime).2 }) :=
  exec_zoom _ _ p s

/-- Falling back ends with the older protocol, whatever its probe does. -/
theorem isLegacy_negotiateLegacy (v2Res : PrimeErr) (s : CalcHandle) :
    (exec (negotiateLegacy v2Res) s).2.IsLegacy := by
  let reset : CalcHandle :=
    { s with prime := { s.prime with version := .legacy, nextMessageId := 1 }, supportsV2 := false }
  have hreset : exec primeProtocolResetLegacy s = (.ok (), reset) := rfl
  have hkept := keeps_primeProtocolProbeLegacy reset.prime
  have hlegacy : CalcHandle.IsLegacy
      { reset with prime := (exec primeProtocolProbeLegacy reset.prime).2 } :=
    ⟨congrArg Prod.fst hkept, congrArg Prod.snd hkept, rfl⟩
  unfold negotiateLegacy
  rw [exec_bind_ok hreset, exec_bind_ok (exec_onPrime _ reset)]
  cases (exec primeProtocolProbeLegacy reset.prime).1 with
  | ok _ => exact hlegacy
  | error e => exact hlegacy

theorem exec_negotiateShortened (s : CalcHandle) (hversion : s.prime.version = .legacy) :
    ((exec negotiateShortened s).2.prime.version = .v2 ↔ ReplyAnnouncesV2 s.prime)
      ∧ ∀ e, (exec negotiateShortened s).1 = .error e →
        (exec negotiateShortened s).2.prime.version = .legacy
          ∧ (SelectorSent s.prime ∨ s.IsLegacy → (exec negotiateShortened s).2.IsLegacy) := by
  have hkept : (exec (primeSend selector) s.prime).2.protocolState = s.prime.protocolState :=
    keeps_primeSend selector s.prime
  unfold negotiateShortened SelectorSent ReplyAnnouncesV2
  rw [exec_bind_ok (exec_onPrime _ s)]
  cases hselect : exec (primeSend selector) s.prime with
  | mk sent h₁ =>
      rw [hselect] at hkept
      have hversion₁ : h₁.version = .legacy := (congrArg Prod.fst hkept).trans hversion
      cases sent with
      | error e =>
          have hnever : h₁.version ≠ .v2 := by
            rw [hversion₁]
            decide
          constructor
          · constructor
            · intro hv2
              exact absurd hv2 hnever
            · rintro ⟨_, _, _, _, _, hsent, -⟩
              cases hsent
          · intro _ _
            refine ⟨hversion₁, ?_⟩
            rintro (hsent | hlegacy)
            · cases hsent
            · exact ⟨hversion₁, (congrArg Prod.snd hkept).trans hlegacy.2.1, hlegacy.2.2⟩
      | ok _ =>
          have hkeep := keeps_version_primeProtocolProbeV2 { h₁ with version := .v2 }
          have hprobe := exec_primeProtocolProbeV2_eq_ok_iff (h := { h₁ with version := .v2 })
          dsimp only
          rw [exec_bind_ok (exec_modify _ _), exec_bind_ok (exec_onPrime _ _)]
          dsimp only
          cases hv2 : exec primeProtocolProbeV2 { h₁ with version := .v2 } with
          | mk ret h₂ =>
              rw [hv2] at hkeep hprobe
              cases ret with
              | ok _ =>
                  obtain ⟨id, h₃, reply, h₄, hsend, hrecv, hreply⟩ := hprobe.mp rfl
                  constructor
                  · constructor
                    · intro _
                      exact ⟨h₁, id, h₃, reply, h₄, rfl, hsend, hrecv, hreply⟩
                    · intro _
                      exact hkeep
                  · intro e herr
                    cases herr
              | error v2Res =>
                  have hsilent : ¬∃ h₁', ∃ id h₃ reply h₄,
                      ((Except.ok () : Except PrimeErr Unit), h₁) = (.ok (), h₁')
                      ∧ exec (primeV2SendMessageWithRetries probeRequest 0)
                        { h₁' with version := .v2 } = (.ok id, h₃)
                      ∧ exec primeV2RecvMessage h₃ = (.ok reply, h₄) ∧ AnnouncesV2 reply := by
                    rintro ⟨_, id, h₃, reply, h₄, hsame, hsend, hrecv, hreply⟩
                    cases hsame
                    exact absurd (hprobe.mpr ⟨id, h₃, reply, h₄, hsend, hrecv, hreply⟩) (by simp)
                  have hlegacy := isLegacy_negotiateLegacy v2Res
                    { s with prime := h₂ }
                  constructor
                  · constructor
                    · intro hversion'
                      exact absurd (hlegacy.1.symm.trans hversion') (by decide)
                    · intro hreply
                      exact absurd hreply hsilent
                  · intro _ _
                    exact ⟨hlegacy.1, fun _ => hlegacy⟩

/-- **Negotiation.**  The timeout is as it was.  A handle that has no open and
attached cable, or uses V2 already, is left alone.  Any other uses V2 behind
the negotiation exactly when the calculator's reply announced it; when the
negotiation fails, it uses the older protocol, in the state of a reset if the
selector went out and as before if not. -/
theorem primeProtocolNegotiate_consistent (s : CalcHandle) :
    (exec primeProtocolNegotiate s).2.readTimeout = s.readTimeout
      ∧ (¬(s.hasCable ∧ s.isOpen ∧ s.attached) →
        exec primeProtocolNegotiate s = (.error .noCable, s))
      ∧ (s.hasCable ∧ s.isOpen ∧ s.attached → s.prime.version = .v2 →
        exec primeProtocolNegotiate s = (.ok (), s))
      ∧ (s.hasCable ∧ s.isOpen ∧ s.attached → s.prime.version = .legacy →
        ((exec primeProtocolNegotiate s).2.prime.version = .v2 ↔ ReplyAnnouncesV2 s.prime)
          ∧ ∀ e, (exec primeProtocolNegotiate s).1 = .error e →
            (exec primeProtocolNegotiate s).2.prime.version = .legacy
              ∧ (SelectorSent s.prime ∨ s.IsLegacy →
                (exec primeProtocolNegotiate s).2.IsLegacy)) := by
  unfold primeProtocolNegotiate
  rw [exec_bind_ok (exec_get s)]
  by_cases hready : s.hasCable ∧ s.isOpen ∧ s.attached
  · rw [if_neg (not_not.mpr hready)]
    cases hversion : s.prime.version with
    | v2 =>
        rw [if_pos rfl]
        refine ⟨rfl, fun h => absurd hready h, fun _ _ => rfl, fun _ h => ?_⟩
        cases h
    | legacy =>
        rw [if_neg (by decide)]
        obtain ⟨saved, timeout, hshorten, hrestore⟩ := exec_shortenTimeout s
        have hbody := exec_negotiateShortened { s with readTimeout := timeout } hversion
        have hrun : exec (bracket shortenTimeout restoreTimeout negotiateShortened) s
            = ((exec negotiateShortened { s with readTimeout := timeout }).1,
              { (exec negotiateShortened { s with readTimeout := timeout }).2 with
                readTimeout := s.readTimeout }) := by
          rw [bracket, exec_bind_ok hshorten, exec_bind_ok (exec_attempt _ _),
            exec_bind_ok (hrestore _ (keeps_negotiateShortened _)), exec_ofExcept]
        rw [hrun]
        refine ⟨rfl, fun h => absurd hready h, fun _ h => ?_, fun _ _ => hbody⟩
        cases h
  · rw [if_pos hready]
    exact ⟨rfl, fun _ => rfl, fun h => absurd h hready, fun h => absurd h hready⟩

/-- With a handle in V2 whose cable was detached it fails, and the handle still
says V2. -/
theorem primeProtocolNegotiate_keeps_v2 :
    ∃ s : CalcHandle, (exec primeProtocolNegotiate s).1 = .error .noCable
      ∧ (exec primeProtocolNegotiate s).2.prime.version = .v2 :=
  ⟨⟨⟨⟨[], [], none⟩, .g2, .v2, 2⟩, true, false, false, false, false, .hid, 1000⟩, rfl, rfl⟩

end Tilibs.Prime
