import Tilibs.Lib.Proc
import Tilibs.Lib.Run

/-!
# Tilibs.Cables.LinkUsb1

Receiving over USB (`link_usb1.cc`): bytes are taken from a buffer that is filled
from one transfer at a time, and the check function leaves a transfer pending
that the next read finds.

Behind a full transfer some devices send an empty one.  `slv_get` fetches it
into the destination of the caller, and does not look at how long it is; where it
is not empty, its bytes replace those that have just been read
(`slvGet_loses_transfer`), and elsewhere the bytes come out as they came in
(`usbRun_preserves_stream`).
-/

namespace Tilibs.Cables

open Tilibs.Lib Proc

/-! ## The handle -/

inductive UsbPid
  | tiglusb | ti89tm | ti84p | ti84pSe | nspire | ti84Evo | nspireCradle | nspireCxii
  | labpro | easytempGotemp | easylinkGolink | cbr2Gomotion | godirect
  deriving DecidableEq, Repr

def isHidStyleDevice (pid : UsbPid) : Bool :=
  pid = .easytempGotemp ∨ pid = .easylinkGolink ∨ pid = .cbr2Gomotion

def isGdxStyleDevice (pid : UsbPid) : Bool := pid = .godirect

/-- The devices that a read is followed by another one for. -/
def wantsExtraRead (pid : UsbPid) (len : Nat) : Bool :=
  (pid = .nspire ∨ pid = .nspireCradle) ∨
    (len = 0 ∧ (pid = .ti89tm ∨ pid = .ti84p ∨ pid = .ti84pSe))

/-- The fields that receiving uses, and the transfers that the device will still
deliver.  The buffer is as long as what has been stored in it. -/
structure UsbHandle where
  pid : UsbPid
  maxPsIn : Nat
  rBuf : List UInt8
  rBufPtr : Nat
  nBytesRead : Nat
  wasMaxPs : Bool
  ioPending : Bool
  pipe : List (List UInt8)
  deriving DecidableEq, Repr

inductive UsbErr
  | readTimeout
  | readError
  deriving DecidableEq, Repr

abbrev UsbProc := Proc UsbHandle UsbErr

/-- The handle behind `slv_open`, with nothing in its buffer. -/
def UsbHandle.opened (pid : UsbPid) (maxPsIn : Nat) (pipe : List (List UInt8)) : UsbHandle :=
  { pid, maxPsIn, rBuf := [], rBufPtr := 0, nBytesRead := 0, wasMaxPs := false,
    ioPending := false, pipe }

/-- A transfer into the buffer. -/
def UsbHandle.store (h : UsbHandle) (bytes : List UInt8) : UsbHandle :=
  { h with rBuf := bytes ++ h.rBuf.drop bytes.length }

/-- So many bytes of the buffer are to be read. -/
def UsbHandle.rewind (h : UsbHandle) (len : Nat) : UsbHandle :=
  { h with nBytesRead := len, rBufPtr := 0 }

/-- They are those of one transfer. -/
def UsbHandle.refilled (h : UsbHandle) (len : Nat) : UsbHandle :=
  { h with wasMaxPs := decide (len = h.maxPsIn), nBytesRead := len, rBufPtr := 0 }

/-! ## Transfers -/

/-- Wait for the next transfer; one that is longer than what was asked for is an
overflow. -/
def awaitTransfer : UsbProc (List UInt8) := do
  let h ← get
  match h.pipe with
  | [] => throw .readTimeout
  | bytes :: pipe => do
      set { h with pipe }
      if bytes.length ≤ h.maxPsIn then pure bytes else throw .readError

/-- Where the bytes of a transfer go. -/
inductive Destination
  | rBuf
  | data
  deriving DecidableEq, Repr

/-- `slv_bulk_read`: a pending transfer is waited for instead of a new one, and
keeps its own destination. -/
def slvBulkRead (buffer : Destination) : UsbProc (Destination × List UInt8) := do
  let h ← get
  let buffer := if h.ioPending then .rBuf else buffer
  set { h with ioPending := false }
  let bytes ← awaitTransfer
  (if buffer = .rBuf then modify fun h => h.store bytes else pure ())
  pure (buffer, bytes)

/-- One interrupt transfer into the buffer. -/
def interruptRead : UsbProc (List UInt8) := do
  let bytes ← awaitTransfer
  modify fun h => h.store bytes
  pure bytes

/-! ## Reading -/

/-- One read into the buffer. -/
def slvFillOnce : UsbProc (List UInt8) := do
  let h ← get
  if isHidStyleDevice h.pid ∨ isGdxStyleDevice h.pid then interruptRead
  else Prod.snd <$> slvBulkRead .rBuf

/-- Read into the buffer until a transfer is not empty. -/
def slvFill : Nat → UsbProc (List UInt8)
  | 0 => throw .readTimeout
  | fuel + 1 => do
      let bytes ← slvFillOnce
      if bytes = [] then slvFill fuel else pure bytes

/-- The part of `slv_get_` for an empty buffer. -/
def slvRefill : UsbProc Unit := do
  let h ← get
  match ← attempt (slvFill (h.pipe.length + 1)) with
  | .ok bytes => modify fun h => h.refilled bytes.length
  | .error e => do
      modify fun h => { h with wasMaxPs := false, nBytesRead := 0 }
      throw e

/-- `slv_get_`: the next byte, from a buffer that is filled when it is empty. -/
def slvGetByte : UsbProc UInt8 := do
  let h ← get
  (if h.nBytesRead = 0 then slvRefill else pure ())
  let h ← get
  set { h with rBufPtr := h.rBufPtr + 1, nBytesRead := h.nBytesRead - 1 }
  pure (h.rBuf.getD h.rBufPtr 0)

def slvGetLoop : Nat → UsbProc (List UInt8)
  | 0 => pure []
  | n + 1 => do
      let byte ← slvGetByte
      let data ← slvGetLoop n
      pure (byte :: data)

/-- `slv_get`, with the bytes it has written from its destination on; the caller
has room for the first `len` of them. -/
def slvGet (len : Nat) : UsbProc (List UInt8) := do
  let data ← slvGetLoop len
  let h ← get
  if h.wasMaxPs ∧ h.nBytesRead = 0 ∧ wantsExtraRead h.pid len then
    match ← attempt (slvBulkRead .data) with
    | .ok (.rBuf, _) => pure data
    | .ok (.data, bytes) => pure (bytes ++ data.drop bytes.length)
    | .error e => do
        modify fun h => { h with nBytesRead := 0 }
        throw e
  else pure data

/-! ## Checking -/

/-- What a look at the transfer that is under way finds. -/
inductive Poll
  | running
  | interrupted
  | timedOut
  | done
  deriving DecidableEq, Repr

/-- The part of `slv_check` for interrupt transfers; the value is the new status. -/
def slvCheckInterrupt : Poll → UsbProc (Option Bool)
  | .done => do
      let bytes ← interruptRead
      if 0 < bytes.length then do
        modify fun h => h.rewind bytes.length
        pure (some true)
      else throw .readError
  | .timedOut => pure (some false)
  | .running | .interrupted => throw .readError

/-- The part for bulk transfers, with one that is pending. -/
def slvCheckPending : Poll → UsbProc (Option Bool)
  | .running | .interrupted => pure none
  | .timedOut => do
      modify fun h => { h with ioPending := false }
      pure none
  | .done => do
      let h ← get
      match h.pipe with
      | [] => pure none
      | bytes :: pipe =>
          if bytes.length ≤ h.maxPsIn then do
            set { h.store bytes with pipe, ioPending := false }
            if 0 < bytes.length then do
              modify fun h => h.rewind bytes.length
              pure (some true)
            else pure none
          else do
            set { h with pipe, ioPending := false }
            throw .readError

/-- `slv_check`; the status is `none` where it is not stored. -/
def slvCheck (poll : Poll) : UsbProc (Option Bool) := do
  let h ← get
  if 0 < h.nBytesRead then pure (some true)
  else if isHidStyleDevice h.pid ∨ isGdxStyleDevice h.pid then slvCheckInterrupt poll
  else do
    modify fun h => { h with ioPending := true }
    slvCheckPending poll

/-! ## Runs -/

/-- A call of the driver. -/
inductive UsbOp
  | get (len : Nat)
  | check (poll : Poll)
  deriving DecidableEq, Repr

/-- A destination: its length, and the bytes written from its start on. -/
structure Received where
  len : Nat
  data : List UInt8
  deriving DecidableEq, Repr

/-- The destination of a call, if it has one. -/
def UsbOp.call : UsbOp → UsbProc (List Received)
  | .get len => do
      let data ← slvGet len
      pure [⟨len, data⟩]
  | .check poll => do
      let _ ← slvCheck poll
      pure []

/-- One call in a run; a call that fails gives nothing. -/
def usbStep (op : UsbOp) (h : UsbHandle) : List Received × UsbHandle :=
  match exec op.call h with
  | (.ok out, h) => (out, h)
  | (.error _, h) => ([], h)

/-- The bytes that the callers find in their destinations. -/
def returned (out : List Received) : List UInt8 := out.flatMap fun r => r.data.take r.len

/-- A request ends with the last byte of a full transfer, and this is what
follows. -/
def EndsFull (h : UsbHandle) (len : Nat) (rest : List (List UInt8)) : Prop :=
  (len = h.nBytesRead ∧ h.wasMaxPs ∧ rest = h.pipe) ∨
    ∃ before last, h.pipe = before ++ last :: rest ∧ last ≠ [] ∧ last.length = h.maxPsIn ∧
      h.nBytesRead + before.flatten.length + last.length = len

/-- The transfer behind a full one that a request ends with is empty, where the device
is one that gets another read. -/
def ExtraReadEmpty (h : UsbHandle) : UsbOp → Prop
  | .get len => wantsExtraRead h.pid len → ∀ rest bytes, EndsFull h len (bytes :: rest) → bytes = []
  | .check _ => True

/-- A call returns. -/
def Succeeds (op : UsbOp) (h : UsbHandle) : Prop := (exec op.call h).1.isOk

instance (op : UsbOp) (h : UsbHandle) : Decidable (Succeeds op h) :=
  inferInstanceAs (Decidable (_ = true))

/-! ## What a handle holds -/

/-- The bytes of the buffer that have not been read. -/
def UsbHandle.unread (h : UsbHandle) : List UInt8 := (h.rBuf.drop h.rBufPtr).take h.nBytesRead

/-- The bytes that are still to be read. -/
def UsbHandle.held (h : UsbHandle) : List UInt8 := h.unread ++ h.pipe.flatten

def UsbHandle.BufferFits (h : UsbHandle) : Prop := h.rBufPtr + h.nBytesRead ≤ h.rBuf.length

section Held

variable {h t : UsbHandle} {bytes : List UInt8}

theorem unread_of_none (hnone : h.nBytesRead = 0) : h.unread = [] := by
  rw [UsbHandle.unread, hnone, List.take_zero]

theorem held_of_none (hnone : h.nBytesRead = 0) : h.held = h.pipe.flatten := by
  rw [UsbHandle.held, unread_of_none hnone, List.nil_append]

/-- A buffer that has just been filled. -/
theorem unread_of_filled (hbuf : bytes <+: h.rBuf) (hptr : h.rBufPtr = 0)
    (hcount : h.nBytesRead = bytes.length) : h.unread = bytes ∧ h.BufferFits := by
  obtain ⟨old, hold⟩ := hbuf
  constructor
  · rw [UsbHandle.unread, hptr, hcount, List.drop_zero, ← hold, List.take_left]
  · rw [UsbHandle.BufferFits, hptr, hcount, ← hold, List.length_append]
    omega

theorem exec_awaitTransfer (hrun : exec awaitTransfer h = (.ok bytes, t)) :
    h.pipe = bytes :: t.pipe ∧ t = { h with pipe := t.pipe } := by
  rw [awaitTransfer, exec_bind_ok (exec_get h)] at hrun
  cases hpipe : h.pipe with
  | nil =>
      rw [hpipe] at hrun
      cases hrun
  | cons first pipe =>
      rw [hpipe] at hrun
      dsimp only at hrun
      rw [exec_bind_ok (exec_set _ _)] at hrun
      split at hrun
      · cases hrun
        exact ⟨rfl, rfl⟩
      · cases hrun

theorem exec_interruptRead (hrun : exec interruptRead h = (.ok bytes, t)) :
    h.pipe = bytes :: t.pipe ∧ t = { h.store bytes with pipe := t.pipe } := by
  obtain ⟨_, u, hread, hrun⟩ := exec_bind_eq_ok_iff.mp hrun
  obtain ⟨hpipe, hu⟩ := exec_awaitTransfer hread
  rw [exec_bind_ok (exec_modify _ _)] at hrun
  cases hrun
  rw [hu]
  exact ⟨hpipe, rfl⟩

theorem exec_slvBulkRead {buffer used : Destination}
    (hrun : exec (slvBulkRead buffer) h = (.ok (used, bytes), t)) :
    h.pipe = bytes :: t.pipe ∧ (used = .rBuf → t = { h.store bytes with pipe := t.pipe, ioPending := false })
      ∧ (used = .data → t = { h with pipe := t.pipe, ioPending := false })
      ∧ (buffer = .rBuf → used = .rBuf) := by
  rw [slvBulkRead, exec_bind_ok (exec_get h)] at hrun
  dsimp only at hrun
  rw [exec_bind_ok (exec_set _ _)] at hrun
  obtain ⟨_, u, hread, hrun⟩ := exec_bind_eq_ok_iff.mp hrun
  obtain ⟨hpipe, hu⟩ := exec_awaitTransfer hread
  generalize hused : (if h.ioPending then Destination.rBuf else buffer) = place at hrun
  have hsame : buffer = .rBuf → place = .rBuf := by
    intro hbuffer
    rw [← hused, hbuffer, ite_self]
  cases place with
  | rBuf =>
      rw [if_pos rfl, exec_bind_ok (exec_modify _ _)] at hrun
      cases hrun
      rw [hu]
      exact ⟨hpipe, fun _ => rfl, fun h => (by cases h), hsame⟩
  | data =>
      rw [if_neg (by decide), exec_bind_ok (exec_pure _ _)] at hrun
      cases hrun
      rw [hu]
      exact ⟨hpipe, fun h => (by cases h), fun _ => rfl, hsame⟩

end Held

/-! ## Filling the buffer -/

/-- Behind empty transfers, one that is not has come into the buffer. -/
structure Filled (h : UsbHandle) (bytes : List UInt8) (t : UsbHandle) : Prop where
  pid : t.pid = h.pid
  maxPsIn : t.maxPsIn = h.maxPsIn
  nonempty : bytes ≠ []
  buffer : bytes <+: t.rBuf
  pipe : ∃ before, before.flatten = [] ∧ h.pipe = before ++ bytes :: t.pipe

section Fill

variable {h t : UsbHandle} {bytes : List UInt8}

/-- Either kind of transfer goes into the buffer. -/
theorem exec_slvFillOnce (hrun : exec slvFillOnce h = (.ok bytes, t)) :
    h.pipe = bytes :: t.pipe ∧ t.pid = h.pid ∧ t.maxPsIn = h.maxPsIn ∧ bytes <+: t.rBuf := by
  rw [slvFillOnce, exec_bind_ok (exec_get h)] at hrun
  split at hrun
  · obtain ⟨hpipe, ht⟩ := exec_interruptRead hrun
    rw [ht]
    exact ⟨hpipe, rfl, rfl, List.prefix_append bytes _⟩
  · rw [exec_map] at hrun
    cases hread : exec (slvBulkRead .rBuf) h with
    | mk result u =>
        rw [hread] at hrun
        cases result with
        | error e => cases hrun
        | ok read =>
            cases hrun
            obtain ⟨hpipe, hbuf, -, hused⟩ := exec_slvBulkRead hread
            rw [hbuf (hused rfl)]
            exact ⟨hpipe, rfl, rfl, List.prefix_append _ _⟩

theorem exec_slvFill {fuel : Nat} (hrun : exec (slvFill fuel) h = (.ok bytes, t)) :
    Filled h bytes t := by
  induction fuel generalizing h with
  | zero => cases hrun
  | succ fuel ih =>
      rw [slvFill] at hrun
      obtain ⟨first, u, hread, hrun⟩ := exec_bind_eq_ok_iff.mp hrun
      obtain ⟨hpipe, hpid, hmax, hbuf⟩ := exec_slvFillOnce hread
      split at hrun
      · rename_i hempty
        have hrest := ih hrun
        obtain ⟨before, hbefore, hu⟩ := hrest.pipe
        refine ⟨hrest.pid.trans hpid, hrest.maxPsIn.trans hmax, hrest.nonempty, hrest.buffer,
          first :: before, ?_, ?_⟩
        · rw [List.flatten_cons, hempty, hbefore]
          rfl
        · rw [hpipe, hu]
          rfl
      · rename_i hne
        cases hrun
        exact ⟨hpid, hmax, hne, hbuf, [], rfl, hpipe⟩

end Fill

/-! ## Reading bytes -/

/-- What reading takes out of a handle: the bytes that come out, from the buffer or up
to somewhere in a transfer behind it. -/
structure Reads (h : UsbHandle) (out : List UInt8) (t : UsbHandle) : Prop where
  pid : t.pid = h.pid
  maxPsIn : t.maxPsIn = h.maxPsIn
  fits : t.BufferFits
  held : h.held = out ++ t.held
  source : (t.pipe = h.pipe ∧ t.wasMaxPs = h.wasMaxPs ∧ h.nBytesRead = out.length + t.nBytesRead) ∨
    ∃ before last, h.pipe = before ++ last :: t.pipe ∧ last ≠ [] ∧
      t.wasMaxPs = decide (last.length = h.maxPsIn) ∧
      h.nBytesRead + before.flatten.length + last.length = out.length + t.nBytesRead

namespace Reads

variable {h t u : UsbHandle} {out out' : List UInt8}

theorem refl (hfits : h.BufferFits) : Reads h [] h :=
  ⟨rfl, rfl, hfits, rfl, Or.inl ⟨rfl, rfl, (Nat.zero_add _).symm⟩⟩

theorem trans (hfirst : Reads h out t) (hnext : Reads t out' u) : Reads h (out ++ out') u := by
  refine ⟨hnext.pid.trans hfirst.pid, hnext.maxPsIn.trans hfirst.maxPsIn, hnext.fits, ?_, ?_⟩
  · rw [hfirst.held, hnext.held, List.append_assoc]
  rw [List.length_append]
  cases hnext.source with
  | inl hbuffer =>
      obtain ⟨hpipe, hmax, hcount⟩ := hbuffer
      cases hfirst.source with
      | inl hfirst => exact Or.inl ⟨hpipe.trans hfirst.1, hmax.trans hfirst.2.1, by omega⟩
      | inr hfirst =>
          obtain ⟨before, last, hpipe', hne, hmax', hcount'⟩ := hfirst
          exact Or.inr ⟨before, last, by rw [hpipe', hpipe], hne, hmax.trans hmax', by omega⟩
  | inr hfilled =>
      obtain ⟨before, last, hpipe, hne, hmax, hcount⟩ := hfilled
      rw [hfirst.maxPsIn] at hmax
      cases hfirst.source with
      | inl hfirst =>
          exact Or.inr ⟨before, last, by rw [← hfirst.1, hpipe], hne, hmax, by omega⟩
      | inr hfirst =>
          obtain ⟨before', last', hpipe', hne', hmax', hcount'⟩ := hfirst
          refine Or.inr ⟨before' ++ last' :: before, last, ?_, hne, hmax, ?_⟩
          · rw [hpipe', hpipe, List.append_assoc]
            rfl
          · rw [List.flatten_append, List.flatten_cons, List.length_append, List.length_append]
            omega

end Reads

section Read

variable {h t : UsbHandle}

theorem exec_slvRefill (hnone : h.nBytesRead = 0) (hrun : exec slvRefill h = (.ok (), t)) :
    Reads h [] t ∧ t.nBytesRead ≠ 0 := by
  rw [slvRefill, exec_bind_ok (exec_get h), exec_bind_ok (exec_attempt _ h)] at hrun
  cases hfill : exec (slvFill (h.pipe.length + 1)) h with
  | mk result u =>
      rw [hfill] at hrun
      cases result with
      | error e =>
          rw [exec_bind_ok (exec_modify _ _)] at hrun
          cases hrun
      | ok bytes =>
          cases hrun
          have hfilled := exec_slvFill hfill
          obtain ⟨before, hbefore, hpipe⟩ := hfilled.pipe
          have hunread : (u.refilled bytes.length).unread = bytes
              ∧ (u.refilled bytes.length).BufferFits := unread_of_filled hfilled.buffer rfl rfl
          have hrest : (u.refilled bytes.length).pipe = u.pipe := rfl
          refine ⟨⟨hfilled.pid, hfilled.maxPsIn, hunread.2, ?_, Or.inr ⟨before, bytes, hpipe,
            hfilled.nonempty, ?_, ?_⟩⟩, ?_⟩
          · show h.held = (u.refilled bytes.length).held
            rw [held_of_none hnone, UsbHandle.held, hunread.1, hpipe, hrest]
            simp [hbefore]
          · rw [← hfilled.maxPsIn]
            rfl
          · show h.nBytesRead + before.flatten.length + bytes.length = 0 + bytes.length
            simp [hnone, hbefore]
          · show bytes.length ≠ 0
            simpa using hfilled.nonempty

/-- The next byte of a buffer that is not empty. -/
theorem reads_byte (hfits : h.BufferFits) (hsome : h.nBytesRead ≠ 0) :
    Reads h [h.rBuf.getD h.rBufPtr 0]
      { h with rBufPtr := h.rBufPtr + 1, nBytesRead := h.nBytesRead - 1 } := by
  unfold UsbHandle.BufferFits at hfits
  refine ⟨rfl, rfl, ?_, ?_, Or.inl ⟨rfl, rfl, ?_⟩⟩
  · show h.rBufPtr + 1 + (h.nBytesRead - 1) ≤ h.rBuf.length
    omega
  · obtain ⟨count, hcount⟩ := Nat.exists_eq_succ_of_ne_zero hsome
    have hlt : h.rBufPtr < h.rBuf.length := by omega
    have hunread : h.unread
        = h.rBuf.getD h.rBufPtr 0 :: (h.rBuf.drop (h.rBufPtr + 1)).take (h.nBytesRead - 1) := by
      rw [UsbHandle.unread, hcount, List.drop_eq_getElem_cons hlt, List.take_succ_cons,
        List.getD_eq_getElem _ _ hlt, Nat.succ_sub_one]
    rw [UsbHandle.held, hunread]
    rfl
  · simp only [List.length_singleton]
    omega

theorem exec_slvGetByte {byte : UInt8} (hfits : h.BufferFits)
    (hrun : exec slvGetByte h = (.ok byte, t)) : Reads h [byte] t := by
  rw [slvGetByte, exec_bind_ok (exec_get h)] at hrun
  obtain ⟨_, u, hfill, hrun⟩ := exec_bind_eq_ok_iff.mp hrun
  have hready : Reads h [] u ∧ u.nBytesRead ≠ 0 := by
    split at hfill
    · rename_i hnone
      exact exec_slvRefill hnone hfill
    · rename_i hsome
      cases hfill
      exact ⟨Reads.refl hfits, hsome⟩
  rw [exec_bind_ok (exec_get u), exec_bind_ok (exec_set _ _)] at hrun
  cases hrun
  exact hready.1.trans (reads_byte hready.1.fits hready.2)

theorem exec_slvGetLoop {n : Nat} {data : List UInt8} (hfits : h.BufferFits)
    (hrun : exec (slvGetLoop n) h = (.ok data, t)) : Reads h data t ∧ data.length = n := by
  induction n generalizing h data with
  | zero =>
      cases hrun
      exact ⟨Reads.refl hfits, rfl⟩
  | succ n ih =>
      rw [slvGetLoop] at hrun
      obtain ⟨byte, u, hbyte, hrun⟩ := exec_bind_eq_ok_iff.mp hrun
      obtain ⟨rest, v, hrest, hrun⟩ := exec_bind_eq_ok_iff.mp hrun
      cases hrun
      have hfirst := exec_slvGetByte hfits hbyte
      obtain ⟨hnext, hlen⟩ := ih hfirst.fits hrest
      exact ⟨hfirst.trans hnext, by rw [List.length_cons, hlen]⟩

/-- A request that ends with the last byte of a full transfer. -/
theorem Reads.endsFull {data : List UInt8} (hreads : Reads h data t) (hfull : t.wasMaxPs = true)
    (hnone : t.nBytesRead = 0) : EndsFull h data.length t.pipe := by
  rw [EndsFull]
  cases hreads.source with
  | inl hbuffer =>
      obtain ⟨hpipe, hmax, hcount⟩ := hbuffer
      exact Or.inl ⟨by omega, hmax ▸ hfull, hpipe⟩
  | inr hfilled =>
      obtain ⟨before, last, hpipe, hne, hmax, hcount⟩ := hfilled
      rw [hfull] at hmax
      exact Or.inr ⟨before, last, hpipe, hne, of_decide_eq_true hmax.symm, by omega⟩

/-- Where another read finds an empty transfer, if it is made, a request gives the next
bytes. -/
theorem exec_slvGet {len : Nat} {data : List UInt8} (hfits : h.BufferFits)
    (hempty : ExtraReadEmpty h (.get len)) (hrun : exec (slvGet len) h = (.ok data, t)) :
    h.held = data ++ t.held ∧ t.BufferFits ∧ t.pid = h.pid ∧ data.length = len := by
  rw [slvGet] at hrun
  obtain ⟨read, u, hread, hrun⟩ := exec_bind_eq_ok_iff.mp hrun
  obtain ⟨hreads, hlen⟩ := exec_slvGetLoop hfits hread
  rw [exec_bind_ok (exec_get u)] at hrun
  split at hrun
  · rename_i hextra
    obtain ⟨hfull, hnone, hwants⟩ := hextra
    rw [exec_bind_ok (exec_attempt _ u)] at hrun
    cases hbulk : exec (slvBulkRead .data) u with
    | mk result v =>
        rw [hbulk] at hrun
        cases result with
        | error e =>
            rw [exec_bind_ok (exec_modify _ _)] at hrun
            cases hrun
        | ok transfer =>
            obtain ⟨used, bytes⟩ := transfer
            obtain ⟨hpipe, hbuf, hdata, -⟩ := exec_slvBulkRead hbulk
            have hbytes : bytes = [] := by
              have hend := hreads.endsFull hfull hnone
              rw [hlen, hpipe] at hend
              rw [hreads.pid] at hwants
              exact hempty hwants v.pipe bytes hend
            subst hbytes
            have hsame : v.rBuf = u.rBuf ∧ v.rBufPtr = u.rBufPtr ∧ v.nBytesRead = u.nBytesRead
                ∧ v.pid = u.pid := by
              cases used with
              | rBuf =>
                  rw [hbuf rfl]
                  exact ⟨rfl, rfl, rfl, rfl⟩
              | data =>
                  rw [hdata rfl]
                  exact ⟨rfl, rfl, rfl, rfl⟩
            have hdone : data = read ∧ t = v := by
              cases used with
              | rBuf =>
                  cases hrun
                  exact ⟨rfl, rfl⟩
              | data =>
                  cases hrun
                  exact ⟨rfl, rfl⟩
            obtain ⟨rfl, rfl⟩ := hdone
            obtain ⟨hbuffer, hptr, hcount, hpid⟩ := hsame
            refine ⟨?_, ?_, hpid.trans hreads.pid, hlen⟩
            · rw [hreads.held, held_of_none hnone, held_of_none (hcount.trans hnone), hpipe]
              rfl
            · rw [UsbHandle.BufferFits, hbuffer, hptr, hcount]
              exact hreads.fits
  · cases hrun
    exact ⟨hreads.held, hreads.fits, hreads.pid, hlen⟩

theorem exec_slvCheckInterrupt {poll : Poll} {status : Option Bool} (hnone : h.nBytesRead = 0)
    (hfits : h.BufferFits) (hrun : exec (slvCheckInterrupt poll) h = (.ok status, t)) :
    h.held = t.held ∧ t.BufferFits ∧ t.pid = h.pid := by
  cases poll with
  | done =>
      obtain ⟨bytes, u, hread, hrun⟩ := exec_bind_eq_ok_iff.mp hrun
      obtain ⟨hpipe, hu⟩ := exec_interruptRead hread
      split at hrun
      · rw [exec_bind_ok (exec_modify _ _)] at hrun
        cases hrun
        have hbuf : bytes <+: (u.rewind bytes.length).rBuf := by
          rw [hu]
          exact List.prefix_append bytes _
        have hunread := unread_of_filled hbuf rfl rfl
        refine ⟨?_, hunread.2, by rw [hu]; rfl⟩
        rw [held_of_none hnone, UsbHandle.held, hunread.1, hpipe]
        rfl
      · cases hrun
  | timedOut =>
      cases hrun
      exact ⟨rfl, hfits, rfl⟩
  | running => cases hrun
  | interrupted => cases hrun

theorem exec_slvCheckPending {poll : Poll} {status : Option Bool} (hnone : h.nBytesRead = 0)
    (hfits : h.BufferFits) (hrun : exec (slvCheckPending poll) h = (.ok status, t)) :
    h.held = t.held ∧ t.BufferFits ∧ t.pid = h.pid := by
  cases poll with
  | done =>
      rw [slvCheckPending, exec_bind_ok (exec_get h)] at hrun
      cases hpipe : h.pipe with
      | nil =>
          rw [hpipe] at hrun
          cases hrun
          exact ⟨rfl, hfits, rfl⟩
      | cons bytes pipe =>
          rw [hpipe] at hrun
          dsimp only at hrun
          split at hrun
          · rw [exec_bind_ok (exec_set _ _)] at hrun
            split at hrun
            · rw [exec_bind_ok (exec_modify _ _)] at hrun
              cases hrun
              have hbuf : bytes <+: (h.store bytes).rBuf := List.prefix_append bytes _
              have hunread := unread_of_filled
                (h := ({ h.store bytes with pipe, ioPending := false } : UsbHandle).rewind bytes.length)
                hbuf rfl rfl
              refine ⟨?_, hunread.2, rfl⟩
              rw [held_of_none hnone, hpipe]
              exact congrArg (· ++ pipe.flatten) hunread.1.symm
            · rename_i hempty
              obtain rfl : bytes = [] := List.length_eq_zero_iff.mp (by omega)
              cases hrun
              refine ⟨?_, hfits, rfl⟩
              rw [held_of_none hnone, hpipe]
              exact (held_of_none (h := { h.store [] with pipe, ioPending := false }) hnone).symm
          · rw [exec_bind_ok (exec_set _ _)] at hrun
            cases hrun
  | timedOut =>
      cases hrun
      exact ⟨rfl, hfits, rfl⟩
  | running =>
      cases hrun
      exact ⟨rfl, hfits, rfl⟩
  | interrupted =>
      cases hrun
      exact ⟨rfl, hfits, rfl⟩

theorem exec_slvCheck {poll : Poll} {status : Option Bool} (hfits : h.BufferFits)
    (hrun : exec (slvCheck poll) h = (.ok status, t)) : h.held = t.held ∧ t.BufferFits ∧ t.pid = h.pid := by
  rw [slvCheck, exec_bind_ok (exec_get h)] at hrun
  split at hrun
  · cases hrun
    exact ⟨rfl, hfits, rfl⟩
  · rename_i hsome
    have hnone : h.nBytesRead = 0 := by omega
    split at hrun
    · exact exec_slvCheckInterrupt hnone hfits hrun
    · rw [exec_bind_ok (exec_modify _ _)] at hrun
      exact exec_slvCheckPending (h := { h with ioPending := true }) hnone hfits hrun

end Read

/-! ## Runs of calls -/

/-- A call in a run hands on the next bytes, within its destination. -/
structure HandsOn (h : UsbHandle) (out : List Received) (t : UsbHandle) : Prop where
  pid : t.pid = h.pid
  held : h.held = returned out ++ t.held
  inside : ∀ r ∈ out, r.data.length ≤ r.len

theorem HandsOn.trans {h t u : UsbHandle} {out out' : List Received} (hfirst : HandsOn h out t)
    (hnext : HandsOn t out' u) : HandsOn h (out ++ out') u := by
  refine ⟨hnext.pid.trans hfirst.pid, ?_, ?_⟩
  · rw [hfirst.held, hnext.held, returned, returned, returned, List.flatMap_append,
      List.append_assoc]
  · intro r hr
    cases List.mem_append.mp hr with
    | inl hr => exact hfirst.inside r hr
    | inr hr => exact hnext.inside r hr

theorem handsOn_usbStep {op : UsbOp} {h : UsbHandle} (hfits : h.BufferFits)
    (hreturns : Succeeds op h) (hempty : ExtraReadEmpty h op) :
    HandsOn h (usbStep op h).1 (usbStep op h).2 ∧ (usbStep op h).2.BufferFits := by
  unfold Succeeds at hreturns
  unfold usbStep
  cases hcall : exec op.call h with
  | mk result t =>
      rw [hcall] at hreturns
      cases result with
      | error e => cases hreturns
      | ok out =>
          cases op with
          | get len =>
              obtain ⟨data, u, hget, hrun⟩ := exec_bind_eq_ok_iff.mp hcall
              cases hrun
              obtain ⟨hheld, hfits', hpid, hlen⟩ := exec_slvGet hfits hempty hget
              refine ⟨⟨hpid, ?_, ?_⟩, hfits'⟩
              · show h.held = data.take len ++ [] ++ t.held
                rw [hheld, List.append_nil, List.take_of_length_le (Nat.le_of_eq hlen)]
              · simpa using Nat.le_of_eq hlen
          | check poll =>
              obtain ⟨status, u, hcheck, hrun⟩ := exec_bind_eq_ok_iff.mp hcall
              cases hrun
              obtain ⟨hheld, hfits', hpid⟩ := exec_slvCheck hfits hcheck
              exact ⟨⟨hpid, hheld, by simp⟩, hfits'⟩

/-- A run of calls that return, from any handle whose count is within its buffer. -/
theorem handsOn_usbRun {ops : List UsbOp} {h : UsbHandle} (hfits : h.BufferFits)
    (hsteps : EachStep usbStep (fun op h => Succeeds op h ∧ ExtraReadEmpty h op) ops h) :
    HandsOn h (runSteps usbStep ops h).1 (runSteps usbStep ops h).2 :=
  (runSteps_rel (fun _ => HandsOn) (fun h => ⟨rfl, rfl, by simp⟩)
    (fun _ _ _ _ _ _ _ => HandsOn.trans)
    (fun _ _ hfits hstep => handsOn_usbStep hfits hstep.1 hstep.2) hfits hsteps).1

/-- When each call of a run returns, and each transfer that is fetched behind a full one
is empty, the bytes that have come out are the first of those that have come in, and
no call writes behind its destination. -/
theorem usbRun_preserves_stream (pid : UsbPid) (maxPsIn : Nat) (pipe : List (List UInt8))
    (ops : List UsbOp)
    (hsteps : EachStep usbStep (fun op h => Succeeds op h ∧ ExtraReadEmpty h op) ops
      (UsbHandle.opened pid maxPsIn pipe)) :
    returned (runSteps usbStep ops (UsbHandle.opened pid maxPsIn pipe)).1 <+: pipe.flatten ∧
      ∀ r ∈ (runSteps usbStep ops (UsbHandle.opened pid maxPsIn pipe)).1,
        r.data.length ≤ r.len := by
  have hopened : (UsbHandle.opened pid maxPsIn pipe).BufferFits := Nat.zero_le _
  have hrun := handsOn_usbRun hopened hsteps
  refine ⟨?_, hrun.inside⟩
  have hheld : (UsbHandle.opened pid maxPsIn pipe).held = pipe.flatten := rfl
  rw [← hheld, hrun.held]
  exact List.prefix_append _ _

/-- A full transfer and an empty one behind it, on a device that gets another read. -/
theorem usbRun_preserves_stream_nspire :
    returned (runSteps usbStep [.get 8, .get 3]
      (UsbHandle.opened .nspire 8 [[1, 2, 3, 4, 5, 6, 7, 8], [], [9, 10, 11, 12]])).1
      <+: [1, 2, 3, 4, 5, 6, 7, 8, 9, 10, 11, 12] ∧
      ∀ r ∈ (runSteps usbStep [.get 8, .get 3]
        (UsbHandle.opened .nspire 8 [[1, 2, 3, 4, 5, 6, 7, 8], [], [9, 10, 11, 12]])).1,
        r.data.length ≤ r.len := by
  have hfirst : (usbStep (.get 8)
      (UsbHandle.opened .nspire 8 [[1, 2, 3, 4, 5, 6, 7, 8], [], [9, 10, 11, 12]])).2
      = { pid := .nspire, maxPsIn := 8, rBuf := [1, 2, 3, 4, 5, 6, 7, 8], rBufPtr := 8,
          nBytesRead := 0, wasMaxPs := true, ioPending := false, pipe := [[9, 10, 11, 12]] } := by
    decide +kernel
  refine usbRun_preserves_stream .nspire 8 [[1, 2, 3, 4, 5, 6, 7, 8], [], [9, 10, 11, 12]]
    [.get 8, .get 3] ⟨⟨by decide +kernel, ?_⟩, ?_⟩
  · intro _ rest bytes hend
    cases hend with
    | inl hbuffer => exact absurd hbuffer.1 (by decide)
    | inr hfilled =>
        obtain ⟨before, last, hpipe, hne, -⟩ := hfilled
        cases before with
        | nil =>
            cases hpipe
            rfl
        | cons first before =>
            cases before with
            | nil =>
                cases hpipe
                exact absurd rfl hne
            | cons second before =>
                have hlen := congrArg List.length hpipe
                simp [UsbHandle.opened] at hlen
                omega
  · rw [hfirst]
    refine ⟨⟨by decide, ?_⟩, trivial⟩
    intro _ rest bytes hend
    cases hend with
    | inl hbuffer => exact absurd hbuffer.1 (by decide)
    | inr hfilled =>
        obtain ⟨before, last, hpipe, -⟩ := hfilled
        have hlen := congrArg List.length hpipe
        simp at hlen
        omega

/-- A device that gets another read and has more to send: the bytes of the second
transfer replace those of the first, and are lost; and for a request for nothing they are
written where there is no room. -/
theorem slvGet_loses_transfer :
    returned (runSteps usbStep [.get 8]
        (UsbHandle.opened .nspire 8 [[1, 2, 3, 4, 5, 6, 7, 8], [9, 10]])).1
        = [9, 10, 3, 4, 5, 6, 7, 8] ∧
      (runSteps usbStep [.get 8, .get 0]
        (UsbHandle.opened .ti84p 8 [[1, 2, 3, 4, 5, 6, 7, 8], [9, 10]])).1
        = [⟨8, [1, 2, 3, 4, 5, 6, 7, 8]⟩, ⟨0, [9, 10]⟩] := by
  constructor
  · have hget : (usbStep (.get 8)
        (UsbHandle.opened .nspire 8 [[1, 2, 3, 4, 5, 6, 7, 8], [9, 10]])).1
        = [⟨8, [9, 10, 3, 4, 5, 6, 7, 8]⟩] := by
      decide +kernel
    rw [runSteps, hget]
    rfl
  · have hfirst : usbStep (.get 8)
        (UsbHandle.opened .ti84p 8 [[1, 2, 3, 4, 5, 6, 7, 8], [9, 10]])
        = ([⟨8, [1, 2, 3, 4, 5, 6, 7, 8]⟩],
          { pid := .ti84p, maxPsIn := 8, rBuf := [1, 2, 3, 4, 5, 6, 7, 8], rBufPtr := 8,
            nBytesRead := 0, wasMaxPs := true, ioPending := false, pipe := [[9, 10]] }) := by
      decide +kernel
    rw [runSteps, hfirst]
    rfl

/-- A device that never gets another read for the requests of a run. -/
def NeverWants (pid : UsbPid) (ops : List UsbOp) : Prop :=
  ∀ len, UsbOp.get len ∈ ops → wantsExtraRead pid len = false

/-- There the condition on the transfers is met. -/
theorem extraReadEmpty_of_neverWants {ops : List UsbOp} {h : UsbHandle} (hfits : h.BufferFits)
    (hwants : NeverWants h.pid ops) (hsteps : EachStep usbStep Succeeds ops h) :
    EachStep usbStep (fun op h => Succeeds op h ∧ ExtraReadEmpty h op) ops h := by
  induction ops generalizing h with
  | nil => trivial
  | cons op ops ih =>
      obtain ⟨hreturns, hrest⟩ := hsteps
      have hempty : ExtraReadEmpty h op := by
        cases op with
        | get len =>
            intro hextra
            rw [hwants len (List.mem_cons_self ..)] at hextra
            cases hextra
        | check poll => trivial
      obtain ⟨hstep, hfits'⟩ := handsOn_usbStep hfits hreturns hempty
      refine ⟨⟨hreturns, hempty⟩, ih hfits' ?_ hrest⟩
      intro len hlen
      rw [hstep.pid]
      exact hwants len (List.mem_cons_of_mem _ hlen)

/-- Where no request is followed by another read, what comes out is what has come in. -/
theorem usbRun_preserves_stream_of_neverWants {ops : List UsbOp} {h : UsbHandle}
    (hfits : h.BufferFits) (hwants : NeverWants h.pid ops)
    (hsteps : EachStep usbStep Succeeds ops h) :
    HandsOn h (runSteps usbStep ops h).1 (runSteps usbStep ops h).2 :=
  handsOn_usbRun hfits (extraReadEmpty_of_neverWants hfits hwants hsteps)

end Tilibs.Cables
