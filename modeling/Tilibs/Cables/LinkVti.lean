import Mathlib
import Tilibs.Lib.Bytes
import Tilibs.Lib.Channel
import Tilibs.Lib.RingBuffer

/-!
# Tilibs.Cables.LinkVti

The virtual link between two programs (`linux/link_vti.cc`): two circular buffers in shared memory,
one for each direction, and no lock.

A step is what one side does between two accesses to the other side's memory, so the sides may take
turns in any order, also in the middle of `vti_put` and `vti_get`, and each of them may run out of
time wherever it waits.  Each direction is a channel all the same (`vti_refines`): the bytes that
are read are those that were written, in order (`vti_fifo`).  `vti_reset` moves the indices of both
sides, and is a step only where neither is in a call.
-/

namespace Tilibs.Cables.LinkVti

open Lib Lib.Side Relation

/-! ## the shared memory -/

/-- The side of the emulator and that of the linking program: `h->address`. -/
abbrev Address := Side

/-- `LinkBuffer`: `buf`, `start` and `end`. -/
abbrev LinkBuffer := RingBuffer UInt8

/-- `& 255` -/
def mask (i : Nat) : Nat := i &&& 255

theorem mask_eq (i : Nat) : mask i = i % 256 := Nat.and_two_pow_sub_one_eq_mod i 8

def errReadTimeout : Int := 4
def errWriteTimeout : Int := 6

/-- Where `vti_put` stands: it waits for room, stores the byte, or moves `end`. -/
inductive PutPoint
  | wait
  | store
  | advance
  deriving DecidableEq, Repr

/-- Where `vti_get` stands: it waits for a byte, takes it, or moves `start`. -/
inductive GetPoint
  | wait
  | load
  | advance (b : UInt8)
  deriving DecidableEq, Repr

/-- The call that a side is in: `data` and `i` of `vti_put`, `len` and the first `i` bytes of `data`
of `vti_get`. -/
inductive VtiCall
  | none
  | put (point : PutPoint) (data : List UInt8) (i : Nat)
  | get (point : GetPoint) (len : Nat) (data : List UInt8)
  deriving DecidableEq, Repr

/-- A call that has returned, with its code. -/
inductive VtiReturn
  | put (data : List UInt8) (i : Nat) (ret : Int)
  | get (len : Nat) (data : List UInt8) (ret : Int)
  deriving DecidableEq, Repr

/-- The two buffers, the calls that are under way, and those that have returned since the last
reset. -/
structure VtiState where
  shm : Address → LinkBuffer
  call : Address → VtiCall
  log : Address → List VtiReturn

/-- What `vti_open` leaves of the shared memory. -/
def opened (buf : Address → Nat → UInt8) : VtiState where
  shm := fun p => ⟨buf p, 0, 0⟩
  call := fun _ => .none
  log := fun _ => []

/-- What a side can do: call a function, go on with it, find at a place where it waits that its
time is over, or reset the link. -/
inductive VtiAction
  | put (data : List UInt8)
  | get (len : Nat)
  | turn
  | timeout
  | reset
  deriving DecidableEq, Repr

namespace VtiState

variable (s : VtiState) (p : Address)

/-- `send_buf[p]` -/
def sendBuf : LinkBuffer := s.shm p

/-- `recv_buf[p]` -/
def recvBuf : LinkBuffer := s.shm p.other

def setCall (call : VtiCall) : VtiState := { s with call := Function.update s.call p call }

def setShm (q : Address) (buf : LinkBuffer) : VtiState :=
  { s with shm := Function.update s.shm q buf }

def ret (ret : VtiReturn) : VtiState :=
  { s with
    call := Function.update s.call p .none
    log := Function.update s.log p (s.log p ++ [ret]) }

section Fields

variable {s p}
variable (q : Address) (buf : LinkBuffer) (c : VtiCall) (r : VtiReturn)

@[simp] theorem shm_setCall : (s.setCall p c).shm = s.shm := rfl
@[simp] theorem log_setCall : (s.setCall p c).log = s.log := rfl
@[simp] theorem call_setCall : (s.setCall p c).call = Function.update s.call p c := rfl
@[simp] theorem shm_setShm : (s.setShm q buf).shm = Function.update s.shm q buf := rfl
@[simp] theorem log_setShm : (s.setShm q buf).log = s.log := rfl
@[simp] theorem call_setShm : (s.setShm q buf).call = s.call := rfl
@[simp] theorem shm_ret : (s.ret p r).shm = s.shm := rfl
@[simp] theorem log_ret : (s.ret p r).log = Function.update s.log p (s.log p ++ [r]) := rfl
@[simp] theorem call_ret : (s.ret p r).call = Function.update s.call p .none := rfl

end Fields

end VtiState

/-- `vti_put`, from one access to the shared memory to the next. -/
def putTurn (s : VtiState) (p : Address) (data : List UInt8) (i : Nat) :
    PutPoint → Option VtiState
  | .wait =>
      if i < data.length then
        if mask ((s.sendBuf p).stop + 1) = (s.sendBuf p).start then none
        else some (s.setCall p (.put .store data i))
      else some (s.ret p (.put data i 0))
  | .store =>
      some ((s.setShm p ((s.sendBuf p).store (data.getD i 0))).setCall p (.put .advance data i))
  | .advance =>
      let buf := s.sendBuf p
      some ((s.setShm p { buf with stop := mask (buf.stop + 1) }).setCall p
        (.put .wait data (i + 1)))

/-- `vti_get` -/
def getTurn (s : VtiState) (p : Address) (len : Nat) (data : List UInt8) :
    GetPoint → Option VtiState
  | .wait =>
      if data.length < len then
        if (s.recvBuf p).start = (s.recvBuf p).stop then none
        else some (s.setCall p (.get .load len data))
      else some (s.ret p (.get len data 0))
  | .load => some (s.setCall p (.get (.advance ((s.recvBuf p).slots (s.recvBuf p).start)) len data))
  | .advance b =>
      let buf := s.recvBuf p
      some ((s.setShm p.other { buf with start := mask (buf.start + 1) }).setCall p
        (.get .wait len (data ++ [b])))

/-- `TO_ELAPSED` -/
def timeoutTurn (s : VtiState) (p : Address) : VtiCall → Option VtiState
  | .put .wait data i =>
      if i < data.length then some (s.ret p (.put data i errWriteTimeout)) else none
  | .get .wait len data =>
      if data.length < len then some (s.ret p (.get len data errReadTimeout)) else none
  | _ => none

/-- `vti_reset` -/
def vtiReset (s : VtiState) : VtiState where
  shm := fun p => { s.shm p with start := 0, stop := 0 }
  call := s.call
  log := fun _ => []

def vtiAct (s : VtiState) (p : Address) : VtiAction → Option VtiState
  | .put data => if s.call p = .none then some (s.setCall p (.put .wait data 0)) else none
  | .get len => if s.call p = .none then some (s.setCall p (.get .wait len [])) else none
  | .turn =>
      match s.call p with
      | .none => none
      | .put point data i => putTurn s p data i point
      | .get point len data => getTurn s p len data point
  | .timeout => timeoutTurn s p (s.call p)
  | .reset => if s.call .zero = .none ∧ s.call .one = .none then some (vtiReset s) else none

/-- One side does something. -/
def VtiStep (s t : VtiState) : Prop := ∃ p action, vtiAct s p action = some t

/-- The actions that are possible are taken, one after the other. -/
def vtiActed (s : VtiState) (actions : List (Address × VtiAction)) : VtiState :=
  acted (fun s action => vtiAct s action.1 action.2) s actions

theorem run_vtiActed (s : VtiState) (actions : List (Address × VtiAction)) :
    ReflTransGen VtiStep s (vtiActed s actions) :=
  run_acted (fun _ action _ h => ⟨action.1, action.2, h⟩) s actions

/-- `vti_check` -/
def vtiCheck (s : VtiState) (p : Address) : Bool :=
  !((s.recvBuf p).start = (s.recvBuf p).stop : Bool)

/-! ## what a step is -/

/-- The step that `p` takes from `s`, by where it stands. -/
inductive Moved (s : VtiState) (p : Address) : VtiState → Prop
  | put (data : List UInt8) (h : s.call p = .none) : Moved s p (s.setCall p (.put .wait data 0))
  | get (len : Nat) (h : s.call p = .none) : Moved s p (s.setCall p (.get .wait len []))
  | room {data : List UInt8} {i : Nat} (h : s.call p = .put .wait data i) (hi : i < data.length)
      (hroom : ¬ (s.shm p).Full 256) : Moved s p (s.setCall p (.put .store data i))
  | store {data : List UInt8} {i : Nat} (h : s.call p = .put .store data i) :
      Moved s p ((s.setShm p ((s.shm p).store (data.getD i 0))).setCall p (.put .advance data i))
  | advance {data : List UInt8} {i : Nat} (h : s.call p = .put .advance data i) :
      Moved s p ((s.setShm p ((s.shm p).advance 256)).setCall p (.put .wait data (i + 1)))
  | seen {len : Nat} {data : List UInt8} (h : s.call p = .get .wait len data)
      (hlen : data.length < len) (hsome : ¬ (s.shm p.other).Empty) :
      Moved s p (s.setCall p (.get .load len data))
  | load {len : Nat} {data : List UInt8} (h : s.call p = .get .load len data) :
      Moved s p (s.setCall p
        (.get (.advance ((s.shm p.other).slots (s.shm p.other).start)) len data))
  | release {b : UInt8} {len : Nat} {data : List UInt8}
      (h : s.call p = .get (.advance b) len data) :
      Moved s p ((s.setShm p.other ((s.shm p.other).release 256)).setCall p
        (.get .wait len (data ++ [b])))
  | putReturn {data : List UInt8} {i : Nat} {ret : Int} (h : s.call p = .put .wait data i)
      (hret : ret = 0 ∧ data.length ≤ i ∨ ret = errWriteTimeout ∧ i < data.length) :
      Moved s p (s.ret p (.put data i ret))
  | getReturn {len : Nat} {data : List UInt8} {ret : Int} (h : s.call p = .get .wait len data)
      (hret : ret = 0 ∧ len ≤ data.length ∨ ret = errReadTimeout ∧ data.length < len) :
      Moved s p (s.ret p (.get len data ret))
  | reset (hzero : s.call .zero = .none) (hone : s.call .one = .none) : Moved s p (vtiReset s)

theorem moved_putTurn {s t : VtiState} {p : Address} {point : PutPoint} {data : List UInt8}
    {i : Nat} (hcall : s.call p = .put point data i) (h : putTurn s p data i point = some t) :
    Moved s p t := by
  cases point with
  | wait =>
      rw [putTurn, mask_eq] at h
      split at h
      · next hi =>
        split at h
        · cases h
        · next hroom =>
          cases h
          exact .room hcall hi hroom
      · next hi =>
        cases h
        exact .putReturn hcall (.inl ⟨rfl, Nat.not_lt.mp hi⟩)
  | store =>
      cases h
      exact .store hcall
  | advance =>
      rw [putTurn, mask_eq] at h
      cases h
      exact .advance hcall

theorem moved_getTurn {s t : VtiState} {p : Address} {point : GetPoint} {len : Nat}
    {data : List UInt8} (hcall : s.call p = .get point len data)
    (h : getTurn s p len data point = some t) : Moved s p t := by
  cases point with
  | wait =>
      rw [getTurn] at h
      split at h
      · next hlen =>
        split at h
        · cases h
        · next hsome =>
          cases h
          exact .seen hcall hlen hsome
      · next hlen =>
        cases h
        exact .getReturn hcall (.inl ⟨rfl, Nat.not_lt.mp hlen⟩)
  | load =>
      cases h
      exact .load hcall
  | advance b =>
      rw [getTurn, mask_eq] at h
      cases h
      exact .release hcall

theorem moved_timeoutTurn {s t : VtiState} {p : Address} (h : timeoutTurn s p (s.call p) = some t) :
    Moved s p t := by
  generalize hcall : s.call p = call at h
  match call with
  | .put .wait data i =>
      rw [timeoutTurn] at h
      split at h
      · next hi =>
        cases h
        exact .putReturn hcall (.inr ⟨rfl, hi⟩)
      · cases h
  | .get .wait len data =>
      rw [timeoutTurn] at h
      split at h
      · next hlen =>
        cases h
        exact .getReturn hcall (.inr ⟨rfl, hlen⟩)
      · cases h
  | .none | .put .store _ _ | .put .advance _ _ | .get .load _ _ | .get (.advance _) _ _ => cases h

theorem moved_of_vtiAct {s t : VtiState} {p : Address} {action : VtiAction}
    (h : vtiAct s p action = some t) : Moved s p t := by
  cases action with
  | put data =>
      rw [vtiAct] at h
      split at h
      · next hcall =>
        cases h
        exact .put data hcall
      · cases h
  | get len =>
      rw [vtiAct] at h
      split at h
      · next hcall =>
        cases h
        exact .get len hcall
      · cases h
  | turn =>
      rw [vtiAct] at h
      split at h
      · cases h
      · next hcall => exact moved_putTurn hcall h
      · next hcall => exact moved_getTurn hcall h
  | timeout => exact moved_timeoutTurn h
  | reset =>
      rw [vtiAct] at h
      split at h
      · next hcalls =>
        cases h
        exact .reset hcalls.1 hcalls.2
      · cases h

/-! ## the channels -/

/-- The bytes that a call has put into the buffer. -/
def VtiCall.sent : VtiCall → List UInt8
  | .put _ data i => data.take i
  | _ => []

/-- The bytes that a call has taken out of the buffer. -/
def VtiCall.got : VtiCall → List UInt8
  | .get _ _ data => data
  | _ => []

def VtiReturn.sent : VtiReturn → List UInt8
  | .put data i _ => data.take i
  | .get .. => []

def VtiReturn.got : VtiReturn → List UInt8
  | .put .. => []
  | .get _ data _ => data

/-- A call that returns 0 has done all of its work, and one that returns a code has not. -/
def VtiReturn.Whole : VtiReturn → Prop
  | .put data i ret => ret = 0 ∧ i = data.length ∨ ret = errWriteTimeout ∧ i < data.length
  | .get len data ret => ret = 0 ∧ data.length = len ∨ ret = errReadTimeout ∧ data.length < len

namespace VtiState

variable (s : VtiState) (p : Address)

/-- All bytes that a side has sent since the last reset. -/
def sentBy : List UInt8 := (s.log p).flatMap VtiReturn.sent ++ (s.call p).sent

/-- All bytes that a side has received since the last reset. -/
def gotBy : List UInt8 := (s.log p).flatMap VtiReturn.got ++ (s.call p).got

/-- The direction from `p` to the other side. -/
def channel : Channel UInt8 := ⟨s.sentBy p, (s.shm p).held 256, s.gotBy p.other⟩

end VtiState

section Views

variable {s : VtiState} {p q : Address} {call : VtiCall} {r : VtiReturn}

theorem sentBy_setCall (h : call.sent = (s.call p).sent) :
    (s.setCall p call).sentBy q = s.sentBy q := by
  by_cases hq : q = p
  · subst hq
    simp [VtiState.sentBy, VtiState.setCall, h]
  · simp [VtiState.sentBy, VtiState.setCall, hq]

theorem gotBy_setCall (h : call.got = (s.call p).got) :
    (s.setCall p call).gotBy q = s.gotBy q := by
  by_cases hq : q = p
  · subst hq
    simp [VtiState.gotBy, VtiState.setCall, h]
  · simp [VtiState.gotBy, VtiState.setCall, hq]

theorem sentBy_ret (h : r.sent = (s.call p).sent) : (s.ret p r).sentBy q = s.sentBy q := by
  by_cases hq : q = p
  · subst hq
    simp [VtiState.sentBy, VtiState.ret, h, VtiCall.sent]
  · simp [VtiState.sentBy, VtiState.ret, hq]

theorem gotBy_ret (h : r.got = (s.call p).got) : (s.ret p r).gotBy q = s.gotBy q := by
  by_cases hq : q = p
  · subst hq
    simp [VtiState.gotBy, VtiState.ret, h, VtiCall.got]
  · simp [VtiState.gotBy, VtiState.ret, hq]

/-- A call that goes on without an index moving shows nothing. -/
theorem channel_setCall (hsent : call.sent = (s.call p).sent) (hgot : call.got = (s.call p).got) :
    (s.setCall p call).channel q = s.channel q := by
  rw [VtiState.channel, sentBy_setCall hsent, gotBy_setCall hgot]
  rfl

theorem channel_ret (hsent : r.sent = (s.call p).sent) (hgot : r.got = (s.call p).got) :
    (s.ret p r).channel q = s.channel q := by
  rw [VtiState.channel, sentBy_ret hsent, gotBy_ret hgot]
  rfl

end Views

/-! ## the invariant -/

/-- What the writer of a buffer has found or done there. -/
def WriterAt (buf : LinkBuffer) : VtiCall → Prop
  | .put .wait data i => i ≤ data.length
  | .put .store data i => i < data.length ∧ ¬ buf.Full 256
  | .put .advance data i =>
      i < data.length ∧ ¬ buf.Full 256 ∧ buf.slots buf.stop = data.getD i 0
  | _ => True

/-- What the reader of a buffer has found there. -/
def ReaderAt (buf : LinkBuffer) : VtiCall → Prop
  | .get .wait len data => data.length ≤ len
  | .get .load len data => data.length < len ∧ ¬ buf.Empty
  | .get (.advance b) len data => data.length < len ∧ ¬ buf.Empty ∧ buf.slots buf.start = b
  | _ => True

/-- The indices are those of a buffer of 256 bytes, and what a side has found in the other side's
index still holds when it acts on it. -/
structure VtiInv (s : VtiState) : Prop where
  within : ∀ q, (s.shm q).Within 256
  writer : ∀ q, WriterAt (s.shm q) (s.call q)
  reader : ∀ q, ReaderAt (s.shm q.other) (s.call q)
  whole : ∀ q, ∀ r ∈ s.log q, r.Whole

section Frames

variable {buf : LinkBuffer} {call : VtiCall}

theorem not_full_release (h : buf.Within 256) (hsome : ¬ buf.Empty) :
    ¬ (buf.release 256).Full 256 := by
  have hlt := RingBuffer.count_lt h
  have hcount := RingBuffer.count_release h hsome
  rw [RingBuffer.full_iff h.release]
  omega

theorem not_empty_advance (h : buf.Within 256) (hroom : ¬ buf.Full 256) :
    ¬ (buf.advance 256).Empty := by
  have hcount := RingBuffer.count_advance h hroom
  rw [← RingBuffer.count_eq_zero_iff h.advance]
  omega

/-- The reader makes room, and leaves the rest to the writer. -/
theorem WriterAt.release (h : buf.Within 256) (hsome : ¬ buf.Empty) (hcall : WriterAt buf call) :
    WriterAt (buf.release 256) call := by
  match call, hcall with
  | .put .wait _ _, hle => exact hle
  | .put .store _ _, ⟨hi, _⟩ => exact ⟨hi, not_full_release h hsome⟩
  | .put .advance _ _, ⟨hi, _, hslot⟩ => exact ⟨hi, not_full_release h hsome, hslot⟩
  | .none, _ | .get _ _ _, _ => trivial

/-- The writer fills a slot that the reader is not at. -/
theorem ReaderAt.store (b : UInt8) (hcall : ReaderAt buf call) : ReaderAt (buf.store b) call := by
  match call, hcall with
  | .get .wait _ _, hle => exact hle
  | .get .load _ _, ⟨hlen, hsome⟩ => exact ⟨hlen, hsome⟩
  | .get (.advance _) _ _, ⟨hlen, hsome, hslot⟩ =>
      exact ⟨hlen, hsome, (RingBuffer.slots_store_of_ne hsome b).trans hslot⟩
  | .none, _ | .put _ _ _, _ => trivial

theorem ReaderAt.advance (h : buf.Within 256) (hroom : ¬ buf.Full 256)
    (hcall : ReaderAt buf call) : ReaderAt (buf.advance 256) call := by
  match call, hcall with
  | .get .wait _ _, hle => exact hle
  | .get .load _ _, ⟨hlen, _⟩ => exact ⟨hlen, not_empty_advance h hroom⟩
  | .get (.advance _) _ _, ⟨hlen, _, hslot⟩ => exact ⟨hlen, not_empty_advance h hroom, hslot⟩
  | .none, _ | .put _ _ _, _ => trivial

end Frames

section Steps

variable {s t : VtiState} {p : Address} {call : VtiCall} {r : VtiReturn}

theorem VtiInv.setCall (h : VtiInv s) (hwriter : WriterAt (s.shm p) call)
    (hreader : ReaderAt (s.shm p.other) call) : VtiInv (s.setCall p call) where
  within := h.within
  writer := fun q => by
    by_cases hq : q = p
    · subst hq
      simpa [VtiState.setCall] using hwriter
    · simpa [VtiState.setCall, hq] using h.writer q
  reader := fun q => by
    by_cases hq : q = p
    · subst hq
      simpa [VtiState.setCall] using hreader
    · simpa [VtiState.setCall, hq] using h.reader q
  whole := h.whole

theorem VtiInv.ret (h : VtiInv s) (hr : r.Whole) : VtiInv (s.ret p r) where
  within := h.within
  writer := fun q => by
    by_cases hq : q = p
    · subst hq
      simp [VtiState.ret, WriterAt]
    · simpa [VtiState.ret, hq] using h.writer q
  reader := fun q => by
    by_cases hq : q = p
    · subst hq
      simp [VtiState.ret, ReaderAt]
    · simpa [VtiState.ret, hq] using h.reader q
  whole := fun q => by
    by_cases hq : q = p
    · subst hq
      simp only [VtiState.ret, Function.update_self, List.mem_append, List.mem_singleton]
      rintro r' (hmem | rfl)
      · exact h.whole q r' hmem
      · exact hr
    · simpa [VtiState.ret, hq] using h.whole q

/-- A writer changes the buffer that it writes to. -/
theorem VtiInv.write {buf : LinkBuffer} (h : VtiInv s) (hbuf : buf.Within 256)
    (hwriter : WriterAt buf call) (hreader : ReaderAt buf (s.call p.other))
    (hown : ReaderAt (s.shm p.other) call) : VtiInv ((s.setShm p buf).setCall p call) where
  within := fun q => by
    by_cases hq : q = p
    · subst hq
      simpa using hbuf
    · simpa [hq] using h.within q
  writer := fun q => by
    by_cases hq : q = p
    · subst hq
      simpa using hwriter
    · simpa [hq] using h.writer q
  reader := fun q => by
    by_cases hq : q = p
    · subst hq
      simpa [other_ne] using hown
    · obtain rfl := eq_other_of_ne hq
      simpa [other_ne] using hreader
  whole := h.whole

/-- A reader changes the buffer that it reads from. -/
theorem VtiInv.read {buf : LinkBuffer} (h : VtiInv s) (hbuf : buf.Within 256)
    (hreader : ReaderAt buf call) (hwriter : WriterAt buf (s.call p.other))
    (hown : WriterAt (s.shm p) call) : VtiInv ((s.setShm p.other buf).setCall p call) where
  within := fun q => by
    by_cases hq : q = p.other
    · subst hq
      simpa using hbuf
    · simpa [hq] using h.within q
  writer := fun q => by
    by_cases hq : q = p
    · subst hq
      simpa [(other_ne q).symm] using hown
    · obtain rfl := eq_other_of_ne hq
      simpa [other_ne] using hwriter
  reader := fun q => by
    by_cases hq : q = p
    · subst hq
      simpa using hreader
    · obtain rfl := eq_other_of_ne hq
      simpa [other_ne, (other_ne p).symm] using h.reader p.other
  whole := h.whole

end Steps

/-! ## runs -/

section Runs

variable {s t : VtiState} {p q : Address}

@[simp] theorem gotBy_setShm (buf : LinkBuffer) : (s.setShm p buf).gotBy q = s.gotBy q := rfl

@[simp] theorem sentBy_setShm (buf : LinkBuffer) : (s.setShm p buf).sentBy q = s.sentBy q := rfl

/-- A buffer in which the same is held shows nothing. -/
theorem channel_setShm {buf : LinkBuffer} (h : buf.held 256 = (s.shm p).held 256) :
    (s.setShm p buf).channel q = s.channel q := by
  by_cases hq : q = p
  · subst hq
    simp [VtiState.channel, h]
  · simp [VtiState.channel, hq]

/-- When `end` moves, the byte in front of it is on its way. -/
theorem channel_advance (h : VtiInv s) {data : List UInt8} {i : Nat}
    (hcall : s.call p = .put .advance data i) :
    Channel.Step (s.channel p) (((s.setShm p ((s.shm p).advance 256)).setCall p
      (.put .wait data (i + 1))).channel p) := by
  have hwriter := h.writer p
  rw [hcall] at hwriter
  obtain ⟨hi, hroom, hslot⟩ := hwriter
  have htake : data.take (i + 1) = data.take i ++ [data.getD i 0] := by
    rw [List.take_add_one, List.getElem?_eq_getElem hi, Option.toList_some,
      List.getD_eq_getElem _ _ hi]
  have hpush : ((s.setShm p ((s.shm p).advance 256)).setCall p (.put .wait data (i + 1))).channel p
      = { s.channel p with
          written := (s.channel p).written ++ [data.getD i 0]
          queue := (s.channel p).queue ++ [data.getD i 0] } := by
    ext1
    · simp [VtiState.channel, VtiState.sentBy, hcall, VtiCall.sent, htake]
    · simp only [VtiState.channel, VtiState.shm_setCall, VtiState.shm_setShm, Function.update_self,
        RingBuffer.held_advance (h.within p) hroom, hslot]
    · rw [VtiState.channel, gotBy_setCall (by rw [VtiState.call_setShm, hcall]; rfl),
        gotBy_setShm]
      rfl
  rw [hpush]
  exact .push _

/-- When `start` moves, the byte behind it has been received. -/
theorem channel_release (h : VtiInv s) {b : UInt8} {len : Nat} {data : List UInt8}
    (hcall : s.call p = .get (.advance b) len data) :
    Channel.Step (s.channel p.other) (((s.setShm p.other ((s.shm p.other).release 256)).setCall p
      (.get .wait len (data ++ [b]))).channel p.other) := by
  have hreader := h.reader p
  rw [hcall] at hreader
  obtain ⟨-, hsome, hslot⟩ := hreader
  have hqueue : (s.channel p.other).queue = b :: ((s.shm p.other).release 256).held 256 := by
    rw [VtiState.channel, RingBuffer.held_eq_cons (h.within p.other) hsome, hslot]
  have hpop : ((s.setShm p.other ((s.shm p.other).release 256)).setCall p
      (.get .wait len (data ++ [b]))).channel p.other
      = { s.channel p.other with
          queue := ((s.shm p.other).release 256).held 256
          read := (s.channel p.other).read ++ [b] } := by
    ext1
    · rw [VtiState.channel, sentBy_setCall (by rw [VtiState.call_setShm, hcall]; rfl),
        sentBy_setShm]
      rfl
    · simp [VtiState.channel]
    · simp [VtiState.channel, VtiState.gotBy, hcall, VtiCall.got]
  rw [hpop]
  exact .pop hqueue

/-- The direction in which no index moves. -/
theorem channel_setShm_of_ne {buf : LinkBuffer} (h : q ≠ p) :
    (s.setShm p buf).channel q = s.channel q := by
  simp [VtiState.channel, h]

/-- The channel before anything has been sent. -/
theorem channel_eq_empty (hshm : (s.shm q).start = 0 ∧ (s.shm q).stop = 0)
    (hcall : ∀ p, (s.call p).sent = [] ∧ (s.call p).got = []) (hlog : ∀ p, s.log p = []) :
    s.channel q = .empty := by
  have hwithin : (s.shm q).Within 256 := ⟨by rw [hshm.1]; decide, by rw [hshm.2]; decide⟩
  rw [VtiState.channel, RingBuffer.held_of_empty hwithin (hshm.1.trans hshm.2.symm),
    VtiState.sentBy, VtiState.gotBy, hlog, hlog, (hcall q).1, (hcall q.other).2]
  rfl

theorem vtiInv_vtiReset (hcall : ∀ p, s.call p = .none) : VtiInv (vtiReset s) where
  within := fun _ => ⟨Nat.succ_pos 255, Nat.succ_pos 255⟩
  writer := fun q => by
    show WriterAt _ (s.call q)
    rw [hcall q]
    trivial
  reader := fun q => by
    show ReaderAt _ (s.call q)
    rw [hcall q]
    trivial
  whole := nofun

/-- Every step keeps the invariant, and is one of each channel or shows nothing of it. -/
theorem moved_refines (h : VtiInv s) (hmoved : Moved s p t) :
    VtiInv t ∧ ∀ q, t.channel q = s.channel q ∨ Channel.Step (s.channel q) (t.channel q) := by
  have hwriter := h.writer p
  have hreader := h.reader p
  cases hmoved with
  | put data hcall =>
      refine ⟨h.setCall (Nat.zero_le _) trivial, fun q => .inl (channel_setCall ?_ ?_)⟩
      · rw [hcall]
        rfl
      · rw [hcall]
        rfl
  | get len hcall =>
      refine ⟨h.setCall trivial (Nat.zero_le _), fun q => .inl (channel_setCall ?_ ?_)⟩
      · rw [hcall]
        rfl
      · rw [hcall]
        rfl
  | room hcall hi hroom =>
      refine ⟨h.setCall ⟨hi, hroom⟩ trivial, fun q => .inl (channel_setCall ?_ ?_)⟩
      · rw [hcall]
        rfl
      · rw [hcall]
        rfl
  | @store data i hcall =>
      rw [hcall] at hwriter
      have hother := (h.reader p.other).store (data.getD i 0)
      rw [other_other] at hother
      refine ⟨h.write ((h.within p).store _) ⟨hwriter.1, hwriter.2, ?_⟩ hother trivial,
        fun q => .inl ?_⟩
      · exact RingBuffer.slots_store_self _
      · rw [channel_setCall (by rw [VtiState.call_setShm, hcall]; rfl)
          (by rw [VtiState.call_setShm, hcall]; rfl),
          channel_setShm (RingBuffer.held_store (h.within p) _)]
  | @advance data i hcall =>
      rw [hcall] at hwriter
      have hother := (h.reader p.other).advance (by rw [other_other]; exact h.within p)
        (by rw [other_other]; exact hwriter.2.1)
      rw [other_other] at hother
      refine ⟨h.write (h.within p).advance hwriter.1 hother trivial, fun q => ?_⟩
      by_cases hq : q = p
      · rw [hq]
        exact .inr (channel_advance h hcall)
      · refine .inl (Eq.trans ?_ (@channel_setShm_of_ne s p q ((s.shm p).advance 256) hq))
        obtain rfl := eq_other_of_ne hq
        simp [VtiState.channel, VtiState.sentBy, VtiState.gotBy, hcall, VtiCall.got, other_ne]
  | seen hcall hlen hsome =>
      refine ⟨h.setCall trivial ⟨hlen, hsome⟩, fun q => .inl (channel_setCall ?_ ?_)⟩
      · rw [hcall]
        rfl
      · rw [hcall]
        rfl
  | load hcall =>
      rw [hcall] at hreader
      refine ⟨h.setCall trivial ⟨hreader.1, hreader.2, rfl⟩, fun q => .inl (channel_setCall ?_ ?_)⟩
      · rw [hcall]
        rfl
      · rw [hcall]
        rfl
  | @release b len data hcall =>
      rw [hcall] at hreader
      have hlen : (data ++ [b]).length ≤ len := by
        rw [List.length_append]
        exact hreader.1
      refine ⟨h.read (h.within p.other).release hlen
        ((h.writer p.other).release (h.within p.other) hreader.2.1) trivial, fun q => ?_⟩
      by_cases hq : q = p
      · refine .inl ?_
        rw [hq]
        simp [VtiState.channel, VtiState.sentBy, VtiState.gotBy, hcall, VtiCall.sent, other_ne,
          (other_ne p).symm]
      · obtain rfl := eq_other_of_ne hq
        exact .inr (channel_release h hcall)
  | @putReturn data i ret hcall hret =>
      rw [hcall] at hwriter
      have hsent : (VtiReturn.put data i ret).sent = (s.call p).sent := by rw [hcall]; rfl
      have hgot : (VtiReturn.put data i ret).got = (s.call p).got := by rw [hcall]; rfl
      refine ⟨h.ret ?_, fun q => .inl (channel_ret hsent hgot)⟩
      exact hret.imp_left fun hzero => ⟨hzero.1, Nat.le_antisymm hwriter hzero.2⟩
  | @getReturn len data ret hcall hret =>
      rw [hcall] at hreader
      have hsent : (VtiReturn.get len data ret).sent = (s.call p).sent := by rw [hcall]; rfl
      have hgot : (VtiReturn.get len data ret).got = (s.call p).got := by rw [hcall]; rfl
      refine ⟨h.ret ?_, fun q => .inl (channel_ret hsent hgot)⟩
      exact hret.imp_left fun hzero => ⟨hzero.1, Nat.le_antisymm hreader hzero.2⟩
  | reset hzero hone =>
      have hnone : ∀ q, s.call q = .none := fun q => by cases q <;> assumption
      refine ⟨vtiInv_vtiReset hnone, fun q => .inr ?_⟩
      have hcalls : ∀ q, ((vtiReset s).call q).sent = [] ∧ ((vtiReset s).call q).got = [] := by
        intro q
        show (s.call q).sent = [] ∧ (s.call q).got = []
        rw [hnone q]
        exact ⟨rfl, rfl⟩
      rw [@channel_eq_empty (vtiReset s) q ⟨rfl, rfl⟩ hcalls fun _ => rfl]
      exact .clear

theorem vtiInv_opened (buf : Address → Nat → UInt8) : VtiInv (opened buf) where
  within := fun _ => ⟨Nat.succ_pos 255, Nat.succ_pos 255⟩
  writer := fun _ => trivial
  reader := fun _ => trivial
  whole := nofun

/-- Each direction of the link is a channel, however the two sides take turns. -/
theorem vti_refines {buf : Address → Nat → UInt8} (hrun : ReflTransGen VtiStep (opened buf) s)
    (q : Address) : VtiInv s ∧ ReflTransGen Channel.Step .empty (s.channel q) := by
  rw [← @channel_eq_empty (opened buf) q ⟨rfl, rfl⟩ (fun _ => ⟨rfl, rfl⟩) fun _ => rfl]
  refine run_refines (fun s => s.channel q) (fun s t hs hstep => ?_) hrun (vtiInv_opened buf)
  obtain ⟨p, action, hact⟩ := hstep
  obtain ⟨ht, hview⟩ := moved_refines hs (moved_of_vtiAct hact)
  exact ⟨ht, hview q⟩

/-- **The virtual link is first in, first out.**  In whatever order the two sides take turns since
the link was opened, and wherever they run out of time: what a side has sent is what the other has
received and what its buffer holds, at most 255 bytes; and a call returns 0 just when it has sent
or received all that it was asked to. -/
theorem vti_fifo {buf : Address → Nat → UInt8} (hrun : ReflTransGen VtiStep (opened buf) s)
    (q : Address) :
    s.sentBy q = s.gotBy q.other ++ (s.shm q).held 256 ∧ ((s.shm q).held 256).length ≤ 255
      ∧ ∀ r ∈ s.log q, r.Whole := by
  obtain ⟨hinv, hchannel⟩ := vti_refines hrun q
  refine ⟨Channel.fifo_of_run hchannel, ?_, hinv.whole q⟩
  rw [RingBuffer.length_held]
  exact Nat.le_of_lt_succ (RingBuffer.count_lt (hinv.within q))

/-- The other side has something to receive just when bytes are on their way to it. -/
theorem vtiCheck_iff (h : VtiInv s) : vtiCheck s p = true ↔ (s.channel p.other).queue ≠ [] := by
  have hqueue : (s.channel p.other).queue = [] ↔ (s.shm p.other).Empty := by
    rw [VtiState.channel, ← List.length_eq_zero_iff, RingBuffer.length_held,
      RingBuffer.count_eq_zero_iff (h.within p.other)]
  rw [ne_eq, hqueue, vtiCheck, Bool.not_eq_true', decide_eq_false_iff_not]
  rfl

/-- Two bytes are sent while the other side takes the first of them. -/
theorem vti_fifo_taken :
    let s := vtiActed (opened fun _ _ => 0) [(.zero, .put [0x56, 0x54]), (.zero, .turn),
      (.zero, .turn), (.zero, .turn), (.one, .get 2), (.one, .turn), (.zero, .turn), (.one, .turn),
      (.zero, .turn), (.one, .turn), (.zero, .turn), (.zero, .turn)]
    s.sentBy .zero = s.gotBy Side.zero.other ++ (s.shm .zero).held 256
      ∧ ((s.shm .zero).held 256).length ≤ 255 ∧ ∀ r ∈ s.log .zero, r.Whole :=
  vti_fifo (run_vtiActed _ _) .zero

end Runs

/-! ## a transfer -/

/-- A side goes on with its call. -/
def Turn (s t : VtiState) : Prop := ∃ p, vtiAct s p .turn = some t

/-- How many turns a call still takes. -/
def VtiCall.left : VtiCall → Nat
  | .none => 0
  | .put .wait data i => 3 * (data.length - i) + 1
  | .put .store data i => 3 * (data.length - i)
  | .put .advance data i => 3 * (data.length - i) - 1
  | .get .wait len data => 3 * (len - data.length) + 1
  | .get .load len data => 3 * (len - data.length)
  | .get (.advance _) len data => 3 * (len - data.length) - 1

def VtiState.left (s : VtiState) : Nat := (s.call .zero).left + (s.call .one).left

/-- A turn of `p`: its call goes on, with one turn less to take, or returns 0. -/
inductive Turned (s t : VtiState) (p : Address) : Prop
  | on {call : VtiCall} (hcall : t.call = Function.update s.call p call) (hlog : t.log = s.log)
      (hleft : call.left + 1 = (s.call p).left)
      (hput : ∀ point data i, s.call p = .put point data i →
        ∃ point' i', call = .put point' data i')
      (hget : ∀ point len data, s.call p = .get point len data →
        ∃ point' data', call = .get point' len data')
  | put {data : List UInt8} (hcall : s.call p = .put .wait data data.length)
      (ht : t = s.ret p (.put data data.length 0))
  | get {data : List UInt8} (hcall : s.call p = .get .wait data.length data)
      (ht : t = s.ret p (.get data.length data 0))

section Transfer

variable {s t : VtiState} {p : Address} {data : List UInt8}

theorem turned_put {t : VtiState} {point point' : PutPoint} {i i' : Nat}
    (hcall : s.call p = .put point data i) (hlog : t.log = s.log)
    (hnext : t.call = Function.update s.call p (.put point' data i'))
    (hleft : (VtiCall.put point' data i').left + 1 = (VtiCall.put point data i).left) :
    Turned s t p := by
  refine .on hnext hlog (by rw [hcall, hleft]) ?_ ?_
  · intro _ _ _ h
    rw [hcall] at h
    cases h
    exact ⟨_, _, rfl⟩
  · intro _ _ _ h
    rw [hcall] at h
    cases h

theorem turned_get {t : VtiState} {point point' : GetPoint} {len : Nat} {data' : List UInt8}
    (hcall : s.call p = .get point len data) (hlog : t.log = s.log)
    (hnext : t.call = Function.update s.call p (.get point' len data'))
    (hleft : (VtiCall.get point' len data').left + 1 = (VtiCall.get point len data).left) :
    Turned s t p := by
  refine .on hnext hlog (by rw [hcall, hleft]) ?_ ?_
  · intro _ _ _ h
    rw [hcall] at h
    cases h
  · intro _ _ _ h
    rw [hcall] at h
    cases h
    exact ⟨_, _, rfl⟩

theorem turned_of_vtiAct (h : VtiInv s) (hact : vtiAct s p .turn = some t) : Turned s t p := by
  have hwriter := h.writer p
  have hreader := h.reader p
  rw [vtiAct] at hact
  split at hact
  · cases hact
  · next point data i hcall =>
    rw [hcall] at hwriter
    cases point with
    | wait =>
        rw [putTurn] at hact
        split at hact
        · next hi =>
          split at hact
          · cases hact
          · cases hact
            exact turned_put hcall rfl rfl rfl
        · next hi =>
          cases hact
          obtain rfl := Nat.le_antisymm hwriter (Nat.not_lt.mp hi)
          exact .put hcall rfl
    | store =>
        cases hact
        refine turned_put hcall rfl rfl ?_
        rw [VtiCall.left, VtiCall.left]
        have hi := hwriter.1
        omega
    | advance =>
        cases hact
        refine turned_put hcall rfl rfl ?_
        rw [VtiCall.left, VtiCall.left]
        have hi := hwriter.1
        omega
  · next point len data hcall =>
    rw [hcall] at hreader
    cases point with
    | wait =>
        rw [getTurn] at hact
        split at hact
        · next hi =>
          split at hact
          · cases hact
          · cases hact
            exact turned_get hcall rfl rfl rfl
        · next hi =>
          cases hact
          obtain rfl := Nat.le_antisymm hreader (Nat.not_lt.mp hi)
          exact .get hcall rfl
    | load =>
        cases hact
        refine turned_get hcall rfl rfl ?_
        rw [VtiCall.left, VtiCall.left]
        have hlen := hreader.1
        omega
    | advance b =>
        cases hact
        refine turned_get hcall rfl rfl ?_
        rw [VtiCall.left, VtiCall.left, List.length_append, List.length_singleton]
        have hlen := hreader.1
        omega

theorem left_eq (s : VtiState) (p : Address) :
    s.left = (s.call p).left + (s.call p.other).left :=
  Side.add_other (fun p => (s.call p).left) p

/-- What is left of the two calls when one of them goes on. -/
theorem left_of_call {call : VtiCall} (h : t.call = Function.update s.call p call)
    (hleft : call.left + 1 = (s.call p).left) : t.left + 1 = s.left := by
  have hown : (t.call p).left = call.left := by rw [h, Function.update_self]
  have hother : (t.call p.other).left = (s.call p.other).left := by
    rw [h, Function.update_of_ne (other_ne p)]
  rw [left_eq t p, left_eq s p, hown, hother]
  omega

theorem Turned.left_eq (h : Turned s t p) : t.left + 1 = s.left := by
  cases h with
  | on hcall _ hleft _ _ => exact left_of_call hcall hleft
  | put hcall ht =>
      refine left_of_call (by rw [ht]; rfl) ?_
      rw [hcall, VtiCall.left, VtiCall.left]
      omega
  | get hcall ht =>
      refine left_of_call (by rw [ht]; rfl) ?_
      rw [hcall, VtiCall.left, VtiCall.left]
      omega

/-- One side sends `data`, and the other asks for as many bytes; neither has done anything else. -/
structure Transferring (data : List UInt8) (p : Address) (s : VtiState) : Prop where
  put : (∃ point i, s.call p = .put point data i) ∧ s.log p = [] ∨
    s.call p = .none ∧ s.log p = [.put data data.length 0]
  get : (∃ point got, s.call p.other = .get point data.length got) ∧ s.log p.other = [] ∨
    s.call p.other = .none ∧ ∃ got, got.length = data.length
      ∧ s.log p.other = [.get data.length got 0]

/-- A turn of the side that sends. -/
theorem Transferring.turn_put (h : Transferring data p s) (hturn : Turned s t p) :
    Transferring data p t := by
  have hother := other_ne p
  rcases h.put with ⟨⟨point, i, hput⟩, hlog⟩ | ⟨hnone, -⟩
  · cases hturn with
    | on hcall hlogs _ hon _ =>
        obtain ⟨point', i', rfl⟩ := hon point data i hput
        refine ⟨.inl ⟨⟨point', i', by rw [hcall, Function.update_self]⟩, by rw [hlogs, hlog]⟩, ?_⟩
        rw [hcall, hlogs, Function.update_of_ne hother]
        exact h.get
    | put hcall ht =>
        rw [hput] at hcall
        cases hcall
        rw [ht]
        refine ⟨.inr ⟨by simp, by simp [hlog]⟩, ?_⟩
        simpa [hother] using h.get
    | get hcall _ =>
        rw [hput] at hcall
        cases hcall
  · cases hturn with
    | on _ _ hleft _ _ =>
        rw [hnone] at hleft
        exact absurd hleft (Nat.succ_ne_zero _)
    | put hcall _ =>
        rw [hnone] at hcall
        cases hcall
    | get hcall _ =>
        rw [hnone] at hcall
        cases hcall

/-- A turn of the side that receives. -/
theorem Transferring.turn_get (h : Transferring data p s) (hturn : Turned s t p.other) :
    Transferring data p t := by
  have hother := (other_ne p).symm
  rcases h.get with ⟨⟨point, got, hget⟩, hlog⟩ | ⟨hnone, -⟩
  · cases hturn with
    | on hcall hlogs _ _ hon =>
        obtain ⟨point', got', rfl⟩ := hon point data.length got hget
        refine ⟨?_, .inl ⟨⟨point', got', by rw [hcall, Function.update_self]⟩, by rw [hlogs, hlog]⟩⟩
        rw [hcall, hlogs, Function.update_of_ne hother]
        exact h.put
    | put hcall _ =>
        rw [hget] at hcall
        cases hcall
    | @get got' hcall ht =>
        rw [hget] at hcall
        injection hcall with _ hlen hgot
        rw [ht]
        refine ⟨?_, .inr ⟨by simp, got', hlen.symm, by simp [hlog, hlen]⟩⟩
        simpa [hother] using h.put
  · cases hturn with
    | on _ _ hleft _ _ =>
        rw [hnone] at hleft
        exact absurd hleft (Nat.succ_ne_zero _)
    | put hcall _ =>
        rw [hnone] at hcall
        cases hcall
    | get hcall _ =>
        rw [hnone] at hcall
        cases hcall

theorem exists_turn_put {point : PutPoint} {i : Nat} (hcall : s.call p = .put point data i)
    (hroom : point = .wait → i < data.length → ¬ (s.shm p).Full 256) : ∃ t, Turn s t := by
  have hturn : vtiAct s p .turn = putTurn s p data i point := by rw [vtiAct, hcall]
  cases point with
  | wait =>
      by_cases hi : i < data.length
      · refine ⟨s.setCall p (.put .store data i), p, ?_⟩
        rw [hturn, putTurn, mask_eq, if_pos hi]
        exact if_neg (hroom rfl hi)
      · refine ⟨s.ret p (.put data i 0), p, ?_⟩
        rw [hturn, putTurn]
        exact if_neg hi
  | store => exact ⟨_, p, hturn⟩
  | advance => exact ⟨_, p, hturn⟩

theorem exists_turn_get {point : GetPoint} {len : Nat} {got : List UInt8}
    (hcall : s.call p = .get point len got)
    (hsome : point = .wait → got.length < len → ¬ (s.shm p.other).Empty) : ∃ t, Turn s t := by
  have hturn : vtiAct s p .turn = getTurn s p len got point := by rw [vtiAct, hcall]
  cases point with
  | wait =>
      by_cases hlen : got.length < len
      · refine ⟨s.setCall p (.get .load len got), p, ?_⟩
        rw [hturn, getTurn, if_pos hlen]
        exact if_neg (hsome rfl hlen)
      · refine ⟨s.ret p (.get len got 0), p, ?_⟩
        rw [hturn, getTurn]
        exact if_neg hlen
  | load => exact ⟨_, p, hturn⟩
  | advance b => exact ⟨_, p, hturn⟩

/-- A transfer in which neither side can go on is over, and the bytes have arrived. -/
theorem Transferring.over (h : Transferring data p s) (hinv : VtiInv s)
    (hfifo : s.sentBy p = s.gotBy p.other ++ (s.shm p).held 256) (hstuck : ∀ t, ¬ Turn s t) :
    s.log p = [.put data data.length 0] ∧ s.log p.other = [.get data.length data 0]
      ∧ s.left = 0 := by
  have hempty := RingBuffer.held_of_empty (hinv.within p)
  rcases h.put with ⟨⟨point, i, hput⟩, hlog⟩ | ⟨hnone, hlog⟩
  · -- the writer waits for room, so that the buffer is full and the reader can go on
    exfalso
    have hfull : point = .wait ∧ i < data.length ∧ (s.shm p).Full 256 := by
      by_contra hno
      obtain ⟨t, ht⟩ := exists_turn_put hput fun hwait hi hfull => hno ⟨hwait, hi, hfull⟩
      exact hstuck t ht
    have hsome : ¬ (s.shm p).Empty := fun hempty =>
      RingBuffer.not_full_and_empty (hinv.within p) (by decide) ⟨hfull.2.2, hempty⟩
    rcases h.get with ⟨⟨point', got, hget⟩, -⟩ | ⟨hnone', got, hlen, hlog'⟩
    · obtain ⟨t, ht⟩ := exists_turn_get hget fun _ _ => by rw [other_other]; exact hsome
      exact hstuck t ht
    · have hsent : s.sentBy p = data.take i := by
        simp [VtiState.sentBy, hlog, hput, VtiCall.sent]
      have hgot : s.gotBy p.other = got := by
        simp [VtiState.gotBy, hlog', hnone', VtiReturn.got, VtiCall.got]
      rw [hsent, hgot] at hfifo
      have hlength := congrArg List.length hfifo
      rw [List.length_take, List.length_append] at hlength
      omega
  · have hsent : s.sentBy p = data := by
      simp [VtiState.sentBy, hlog, hnone, VtiReturn.sent, VtiCall.sent]
    rcases h.get with ⟨⟨point', got, hget⟩, hlog'⟩ | ⟨hnone', got, hlen, hlog'⟩
    · -- the reader waits for a byte, so that the buffer is empty and all has been read
      exfalso
      have hgot : s.gotBy p.other = got := by
        simp [VtiState.gotBy, hlog', hget, VtiCall.got]
      have hwait : got.length < data.length ∧ (s.shm p).Empty := by
        by_contra hno
        obtain ⟨t, ht⟩ := exists_turn_get hget fun _ hlen hempty =>
          hno ⟨hlen, by rw [other_other] at hempty; exact hempty⟩
        exact hstuck t ht
      rw [hsent, hgot, hempty hwait.2, List.append_nil] at hfifo
      rw [hfifo] at hwait
      exact absurd hwait.1 (Nat.lt_irrefl _)
    · have hgot : s.gotBy p.other = got := by
        simp [VtiState.gotBy, hlog', hnone', VtiReturn.got, VtiCall.got]
      rw [hsent, hgot] at hfifo
      have hsame : got = data := by
        have hlength := congrArg List.length hfifo
        rw [List.length_append] at hlength
        have hnil : (s.shm p).held 256 = [] := List.length_eq_zero_iff.mp (by omega)
        rw [hfifo, hnil, List.append_nil]
      rw [hsame] at hlog'
      refine ⟨hlog, hlog', ?_⟩
      rw [left_eq s p, hnone, hnone']
      rfl

end Transfer

/-- One side sends `data` over the link just opened, and the other asks for as many bytes. -/
def transferStart (buf : Address → Nat → UInt8) (p : Address) (data : List UInt8) : VtiState :=
  ((opened buf).setCall p (.put .wait data 0)).setCall p.other (.get .wait data.length [])

/-- **A transfer over the virtual link ends, and ends well.**  However many bytes are sent, and in
whatever order the sides take turns, as long as none runs out of time: there are no more turns than
six for each byte and one for each return, and when no side can go on both have returned 0, and the
bytes that were received are those that were sent. -/
theorem vti_transfer {buf : Address → Nat → UInt8} {p : Address} {data : List UInt8} {n : Nat}
    {t : VtiState} (hrun : Steps Turn n (transferStart buf p data) t) :
    n ≤ 6 * data.length + 2 ∧ ((∀ u, ¬ Turn t u) → n = 6 * data.length + 2
      ∧ t.log p = [.put data data.length 0] ∧ t.log p.other = [.get data.length data 0]) := by
  have hputs : VtiStep (opened buf) ((opened buf).setCall p (.put .wait data 0)) :=
    ⟨p, .put data, rfl⟩
  have hgets : VtiStep ((opened buf).setCall p (.put .wait data 0)) (transferStart buf p data) := by
    refine ⟨p.other, .get data.length, ?_⟩
    rw [vtiAct, if_pos (by simp [opened, other_ne])]
    rfl
  have hbegin : ReflTransGen VtiStep (opened buf) (transferStart buf p data) :=
    (ReflTransGen.refl.tail hputs).tail hgets
  have hreach : ReflTransGen VtiStep (opened buf) t :=
    hbegin.trans (hrun.run.lift id fun _ _ ⟨q, hact⟩ => ⟨q, .turn, hact⟩)
  have hbefore : Transferring data p (transferStart buf p data) := by
    refine ⟨.inl ⟨⟨.wait, 0, ?_⟩, rfl⟩, .inl ⟨⟨.wait, [], ?_⟩, rfl⟩⟩
    · simp [transferStart, (other_ne p).symm]
    · simp [transferStart]
  have hleft : (transferStart buf p data).left = 6 * data.length + 2 := by
    rw [left_eq _ p]
    simp [transferStart, (other_ne p).symm, VtiCall.left]
    omega
  have hstep : ∀ s t, (VtiInv s ∧ Transferring data p s) → Turn s t →
      (VtiInv t ∧ Transferring data p t) ∧ t.left + 1 = s.left := by
    rintro s t ⟨hinv, htransfer⟩ ⟨q, hact⟩
    have hturned := turned_of_vtiAct hinv hact
    refine ⟨⟨(moved_refines hinv (moved_of_vtiAct hact)).1, ?_⟩, hturned.left_eq⟩
    by_cases hq : q = p
    · subst hq
      exact htransfer.turn_put hturned
    · obtain rfl := eq_other_of_ne hq
      exact htransfer.turn_get hturned
  obtain ⟨⟨hinv, hafter⟩, hcount⟩ :=
    hrun.length_eq VtiState.left hstep ⟨(vti_refines hbegin p).1, hbefore⟩
  rw [hleft] at hcount
  refine ⟨by omega, fun hstuck => ?_⟩
  obtain ⟨hput, hget, hzero⟩ := hafter.over hinv (vti_fifo hreach p).1 hstuck
  exact ⟨by omega, hput, hget⟩

theorem vti_transfer_begun :
    let t := vtiActed (transferStart (fun _ _ => 0) .zero [0x56]) [(.zero, .turn)]
    1 ≤ 6 * [(0x56 : UInt8)].length + 2 ∧ ((∀ u, ¬ Turn t u) →
      1 = 6 * [(0x56 : UInt8)].length + 2 ∧ t.log .zero = [.put [0x56] [(0x56 : UInt8)].length 0]
        ∧ t.log Side.zero.other = [.get [(0x56 : UInt8)].length [0x56] 0]) :=
  @vti_transfer (fun _ _ => 0) .zero [0x56] 1 _ (.tail (.refl _) ⟨.zero, rfl⟩)

end Tilibs.Cables.LinkVti
