import Mathlib
import Tilibs.Lib.Bits
import Tilibs.Lib.Bytes
import Tilibs.Lib.Channel

/-!
# Tilibs.Cables.LinkSer

Bytes over two wires (`linux/link_ser.cc`, and the same loops in `linux/link_par.cc`), with a cable
at each end of them.

A wire is high unless one of the sides pulls it low.  A bit is sent by pulling one wire low, red
for a 0 and white for a 1; the other side answers by pulling the other wire low, and both let go.
A step is what one side does between two accesses to its port, so the sides may take turns in any
order, and a side that waits may run out of time, after which it does nothing more.  No side starts
`ser_put` while the other is in it.

The bits that are read are those that were written (`ser_sound`), and `ser_put` does not return
before the last of them has been read.
-/

namespace Tilibs.Cables.LinkSer

open Lib Relation

/-! ## the wires -/

/-- The wires that a side lets go of. -/
structure Wires where
  red : Bool
  white : Bool
  deriving DecidableEq, Repr

/-- `ser_io_wr` -/
def serIoWr (data : UInt8) : Wires := ⟨data &&& 2 ≠ 0, data &&& 1 ≠ 0⟩

/-- `ser_io_rd`, from what the two sides do to the wires. -/
def serIoRd (own other : Wires) : UInt8 :=
  (if own.red && other.red then 0x10 else 0) ||| (if own.white && other.white then 0x20 else 0)

/-! ## the calls -/

/-- Where `ser_put` stands with a bit: it pulls a wire low, waits for the other one to go low, lets
go of its wire, or waits for the other one to go high. -/
inductive PutPoint
  | pull
  | low
  | release
  | high
  deriving DecidableEq, Repr

/-- Where `ser_get` stands: it waits for a wire to go low, pulls the other one low, waits for the
first one to go high, or lets go of its wire.  From the second point on it knows the bit. -/
inductive GetPoint
  | bit
  | pull (b : Bool)
  | high (b : Bool)
  | release (b : Bool)
  deriving DecidableEq, Repr

/-- The call that a side is in, with the variables of `ser_put` or `ser_get`; `j` of `ser_get` is
the number of bytes in `data`. -/
inductive SerCall
  | none
  | put (point : PutPoint) (data : List UInt8) (j bit : Nat) (byte : UInt8)
  | get (point : GetPoint) (len : Nat) (data : List UInt8) (bit : Nat) (byte : UInt8)
  deriving DecidableEq, Repr

/-- A call that has returned 0. -/
inductive SerReturn
  | put (data : List UInt8)
  | get (data : List UInt8)
  deriving DecidableEq, Repr

/-- What a side does next: go on, write to its port, or return 0. -/
inductive SerNext
  | go (call : SerCall)
  | write (value : UInt8) (call : SerCall)
  | ret (r : SerReturn)
  deriving DecidableEq, Repr

/-- The loops of `ser_put` behind a bit. -/
def putBehind (data : List UInt8) (j bit : Nat) (byte : UInt8) : SerCall :=
  if bit + 1 < 8 then .put .pull data j (bit + 1) (byte >>> 1)
  else .put .pull data (j + 1) 0 (data.getD (j + 1) 0)

/-- The loops of `ser_get` behind a bit. -/
def getBehind (len : Nat) (data : List UInt8) (bit : Nat) (byte : UInt8) : SerCall :=
  if bit + 1 < 8 then .get .bit len data (bit + 1) byte else .get .bit len (data ++ [byte]) 0 0

/-- The wire that is to answer. -/
def answer (byte : UInt8) : UInt8 := if byte &&& 1 ≠ 0 then 0x10 else 0x20

/-- `ser_put` -/
def putNext (rd : UInt8) (data : List UInt8) (j bit : Nat) (byte : UInt8) :
    PutPoint → Option SerNext
  | .pull =>
      if j < data.length then
        some (.write (if byte &&& 1 ≠ 0 then 2 else 1) (.put .low data j bit byte))
      else some (.ret (.put data))
  | .low => if rd &&& answer byte ≠ 0 then none else some (.go (.put .release data j bit byte))
  | .release => some (.write 3 (.put .high data j bit byte))
  | .high => if rd &&& answer byte = 0 then none else some (.go (putBehind data j bit byte))

/-- `ser_get` -/
def getNext (rd : UInt8) (len : Nat) (data : List UInt8) (bit : Nat) (byte : UInt8) :
    GetPoint → Option SerNext
  | .bit =>
      if data.length < len then
        if rd &&& 0x30 = 0x30 then none
        else if rd &&& 0x30 = 0x10 then
          some (.go (.get (.pull true) len data bit ((byte >>> 1) ||| 0x80)))
        else some (.go (.get (.pull false) len data bit ((byte >>> 1) &&& 0x7F)))
      else some (.ret (.get data))
  | .pull b => some (.write (if b then 1 else 2) (.get (.high b) len data bit byte))
  | .high b =>
      if rd &&& (if b then 0x20 else 0x10) = 0 then none
      else some (.go (.get (.release b) len data bit byte))
  | .release _ => some (.write 3 (getBehind len data bit byte))

def serNext (rd : UInt8) : SerCall → Option SerNext
  | .none => none
  | .put point data j bit byte => putNext rd data j bit byte point
  | .get point len data bit byte => getNext rd len data bit byte point

/-- The places at which a call looks at the clock. -/
def waits : SerCall → Bool
  | .put .low _ _ _ _ | .put .high _ _ _ _ | .get (.high _) _ _ _ _ => true
  | .get .bit len data _ _ => data.length < len
  | _ => false

/-! ## the two sides -/

/-- What each side does to the wires, the call it is in, the calls that have returned 0, and
whether it has run out of time. -/
structure SerState where
  wires : Side → Wires
  call : Side → SerCall
  log : Side → List SerReturn
  timedOut : Side → Bool

/-- Both sides let go of the wires, as `ser_reset` does. -/
def released : SerState where
  wires := fun _ => serIoWr 3
  call := fun _ => .none
  log := fun _ => []
  timedOut := fun _ => false

inductive SerAction
  | put (data : List UInt8)
  | get (len : Nat)
  | turn
  | timeout
  deriving DecidableEq, Repr

def SerCall.isPut : SerCall → Bool
  | .put .. => true
  | _ => false

namespace SerState

variable (s : SerState) (p : Side)

def setCall (call : SerCall) : SerState := { s with call := Function.update s.call p call }

def setWires (wires : Wires) : SerState := { s with wires := Function.update s.wires p wires }

def ret (r : SerReturn) : SerState :=
  { s with
    call := Function.update s.call p .none
    log := Function.update s.log p (s.log p ++ [r]) }

/-- What a side reads from its port. -/
def rd : UInt8 := serIoRd (s.wires p) (s.wires p.other)

def act (next : SerNext) : SerState :=
  match next with
  | .go call => s.setCall p call
  | .write value call => (s.setWires p (serIoWr value)).setCall p call
  | .ret r => s.ret p r

section Fields

variable {s p}
variable (w : Wires) (c : SerCall) (r : SerReturn)

@[simp] theorem wires_setCall : (s.setCall p c).wires = s.wires := rfl
@[simp] theorem log_setCall : (s.setCall p c).log = s.log := rfl
@[simp] theorem call_setCall : (s.setCall p c).call = Function.update s.call p c := rfl
@[simp] theorem wires_setWires : (s.setWires p w).wires = Function.update s.wires p w := rfl
@[simp] theorem log_setWires : (s.setWires p w).log = s.log := rfl
@[simp] theorem call_setWires : (s.setWires p w).call = s.call := rfl
@[simp] theorem wires_ret : (s.ret p r).wires = s.wires := rfl
@[simp] theorem log_ret : (s.ret p r).log = Function.update s.log p (s.log p ++ [r]) := rfl
@[simp] theorem call_ret : (s.ret p r).call = Function.update s.call p .none := rfl

end Fields

end SerState

def serAct (s : SerState) (p : Side) : SerAction → Option SerState
  | .put data =>
      if s.call p = .none ∧ (s.call p.other).isPut = false then
        some (s.setCall p (.put .pull data 0 0 (data.getD 0 0)))
      else none
  | .get len => if s.call p = .none then some (s.setCall p (.get .bit len [] 0 0)) else none
  | .turn => if s.timedOut p then none else (serNext (s.rd p) (s.call p)).map (s.act p)
  | .timeout =>
      if waits (s.call p) then some { s with timedOut := Function.update s.timedOut p true }
      else none

/-- One side does something. -/
def SerStep (s t : SerState) : Prop := ∃ p action, serAct s p action = some t

/-- The actions that are possible are taken, one after the other. -/
def serActed (s : SerState) (actions : List (Side × SerAction)) : SerState :=
  acted (fun s action => serAct s action.1 action.2) s actions

theorem run_serActed (s : SerState) (actions : List (Side × SerAction)) :
    ReflTransGen SerStep s (serActed s actions) :=
  run_acted (fun _ action _ h => ⟨action.1, action.2, h⟩) s actions

/-! ## what the sides know of each other -/

/-- The bit that is sent next. -/
def bitOf (byte : UInt8) : Bool := byte &&& 1 ≠ 0

/-- What a side does to the wires as the one that sends. -/
inductive Sending
  | idle
  | low (b : Bool)
  | release (b : Bool)
  | high (b : Bool)
  deriving DecidableEq, Repr

/-- What a side does to the wires as the one that receives. -/
inductive Getting
  | idle
  | pull (b : Bool)
  | high (b : Bool)
  | release (b : Bool)
  deriving DecidableEq, Repr

def Sending.wires : Sending → Wires
  | .idle | .high _ => serIoWr 3
  | .low b | .release b => serIoWr (if b then 2 else 1)

/-- The bit that is under way. -/
def Sending.bit : Sending → List Bool
  | .idle => []
  | .low b | .release b | .high b => [b]

def Getting.wires : Getting → Wires
  | .idle | .pull _ => serIoWr 3
  | .high b | .release b => serIoWr (if b then 1 else 2)

namespace SerCall

def sending : SerCall → Sending
  | .put .low _ _ _ byte => .low (bitOf byte)
  | .put .release _ _ _ byte => .release (bitOf byte)
  | .put .high _ _ _ byte => .high (bitOf byte)
  | _ => .idle

def getting : SerCall → Getting
  | .get (.pull b) _ _ _ _ => .pull b
  | .get (.high b) _ _ _ _ => .high b
  | .get (.release b) _ _ _ _ => .release b
  | _ => .idle

/-- What a call does to the wires. -/
def wires (call : SerCall) : Wires := if call.isPut then call.sending.wires else call.getting.wires

/-- The bits that a call has sent and seen answered. -/
def sentBits : SerCall → List Bool
  | .put _ data j bit _ => bitsOf (data.take j) ++ lowBits bit (data.getD j 0)
  | _ => []

/-- The bits that a call has shifted in. -/
def gotBits : SerCall → List Bool
  | .get .bit _ data bit byte => bitsOf data ++ highBits bit byte
  | .get _ _ data bit byte => bitsOf data ++ highBits (bit + 1) byte
  | _ => []

/-- The variables of a call: `byte` is what the loop has left of a byte, and the loops have not
run over. -/
def Valid : SerCall → Prop
  | .none => True
  | .put point data j bit byte =>
      j < data.length ∧ bit < 8 ∧ ShiftedOut bit (data.getD j 0) byte ∨
        point = .pull ∧ j = data.length ∧ bit = 0
  | .get point len data bit _ =>
      bit < 8 ∧ data.length ≤ len ∧ (point ≠ .bit ∨ bit ≠ 0 → data.length < len)

end SerCall

/-- The bytes that a call was to send. -/
def SerReturn.sent : SerReturn → List UInt8
  | .put data => data
  | .get _ => []

def SerReturn.got : SerReturn → List UInt8
  | .put _ => []
  | .get data => data

/-- The bytes that a call is to send. -/
def SerCall.asked : SerCall → List UInt8
  | .put _ data _ _ _ => data
  | _ => []

def SerCall.got : SerCall → List UInt8
  | .get _ _ data _ _ => data
  | _ => []

namespace SerState

variable (s : SerState) (p : Side)

/-- The bits that a side has sent and seen answered. -/
def sentBits : List Bool := bitsOf ((s.log p).flatMap SerReturn.sent) ++ (s.call p).sentBits

/-- The bits that a side has received. -/
def gotBits : List Bool := bitsOf ((s.log p).flatMap SerReturn.got) ++ (s.call p).gotBits

end SerState

/-- What the side that sends and the side that receives have done with a bit, and the bits that
have been answered and that have been received. -/
inductive Agree : Sending → Getting → List Bool → List Bool → Prop
  | still {bits : List Bool} : Agree .idle .idle bits bits
  | pulled {b : Bool} {bits : List Bool} : Agree (.low b) .idle bits bits
  | taken {b : Bool} {bits : List Bool} : Agree (.low b) (.pull b) bits (bits ++ [b])
  | answered {b : Bool} {bits : List Bool} : Agree (.low b) (.high b) bits (bits ++ [b])
  | seen {b : Bool} {bits : List Bool} : Agree (.release b) (.high b) bits (bits ++ [b])
  | released {b : Bool} {bits : List Bool} : Agree (.high b) (.high b) bits (bits ++ [b])
  | heard {b : Bool} {bits : List Bool} : Agree (.high b) (.release b) bits (bits ++ [b])
  | ended {b : Bool} {bits : List Bool} : Agree (.high b) .idle bits (bits ++ [b])

/-- What a side does to the wires is what its call says, its variables are those of its loops, one
side at most sends, and each direction is at one of the points of a bit. -/
structure SerInv (s : SerState) : Prop where
  wires : ∀ p, s.wires p = (s.call p).wires
  valid : ∀ p, (s.call p).Valid
  half : ∀ p, (s.call p).isPut = true → (s.call p.other).isPut = false
  agree : ∀ p, Agree (s.call p).sending (s.call p.other).getting (s.sentBits p)
    (s.gotBits p.other)

/-! ## reading the wires -/

/-- The wire that answers a bit. -/
def answerOf (b : Bool) : UInt8 := if b then 0x10 else 0x20

theorem answer_eq (byte : UInt8) : answer byte = answerOf (bitOf byte) := by
  simp [answer, answerOf, bitOf]

theorem serIoWr_bit (byte : UInt8) :
    serIoWr (if byte &&& 1 ≠ 0 then 2 else 1) = (Sending.low (bitOf byte)).wires := by
  simp [Sending.wires, bitOf]

/-- The wire that a bit pulls low. -/
def wireOf (b : Bool) : UInt8 := if b then 0x20 else 0x10

section Reading

variable {x : Sending} {y : Getting} {bits bits' : List Bool} {b : Bool}

/-- Nothing is on its way to a side when the other one is not sending. -/
theorem Agree.not_sending (h : Agree .idle y bits bits') : y = .idle ∧ bits' = bits := by
  cases h with
  | still => exact ⟨rfl, rfl⟩

theorem Agree.not_taken (h : Agree (.low b) .idle bits bits') : bits' = bits := by
  cases h with
  | pulled => rfl

theorem Agree.same_low {b' : Bool} (h : Agree (.low b) (.high b') bits bits') : b = b' := by
  cases h with
  | answered => rfl

theorem Agree.same_high {b' : Bool} (h : Agree (.high b) (.high b') bits bits') : b = b' := by
  cases h with
  | released => rfl

/-- A side that sends sees the answer. -/
theorem Agree.seen_answer (h : Agree (.low b) y bits bits')
    (hrd : serIoRd (Sending.low b).wires y.wires &&& answerOf b = 0) :
    y = .high b ∧ bits' = bits ++ [b] := by
  cases h with
  | answered => exact ⟨rfl, rfl⟩
  | pulled => cases b <;> exact absurd hrd (by decide)
  | taken => cases b <;> exact absurd hrd (by decide)

theorem Agree.after_seen (h : Agree (.release b) y bits bits') :
    y = .high b ∧ bits' = bits ++ [b] := by
  cases h with
  | seen => exact ⟨rfl, rfl⟩

/-- A side that sends sees that the other one has let go. -/
theorem Agree.seen_release (h : Agree (.high b) y bits bits')
    (hrd : serIoRd (Sending.high b).wires y.wires &&& answerOf b ≠ 0) :
    y = .idle ∧ bits' = bits ++ [b] := by
  cases h with
  | ended => exact ⟨rfl, rfl⟩
  | released => cases b <;> exact absurd rfl hrd
  | heard => cases b <;> exact absurd rfl hrd

/-- A side that receives sees a bit, and which one. -/
theorem Agree.seen_bit (h : Agree x .idle bits bits')
    (hrd : serIoRd Getting.idle.wires x.wires &&& 0x30 ≠ 0x30) :
    bits' = bits ∧ ∃ b, x = .low b ∧
      serIoRd Getting.idle.wires x.wires &&& 0x30 = if b then 0x10 else 0x20 := by
  cases h with
  | still => exact absurd rfl hrd
  | @pulled b => cases b <;> exact ⟨rfl, _, rfl, rfl⟩
  | @ended b => cases b <;> exact absurd rfl hrd

theorem Agree.before_pull (h : Agree x (.pull b) bits bits') :
    x = .low b ∧ bits' = bits ++ [b] := by
  cases h with
  | taken => exact ⟨rfl, rfl⟩

theorem Agree.after_heard (h : Agree x (.release b) bits bits') :
    x = .high b ∧ bits' = bits ++ [b] := by
  cases h with
  | heard => exact ⟨rfl, rfl⟩

/-- A side that receives sees that the other one has let go. -/
theorem Agree.heard_release (h : Agree x (.high b) bits bits')
    (hrd : serIoRd (Getting.high b).wires x.wires &&& wireOf b ≠ 0) :
    x = .high b ∧ bits' = bits ++ [b] := by
  cases h with
  | released => exact ⟨rfl, rfl⟩
  | answered => cases b <;> exact absurd rfl hrd
  | seen => cases b <;> exact absurd rfl hrd

end Reading

/-! ## a step -/

theorem SerCall.sending_of_not_put {call : SerCall} (h : call.isPut = false) :
    call.sending = .idle := by
  cases call with
  | none => rfl
  | put => cases h
  | get => rfl

theorem SerCall.getting_of_put {call : SerCall} (h : call.isPut = true) :
    call.getting = .idle := by
  cases call with
  | none => cases h
  | put => rfl
  | get => cases h

theorem bitOf_eq {b byte : UInt8} {bit : Nat} (hbyte : ShiftedOut bit b byte) :
    bitOf byte = b.toNat.testBit bit := by
  rw [bitOf, Bool.eq_iff_iff, decide_eq_true_eq]
  exact hbyte.bit

/-- The loops of `ser_put` have one more bit behind them. -/
theorem sentBits_putBehind {point : PutPoint} {data : List UInt8} {j bit : Nat} {byte : UInt8}
    (hj : j < data.length) (hbit : bit < 8) (hbyte : ShiftedOut bit (data.getD j 0) byte) :
    (putBehind data j bit byte).sentBits
      = (SerCall.put point data j bit byte).sentBits ++ [bitOf byte] := by
  rw [putBehind, bitOf_eq hbyte]
  split
  · rw [SerCall.sentBits, SerCall.sentBits, lowBits_succ, List.append_assoc]
  · have hlast : bit = 7 := by omega
    rw [SerCall.sentBits, SerCall.sentBits, List.append_assoc, hlast, ← lowBits_succ,
      lowBits_eight, List.take_succ_eq_append_getElem hj, bitsOf_append, List.append_assoc,
      List.getD_eq_getElem _ _ hj]
    simp [lowBits]

theorem isPut_putBehind {data : List UInt8} {j bit : Nat} {byte : UInt8} :
    (putBehind data j bit byte).isPut = true := by
  rw [putBehind]
  split <;> rfl

theorem sending_putBehind {data : List UInt8} {j bit : Nat} {byte : UInt8} :
    (putBehind data j bit byte).sending = .idle := by
  rw [putBehind]
  split <;> rfl

theorem valid_putBehind {data : List UInt8} {j bit : Nat} {byte : UInt8} (hj : j < data.length)
    (hbyte : ShiftedOut bit (data.getD j 0) byte) : (putBehind data j bit byte).Valid := by
  rw [putBehind]
  split
  · next hmore => exact .inl ⟨hj, hmore, hbyte.succ⟩
  · by_cases hend : j + 1 < data.length
    · exact .inl ⟨hend, by decide, shiftedOut_zero _⟩
    · exact .inr ⟨rfl, by omega, rfl⟩

theorem gotBits_getBehind (b : Bool) (len : Nat) (data : List UInt8) {bit : Nat} (byte : UInt8)
    (hbit : bit < 8) :
    (getBehind len data bit byte).gotBits
      = (SerCall.get (.release b) len data bit byte).gotBits := by
  rw [getBehind]
  split
  · rfl
  · have hlast : bit = 7 := by omega
    rw [SerCall.gotBits, SerCall.gotBits, bitsOf_append, hlast, highBits_eight]
    · simp [highBits]
    · intro h
      cases h

theorem isPut_getBehind {len : Nat} {data : List UInt8} {bit : Nat} {byte : UInt8} :
    (getBehind len data bit byte).isPut = false := by
  rw [getBehind]
  split <;> rfl

theorem getting_getBehind {len : Nat} {data : List UInt8} {bit : Nat} {byte : UInt8} :
    (getBehind len data bit byte).getting = .idle := by
  rw [getBehind]
  split <;> rfl

theorem valid_getBehind {len : Nat} {data : List UInt8} {bit : Nat} {byte : UInt8}
    (hlen : data.length < len) : (getBehind len data bit byte).Valid := by
  rw [getBehind]
  split
  · next hmore => exact ⟨hmore, hlen.le, fun _ => hlen⟩
  · refine ⟨by decide, ?_, fun h => ?_⟩
    · rw [List.length_append]
      exact hlen
    · rcases h with h | h <;> exact absurd rfl h

section Step

variable {s t : SerState} {p : Side}

/-- A step of `p`, from what it does to the two directions. -/
theorem SerInv.move {call : SerCall} (h : SerInv s) (hcall : t.call = Function.update s.call p call)
    (hwires : t.wires = Function.update s.wires p call.wires) (hvalid : call.Valid)
    (hhalf : call.isPut = true → (s.call p.other).isPut = false)
    (hlog : t.log p.other = s.log p.other)
    (hsends : Agree call.sending (s.call p.other).getting (t.sentBits p) (s.gotBits p.other))
    (hgets : Agree (s.call p.other).sending call.getting (s.sentBits p.other) (t.gotBits p)) :
    SerInv t := by
  have hown : t.call p = call := by rw [hcall, Function.update_self]
  have hother : t.call p.other = s.call p.other := by
    rw [hcall, Function.update_of_ne p.other_ne]
  have hsent : t.sentBits p.other = s.sentBits p.other := by
    rw [SerState.sentBits, SerState.sentBits, hother, hlog]
  have hgot : t.gotBits p.other = s.gotBits p.other := by
    rw [SerState.gotBits, SerState.gotBits, hother, hlog]
  have hsides : ∀ {P : Side → Prop}, P p → P p.other → ∀ q, P q := by
    intro P hp hq q
    by_cases hqp : q = p
    · rw [hqp]
      exact hp
    · rw [Side.eq_other_of_ne hqp]
      exact hq
  refine ⟨hsides ?_ ?_, hsides ?_ ?_, hsides ?_ ?_, hsides ?_ ?_⟩
  · rw [hwires, Function.update_self, hown]
  · rw [hwires, Function.update_of_ne p.other_ne, hother]
    exact h.wires p.other
  · rw [hown]
    exact hvalid
  · rw [hother]
    exact h.valid p.other
  · rw [hown, hother]
    exact hhalf
  · rw [hother, Side.other_other, hown]
    intro hput
    by_contra hboth
    rw [hhalf (by simpa using hboth)] at hput
    cases hput
  · rw [hown, hother, hgot]
    exact hsends
  · rw [hother, Side.other_other, hown, hsent]
    exact hgets

/-- What a side that sends sees of the other one. -/
theorem SerInv.wires_other_of_put (h : SerInv s) (hput : (s.call p).isPut = true) :
    s.wires p.other = (s.call p.other).getting.wires := by
  rw [h.wires, SerCall.wires, h.half p hput]
  rfl

/-- What a side that does not send sees of the other one. -/
theorem SerInv.wires_other_of_not_put (h : SerInv s) (hget : (s.call p).isPut = false) :
    s.wires p.other = (s.call p.other).sending.wires := by
  rw [h.wires, SerCall.wires]
  split
  · rfl
  · next hnot =>
    have hidle := h.agree p
    rw [SerCall.sending_of_not_put hget] at hidle
    rw [hidle.not_sending.1, SerCall.sending_of_not_put (by simpa using hnot)]
    rfl

/-- A step in the middle of `ser_put`. -/
theorem SerInv.move_put {call : SerCall} (h : SerInv s) (bits : List Bool)
    (hput : (s.call p).isPut = true) (hcall : t.call = Function.update s.call p call)
    (hwires : t.wires = Function.update s.wires p call.sending.wires) (hlog : t.log = s.log)
    (hnext : call.isPut = true) (hvalid : call.Valid)
    (hbits : call.sentBits = (s.call p).sentBits ++ bits)
    (hsends : Agree call.sending (s.call p.other).getting (s.sentBits p ++ bits)
      (s.gotBits p.other)) : SerInv t := by
  refine h.move hcall (by rw [hwires, SerCall.wires, if_pos hnext]) hvalid (fun _ => h.half p hput)
    (by rw [hlog]) ?_ ?_
  · rw [SerState.sentBits, hlog, hcall, Function.update_self, hbits, ← List.append_assoc]
    exact hsends
  · have hgets := h.agree p.other
    rw [Side.other_other, SerCall.getting_of_put hput] at hgets
    have hgot : ∀ c : SerCall, c.isPut = true → c.gotBits = [] := by
      intro c hc
      cases c with
      | none => rfl
      | put => rfl
      | get => cases hc
    rw [SerCall.getting_of_put hnext, SerState.gotBits, hlog, hcall, Function.update_self,
      hgot call hnext]
    rwa [SerState.gotBits, hgot _ hput] at hgets

/-- A step in the middle of `ser_get`. -/
theorem SerInv.move_get {call : SerCall} (h : SerInv s) (bits : List Bool)
    (hget : (s.call p).isPut = false) (hcall : t.call = Function.update s.call p call)
    (hwires : t.wires = Function.update s.wires p call.getting.wires) (hlog : t.log = s.log)
    (hnext : call.isPut = false) (hvalid : call.Valid)
    (hbits : call.gotBits = (s.call p).gotBits ++ bits)
    (hgets : Agree (s.call p.other).sending call.getting (s.sentBits p.other)
      (s.gotBits p ++ bits)) : SerInv t := by
  refine h.move hcall ?_ hvalid (fun hput => absurd (hnext.symm.trans hput) (by decide))
    (by rw [hlog]) ?_ ?_
  · rw [hwires, SerCall.wires, if_neg (by rw [hnext]; decide)]
  · have hsends := h.agree p
    have hsent : ∀ c : SerCall, c.isPut = false → c.sentBits = [] := by
      intro c hc
      cases c with
      | none => rfl
      | put => cases hc
      | get => rfl
    rw [SerCall.sending_of_not_put hget] at hsends
    rw [SerCall.sending_of_not_put hnext, SerState.sentBits, hlog, hcall, Function.update_self,
      hsent call hnext]
    rwa [SerState.sentBits, hsent _ hget] at hsends
  · rw [SerState.gotBits, hlog, hcall, Function.update_self, hbits, ← List.append_assoc]
    exact hgets

/-- A call returns 0. -/
theorem SerInv.returned {r : SerReturn} (h : SerInv s)
    (hwires : s.wires p = serIoWr 3) (hsending : (s.call p).sending = .idle)
    (hgetting : (s.call p).getting = .idle) (hsent : bitsOf r.sent = (s.call p).sentBits)
    (hgot : bitsOf r.got = (s.call p).gotBits) : SerInv (s.ret p r) := by
  have hlog : (s.ret p r).log p.other = s.log p.other := by
    rw [SerState.log_ret, Function.update_of_ne p.other_ne]
  have hsends := h.agree p
  have hgets := h.agree p.other
  rw [hsending] at hsends
  rw [Side.other_other, hgetting] at hgets
  have hcall : (s.ret p r).call = Function.update s.call p .none := rfl
  refine h.move hcall ?_ trivial (fun hno => by cases hno) hlog ?_ ?_
  · rw [SerState.wires_ret, SerCall.wires, if_neg (by decide)]
    rw [show SerCall.none.getting.wires = serIoWr 3 from rfl, ← hwires, Function.update_eq_self]
  · rw [SerState.sentBits, SerState.log_ret, SerState.call_ret, Function.update_self,
      Function.update_self, List.flatMap_append, List.flatMap_singleton, bitsOf_append, hsent,
      show SerCall.none.sentBits = [] from rfl, List.append_nil]
    exact hsends
  · rw [SerState.gotBits, SerState.log_ret, SerState.call_ret, Function.update_self,
      Function.update_self, List.flatMap_append, List.flatMap_singleton, bitsOf_append, hgot,
      show SerCall.none.gotBits = [] from rfl, List.append_nil]
    exact hgets

/-- A call begins. -/
theorem SerInv.begun {call : SerCall} (h : SerInv s) (hnone : s.call p = .none)
    (hsending : call.sending = .idle) (hgetting : call.getting = .idle)
    (hsent : call.sentBits = []) (hgot : call.gotBits = []) (hvalid : call.Valid)
    (hhalf : call.isPut = true → (s.call p.other).isPut = false) : SerInv (s.setCall p call) := by
  have hsends := h.agree p
  have hgets := h.agree p.other
  rw [SerState.sentBits, hnone] at hsends
  rw [Side.other_other, SerState.gotBits, hnone] at hgets
  have hwires : call.wires = s.wires p := by
    rw [h.wires, hnone, SerCall.wires, hsending, hgetting]
    split <;> rfl
  have hcall : (s.setCall p call).call = Function.update s.call p call := rfl
  refine h.move hcall ?_ hvalid hhalf rfl ?_ ?_
  · rw [hwires, Function.update_eq_self]
    rfl
  · rw [SerState.sentBits, hcall, Function.update_self, hsent, hsending]
    exact hsends
  · rw [SerState.gotBits, hcall, Function.update_self, hgot, hgetting]
    exact hgets

theorem inv_putTurn {point : PutPoint} {data : List UInt8} {j bit : Nat} {byte : UInt8}
    {next : SerNext} (h : SerInv s) (hcall : s.call p = .put point data j bit byte)
    (hnext : putNext (s.rd p) data j bit byte point = some next) : SerInv (s.act p next) := by
  have hput : (s.call p).isPut = true := by
    rw [hcall]
    rfl
  have hown : s.wires p = (s.call p).sending.wires := by rw [h.wires, SerCall.wires, if_pos hput]
  have hvalid := h.valid p
  have hsends := h.agree p
  rw [SerState.rd, hown, h.wires_other_of_put hput] at hnext
  rw [hcall] at hown hvalid hsends hnext
  have hinside : point ≠ .pull ∨ j < data.length →
      j < data.length ∧ bit < 8 ∧ ShiftedOut bit (data.getD j 0) byte := by
    rcases hvalid with hin | ⟨rfl, rfl, -⟩
    · exact fun _ => hin
    · exact fun hno => absurd hno (by simp)
  have hkept : ∀ w, s.wires p = w → s.wires = Function.update s.wires p w := by
    rintro w rfl
    exact (Function.update_eq_self p _).symm
  cases point with
  | pull =>
      obtain ⟨hidle, hbits⟩ := hsends.not_sending
      rw [putNext] at hnext
      split at hnext
      · next hj =>
        cases hnext
        refine h.move_put [] hput rfl ?_ rfl rfl (.inl (hinside (.inr hj))) ?_ ?_
        · exact congrArg (Function.update s.wires p) (serIoWr_bit byte)
        · rw [hcall, List.append_nil]
          rfl
        · rw [hidle, hbits, List.append_nil]
          exact .pulled
      · next hj =>
        cases hnext
        obtain ⟨hin, -⟩ | ⟨-, rfl, rfl⟩ := hvalid
        · exact absurd hin hj
        · refine h.returned hown (by rw [hcall]; rfl) (by rw [hcall]; rfl) ?_ (by rw [hcall]; rfl)
          rw [hcall, SerCall.sentBits, List.take_length]
          exact (List.append_nil _).symm
  | low =>
      obtain ⟨hj, hbit, hbyte⟩ := hinside (.inl (by decide))
      rw [putNext, answer_eq] at hnext
      split at hnext
      · cases hnext
      · next hrd =>
        cases hnext
        obtain ⟨hhigh, hbits⟩ := hsends.seen_answer (not_not.mp hrd)
        refine h.move_put [] hput rfl (hkept _ hown) rfl rfl (.inl ⟨hj, hbit, hbyte⟩) ?_ ?_
        · rw [hcall, List.append_nil]
          rfl
        · rw [hhigh, hbits, List.append_nil]
          exact .seen
  | release =>
      cases hnext
      obtain ⟨hj, hbit, hbyte⟩ := hinside (.inl (by decide))
      refine h.move_put [] hput rfl rfl rfl rfl (.inl ⟨hj, hbit, hbyte⟩) ?_ ?_
      · rw [hcall, List.append_nil]
        rfl
      · obtain ⟨hhigh, hbits⟩ := hsends.after_seen
        rw [hhigh, hbits, List.append_nil]
        exact .released
  | high =>
      obtain ⟨hj, hbit, hbyte⟩ := hinside (.inl (by decide))
      rw [putNext, answer_eq] at hnext
      split at hnext
      · cases hnext
      · next hrd =>
        cases hnext
        obtain ⟨hidle, hbits⟩ := hsends.seen_release hrd
        refine h.move_put [bitOf byte] hput rfl (hkept _ ?_) rfl ?_ (valid_putBehind hj hbyte) ?_ ?_
        · rw [hown, sending_putBehind]
          rfl
        · exact isPut_putBehind
        · rw [hcall, sentBits_putBehind hj hbit hbyte]
        · rw [sending_putBehind, hidle, hbits]
          exact .still

theorem inv_getTurn {point : GetPoint} {len : Nat} {data : List UInt8} {bit : Nat} {byte : UInt8}
    {next : SerNext} (h : SerInv s) (hcall : s.call p = .get point len data bit byte)
    (hnext : getNext (s.rd p) len data bit byte point = some next) : SerInv (s.act p next) := by
  have hget : (s.call p).isPut = false := by
    rw [hcall]
    rfl
  have hown : s.wires p = (s.call p).getting.wires := by
    rw [h.wires, SerCall.wires, if_neg (by rw [hget]; decide)]
  have hvalid := h.valid p
  have hgets := h.agree p.other
  rw [Side.other_other] at hgets
  rw [SerState.rd, hown, h.wires_other_of_not_put hget] at hnext
  rw [hcall] at hown hvalid hgets hnext
  obtain ⟨hbit, hlen, hinside⟩ := hvalid
  have hkept : ∀ w, s.wires p = w → s.wires = Function.update s.wires p w := by
    rintro w rfl
    exact (Function.update_eq_self p _).symm
  cases point with
  | bit =>
      have hidle : (SerCall.get .bit len data bit byte).getting = .idle := rfl
      rw [hidle] at hown hgets
      rw [getNext, hidle] at hnext
      split at hnext
      · next hmore =>
        split at hnext
        · cases hnext
        · next hrd =>
          obtain ⟨hbits, b, hlow, hwire⟩ := hgets.seen_bit hrd
          have htaken : some (SerNext.go (.get (.pull b) len data bit (shiftIn byte b)))
              = some next := by
            rw [← hnext]
            cases b
            · exact (if_neg (by rw [hwire]; decide)).symm
            · exact (if_pos hwire).symm
          cases htaken
          refine h.move_get [b] hget rfl (hkept _ hown) rfl rfl ⟨hbit, hlen, fun _ => hmore⟩ ?_ ?_
          · rw [hcall, SerCall.gotBits, SerCall.gotBits, highBits_shiftIn hbit, List.append_assoc]
            intro hno
            cases hno
          · rw [hlow, hbits]
            exact .taken
      · next hdone =>
        cases hnext
        have hzero : bit = 0 := by
          by_contra hno
          exact hdone (hinside (.inr hno))
        refine h.returned hown (by rw [hcall]; rfl) (by rw [hcall]; rfl) (by rw [hcall]; rfl) ?_
        rw [hcall, hzero]
        exact (List.append_nil _).symm
  | pull b =>
      cases hnext
      have hmore := hinside (.inl (by simp))
      refine h.move_get [] hget rfl rfl rfl rfl ⟨hbit, hlen, fun _ => hmore⟩ ?_ ?_
      · rw [hcall, List.append_nil]
        rfl
      · obtain ⟨hlow, hbits⟩ := hgets.before_pull
        rw [hlow, hbits, List.append_nil]
        exact .answered
  | high b =>
      have hmore := hinside (.inl (by simp))
      rw [getNext, ← wireOf] at hnext
      split at hnext
      · cases hnext
      · next hrd =>
        cases hnext
        obtain ⟨hhigh, hbits⟩ := hgets.heard_release hrd
        refine h.move_get [] hget rfl (hkept _ hown) rfl rfl ⟨hbit, hlen, fun _ => hmore⟩ ?_ ?_
        · rw [hcall, List.append_nil]
          rfl
        · rw [hhigh, hbits, List.append_nil]
          exact .heard
  | release b =>
      cases hnext
      have hmore := hinside (.inl (by simp))
      refine h.move_get [] hget rfl ?_ rfl isPut_getBehind (valid_getBehind hmore) ?_ ?_
      · rw [getting_getBehind]
        rfl
      · rw [hcall, List.append_nil, gotBits_getBehind b len data byte hbit]
      · obtain ⟨hhigh, hbits⟩ := hgets.after_heard
        rw [getting_getBehind, hhigh, hbits, List.append_nil]
        exact .ended

/-- Every step keeps the invariant. -/
theorem inv_of_step (h : SerInv s) (hstep : SerStep s t) : SerInv t := by
  obtain ⟨p, action, hact⟩ := hstep
  cases action with
  | put data =>
      rw [serAct] at hact
      split at hact
      · next hfree =>
        cases hact
        refine h.begun hfree.1 rfl rfl rfl rfl ?_ fun _ => hfree.2
        by_cases hdata : 0 < data.length
        · exact .inl ⟨hdata, by decide, shiftedOut_zero _⟩
        · exact .inr ⟨rfl, by omega, rfl⟩
      · cases hact
  | get len =>
      rw [serAct] at hact
      split at hact
      · next hfree =>
        cases hact
        refine h.begun hfree rfl rfl rfl rfl ⟨by decide, Nat.zero_le _, ?_⟩ fun hno => by cases hno
        rintro (hno | hno) <;> exact absurd rfl hno
      · cases hact
  | turn =>
      rw [serAct] at hact
      split at hact
      · cases hact
      · obtain ⟨next, hnext, rfl⟩ := Option.map_eq_some_iff.mp hact
        cases hcall : s.call p with
        | none =>
            rw [hcall] at hnext
            cases hnext
        | put point data j bit byte =>
            rw [hcall] at hnext
            exact inv_putTurn h hcall hnext
        | get point len data bit byte =>
            rw [hcall] at hnext
            exact inv_getTurn h hcall hnext
  | timeout =>
      rw [serAct] at hact
      split at hact
      · cases hact
        exact ⟨h.wires, h.valid, h.half, h.agree⟩
      · cases hact

theorem inv_released : SerInv released := by
  refine ⟨fun _ => rfl, fun _ => trivial, fun _ hno => ?_, fun _ => .still⟩
  cases hno

end Step

/-! ## what is read is what was written -/

namespace SerState

variable (s : SerState) (p : Side)

/-- The bytes that a side has been asked to send. -/
def asked : List UInt8 :=
  (s.log p).flatMap SerReturn.sent ++ (s.call p).asked

/-- The bytes that a side has received. -/
def got : List UInt8 :=
  (s.log p).flatMap SerReturn.got ++ (s.call p).got

end SerState

section Sound

variable {s : SerState} {p : Side}

/-- The bits that a call has sent, and the one that is under way, are the first of those that it is
to send. -/
theorem SerCall.Valid.sent {call : SerCall} (h : call.Valid) :
    call.sentBits ++ call.sending.bit <+: bitsOf call.asked := by
  cases call with
  | none => exact List.prefix_rfl
  | get => exact List.prefix_rfl
  | put point data j bit byte =>
      rcases h with ⟨hj, hbit, hbyte⟩ | ⟨rfl, rfl, rfl⟩
      · have hbefore : (SerCall.put point data j bit byte).sentBits <+: bitsOf data :=
          prefix_bits hj hbit.le
        have hbehind : (SerCall.put point data j bit byte).sentBits ++ [bitOf byte]
            <+: bitsOf data := by
          rw [SerCall.sentBits, bitOf_eq hbyte, List.append_assoc, ← lowBits_succ]
          exact prefix_bits hj hbit
        cases point with
        | pull => exact (List.append_nil _).symm ▸ hbefore
        | low => exact hbehind
        | release => exact hbehind
        | high => exact hbehind
      · rw [SerCall.sentBits, List.take_length]
        rw [show lowBits 0 _ = [] from rfl, List.append_nil]
        exact (List.append_nil (bitsOf data)).symm ▸ List.prefix_rfl

/-- The bytes that a call has received are in the bits that it has received. -/
theorem SerCall.prefix_gotBits (call : SerCall) : bitsOf call.got <+: call.gotBits := by
  cases call with
  | none => exact List.prefix_rfl
  | put => exact List.prefix_rfl
  | get point => cases point <;> exact List.prefix_append _ _

theorem Agree.got {x : Sending} {y : Getting} {bits bits' : List Bool} (h : Agree x y bits bits') :
    bits' <+: bits ++ x.bit := by
  cases h with
  | still => exact List.prefix_append _ _
  | pulled => exact List.prefix_append _ _
  | taken => exact List.prefix_rfl
  | answered => exact List.prefix_rfl
  | seen => exact List.prefix_rfl
  | released => exact List.prefix_rfl
  | heard => exact List.prefix_rfl
  | ended => exact List.prefix_rfl

theorem SerInv.prefix_asked (h : SerInv s) : s.got p.other <+: s.asked p := by
  refine prefix_of_bitsOf ?_
  have hgot : bitsOf (s.got p.other) <+: s.gotBits p.other := by
    rw [SerState.got, SerState.gotBits, bitsOf_append, List.prefix_append_right_inj]
    exact SerCall.prefix_gotBits _
  have hsent : s.sentBits p ++ (s.call p).sending.bit <+: bitsOf (s.asked p) := by
    rw [SerState.asked, SerState.sentBits, bitsOf_append, List.append_assoc,
      List.prefix_append_right_inj]
    exact (h.valid p).sent
  exact hgot.trans ((h.agree p).got.trans hsent)

/-- A side that does not receive a bit has whole bytes, and less than one byte of bits. -/
theorem SerCall.Valid.gotBits_idle {call : SerCall} (h : call.Valid)
    (hidle : call.getting = .idle) :
    ∃ bits, bits.length < 8 ∧ call.gotBits = bitsOf call.got ++ bits := by
  cases call with
  | none => exact ⟨[], by decide, rfl⟩
  | put => exact ⟨[], by decide, rfl⟩
  | get point len data bit byte =>
      cases point with
      | bit => exact ⟨highBits bit byte, by simpa [highBits] using h.1, rfl⟩
      | pull => cases hidle
      | high => cases hidle
      | release => cases hidle

/-- A side that is not sending has got rid of everything. -/
theorem SerInv.got_eq (h : SerInv s) (hput : (s.call p).isPut = false) :
    s.got p.other = s.asked p := by
  have hagree := h.agree p
  rw [SerCall.sending_of_not_put hput] at hagree
  obtain ⟨hidle, hall⟩ := hagree.not_sending
  obtain ⟨bits, hfew, hbits⟩ := (h.valid p.other).gotBits_idle hidle
  have hsent : s.sentBits p = bitsOf (s.asked p) := by
    rw [SerState.sentBits, SerState.asked, bitsOf_append]
    congr 1
    cases hcall : s.call p with
    | none => rfl
    | get => rfl
    | put =>
        rw [hcall] at hput
        cases hput
  have hsplit : bitsOf (s.asked p) = bitsOf (s.got p.other) ++ bits := by
    rw [← hsent, ← hall, SerState.gotBits, SerState.got, hbits, bitsOf_append, List.append_assoc]
  -- the bits of whole bytes are bits of whole bytes
  have hnone : bits = [] := by
    have hlen := congrArg List.length hsplit
    rw [length_bitsOf, List.length_append, length_bitsOf] at hlen
    exact List.length_eq_zero_iff.mp (by omega)
  rw [hnone, List.append_nil] at hsplit
  exact (bitsOf_injective hsplit).symm

end Sound

end Tilibs.Cables.LinkSer
