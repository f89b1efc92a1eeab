import Mathlib
import Tilibs.Lib.Bits
import Tilibs.Lib.Bytes
import Tilibs.Lib.Channel
import Tilibs.Cables.LinkSer

/-!
# Tilibs.Cables.LinkSerTransfer

A transfer over the two wires: one side is in `ser_put`, and the other in a `ser_get` of as many
bytes.  Neither can wait for the other for ever, and the transfer ends with the bytes received.
-/

namespace Tilibs.Cables.LinkSer

open Lib Relation

/-! ## the turns that are left -/

/-- A side goes on with its call. -/
def Turn (s t : SerState) : Prop := ∃ p, serAct s p .turn = some t

/-- How many of the four turns of a bit are over. -/
def PutPoint.passed : PutPoint → Nat
  | .pull => 0
  | .low => 1
  | .release => 2
  | .high => 3

def GetPoint.passed : GetPoint → Nat
  | .bit => 0
  | .pull _ => 1
  | .high _ => 2
  | .release _ => 3

/-- How many turns a call still takes. -/
def SerCall.left : SerCall → Nat
  | .none => 0
  | .put point data j bit _ => 4 * (8 * (data.length - j) - bit) + 1 - point.passed
  | .get point len data bit _ => 4 * (8 * (len - data.length) - bit) + 1 - point.passed

def SerState.left (s : SerState) : Nat := (s.call .zero).left + (s.call .one).left

/-- The call that a side is in behind a turn, and what the turn has returned. -/
def SerNext.call : SerNext → SerCall
  | .go call | .write _ call => call
  | .ret _ => .none

def SerNext.returned : SerNext → List SerReturn
  | .go _ | .write _ _ => []
  | .ret r => [r]

/-- A side that sends `data`, or has done so. -/
inductive Sends (data : List UInt8) : SerCall → List SerReturn → Prop
  | under {point : PutPoint} {j bit : Nat} {byte : UInt8} :
      Sends data (.put point data j bit byte) []
  | back : Sends data .none [.put data]

/-- A side that asks for `len` bytes, or has received them. -/
inductive Receives (len : Nat) : SerCall → List SerReturn → Prop
  | under {point : GetPoint} {data : List UInt8} {bit : Nat} {byte : UInt8} :
      Receives len (.get point len data bit byte) []
  | back {data : List UInt8} (h : data.length = len) : Receives len .none [.get data]

section Turns

variable {data got : List UInt8} {len j bit : Nat} {byte rd : UInt8} {next : SerNext}

theorem left_putBehind (hj : j < data.length) (hbit : bit < 8) :
    (putBehind data j bit byte).left + 4 = (SerCall.put .pull data j bit byte).left := by
  rw [putBehind]
  split <;> simp only [SerCall.left, PutPoint.passed] <;> omega

theorem sends_putBehind : Sends data (putBehind data j bit byte) [] := by
  rw [putBehind]
  split <;> exact .under

theorem left_getBehind (hlen : got.length < len) (hbit : bit < 8) :
    (getBehind len got bit byte).left + 4 = (SerCall.get .bit len got bit byte).left := by
  rw [getBehind]
  split
  · simp only [SerCall.left, GetPoint.passed]
    omega
  · simp only [SerCall.left, GetPoint.passed, List.length_append, List.length_singleton]
    omega

theorem receives_getBehind : Receives len (getBehind len got bit byte) [] := by
  rw [getBehind]
  split <;> exact .under

/-- A turn of the side that sends. -/
theorem Sends.turn {call : SerCall} {log : List SerReturn} (h : Sends data call log)
    (hvalid : call.Valid) (hnext : serNext rd call = some next) :
    Sends data next.call (log ++ next.returned) ∧ next.call.left + 1 = call.left := by
  cases h with
  | back => cases hnext
  | @under point j bit byte =>
      have hinside : point ≠ .pull → j < data.length ∧ bit < 8 := fun hno => by
        rcases hvalid with ⟨hj, hbit, -⟩ | ⟨hpull, -⟩
        · exact ⟨hj, hbit⟩
        · exact absurd hpull hno
      rw [serNext] at hnext
      cases point with
      | pull =>
          rw [putNext] at hnext
          split at hnext
          · next hj =>
            cases hnext
            refine ⟨.under, ?_⟩
            rcases hvalid with ⟨-, hbit, -⟩ | ⟨-, rfl, -⟩
            · simp only [SerNext.call, SerCall.left, PutPoint.passed]
              omega
            · exact absurd hj (Nat.lt_irrefl _)
          · next hj =>
            cases hnext
            refine ⟨.back, ?_⟩
            simp only [SerNext.call, SerCall.left, PutPoint.passed]
            omega
      | low =>
          obtain ⟨hj, hbit⟩ := hinside (by decide)
          rw [putNext] at hnext
          split at hnext
          · cases hnext
          · cases hnext
            refine ⟨.under, ?_⟩
            simp only [SerNext.call, SerCall.left, PutPoint.passed]
            omega
      | release =>
          obtain ⟨hj, hbit⟩ := hinside (by decide)
          cases hnext
          refine ⟨.under, ?_⟩
          simp only [SerNext.call, SerCall.left, PutPoint.passed]
          omega
      | high =>
          obtain ⟨hj, hbit⟩ := hinside (by decide)
          rw [putNext] at hnext
          split at hnext
          · cases hnext
          · cases hnext
            refine ⟨sends_putBehind, ?_⟩
            have hleft := @left_putBehind data j bit byte hj hbit
            simp only [SerNext.call, SerCall.left, PutPoint.passed] at hleft ⊢
            omega

/-- A turn of the side that receives. -/
theorem Receives.turn {call : SerCall} {log : List SerReturn} (h : Receives len call log)
    (hvalid : call.Valid) (hnext : serNext rd call = some next) :
    Receives len next.call (log ++ next.returned) ∧ next.call.left + 1 = call.left := by
  cases h with
  | back => cases hnext
  | @under point got bit byte =>
      obtain ⟨hbit, hlen, hinside⟩ := hvalid
      rw [serNext] at hnext
      cases point with
      | bit =>
          rw [getNext] at hnext
          split at hnext
          · next hmore =>
            have hleft : ∀ b byte', (SerCall.get (.pull b) len got bit byte').left + 1
                = (SerCall.get .bit len got bit byte).left := by
              intro b byte'
              simp only [SerCall.left, GetPoint.passed]
              omega
            split at hnext
            · cases hnext
            · split at hnext
              · cases hnext
                exact ⟨.under, hleft _ _⟩
              · cases hnext
                exact ⟨.under, hleft _ _⟩
          · next hdone =>
            cases hnext
            refine ⟨.back (by omega), ?_⟩
            simp only [SerNext.call, SerCall.left, GetPoint.passed]
            omega
      | pull b =>
          have hmore := hinside (.inl (by simp))
          cases hnext
          refine ⟨.under, ?_⟩
          simp only [SerNext.call, SerCall.left, GetPoint.passed]
          omega
      | high b =>
          have hmore := hinside (.inl (by simp))
          rw [getNext, ← wireOf] at hnext
          split at hnext
          · cases hnext
          · cases hnext
            refine ⟨.under, ?_⟩
            simp only [SerNext.call, SerCall.left, GetPoint.passed]
            omega
      | release b =>
          have hmore := hinside (.inl (by simp))
          cases hnext
          refine ⟨receives_getBehind, ?_⟩
          have hleft := @left_getBehind got len bit byte hmore hbit
          simp only [SerNext.call, SerCall.left, GetPoint.passed] at hleft ⊢
          omega

/-- Where `ser_put` waits. -/
theorem put_waits {point : PutPoint}
    (h : serNext rd (.put point data j bit byte) = none) :
    point = .low ∧ rd &&& answerOf (bitOf byte) ≠ 0 ∨
      point = .high ∧ rd &&& answerOf (bitOf byte) = 0 := by
  rw [serNext] at h
  cases point with
  | pull =>
      rw [putNext] at h
      split at h <;> cases h
  | low =>
      rw [putNext, answer_eq] at h
      split at h
      · next hrd => exact .inl ⟨rfl, hrd⟩
      · cases h
  | release => cases h
  | high =>
      rw [putNext, answer_eq] at h
      split at h
      · next hrd => exact .inr ⟨rfl, hrd⟩
      · cases h

/-- Where `ser_get` waits. -/
theorem get_waits {point : GetPoint} (h : serNext rd (.get point len got bit byte) = none) :
    (point = .bit ∧ got.length < len ∧ rd &&& 0x30 = 0x30) ∨
      ∃ b, point = .high b ∧ rd &&& wireOf b = 0 := by
  rw [serNext] at h
  cases point with
  | bit =>
      rw [getNext] at h
      split at h
      · next hmore =>
        split at h
        · next hrd => exact .inl ⟨rfl, hmore, hrd⟩
        · split at h <;> cases h
      · cases h
  | pull => cases h
  | high b =>
      rw [getNext, ← wireOf] at h
      split at h
      · next hrd => exact .inr ⟨b, rfl, hrd⟩
      · cases h
  | release => cases h

end Turns

/-! ## a transfer -/

/-- One side sends `data`, and the other asks for as many bytes; neither has done anything else. -/
structure Transferring (data : List UInt8) (p : Side) (s : SerState) : Prop where
  put : Sends data (s.call p) (s.log p)
  get : Receives data.length (s.call p.other) (s.log p.other)
  inTime : ∀ q, s.timedOut q = false

section Transfer

variable {s t : SerState} {p q : Side} {data : List UInt8}

theorem serAct_turn (htime : s.timedOut q = false) :
    serAct s q .turn = (serNext (s.rd q) (s.call q)).map (s.act q) := by
  rw [serAct, htime]
  rfl

theorem call_act (next : SerNext) :
    (s.act q next).call = Function.update s.call q next.call := by
  cases next <;> rfl

theorem log_act (next : SerNext) :
    (s.act q next).log = Function.update s.log q (s.log q ++ next.returned) := by
  cases next with
  | go => simp [SerState.act, SerNext.returned]
  | write => simp [SerState.act, SerNext.returned]
  | ret => rfl

theorem timedOut_act (next : SerNext) : (s.act q next).timedOut = s.timedOut := by
  cases next <;> rfl

theorem left_eq (s : SerState) (q : Side) : s.left = (s.call q).left + (s.call q.other).left :=
  Side.add_other (fun q => (s.call q).left) q

/-- A turn of either side. -/
theorem Transferring.turn (h : Transferring data p s) (hinv : SerInv s) (hturn : Turn s t) :
    Transferring data p t ∧ t.left + 1 = s.left := by
  obtain ⟨q, hact⟩ := hturn
  rw [serAct_turn (h.inTime q)] at hact
  obtain ⟨next, hnext, rfl⟩ := Option.map_eq_some_iff.mp hact
  have hcount : next.call.left + 1 = (s.call q).left → (s.act q next).left + 1 = s.left := by
    intro hless
    rw [left_eq _ q, left_eq s q, call_act, Function.update_self, Function.update_of_ne q.other_ne]
    omega
  have htime : ∀ r, (s.act q next).timedOut r = false := fun r => by
    rw [timedOut_act]
    exact h.inTime r
  by_cases hq : q = p
  · subst hq
    obtain ⟨hsends, hless⟩ := h.put.turn (hinv.valid q) hnext
    refine ⟨⟨?_, ?_, htime⟩, hcount hless⟩
    · rw [call_act, log_act, Function.update_self, Function.update_self]
      exact hsends
    · rw [call_act, log_act, Function.update_of_ne q.other_ne, Function.update_of_ne q.other_ne]
      exact h.get
  · obtain rfl := Side.eq_other_of_ne hq
    obtain ⟨hreceives, hless⟩ := h.get.turn (hinv.valid _) hnext
    refine ⟨⟨?_, ?_, htime⟩, hcount hless⟩
    · rw [call_act, log_act, Function.update_of_ne p.other_ne.symm,
        Function.update_of_ne p.other_ne.symm]
      exact h.put
    · rw [call_act, log_act, Function.update_self, Function.update_self]
      exact hreceives

/-- Whether the side that receives has returned or waits, and what it then does to the wires. -/
theorem Receives.waits {len : Nat} {call : SerCall} {log : List SerReturn} {rd : UInt8}
    (h : Receives len call log) (hstuck : serNext rd call = none) :
    (call.getting = .idle ∧ (call = .none ∨
        log = [] ∧ call.got.length < len ∧ rd &&& 0x30 = 0x30)) ∨
      ∃ b, call.getting = .high b ∧ rd &&& wireOf b = 0 := by
  cases h with
  | back => exact .inl ⟨rfl, .inl rfl⟩
  | under =>
      rcases get_waits hstuck with ⟨rfl, hmore, hrd⟩ | ⟨b, rfl, hrd⟩
      · exact .inl ⟨rfl, .inr ⟨rfl, hmore, hrd⟩⟩
      · exact .inr ⟨b, rfl, hrd⟩

/-- Whether the side that sends has returned or waits, and what it then does to the wires. -/
theorem Sends.waits {call : SerCall} {log : List SerReturn} {rd : UInt8} (h : Sends data call log)
    (hstuck : serNext rd call = none) :
    call = .none ∧ log = [.put data] ∨ call.isPut = true ∧ ∃ b,
      (call.sending = .low b ∧ rd &&& answerOf b ≠ 0 ∨
        call.sending = .high b ∧ rd &&& answerOf b = 0) := by
  cases h with
  | back => exact .inl ⟨rfl, rfl⟩
  | under =>
      rcases put_waits hstuck with ⟨rfl, hrd⟩ | ⟨rfl, hrd⟩
      · exact .inr ⟨rfl, _, .inl ⟨rfl, hrd⟩⟩
      · exact .inr ⟨rfl, _, .inr ⟨rfl, hrd⟩⟩

theorem Receives.of_none {len : Nat} {log : List SerReturn} (h : Receives len .none log) :
    ∃ got, got.length = len ∧ log = [.get got] := by
  cases h with
  | back hlen => exact ⟨_, hlen, rfl⟩

theorem Receives.isPut {len : Nat} {call : SerCall} {log : List SerReturn}
    (h : Receives len call log) : call.isPut = false := by
  cases h <;> rfl

/-- With a bit on the wire not all bits have been answered. -/
theorem Sends.more {call : SerCall} {log : List SerReturn} {b : Bool} (h : Sends data call log)
    (hvalid : call.Valid) (hlow : call.sending = .low b) :
    log = [] ∧ call.sentBits.length + 1 ≤ 8 * data.length := by
  cases h with
  | back => cases hlow
  | under =>
      have hlen := hvalid.sent.length_le
      rw [hlow, List.length_append, SerCall.asked, length_bitsOf] at hlen
      exact ⟨rfl, hlen⟩

/-- A side that waits with a bit on the wire has the other one still in `ser_get`. -/
theorem Transferring.not_back (h : Transferring data p s) (hinv : SerInv s) {b : Bool}
    (hlow : (s.call p).sending = .low b) (hidle : (s.call p.other).getting = .idle) :
    s.call p.other ≠ .none := by
  intro hnone
  have hagree := hinv.agree p
  have hget := h.get
  rw [hnone] at hget
  obtain ⟨got, hlen, hlog⟩ := hget.of_none
  obtain ⟨hlogs, hmore⟩ := h.put.more (hinv.valid p) hlow
  rw [hlow, hidle] at hagree
  have hsame := congrArg List.length hagree.not_taken
  rw [SerState.gotBits, SerState.sentBits, hnone, hlog, hlogs] at hsame
  simp [SerReturn.got, SerCall.gotBits, hlen] at hsame
  omega

/-- A transfer in which neither side can go on is over, and the bytes have arrived. -/
theorem Transferring.ended (h : Transferring data p s) (hinv : SerInv s)
    (hstuck : ∀ t, ¬ Turn s t) :
    s.log p = [.put data] ∧ s.log p.other = [.get data] ∧ s.left = 0 := by
  have hnone : ∀ q, serNext (s.rd q) (s.call q) = none := by
    intro q
    by_contra hsome
    obtain ⟨next, hnext⟩ := Option.ne_none_iff_exists'.mp hsome
    exact hstuck (s.act q next) ⟨q, by rw [serAct_turn (h.inTime q), hnext]; rfl⟩
  have hget := h.get.isPut
  have hagree := hinv.agree p
  have hreceiver := h.get.waits (hnone p.other)
  rcases h.put.waits (hnone p) with ⟨hback, hlog⟩ | ⟨hput, b, hwait⟩
  · -- all has been sent, so that all has been received
    have hall := hinv.got_eq (by rw [hback]; rfl)
    rw [SerState.asked, SerState.got, hback, hlog] at hall
    rw [SerCall.sending_of_not_put (by rw [hback]; rfl)] at hagree
    rcases hreceiver with ⟨-, hdone | ⟨hlogo, hmore, -⟩⟩ | ⟨b, hhigh, -⟩
    · have hreceives := h.get
      rw [hdone] at hreceives
      obtain ⟨got, -, hlogo⟩ := hreceives.of_none
      rw [hdone, hlogo] at hall
      obtain rfl : got = data := by simpa [SerReturn.got, SerReturn.sent, SerCall.got,
        SerCall.asked] using hall
      exact ⟨hlog, hlogo, by rw [left_eq s p, hback, hdone]; rfl⟩
    · rw [hlogo] at hall
      have hgot : (s.call p.other).got = data := by
        simpa [SerReturn.sent, SerCall.asked] using hall
      rw [hgot] at hmore
      exact absurd hmore (Nat.lt_irrefl _)
    · rw [hagree.not_sending.1] at hhigh
      cases hhigh
  · -- one of the two sees that it can go on
    exfalso
    have hrd : s.rd p = serIoRd (s.call p).sending.wires (s.call p.other).getting.wires := by
      rw [SerState.rd, hinv.wires_other_of_put hput, hinv.wires, SerCall.wires, if_pos hput]
    have hrdo : s.rd p.other
        = serIoRd (s.call p.other).getting.wires (s.call p).sending.wires := by
      have hwires := hinv.wires_other_of_not_put hget
      rw [Side.other_other] at hwires
      rw [SerState.rd, Side.other_other, hwires, hinv.wires, SerCall.wires,
        if_neg (by rw [hget]; decide)]
    rw [hrd] at hwait
    rw [hrdo] at hreceiver
    rcases hwait with ⟨hlow, hsees⟩ | ⟨hhigh, hsees⟩
    · have hback := h.not_back hinv hlow
      rw [hlow] at hagree hsees hreceiver
      generalize (s.call p.other).getting = y at hagree hsees hreceiver hback
      rcases hreceiver with ⟨rfl, hdone | ⟨-, -, hrest⟩⟩ | ⟨b', rfl, hrest⟩
      · exact hback rfl hdone
      · cases b <;> exact absurd hrest (by decide)
      · obtain rfl := hagree.same_low
        cases b <;> exact hsees rfl
    · rw [hhigh] at hagree hsees hreceiver
      generalize (s.call p.other).getting = y at hagree hsees hreceiver
      rcases hreceiver with ⟨rfl, -⟩ | ⟨b', rfl, hrest⟩
      · cases b <;> exact absurd hsees (by decide)
      · obtain rfl := hagree.same_high
        cases b <;> exact absurd hrest (by decide)

end Transfer

/-- One side sends `data` over wires that both have let go of, and the other asks for as many
bytes. -/
def transferStart (p : Side) (data : List UInt8) : SerState :=
  (released.setCall p (.put .pull data 0 0 (data.getD 0 0))).setCall p.other
    (.get .bit data.length [] 0 0)

/-- **A transfer over the two wires ends, and ends well.**  However many bytes are sent, and in
whatever order the sides take turns, as long as none runs out of time: there are no more turns than
eight for each bit and one for each return, and when no side can go on both have returned 0, and
the bytes that were received are those that were sent. -/
theorem ser_transfer {p : Side} {data : List UInt8} {n : Nat} {t : SerState}
    (hrun : Steps Turn n (transferStart p data) t) :
    n ≤ 64 * data.length + 2 ∧ ((∀ u, ¬ Turn t u) → n = 64 * data.length + 2
      ∧ t.log p = [.put data] ∧ t.log p.other = [.get data]) := by
  have hputs : SerStep released
      (released.setCall p (.put .pull data 0 0 (data.getD 0 0))) := ⟨p, .put data, rfl⟩
  have hgets : SerStep (released.setCall p (.put .pull data 0 0 (data.getD 0 0)))
      (transferStart p data) := by
    refine ⟨p.other, .get data.length, ?_⟩
    rw [serAct, if_pos (by simp [released, p.other_ne])]
    rfl
  have hinv := inv_of_step (inv_of_step inv_released hputs) hgets
  have hbefore : Transferring data p (transferStart p data) := by
    refine ⟨?_, ?_, fun _ => rfl⟩
    · rw [transferStart, SerState.call_setCall, Function.update_of_ne p.other_ne.symm,
        SerState.call_setCall, Function.update_self]
      exact .under
    · rw [transferStart, SerState.call_setCall, Function.update_self]
      exact .under
  have hleft : (transferStart p data).left = 64 * data.length + 2 := by
    rw [left_eq _ p, transferStart]
    simp [p.other_ne.symm, SerCall.left, PutPoint.passed, GetPoint.passed]
    omega
  have hstep : ∀ s t, (SerInv s ∧ Transferring data p s) → Turn s t →
      (SerInv t ∧ Transferring data p t) ∧ t.left + 1 = s.left := by
    rintro s t ⟨hinv, htransfer⟩ hturn
    obtain ⟨hnext, hless⟩ := htransfer.turn hinv hturn
    obtain ⟨q, hact⟩ := hturn
    exact ⟨⟨inv_of_step hinv ⟨q, .turn, hact⟩, hnext⟩, hless⟩
  obtain ⟨⟨hafter, htransfer⟩, hcount⟩ := hrun.length_eq SerState.left hstep ⟨hinv, hbefore⟩
  rw [hleft] at hcount
  refine ⟨by omega, fun hstuck => ?_⟩
  obtain ⟨hput, hget, hzero⟩ := htransfer.ended hafter hstuck
  exact ⟨by omega, hput, hget⟩

theorem ser_transfer_begun :
    let t := serActed (transferStart .zero [0x56]) [(.zero, .turn)]
    1 ≤ 64 * [(0x56 : UInt8)].length + 2 ∧ ((∀ u, ¬ Turn t u) →
      1 = 64 * [(0x56 : UInt8)].length + 2 ∧ t.log .zero = [.put [0x56]]
        ∧ t.log Side.zero.other = [.get [0x56]]) :=
  @ser_transfer .zero [0x56] 1 _ (.tail (.refl _) ⟨.zero, rfl⟩)

end Tilibs.Cables.LinkSer
