import Tilibs.Dusb.Acknowledge
import Tilibs.Dusb.RoundTrip

/-!
# Tilibs.Dusb.Renegotiate

Sending when the calculator answers fragments with a buffer size request and
so changes the limit under way.

`dusb_send_data` counts the fragments once, with the limit after the first
answer, but cuts each by the limit at its turn.  The payload goes out whole
exactly when the limits at these turns add up to what the count stands for
(`SentWhole`).
-/

namespace Tilibs.Dusb

open Tilibs.Lib

/-! ## Answers -/

/-- What the calculator sends after a fragment: the size it requests first, if
it does, and the acknowledgement. -/
def answerBytes : Option UInt32 → List UInt8
  | none => ackBytes
  | some size => rawBytes dusbRpktBufSizeReq (putBE 4 size.toNat) ++ ackBytes

/-- The first `n` answers on the cable. -/
def traffic : Nat → (Nat → Option UInt32) → List UInt8
  | 0, _ => []
  | n + 1, answers => answerBytes (answers 0) ++ traffic n fun i => answers (i + 1)

def limitAfter (limit : PacketLimit) : Option UInt32 → PacketLimit
  | none => limit
  | some size => PacketLimit.clamp size.toNat

/-- The limit after the first `i` answers. -/
def limitAt (limit : PacketLimit) (answers : Nat → Option UInt32) : Nat → PacketLimit
  | 0 => limit
  | i + 1 => limitAfter (limitAt limit answers i) (answers i)

theorem limitAt_shift (limit : PacketLimit) (answers : Nat → Option UInt32) (i : Nat) :
    limitAt (limitAfter limit (answers 0)) (fun j => answers (j + 1)) i
      = limitAt limit answers (i + 1) := by
  induction i with
  | zero => rfl
  | succ i ih =>
      rw [limitAt, ih]
      rfl

theorem limitAt_one_shift (limit : PacketLimit) (answers : Nat → Option UInt32) (i : Nat) :
    limitAt (limitAt limit answers 1) (fun j => answers (j + 1)) i = limitAt limit answers (i + 1) :=
  limitAt_shift limit answers i

/-! ## Packets on the cable -/

def packetsBytes (ps : List DUSBRawPacket) : List UInt8 :=
  ps.flatMap fun p => rawBytes p.type p.data

theorem packetsBytes_cons (p : DUSBRawPacket) (ps : List DUSBRawPacket) :
    packetsBytes (p :: ps) = rawBytes p.type p.data ++ packetsBytes ps := rfl

theorem packetsBytes_append (ps qs : List DUSBRawPacket) :
    packetsBytes (ps ++ qs) = packetsBytes ps ++ packetsBytes qs := List.flatMap_append

theorem nextPacket_packetsBytes (p : DUSBRawPacket) (ps : List DUSBRawPacket) :
    nextPacket (packetsBytes (p :: ps)) = some (p, packetsBytes ps) :=
  nextPacket_rawBytes _ p.fits

/-- The cable shows which packets were sent. -/
theorem packetsBytes_inj {ps qs : List DUSBRawPacket} (h : packetsBytes ps = packetsBytes qs) :
    ps = qs := by
  induction ps generalizing qs with
  | nil =>
      cases qs with
      | nil => rfl
      | cons q qs => simp [packetsBytes, rawBytes] at h
  | cons p ps ih =>
      cases qs with
      | nil => simp [packetsBytes, rawBytes] at h
      | cons q qs =>
          have hnext := nextPacket_packetsBytes p ps
          rw [h, nextPacket_packetsBytes q qs] at hnext
          simp only [Option.some.injEq, Prod.mk.injEq] at hnext
          rw [hnext.1, ih hnext.2.symm]

/-- The fragments among them: all but the replies to size requests. -/
def fragmentsOf (ps : List DUSBRawPacket) : List DUSBRawPacket :=
  ps.filter fun p => p.type != dusbRpktBufSizeAlloc

def allocPacket (limit : PacketLimit) : DUSBRawPacket :=
  ⟨dusbRpktBufSizeAlloc, putBE 4 limit.val, by simp [dusbDataSize]⟩

def replyPackets : Option UInt32 → List DUSBRawPacket
  | none => []
  | some size => [allocPacket (PacketLimit.clamp size.toNat)]

@[simp] theorem fragmentsOf_replyPackets (answer : Option UInt32) :
    fragmentsOf (replyPackets answer) = [] := by
  cases answer <;> rfl

theorem fragmentsOf_append (ps qs : List DUSBRawPacket) :
    fragmentsOf (ps ++ qs) = fragmentsOf ps ++ fragmentsOf qs := List.filter_append ..

/-- A fragment, and the reply to its answer, in front of the others. -/
theorem fragmentsOf_cons {p : DUSBRawPacket} (hp : p.type ≠ dusbRpktBufSizeAlloc)
    (answer : Option UInt32) (ps : List DUSBRawPacket) :
    fragmentsOf (p :: replyPackets answer ++ ps) = p :: fragmentsOf ps := by
  rw [fragmentsOf_append, ← List.singleton_append, fragmentsOf_append, fragmentsOf_replyPackets]
  simp [fragmentsOf, hp]

/-- Exactly the last fragment is marked. -/
def MarksLast (ps : List DUSBRawPacket) : Prop :=
  ∃ n, ps.map (·.type) = List.replicate n dusbRpktVirtData ++ [dusbRpktVirtDataLast]

theorem MarksLast.cons {p : DUSBRawPacket} {ps : List DUSBRawPacket}
    (hp : p.type = dusbRpktVirtData) (h : MarksLast ps) : MarksLast (p :: ps) := by
  obtain ⟨n, hn⟩ := h
  refine ⟨n + 1, ?_⟩
  rw [List.map_cons, hn, hp, List.replicate_succ, List.cons_append]

def payloadOf (ps : List DUSBRawPacket) : List UInt8 := (ps.map (·.data)).flatten

/-- The fragments among the packets carry the virtual packet, each byte once,
and the last one is the one that is marked. -/
def Carries (ps : List DUSBRawPacket) (vtl : DUSBVirtualPacket) : Prop :=
  payloadOf (fragmentsOf ps) = vtl.header ++ vtl.data ∧ MarksLast (fragmentsOf ps)

/-! ## One fragment -/

section Send

variable {limit : PacketLimit} {answer : Option UInt32}

theorem exec_dusbRecvAcknowledge_answered (rx tx : List UInt8) :
    Proc.exec dusbRecvAcknowledge ⟨⟨answerBytes answer ++ rx, tx, none⟩, limit⟩ =
      (.ok (), ⟨⟨rx, tx ++ packetsBytes (replyPackets answer), none⟩, limitAfter limit answer⟩) := by
  cases answer with
  | none =>
      have h := exec_dusbRecvAcknowledge rx tx limit
      simpa [answerBytes, replyPackets, packetsBytes, limitAfter] using h
  | some size =>
      have heither : ¬((putBE 4 size.toNat).length ≠ 2 ∧ (putBE 4 size.toNat).length ≠ 4) := by
        simp
      have hfour : ¬(putBE 4 size.toNat).length ≠ 4 := by simp
      have hrecv := exec_dusbRecv tx (ackBytes ++ rx) limit dusbRpktBufSizeReq
        (putBE 4 size.toNat) (by simp [dusbDataSize])
      have hsize : getBE (putBE 4 size.toNat) = size.toNat := getBE_putBE size.toNat_lt
      have halloc : Proc.exec (dusbSendBufSizeAlloc size.toNat)
          ⟨⟨ackBytes ++ rx, tx, none⟩, limit⟩ = (.ok (), ⟨⟨ackBytes ++ rx,
            tx ++ packetsBytes (replyPackets (some size)), none⟩,
            limitAfter limit (some size)⟩) := by
        simp [dusbSendBufSizeAlloc, Proc.exec_bind, DUSBRawPacket.fill, dusbDataSize,
          exec_dusbSend, packetsBytes, replyPackets, allocPacket, limitAfter]
      have hack := exec_dusbRecv (tx ++ packetsBytes (replyPackets (some size))) rx
        (limitAfter limit (some size)) dusbRpktVirtDataAck [0xE0, 0x00] (by decide)
      rw [answerBytes, List.append_assoc, dusbRecvAcknowledge, Proc.exec_bind_ok hrecv]
      dsimp only
      rw [if_neg heither, if_pos rfl, if_neg hfour, hsize, Proc.exec_bind_ok halloc, ackBytes,
        Proc.exec_bind_ok hack]
      simp [acknowledges]

theorem exec_dusbSendFragment_answered {type : UInt8} {data : List UInt8}
    (h : data.length ≤ dusbDataSize) (rx tx : List UInt8) :
    Proc.exec (dusbSendFragment type data) ⟨⟨answerBytes answer ++ rx, tx, none⟩, limit⟩ =
      (.ok (), ⟨⟨rx, tx ++ packetsBytes (⟨type, data, h⟩ :: replyPackets answer), none⟩,
        limitAfter limit answer⟩) := by
  have hfill : DUSBRawPacket.fill type data = .ok ⟨type, data, h⟩ := dif_pos h
  rw [dusbSendFragment, hfill, Proc.exec_bind_ok (Proc.exec_ofExcept _ _),
    Proc.exec_bind_ok (exec_dusbSend _ _ _ _), exec_dusbRecvAcknowledge_answered,
    packetsBytes_cons, List.append_assoc]

end Send

/-! ## The fragments behind the first -/

/-- The bytes that the next `k` full fragments take. -/
def turnBytes (limit : PacketLimit) (answers : Nat → Option UInt32) (k : Nat) : Nat :=
  ∑ i ∈ Finset.range k, (limitAt limit answers i).val

theorem turnBytes_succ (limit : PacketLimit) (answers : Nat → Option UInt32) (k : Nat) :
    turnBytes limit answers (k + 1) =
      limit.val + turnBytes (limitAfter limit (answers 0)) (fun j => answers (j + 1)) k := by
  unfold turnBytes
  rw [Finset.sum_range_succ', Nat.add_comm]
  congr 1
  apply Finset.sum_congr rfl
  intro i _
  rw [limitAt_shift]

/-- The limits of the next `k` turns are within a raw packet. -/
def TurnsFit (limit : PacketLimit) (answers : Nat → Option UInt32) (k : Nat) : Prop :=
  ∀ i < k, (limitAt limit answers i).val ≤ dusbDataSize

theorem turnsFit_succ {limit : PacketLimit} {answers : Nat → Option UInt32} {k : Nat} :
    TurnsFit limit answers (k + 1) ↔ limit.val ≤ dusbDataSize
      ∧ TurnsFit (limitAfter limit (answers 0)) (fun j => answers (j + 1)) k := by
  constructor
  · intro h
    refine ⟨h 0 (Nat.succ_pos k), fun i hi => ?_⟩
    rw [limitAt_shift]
    exact h (i + 1) (Nat.succ_lt_succ hi)
  · rintro ⟨hfirst, hrest⟩ i hi
    cases i with
    | zero => exact hfirst
    | succ i =>
        have := hrest i (Nat.lt_of_succ_lt_succ hi)
        rwa [limitAt_shift] at this

section Rest

variable {vtl : DUSBVirtualPacket} {limit : PacketLimit} {answers : Nat → Option UInt32}
  {r k offset : Nat}

/-- Within the payload and the raw packets, the bytes from the offset on go
out in order, and the last fragment is marked if there is any. -/
theorem exec_dusbSendRest_answered (hr : r ≤ dusbDataSize) (hfit : TurnsFit limit answers k)
    (hlen : offset + turnBytes limit answers k + r ≤ vtl.data.length) (n : Nat)
    (tx : List UInt8) :
    ∃ t sent, Proc.exec (dusbSendRest vtl r k offset)
        ⟨⟨traffic (k + 1 + n) answers, tx, none⟩, limit⟩ = (.ok (), t)
      ∧ t.port.tx = tx ++ packetsBytes sent
      ∧ payloadOf (fragmentsOf sent) =
        (vtl.data.drop offset).take (turnBytes limit answers k + r)
      ∧ (k = 0 ∧ r = 0 ∧ fragmentsOf sent = []
        ∨ (k ≠ 0 ∨ r ≠ 0) ∧ MarksLast (fragmentsOf sent)) := by
  induction k generalizing offset limit answers tx with
  | zero =>
      have hnone : turnBytes limit answers 0 = 0 := rfl
      rw [hnone] at hlen ⊢
      by_cases h0 : r = 0
      · have hrun : Proc.exec (dusbSendRest vtl r 0 offset)
            ⟨⟨traffic (0 + 1 + n) answers, tx, none⟩, limit⟩
            = (.ok (), ⟨⟨traffic (0 + 1 + n) answers, tx, none⟩, limit⟩) := by
          rw [dusbSendRest, if_neg (not_not.mpr h0)]
          exact Proc.exec_pure () _
        refine ⟨_, [], hrun, ?_, ?_, Or.inl ⟨rfl, h0, ?_⟩⟩
        · simp [packetsBytes]
        · simp [fragmentsOf, payloadOf, h0]
        · simp [fragmentsOf]
      · have hcopy := exec_memcpy vtl.data offset r (by omega)
        have hfits : ((vtl.data.drop offset).take r).length ≤ dusbDataSize := by
          rw [List.length_take]
          omega
        have htype : dusbRpktVirtDataLast ≠ dusbRpktBufSizeAlloc := by decide
        let last : DUSBRawPacket := ⟨dusbRpktVirtDataLast, (vtl.data.drop offset).take r, hfits⟩
        have hsent : fragmentsOf (last :: replyPackets (answers 0)) = [last] := by
          have h := fragmentsOf_cons (p := last) htype (answers 0) []
          rwa [List.append_nil] at h
        have hrun := @exec_dusbSendFragment_answered limit (answers 0) dusbRpktVirtDataLast _ hfits
          (traffic n fun i => answers (i + 1)) tx
        refine ⟨_, last :: replyPackets (answers 0), Eq.trans ?_ hrun, rfl, ?_,
          Or.inr ⟨Or.inr h0, 0, ?_⟩⟩
        · rw [dusbSendRest, if_pos h0, Nat.zero_add, Nat.add_comm 1 n, traffic,
            Proc.exec_bind_ok (hcopy _)]
        · rw [hsent, Nat.zero_add]
          exact List.append_nil _
        · rw [hsent]
          rfl
  | succ k ih =>
      rw [turnBytes_succ] at hlen ⊢
      obtain ⟨hfirst, hturns⟩ := turnsFit_succ.mp hfit
      have hcopy := exec_memcpy vtl.data offset limit.val (by omega)
      have hfits : ((vtl.data.drop offset).take limit.val).length ≤ dusbDataSize := by
        rw [List.length_take]
        omega
      generalize htype : (if k ≠ 0 ∨ r ≠ 0 then dusbRpktVirtData else dusbRpktVirtDataLast) = type
      have hother : type ≠ dusbRpktBufSizeAlloc := by
        rw [← htype]
        split <;> decide
      have hrest : offset + limit.val
          + turnBytes (limitAfter limit (answers 0)) (fun i => answers (i + 1)) k + r
          ≤ vtl.data.length := by omega
      obtain ⟨t, sent, hrun, htx, hbytes, hmarks⟩ := ih hturns hrest
        (tx ++ packetsBytes (⟨type, (vtl.data.drop offset).take limit.val, hfits⟩
          :: replyPackets (answers 0)))
      refine ⟨t, ⟨type, (vtl.data.drop offset).take limit.val, hfits⟩
        :: replyPackets (answers 0) ++ sent, ?_, ?_, ?_, Or.inr ⟨Or.inl (Nat.succ_ne_zero k), ?_⟩⟩
      · rw [Nat.add_right_comm (k + 1) 1 n, traffic, dusbSendRest,
          Proc.exec_bind_ok (Proc.exec_get _)]
        dsimp only
        rw [htype, Proc.exec_bind_ok (hcopy _),
          Proc.exec_bind_ok (exec_dusbSendFragment_answered hfits _ _), hrun]
      · rw [htx, packetsBytes_append, List.append_assoc]
      · rw [fragmentsOf_cons hother, Nat.add_assoc, List.take_add, List.drop_drop, ← hbytes]
        rfl
      · rw [fragmentsOf_cons hother]
        rcases hmarks with ⟨rfl, rfl, hnil⟩ | ⟨hmore, hmarks⟩
        · rw [hnil]
          exact ⟨0, by simpa using htype.symm⟩
        · rw [if_pos hmore] at htype
          exact hmarks.cons htype.symm

/-- Past the payload, or past a raw packet, it does not return. -/
theorem exec_dusbSendRest_outside
    (hout : ¬(TurnsFit limit answers k
      ∧ offset + turnBytes limit answers k + r ≤ vtl.data.length))
    (hstart : offset ≤ vtl.data.length) (n : Nat) (tx : List UInt8) :
    (Proc.exec (dusbSendRest vtl r k offset)
      ⟨⟨traffic (k + 1 + n) answers, tx, none⟩, limit⟩).1 = .error .undefinedBehaviour := by
  induction k generalizing offset limit answers tx with
  | zero =>
      have hlen : ¬offset + r ≤ vtl.data.length := by
        intro hle
        exact hout ⟨fun i hi => absurd hi (Nat.not_lt_zero i), by simpa [turnBytes] using hle⟩
      rw [dusbSendRest, if_pos (by omega)]
      apply Proc.exec_bind_fst_error
      rw [memcpy, if_neg hlen]
      rfl
  | succ k ih =>
      rw [turnBytes_succ, turnsFit_succ] at hout
      rw [dusbSendRest, Proc.exec_bind_ok (Proc.exec_get _)]
      dsimp only
      by_cases hcopy : offset + limit.val ≤ vtl.data.length
      · rw [Proc.exec_bind_ok (exec_memcpy _ _ _ hcopy _)]
        have hsize : ((vtl.data.drop offset).take limit.val).length = limit.val := by
          rw [List.length_take, List.length_drop]
          omega
        by_cases hfits : limit.val ≤ dusbDataSize
        · rw [Nat.add_right_comm (k + 1) 1 n, traffic,
            Proc.exec_bind_ok (exec_dusbSendFragment_answered (by rw [hsize]; exact hfits) _ _)]
          refine ih ?_ hcopy _
          rintro ⟨hturns, hlen⟩
          exact hout ⟨⟨hfits, hturns⟩, by omega⟩
        · exact Proc.exec_bind_fst_error (exec_dusbSendFragment_overrun (by omega) _)
      · apply Proc.exec_bind_fst_error
        rw [memcpy, if_neg hcopy]
        rfl

end Rest

/-! ## All fragments -/

/-- With an answer for every fragment the sender succeeds, and what it sent
carries the packet. -/
def Transmits (limit : PacketLimit) (answers : Nat → Option UInt32) (vtl : DUSBVirtualPacket) :
    Prop :=
  ∃ t sent, Proc.exec (dusbSendData vtl)
      ⟨⟨traffic (vtl.data.length + 2) answers, [], none⟩, limit⟩ = (.ok (), t)
    ∧ t.port.tx = packetsBytes sent ∧ Carries sent vtl

/-- The number of full fragments that `dusb_send_data` counts behind the
first one, with the limit after the first answer. -/
def turnsCounted (limit : PacketLimit) (answers : Nat → Option UInt32) (size : Nat) : Nat :=
  (size - limit.firstSize) / (limitAt limit answers 1).val

/-- The payload fits a single raw packet; or the first limit leaves room for
the header, and the limits at the turns that are counted are within a raw
packet and add up to the count times the limit it was made with. -/
def SentWhole (limit : PacketLimit) (answers : Nat → Option UInt32) (size : Nat) : Prop :=
  if size ≤ limit.firstSize then size + dusbDhSize ≤ dusbDataSize
  else
    let count := turnsCounted limit answers size
    (dusbDhSize ≤ limit.val ∧ limit.val ≤ dusbDataSize)
      ∧ (limitAt limit answers 1).val ≠ 0
      ∧ count < 2 ^ 31
      ∧ (∀ i < count, (limitAt limit answers (i + 1)).val ≤ dusbDataSize)
      ∧ ∑ i ∈ Finset.range count, (limitAt limit answers (i + 1)).val
        = count * (limitAt limit answers 1).val

section SendData

variable {limit : PacketLimit} {answers : Nat → Option UInt32} {vtl : DUSBVirtualPacket}

theorem turnBytes_shift (limit : PacketLimit) (answers : Nat → Option UInt32) (k : Nat) :
    turnBytes (limitAt limit answers 1) (fun i => answers (i + 1)) k
      = ∑ i ∈ Finset.range k, (limitAt limit answers (i + 1)).val := by
  unfold turnBytes
  apply Finset.sum_congr rfl
  intro i _
  rw [limitAt_one_shift]

/-- A single raw packet always goes out whole. -/
theorem transmits_of_single (hone : vtl.data.length ≤ limit.firstSize)
    (hfits : vtl.data.length + dusbDhSize ≤ dusbDataSize) : Transmits limit answers vtl := by
  have hlen : (vtl.header ++ vtl.data).length ≤ dusbDataSize := by
    rw [List.length_append, length_header]
    omega
  have hrun := @exec_dusbSendFragment_answered limit (answers 0) dusbRpktVirtDataLast _ hlen
    (traffic (vtl.data.length + 1) fun i => answers (i + 1)) []
  have htype : dusbRpktVirtDataLast ≠ dusbRpktBufSizeAlloc := by decide
  have hsent := fragmentsOf_cons (p := ⟨dusbRpktVirtDataLast, _, hlen⟩) htype (answers 0) []
  rw [List.append_nil] at hsent
  refine ⟨_, _, Eq.trans ?_ hrun, rfl, ?_, 0, ?_⟩
  · rw [dusbSendData, Proc.exec_bind_ok (Proc.exec_get _)]
    dsimp only
    rw [if_pos hone]
    rfl
  · rw [hsent]
    exact List.append_nil _
  · rw [hsent]
    rfl

/-- The first fragment of several, and the count that is made behind it. -/
theorem exec_dusbSendData_answered (hroom : dusbDhSize ≤ limit.val)
    (hfits : limit.val ≤ dusbDataSize) (hmore : limit.firstSize < vtl.data.length) (n : Nat) :
    Proc.exec (dusbSendData vtl) ⟨⟨traffic (n + 1) answers, [], none⟩, limit⟩
      = Proc.exec (if (limitAt limit answers 1).val = 0 then throw .undefinedBehaviour
          else dusbSendRest vtl
            ((vtl.data.length - limit.firstSize) % (limitAt limit answers 1).val)
            (loopBound (turnsCounted limit answers vtl.data.length)) limit.firstSize)
        ⟨⟨traffic n fun i => answers (i + 1),
          packetsBytes (⟨dusbRpktVirtData, vtl.header ++ vtl.data.take limit.firstSize,
            length_first_le vtl hroom hfits⟩ :: replyPackets (answers 0)), none⟩,
          limitAt limit answers 1⟩ := by
  have hcopy := exec_memcpy vtl.data 0 limit.firstSize (by omega)
  rw [dusbSendData, Proc.exec_bind_ok (Proc.exec_get _)]
  dsimp only
  rw [if_neg (Nat.not_le.mpr hmore), Proc.exec_bind_ok (hcopy _), List.drop_zero, traffic,
    Proc.exec_bind_ok (exec_dusbSendFragment_answered (length_first_le vtl hroom hfits) _ _),
    Proc.exec_bind_ok (Proc.exec_get _)]
  rfl

/-- What the loop sends behind the first fragment, by its own bounds. -/
theorem exec_dusbSendData_several_answered (hroom : dusbDhSize ≤ limit.val)
    (hfits : limit.val ≤ dusbDataSize) (hmore : limit.firstSize < vtl.data.length)
    (hpos : (limitAt limit answers 1).val ≠ 0) :
    let left := vtl.data.length - limit.firstSize
    let r := left % (limitAt limit answers 1).val
    let turns := loopBound (turnsCounted limit answers vtl.data.length)
    let bytes := ∑ i ∈ Finset.range turns, (limitAt limit answers (i + 1)).val
    if (∀ i < turns, (limitAt limit answers (i + 1)).val ≤ dusbDataSize) ∧ bytes + r ≤ left then
      ∃ t sent, Proc.exec (dusbSendData vtl)
          ⟨⟨traffic (vtl.data.length + 2) answers, [], none⟩, limit⟩ = (.ok (), t)
        ∧ t.port.tx = packetsBytes sent
        ∧ payloadOf (fragmentsOf sent)
          = vtl.header ++ vtl.data.take (limit.firstSize + (bytes + r))
        ∧ (turns ≠ 0 ∨ r ≠ 0 → MarksLast (fragmentsOf sent))
    else (Proc.exec (dusbSendData vtl)
      ⟨⟨traffic (vtl.data.length + 2) answers, [], none⟩, limit⟩).1
        = .error .undefinedBehaviour := by
  intro left r turns bytes
  have hturns : turns ≤ vtl.data.length := by
    have hcount : turnsCounted limit answers vtl.data.length ≤ vtl.data.length :=
      (Nat.div_le_self _ _).trans (Nat.sub_le _ _)
    have hmod := Nat.mod_le (turnsCounted limit answers vtl.data.length) (2 ^ 32)
    show loopBound _ ≤ _
    unfold loopBound
    split <;> omega
  obtain ⟨n, hn⟩ := Nat.exists_eq_add_of_le hturns
  have hr : r ≤ dusbDataSize := by
    have hlt : r < (limitAt limit answers 1).val := Nat.mod_lt _ (Nat.pos_of_ne_zero hpos)
    have := (limitAt limit answers 1).property
    omega
  have hstart : vtl.data.length + 2 = turns + 1 + n + 1 := by omega
  have hbytes : turnBytes (limitAt limit answers 1) (fun i => answers (i + 1)) turns = bytes :=
    turnBytes_shift limit answers turns
  have hfit : TurnsFit (limitAt limit answers 1) (fun i => answers (i + 1)) turns
      ↔ ∀ i < turns, (limitAt limit answers (i + 1)).val ≤ dusbDataSize := by
    unfold TurnsFit
    refine forall₂_congr fun i _ => ?_
    rw [limitAt_one_shift]
  rw [hstart, exec_dusbSendData_answered hroom hfits hmore, if_neg hpos]
  split
  · rename_i hin
    have hrest : limit.firstSize
        + turnBytes (limitAt limit answers 1) (fun i => answers (i + 1)) turns + r
        ≤ vtl.data.length := by omega
    obtain ⟨t, sent, hrun, htx, hpay, hmarks⟩ := exec_dusbSendRest_answered hr (hfit.mpr hin.1)
      hrest n
      (packetsBytes (⟨dusbRpktVirtData, vtl.header ++ vtl.data.take limit.firstSize,
        length_first_le vtl hroom hfits⟩ :: replyPackets (answers 0)))
    have htype : dusbRpktVirtData ≠ dusbRpktBufSizeAlloc := by decide
    refine ⟨t, _, hrun, htx.trans (packetsBytes_append _ sent).symm, ?_, fun hany => ?_⟩
    · rw [fragmentsOf_cons htype, List.take_add, ← hbytes, ← hpay, ← List.append_assoc]
      rfl
    · rw [fragmentsOf_cons htype]
      rcases hmarks with ⟨hzero, hr0, -⟩ | ⟨-, hmarks⟩
      · omega
      · exact hmarks.cons rfl
  · rename_i hout
    apply exec_dusbSendRest_outside
    · rintro ⟨hturnsFit, hlen⟩
      rw [hbytes] at hlen
      change limit.firstSize + bytes + r ≤ vtl.data.length at hlen
      exact hout ⟨hfit.mp hturnsFit, by omega⟩
    · exact hmore.le

/-- The loop runs as often as was counted, unless the count is no `int`. -/
theorem loopBound_turnsCounted_of_le (h : 2 ^ 31 ≤ turnsCounted limit answers vtl.data.length) :
    loopBound (turnsCounted limit answers vtl.data.length) = 0 := by
  have hcount : turnsCounted limit answers vtl.data.length < 2 ^ 32 :=
    lt_of_le_of_lt ((Nat.div_le_self _ _).trans (Nat.sub_le _ _)) vtl.fits
  rw [loopBound, Nat.mod_eq_of_lt hcount, if_neg (Nat.not_lt.mpr h)]

theorem transmits_of_sentWhole (h : SentWhole limit answers vtl.data.length) :
    Transmits limit answers vtl := by
  unfold SentWhole at h
  split at h
  · rename_i hone
    exact transmits_of_single hone h
  · rename_i hone
    obtain ⟨⟨hroom, hfits⟩, hpos, hcount, hturns, hsum⟩ := h
    have hmore : limit.firstSize < vtl.data.length := Nat.lt_of_not_le hone
    have hrun := exec_dusbSendData_several_answered hroom hfits hmore hpos
    have hdiv := Nat.div_add_mod' (vtl.data.length - limit.firstSize)
      (limitAt limit answers 1).val
    dsimp only at hrun
    rw [loopBound_eq hcount, hsum, turnsCounted, hdiv, if_pos ⟨hturns, Nat.le_refl _⟩] at hrun
    obtain ⟨t, sent, hrun, htx, hpay, hmarks⟩ := hrun
    refine ⟨t, sent, hrun, htx, ?_, hmarks ?_⟩
    · rw [hpay, List.take_of_length_le (by omega)]
    · by_contra hnone
      rw [not_or, not_not, not_not] at hnone
      rw [hnone.1, hnone.2] at hdiv
      omega

theorem sentWhole_of_transmits (h : Transmits limit answers vtl) :
    SentWhole limit answers vtl.data.length := by
  obtain ⟨t, sent, hrun, htx, hpay, hmarks⟩ := h
  have hsendable : Sendable limit vtl.data.length := by
    by_contra hnot
    have herr := exec_dusbSendData_overrun vtl hnot
      ⟨traffic (vtl.data.length + 2) answers, [], none⟩
    rw [hrun] at herr
    cases herr
  unfold SentWhole
  split
  · rename_i hone
    rcases hsendable with hfits | ⟨hroom, hfits⟩
    · exact hfits
    · rw [firstSize_of_le hroom] at hone
      omega
  · rename_i hone
    have hmore : limit.firstSize < vtl.data.length := Nat.lt_of_not_le hone
    obtain ⟨hroom, hfits⟩ := limit_of_sendable hsendable hmore
    have hpos : (limitAt limit answers 1).val ≠ 0 := by
      intro hzero
      rw [exec_dusbSendData_answered hroom hfits hmore, if_pos hzero] at hrun
      cases hrun
    have hdiv := Nat.div_add_mod' (vtl.data.length - limit.firstSize)
      (limitAt limit answers 1).val
    have hsent := exec_dusbSendData_several_answered hroom hfits hmore hpos
    dsimp only at hsent
    split at hsent
    · rename_i hin
      obtain ⟨t', sent', hrun', htx', hpay', -⟩ := hsent
      rw [hrun] at hrun'
      cases hrun'
      -- the packets of the run are the ones that carry the payload
      obtain rfl : sent = sent' := packetsBytes_inj (htx.symm.trans htx')
      have hlen := congrArg List.length (hpay.symm.trans hpay')
      rw [List.length_append, List.length_append, List.length_take] at hlen
      have hcount : turnsCounted limit answers vtl.data.length < 2 ^ 31 := by
        by_contra hbig
        -- then no turn is made, and the remainder alone would be the rest
        rw [loopBound_turnsCounted_of_le (Nat.le_of_not_lt hbig), Finset.sum_range_zero] at hlen
        have hlt := Nat.mod_lt (vtl.data.length - limit.firstSize) (Nat.pos_of_ne_zero hpos)
        have hsmall : vtl.data.length - limit.firstSize < (limitAt limit answers 1).val := by
          clear hbig hin
          omega
        rw [turnsCounted, Nat.div_eq_of_lt hsmall] at hbig
        exact hbig (Nat.two_pow_pos 31)
      rw [loopBound_eq hcount] at hin hlen
      dsimp only
      refine ⟨⟨hroom, hfits⟩, hpos, hcount, hin.1, ?_⟩
      have hsum := hin.2
      clear hin hcount
      unfold turnsCounted at hlen hsum ⊢
      omega
    · rw [hrun] at hsent
      cases hsent

end SendData

/-- Sending transmits the payload whole exactly when the limits at the turns
agree with the count. -/
theorem dusbSendData_transmits_iff (limit : PacketLimit) (answers : Nat → Option UInt32)
    (vtl : DUSBVirtualPacket) :
    Transmits limit answers vtl ↔ SentWhole limit answers vtl.data.length :=
  ⟨sentWhole_of_transmits, transmits_of_sentWhole⟩

/-- Eighteen bytes with a limit of eight: the second fragment is answered with
a request for four, so that the third one, the last that was counted, carries
four bytes too few. -/
theorem dusbSendData_loses_bytes :
    ∃ vtl : DUSBVirtualPacket, ¬Transmits ⟨8, by decide⟩ (fun i => if i = 1 then some 4 else none)
      vtl := by
  refine ⟨⟨0, List.replicate 18 0, by decide⟩, fun h => ?_⟩
  have hwhole := sentWhole_of_transmits h
  unfold SentWhole at hwhole
  rw [if_neg (by decide)] at hwhole
  have hcount : turnsCounted ⟨8, by decide⟩ (fun i => if i = 1 then some 4 else none)
      (List.replicate 18 (0 : UInt8)).length = 2 := by decide
  dsimp only at hwhole
  rw [hcount] at hwhole
  exact absurd hwhole.2.2.2.2 (by decide)

end Tilibs.Dusb
