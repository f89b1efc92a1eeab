import Tilibs.Evo.Kermit
import Tilibs.Lib.Proc

/-!
# Tilibs.Evo.Packet

Kermit packets of the TI-84 Evo (`evo_cmd.cc`): framing with a short or an
extended length, the three block checks, and the receive path that finds a
packet in the byte stream of the cable and takes it apart.

`exec_evoRecvRaw` and `evoParsePacket_evoMakePacket` are the two facts the
exchanges rest on: a packet that was made is read back whole, and parses to
its sequence number, type and data.
-/

namespace Tilibs.Evo

open Tilibs.Lib

/-! ## Constants -/

def evoSoh : UInt8 := 0x01
def evoCr : UInt8 := 0x0D
def evoMaxDuplicatePackets : Nat := 3

/-! ## Block checks -/

def evoChecksum (body : List UInt8) : UInt8 :=
  let s := byteSum body % 2 ^ 32
  tochar ((s + s / 64 % 4) % (evoChecksumMask + 1))

def evoChecksum2Sum (body : List UInt8) : Nat := byteSum body % 2 ^ 32 % 2 ^ 16

def evoCrc16Kermit (body : List UInt8) : UInt16 :=
  body.foldl
    (fun (crc : UInt16) (b : UInt8) =>
      let q := (crc ^^^ b.toUInt16) &&& 0x0f
      let crc := (crc >>> 4) ^^^ (q * 0x1081)
      let q := (crc ^^^ (b.toUInt16 >>> 4)) &&& 0x0f
      (crc >>> 4) ^^^ (q * 0x1081))
    0

theorem CheckType.size_pos (checkType : CheckType) : 0 < checkType.size := by
  cases checkType <;> decide

def evoBlockCheck (body : List UInt8) : CheckType → List UInt8
  | .checksum => [evoChecksum body]
  | .checksum2 =>
      let sum := evoChecksum2Sum body
      [tochar (sum / 64 % 64), tochar (sum % 64)]
  | .crc16 =>
      let crc := (evoCrc16Kermit body).toNat
      [tochar (crc / 4096 % 16), tochar (crc / 64 % 64), tochar (crc % 64)]

@[simp] theorem length_evoBlockCheck (body : List UInt8) (checkType : CheckType) :
    (evoBlockCheck body checkType).length = checkType.size := by
  cases checkType <;> rfl

/-- Do the last bytes of `body` check the bytes before them? -/
def evoCheckBlockCheck (body : List UInt8) (checkType : CheckType) : Bool :=
  checkType.size ≤ body.length &&
    body.drop (body.length - checkType.size) =
      evoBlockCheck (body.take (body.length - checkType.size)) checkType

theorem evoCheckBlockCheck_append (body : List UInt8) (checkType : CheckType) :
    evoCheckBlockCheck (body ++ evoBlockCheck body checkType) checkType = true := by
  simp [evoCheckBlockCheck]

/-! ## Making packets -/

/-- Length, sequence number, type and data of a packet, without block check. -/
def evoPacketBody (session : EvoKermitSession) (seq : Nat) (type : UInt8) (data : List UInt8) :
    List UInt8 :=
  let n := data.length + 2 + session.checkType.size
  if n ≤ evoShortBodyMax then
    tochar n :: tochar (seq % evoSeqMod) :: type :: data
  else
    let dlen := data.length + session.checkType.size
    let head := [tochar 0, tochar (seq % evoSeqMod), type, tochar (dlen / evoExtBodyBase),
      tochar (dlen % evoExtBodyBase)]
    head ++ evoChecksum head :: data

def evoMakePacket (session : EvoKermitSession) (seq : Nat) (type : UInt8) (data : List UInt8) :
    List UInt8 :=
  let body := evoPacketBody session seq type data
  evoSoh :: body ++ evoBlockCheck body session.checkType ++ [evoCr]

/-! ## Receiving packets -/

def evoKermitLengthCharValid (value : UInt8) : Bool :=
  evoCharBase ≤ value.toNat && value ≤ tochar evoShortBodyMax

/-- How many bytes follow the length: those after the length character of a
short packet, those after the four characters behind it of an extended one. -/
def evoKermitPacketRemainder (length : UInt8) (extendedLength : Option (UInt8 × UInt8)) :
    Except EvoErr Nat :=
  if ¬ evoKermitLengthCharValid length then .error .invalidPacket
  else if length ≠ tochar 0 then
    if unchar length < 3 then .error .invalidPacket else .ok (unchar length + 1)
  else
    match extendedLength with
    | none => .error .invalidPacket
    | some (hi, lo) =>
        if ¬ evoKermitLengthCharValid hi ∨ ¬ evoKermitLengthCharValid lo then .error .invalidPacket
        else
          let dataLen := unchar hi * evoExtBodyBase + unchar lo
          if dataLen = 0 ∨ evoMaxPacketLen < dataLen then .error .invalidPacket
          else .ok (dataLen + 2)

/-- An exchange over the cable, which carries bytes both ways. -/
abbrev EvoProc := Proc (Port UInt8 UInt8) EvoErr

def cableRecv (len : Nat) : EvoProc (List UInt8) := do
  match (← get).recvN len with
  | some (bytes, port) => set port; pure bytes
  | none => throw .readTimeout

/-- The length argument of the cable is a 32-bit word. -/
def cableSend (bytes : List UInt8) : EvoProc Unit := do
  match (← get).sendAll (bytes.take (bytes.length % 2 ^ 32)) with
  | some port => set port
  | none => throw .writeError

/-- The bytes behind the next start of header. -/
def evoSkipToSoh : List UInt8 → Option (List UInt8)
  | [] => none
  | b :: bytes => if b = evoSoh then some bytes else evoSkipToSoh bytes

/-- Take the next packet off the cable, dropping what stands before it. -/
def evoRecvRaw : EvoProc (List UInt8) := do
  let port ← get
  match evoSkipToSoh port.rx with
  | none =>
      set ({ port with rx := [] } : Port UInt8 UInt8)
      throw .readTimeout
  | some rest =>
      set ({ port with rx := rest } : Port UInt8 UInt8)
      let length := (← cableRecv 1).headD 0
      let head ← if length ≠ tochar 0 then pure [] else cableRecv 4
      let remainder ← Proc.ofExcept
        (evoKermitPacketRemainder length
          (if length ≠ tochar 0 then none else some (head.getD 2 0, head.getD 3 0)))
      let tail ← cableRecv remainder
      let raw := evoSoh :: length :: head ++ tail
      if raw.getLast? = some evoCr then pure raw else throw .invalidPacket

/-- Sequence number, type and data of a received packet. -/
def evoParsePacket (session : EvoKermitSession) (raw : List UInt8) :
    Except EvoErr (Nat × UInt8 × List UInt8) :=
  let check := session.checkType.size
  let body := raw.tail.dropLast
  let ext := body.head? = some (tochar 0)
  let off := if ext then 6 else 3
  let s := body.getD 1 0
  if raw.length < 5 ∨ raw.head? ≠ some evoSoh ∨ raw.getLast? ≠ some evoCr then
    .error .invalidPacket
  else if body.length < off + check then .error .invalidPacket
  else if ext ∧ body.getD 5 0 ≠ evoChecksum (body.take 5) then .error .invalidPacket
  else if ¬ evoCheckBlockCheck body session.checkType then .error .invalidPacket
  else if s.toNat < evoCharBase ∨ evoCharBase + evoSeqMod ≤ s.toNat then .error .invalidPacket
  else .ok (unchar s, body.getD 2 0, (body.drop off).take (body.length - check - off))

/-! ## A made packet is received and parsed -/

theorem exec_cableRecv_append {len : Nat} (bytes rest tx : List UInt8) (fault : Option Nat)
    (h : bytes.length = len) :
    Proc.exec (cableRecv len) ⟨bytes ++ rest, tx, fault⟩ = (.ok bytes, ⟨rest, tx, fault⟩) := by
  simp [cableRecv, Proc.exec_bind, Port.recvN_append rest tx fault h, Except.map]

theorem exec_cableSend (bytes rx tx : List UInt8) :
    Proc.exec (cableSend bytes) ⟨rx, tx, none⟩ =
      (.ok (), ⟨rx, tx ++ bytes.take (bytes.length % 2 ^ 32), none⟩) := by
  simp [cableSend, Proc.exec_bind]

/-- Noise without a start of header is skipped. -/
theorem evoSkipToSoh_append {noise : List UInt8} (rest : List UInt8)
    (h : ∀ b ∈ noise, b ≠ evoSoh) : evoSkipToSoh (noise ++ evoSoh :: rest) = some rest := by
  induction noise with
  | nil => simp [evoSkipToSoh]
  | cons b noise ih =>
      have hb : b ≠ evoSoh := h b (by simp)
      simpa [evoSkipToSoh, hb] using ih fun c hc => h c (by simp [hc])

theorem tochar_zero_ne {n : Nat} (h0 : 0 < n) (h : n < 224) : tochar n ≠ tochar 0 := by
  intro heq
  have hn := unchar_tochar h
  rw [heq, unchar_tochar (by decide)] at hn
  omega

theorem evoKermitLengthCharValid_tochar {n : Nat} (h : n ≤ evoShortBodyMax) :
    evoKermitLengthCharValid (tochar n) = true := by
  simp only [evoShortBodyMax] at h
  have hle : tochar n ≤ tochar evoShortBodyMax := by
    rw [UInt8.le_iff_toNat_le]
    simp [tochar, evoShortBodyMax, evoCharBase]
    omega
  simp [evoKermitLengthCharValid, hle]
  simp [tochar, evoCharBase]
  omega

theorem evoKermitPacketRemainder_short {n : Nat} (h3 : 3 ≤ n) (h : n ≤ evoShortBodyMax) :
    evoKermitPacketRemainder (tochar n) none = .ok (n + 1) := by
  have hlt : n < 224 := by simp only [evoShortBodyMax] at h; omega
  have hne := tochar_zero_ne (by omega) hlt
  simp [evoKermitPacketRemainder, evoKermitLengthCharValid_tochar h, hne, unchar_tochar hlt]
  omega

theorem evoKermitPacketRemainder_extended {dlen : Nat} (h0 : 0 < dlen)
    (h : dlen ≤ evoMaxPacketLen) :
    evoKermitPacketRemainder (tochar 0)
        (some (tochar (dlen / evoExtBodyBase), tochar (dlen % evoExtBodyBase))) =
      .ok (dlen + 2) := by
  have hhi : dlen / evoExtBodyBase ≤ evoShortBodyMax := by
    simp only [evoMaxPacketLen, evoExtBodyBase, evoShortBodyMax] at *; omega
  have hlo : dlen % evoExtBodyBase ≤ evoShortBodyMax := by
    simp only [evoExtBodyBase, evoShortBodyMax]; omega
  have hsum : dlen / evoExtBodyBase * evoExtBodyBase + dlen % evoExtBodyBase = dlen :=
    Nat.div_add_mod' ..
  have hhi' : dlen / evoExtBodyBase < 224 := Nat.lt_of_le_of_lt hhi (by decide)
  have hlo' : dlen % evoExtBodyBase < 224 := Nat.lt_of_le_of_lt hlo (by decide)
  have hnot : ¬ (dlen = 0 ∨ evoMaxPacketLen < dlen) := by omega
  simp [evoKermitPacketRemainder, evoKermitLengthCharValid_tochar (Nat.zero_le _),
    evoKermitLengthCharValid_tochar hhi, evoKermitLengthCharValid_tochar hlo,
    unchar_tochar hhi', unchar_tochar hlo', hsum, hnot]

section Receive

variable {noise : List UInt8} (tail rest tx : List UInt8) (fault : Option Nat)

theorem exec_evoRecvRaw_short {n : Nat} (hnoise : ∀ b ∈ noise, b ≠ evoSoh) (h3 : 3 ≤ n)
    (h : n ≤ evoShortBodyMax) (hlen : tail.length = n + 1) (hcr : tail.getLast? = some evoCr) :
    Proc.exec evoRecvRaw ⟨noise ++ evoSoh :: tochar n :: (tail ++ rest), tx, fault⟩ =
      (.ok (evoSoh :: tochar n :: tail), ⟨rest, tx, fault⟩) := by
  have hne : tochar n ≠ tochar 0 :=
    tochar_zero_ne (by omega) (by simp only [evoShortBodyMax] at h; omega)
  have hlength := exec_cableRecv_append [tochar n] (tail ++ rest) tx fault List.length_singleton
  have htail := exec_cableRecv_append tail rest tx fault hlen
  simp only [List.singleton_append] at hlength
  simp [evoRecvRaw, Proc.exec_bind, evoSkipToSoh_append _ hnoise, hlength, hne,
    evoKermitPacketRemainder_short h3 h, htail, List.getLast?_cons, hcr]

theorem exec_evoRecvRaw_extended {seq type : UInt8} {dlen : Nat}
    (hnoise : ∀ b ∈ noise, b ≠ evoSoh) (h0 : 0 < dlen) (h : dlen ≤ evoMaxPacketLen)
    (hlen : tail.length = dlen + 2) (hcr : tail.getLast? = some evoCr) :
    let head := [seq, type, tochar (dlen / evoExtBodyBase), tochar (dlen % evoExtBodyBase)]
    Proc.exec evoRecvRaw ⟨noise ++ evoSoh :: tochar 0 :: (head ++ (tail ++ rest)), tx, fault⟩ =
      (.ok (evoSoh :: tochar 0 :: head ++ tail), ⟨rest, tx, fault⟩) := by
  intro head
  have hlength := exec_cableRecv_append [tochar 0] (head ++ (tail ++ rest)) tx fault
    List.length_singleton
  have hhead := exec_cableRecv_append head (tail ++ rest) tx fault
    (show head.length = 4 from rfl)
  have htail := exec_cableRecv_append tail rest tx fault hlen
  simp only [head, List.cons_append, List.nil_append] at hlength hhead
  simp [evoRecvRaw, Proc.exec_bind, evoSkipToSoh_append _ hnoise, hlength, hhead, head,
    evoKermitPacketRemainder_extended h0 h, htail, List.getLast?_cons, hcr]

/-- A packet behind any noise is received whole, whatever follows it. -/
theorem exec_evoRecvRaw {session : EvoKermitSession} (seq : Nat) (type : UInt8)
    (data : List UInt8) (hnoise : ∀ b ∈ noise, b ≠ evoSoh)
    (hlen : data.length + session.checkType.size ≤ evoMaxPacketLen) :
    Proc.exec evoRecvRaw
        ⟨noise ++ (evoMakePacket session seq type data ++ rest), tx, fault⟩ =
      (.ok (evoMakePacket session seq type data), ⟨rest, tx, fault⟩) := by
  have hsize := session.checkType.size_pos
  simp only [evoMakePacket]
  generalize hcheck : evoBlockCheck _ session.checkType = check
  have hclen : check.length = session.checkType.size := by rw [← hcheck, length_evoBlockCheck]
  simp only [evoPacketBody]
  split
  · next hn =>
    simpa using exec_evoRecvRaw_short (tochar (seq % evoSeqMod) :: type :: data ++ check ++ [evoCr])
      rest tx fault hnoise (by omega) hn (by simp [hclen]; omega)
      (by simp [List.getLast?_cons])
  · next hn =>
    simpa using exec_evoRecvRaw_extended (_ :: data ++ check ++ [evoCr])
      rest tx fault hnoise (by omega) hlen (by simp [hclen]; omega)
      (by simp [List.getLast?_cons])

end Receive

theorem toNat_tochar {n : Nat} (h : n < 224) : (tochar n).toNat = n + evoCharBase := by
  simp only [tochar, UInt8.toNat_ofNat', evoCharBase]
  omega

/-- A made packet parses to its sequence number, type and data. -/
theorem evoParsePacket_evoMakePacket (session : EvoKermitSession) (seq : Nat) (type : UInt8)
    (data : List UInt8) :
    evoParsePacket session (evoMakePacket session seq type data) =
      .ok (seq % evoSeqMod, type, data) := by
  have hseq : seq % evoSeqMod < 64 := Nat.mod_lt _ (by decide)
  have hmod : evoSeqMod = 64 := rfl
  have hchar := toNat_tochar (show seq % evoSeqMod < 224 by omega)
  have hunchar := unchar_tochar (show seq % evoSeqMod < 224 by omega)
  have hsize := session.checkType.size_pos
  have hcheck := evoCheckBlockCheck_append (evoPacketBody session seq type data) session.checkType
  have hclen := length_evoBlockCheck (evoPacketBody session seq type data) session.checkType
  simp only [evoMakePacket]
  generalize evoBlockCheck _ session.checkType = check at hcheck hclen ⊢
  have htail : (evoSoh :: evoPacketBody session seq type data ++ check ++ [evoCr]).tail.dropLast =
      evoPacketBody session seq type data ++ check := by
    simp
  simp only [evoParsePacket, htail, hcheck]
  simp only [evoPacketBody]
  split
  · next hn =>
    have hne : tochar (data.length + 2 + session.checkType.size) ≠ tochar 0 :=
      tochar_zero_ne (by omega) (by simp only [evoShortBodyMax] at hn; omega)
    simp [List.getLast?_cons, hne, hchar, hunchar, hclen]
    rw [if_neg (by omega), if_neg (by omega), if_neg (by omega), List.take_left' (by omega)]
  · next hn =>
    simp [List.getLast?_cons, hchar, hunchar, hclen]
    rw [if_neg (by omega), if_neg (by omega), if_neg (by omega), List.take_left' (by omega)]

/-- A made packet comes off the cable as one packet, behind any noise without a
start of header, and parses to its sequence number, type and data. -/
theorem evoMakePacket_received (session : EvoKermitSession) (seq : Nat) (type : UInt8)
    (data : List UInt8) {noise : List UInt8} (rest tx : List UInt8) (fault : Option Nat)
    (hnoise : ∀ b ∈ noise, b ≠ evoSoh)
    (hlen : data.length + session.checkType.size ≤ evoMaxPacketLen) :
    ∃ raw n, Proc.exec evoRecvRaw
          ⟨noise ++ (evoMakePacket session seq type data ++ rest), tx, fault⟩ =
        (.ok raw, ⟨rest, tx, fault⟩) ∧
      evoParsePacket session raw = .ok (n, type, data) ∧
      n = seq % evoSeqMod ∧ (seq < evoSeqMod → n = seq) := by
  refine ⟨_, _, exec_evoRecvRaw rest tx fault seq type data hnoise hlen,
    evoParsePacket_evoMakePacket session seq type data, rfl, ?_⟩
  intro hseq
  exact Nat.mod_eq_of_lt hseq

/-- The same for a packet without data that no noise precedes. -/
theorem evoMakePacket_received_empty :
    ∃ raw n, Proc.exec evoRecvRaw
          ⟨[] ++ (evoMakePacket evoSessionInit 63 0x59 [] ++ []), [], none⟩ =
        (.ok raw, ⟨[], [], none⟩) ∧
      evoParsePacket evoSessionInit raw = .ok (n, 0x59, []) ∧
      n = 63 % evoSeqMod ∧ (63 < evoSeqMod → n = 63) :=
  evoMakePacket_received evoSessionInit 63 0x59 [] [] [] none (by simp) (by decide)

end Tilibs.Evo
