import Tilibs.Lib.OnesComplement
import Tilibs.Nsp.Nnse

/-!
# Tilibs.Nsp.NnseFrame

NNSE messages as bytes (`nsp_nnse.cc`).

A message is a 12-byte big-endian header and a payload.  Stream control
messages also come in a compact form, without the leading `misc` byte, which is
then zero; the length and the checksum of the header are those of the message
with the byte.

* `nnseMessageBytes` — what `nnse_send_message` writes.
* `nnseTakeMessage` — what `nnse_recv_message` takes from the front of its
  buffer.
-/

namespace Tilibs.Nsp

open Tilibs.Lib

/-! ## Constants -/

def nspNnseHeaderSize : Nat := 12

def nspNnseSrvEcho : UInt8 := 0x03
def nspNnseSrvTransmit : UInt8 := 0x05
def nspNnseSrvLoopback : UInt8 := 0x06
def nspNnseSrvStats : UInt8 := 0x07

/-! ## Headers -/

def nnseServicePlausible (service : UInt8) : Bool :=
  (service &&& ~~~nspNnseSrvAckFlag) ∈
    [nspNnseSrvAddrReq, nspNnseSrvTime, nspNnseSrvEcho, nspNnseSrvStream, nspNnseSrvTransmit,
      nspNnseSrvLoopback, nspNnseSrvStats, nspNnseSrvStreamCtrl]

/-- Bit 0 asks for an acknowledgement and bit 3 marks a retransmission. -/
def nnseReqackPlausible (reqack : UInt8) : Bool := reqack &&& ~~~0x09 = 0

def nnseDestPlausible (dest : UInt8) : Bool := dest = nspNnseAddrPc || dest = nspNnseAddrAll

def nnseLengthPlausible (length maxpayload : Nat) : Bool :=
  nspNnseHeaderSize ≤ length && length - nspNnseHeaderSize ≤ maxpayload

def nnseHeaderPlausible (header : List UInt8) (maxpayload : Nat) : Bool :=
  let length := (getWord header 6).toNat
  let service := header.getD 1 0
  header.getD 0 0 = 0 && header.getD 4 0 = 0 &&
    nnseServicePlausible service && nnseReqackPlausible (header.getD 5 0) &&
    header.getD 2 0 = nspNnseAddrCalc && nnseDestPlausible (header.getD 3 0) &&
    nnseLengthPlausible length maxpayload &&
    !(service &&& nspNnseSrvAckFlag ≠ 0 &&
      (length - nspNnseHeaderSize ≠ 0 || header.getD 5 0 &&& 1 ≠ 0))

def nnseCompactStreamControlPlausible (header : List UInt8) (maxpayload : Nat) : Bool :=
  header.getD 0 0 = nspNnseSrvStreamCtrl && header.getD 3 0 = 0 &&
    nnseDestPlausible (header.getD 2 0) &&
    nnseLengthPlausible (getWord header 5).toNat maxpayload

/-! ## Checksums -/

def nnseChecksumAcc : List UInt8 → UInt32 → UInt32
  | [], acc => acc
  | [high], acc => acc + high.toUInt32 <<< 8
  | high :: low :: rest, acc =>
      nnseChecksumAcc rest (acc + (high.toUInt32 <<< 8 ||| low.toUInt32))

section Words

variable (acc : UInt32) (high low : UInt8)

theorem toNat_shiftRight_16 : (acc >>> 16).toNat = acc.toNat / 65536 := by
  simp [UInt32.toNat_shiftRight, Nat.shiftRight_eq_div_pow]

theorem toNat_and_FFFF : (acc &&& 0xFFFF).toNat = acc.toNat % 65536 := by
  rw [UInt32.toNat_and]
  exact Nat.and_two_pow_sub_one_eq_mod acc.toNat 16

theorem toNat_highByte : (high.toUInt32 <<< 8).toNat = 256 * high.toNat := by
  have hbyte := high.toNat_lt
  rw [UInt32.toNat_shiftLeft, UInt8.toNat_toUInt32]
  simp only [UInt32.reduceToNat, Nat.shiftLeft_eq, Nat.reduceMod, Nat.reducePow]
  omega

theorem toNat_word :
    (high.toUInt32 <<< 8 ||| low.toUInt32).toNat = 256 * high.toNat + low.toNat := by
  have hlow := low.toNat_lt
  rw [UInt32.toNat_or, toNat_highByte, UInt8.toNat_toUInt32]
  exact (Nat.two_pow_add_eq_or_of_lt (i := 8) hlow high.toNat).symm

end Words

theorem nnseChecksumFold_lt {acc : UInt32} (h : acc >>> 16 ≠ 0) :
    ((acc >>> 16) + (acc &&& 0xFFFF)).toNat < acc.toNat := by
  have hne : acc.toNat / 65536 ≠ 0 := by
    rw [← toNat_shiftRight_16]
    intro hzero
    exact h (UInt32.toNat_inj.mp hzero)
  rw [UInt32.toNat_add, toNat_shiftRight_16, toNat_and_FFFF]
  exact (Nat.mod_le _ _).trans_lt (div_add_mod_lt (by decide) (by omega))

def nnseChecksumFold (acc : UInt32) : UInt16 :=
  if _ : acc >>> 16 ≠ 0 then nnseChecksumFold ((acc >>> 16) + (acc &&& 0xFFFF))
  else acc.toUInt16
termination_by acc.toNat
decreasing_by exact nnseChecksumFold_lt ‹_›

/-- The checksum of the message with the byte that a compact one leaves out. -/
def nnseCompactStreamControlChecksum (data : List UInt8) : UInt16 :=
  if nspNnseHeaderSize + nspNnseMaxPayload < data.length + 1 then 0
  else nnseChecksumFold (nnseChecksumAcc (0 :: data) 0)

theorem toNat_nnseChecksumAcc (data : List UInt8) (acc : UInt32) :
    (nnseChecksumAcc data acc).toNat = (acc.toNat + wordSum data) % 2 ^ 32 := by
  fun_induction nnseChecksumAcc data acc with
  | case1 acc => simp [Nat.mod_eq_of_lt acc.toNat_lt]
  | case2 acc high =>
      have hbyte := high.toNat_lt
      rw [UInt32.toNat_add, wordSum_singleton, toNat_highByte]
  | case3 acc high low rest ih =>
      rw [ih, UInt32.toNat_add, toNat_word, wordSum_cons_cons]
      omega

theorem toNat_nnseChecksumFold (acc : UInt32) :
    (nnseChecksumFold acc).toNat = endAround 65536 acc.toNat := by
  fun_induction nnseChecksumFold acc with
  | case1 acc h ih =>
      have hle : 65536 ≤ acc.toNat := by
        by_contra hlt
        exact h (UInt32.toNat_inj.mp (by rw [toNat_shiftRight_16]; simp; omega))
      rw [ih, endAround_of_le (by decide) hle, UInt32.toNat_add, toNat_shiftRight_16,
        toNat_and_FFFF, Nat.mod_eq_of_lt]
      have hlt := div_add_mod_lt (by decide) hle
      have hacc := acc.toNat_lt
      omega
  | case2 acc h =>
      have hzero : acc.toNat / 65536 = 0 := by
        rw [← toNat_shiftRight_16, not_not.mp h]
        rfl
      rw [endAround_of_lt (by omega), UInt32.toNat_toUInt16]
      omega

/-- A message of a length that fits its field verifies when its sum is a multiple of
the largest word, but is not zero. -/
theorem nnseChecksum_eq_iff {data : List UInt8} (h : data.length ≤ 65535) :
    nnseChecksumFold (nnseChecksumAcc data 0) = 0xFFFF ↔
      0 < wordSum data ∧ wordSum data ≡ 0 [MOD 65535] := by
  have hle := wordSum_le data
  have hacc : (nnseChecksumAcc data 0).toNat = wordSum data := by
    rw [toNat_nnseChecksumAcc, UInt32.toNat_zero, Nat.zero_add]
    exact Nat.mod_eq_of_lt (by omega)
  rw [← UInt16.toNat_inj, toNat_nnseChecksumFold, hacc]
  exact endAround_eq_top_iff (by decide)

/-! ## Sending -/

def NnseMessage.bytesWith (m : NnseMessage) (csum : UInt16) : List UInt8 :=
  [m.misc, m.service, m.src, m.dest, m.unknown, m.reqack] ++
    putWord (UInt16.ofNat (nspNnseHeaderSize + m.payload.length)) ++ putWord m.seqno ++
    putWord csum ++ m.payload

def NnseMessage.csum (m : NnseMessage) : UInt16 :=
  nnseChecksumFold (nnseChecksumAcc (m.bytesWith 0) 0) ^^^ 0xFFFF

/-- The bytes `nnse_send_message` writes to the cable. -/
def nnseMessageBytes (m : NnseMessage) : Except NspErr (List UInt8) :=
  if nspNnseMaxPayload < m.payload.length then .error .invalidPacket
  else .ok (m.bytesWith m.csum)

/-! ## Receiving -/

/-- The two forms of a message. -/
inductive NnseForm
  | full
  | compact
  deriving DecidableEq

namespace NnseForm

def headerPlausible : NnseForm → List UInt8 → Nat → Bool
  | full => nnseHeaderPlausible
  | compact => nnseCompactStreamControlPlausible

/-- Where the header has the length of the message. -/
def lengthAt : NnseForm → Nat
  | full => 6
  | compact => 5

/-- How many bytes the receiver reads, by the length in the header. -/
def wireLength : NnseForm → List UInt8 → UInt16
  | full, frame => getWord frame 6
  | compact, frame => getWord frame 5 - 1

def checksum : NnseForm → List UInt8 → UInt16
  | full, message => nnseChecksumFold (nnseChecksumAcc message 0)
  | compact, message => nnseCompactStreamControlChecksum message

/-- The receiver's check of the message at the front of its buffer. -/
def verifies (form : NnseForm) (frame : List UInt8) : Bool :=
  form.checksum (frame.take (form.wireLength frame).toNat) = 0xFFFF

/-- The message with its first byte put back. -/
def expand : NnseForm → List UInt8 → List UInt8
  | full, message => message
  | compact, message => 0 :: message

/-- A message as it is on the wire. -/
def wire : NnseForm → List UInt8 → List UInt8
  | full, message => message
  | compact, message => message.tail

end NnseForm

/-- The fields of a full message. -/
def nnseReadMessage (message : List UInt8) : NnseMessage where
  misc := message.getD 0 0
  service := message.getD 1 0
  src := message.getD 2 0
  dest := message.getD 3 0
  unknown := message.getD 4 0
  reqack := message.getD 5 0
  seqno := getWord message 8
  payload := message.drop nspNnseHeaderSize

/-- The message of a form at the front of the buffer, with what is behind it. -/
def NnseForm.take (form : NnseForm) (frame : List UInt8) : Option (NnseMessage × List UInt8) :=
  let length := (form.wireLength frame).toNat
  if length ≤ frame.length ∧ form.verifies frame then
    some (nnseReadMessage (form.expand (frame.take length)), frame.drop length)
  else none

/-- The message at the front of the buffer, if there is one. -/
def nnseTakeMessage (frame : List UInt8) (maxpayload : Nat) :
    Option (NnseMessage × List UInt8) :=
  if NnseForm.full.headerPlausible frame maxpayload then NnseForm.full.take frame
  else if NnseForm.compact.headerPlausible frame maxpayload then NnseForm.compact.take frame
  else none

/-! ## The checksum of a message that was sent -/

theorem wordSum_putWord (x : UInt16) : wordSum (putWord x) = x.toNat := by
  have hx := x.toNat_lt
  rw [putWord_eq, wordSum_cons_cons, wordSum_nil, UInt8.toNat_ofNat', UInt16.toNat_toUInt8]
  omega

theorem getWord_set {bytes : List UInt8} {i offset : Nat} (b : UInt8) (h : i ≠ offset)
    (h' : i ≠ offset + 1) : getWord (bytes.set i b) offset = getWord bytes offset := by
  rw [getWord, getWord, List.drop_set]
  split
  · rfl
  · rw [List.take_set, List.set_eq_of_length_le]
    rw [List.length_take]
    omega

namespace NnseMessage

variable (m : NnseMessage) (csum : UInt16)

@[simp] theorem length_bytesWith :
    (m.bytesWith csum).length = nspNnseHeaderSize + m.payload.length := by
  simp [bytesWith, nspNnseHeaderSize]
  omega

/-- The sum of a message by its fields. -/
theorem wordSum_fields : wordSum (m.bytesWith csum)
    = wordSum [m.misc, m.service, m.src, m.dest, m.unknown, m.reqack]
      + (UInt16.ofNat (nspNnseHeaderSize + m.payload.length)).toNat + m.seqno.toNat
      + csum.toNat + wordSum m.payload := by
  unfold bytesWith
  rw [wordSum_append (by simp), wordSum_append (by simp), wordSum_append (by simp),
    wordSum_append (by simp)]
  simp only [wordSum_putWord]

theorem wordSum_bytesWith : wordSum (m.bytesWith csum) = wordSum (m.bytesWith 0) + csum.toNat := by
  rw [wordSum_fields, wordSum_fields, UInt16.toNat_zero]
  omega

/-- The length alone keeps the sum from being zero. -/
theorem wordSum_bytesWith_pos (h : m.payload.length ≤ nspNnseMaxPayload) :
    0 < wordSum (m.bytesWith csum) := by
  simp only [nspNnseMaxPayload] at h
  rw [wordSum_fields, UInt16.toNat_ofNat_of_lt' (by simp [nspNnseHeaderSize, UInt16.size]; omega)]
  simp only [nspNnseHeaderSize]
  omega

theorem length_le (h : m.payload.length ≤ nspNnseMaxPayload) :
    (m.bytesWith csum).length ≤ nspNnseHeaderSize + nspNnseMaxPayload := by
  rw [length_bytesWith]
  omega

theorem toNat_csum (h : m.payload.length ≤ nspNnseMaxPayload) :
    m.csum.toNat = 65535 - endAround 65536 (wordSum (m.bytesWith 0)) := by
  have hle := wordSum_le (m.bytesWith 0)
  have hlength := m.length_le 0 h
  simp only [nspNnseHeaderSize, nspNnseMaxPayload] at hlength
  have hflip : m.csum = ~~~ nnseChecksumFold (nnseChecksumAcc (m.bytesWith 0) 0) :=
    UInt16.xor_neg_one
  rw [hflip, UInt16.toNat_not, toNat_nnseChecksumFold, toNat_nnseChecksumAcc, UInt32.toNat_zero,
    Nat.zero_add, Nat.mod_eq_of_lt (by omega)]
  rfl

/-- The sum of a message with its checksum. -/
theorem wordSum_bytes_modEq (h : m.payload.length ≤ nspNnseMaxPayload) :
    wordSum (m.bytesWith m.csum) ≡ 0 [MOD 65535] := by
  have hcomplement := endAround_complement (B := 65536) (by decide) (m.wordSum_bytesWith_pos 0 h)
  rw [wordSum_bytesWith, toNat_csum m h]
  exact ((endAround_eq_top_iff (by decide)).mp hcomplement).2

/-- The length field says how long the message is. -/
theorem getWord_bytesWith (h : m.payload.length ≤ nspNnseMaxPayload) (rest : List UInt8) :
    (getWord (m.bytesWith csum ++ rest) 6).toNat = (m.bytesWith csum).length := by
  have hword : getWord (m.bytesWith csum ++ rest) 6
      = UInt16.ofNat (nspNnseHeaderSize + m.payload.length) := by
    simp only [bytesWith, putWord_eq, getWord, List.cons_append, List.nil_append,
      List.drop_succ_cons, List.drop_zero, List.take_succ_cons, List.take_zero]
    exact getBE_word _
  simp only [nspNnseMaxPayload] at h
  rw [hword, length_bytesWith]
  exact UInt16.toNat_ofNat_of_lt' (by simp [nspNnseHeaderSize, UInt16.size]; omega)

end NnseMessage

/-! ## Both forms -/

namespace NnseForm

variable (form : NnseForm)

/-- Both forms verify by the sum of the message with its first byte. -/
theorem checksum_eq_iff {message : List UInt8}
    (h : (form.expand message).length ≤ nspNnseHeaderSize + nspNnseMaxPayload) :
    form.checksum message = 0xFFFF ↔
      0 < wordSum (form.expand message) ∧ wordSum (form.expand message) ≡ 0 [MOD 65535] := by
  have hshort : (form.expand message).length ≤ 65535 := h.trans (by decide)
  cases form with
  | full => exact nnseChecksum_eq_iff hshort
  | compact =>
      simp only [expand, List.length_cons] at h
      rw [checksum, nnseCompactStreamControlChecksum, if_neg (by omega)]
      exact nnseChecksum_eq_iff hshort

/-- The place of a byte in the message with its first byte. -/
def shift : NnseForm → Nat
  | full => 0
  | compact => 1

theorem expand_set (message : List UInt8) (i : Nat) (b : UInt8) :
    form.expand (message.set i b) = (form.expand message).set (i + form.shift) b := by
  cases form <;> rfl

theorem expand_append (message rest : List UInt8) :
    form.expand (message ++ rest) = form.expand message ++ rest := by
  cases form <;> rfl

@[simp] theorem length_expand (message : List UInt8) :
    (form.expand message).length = message.length + form.shift := by
  cases form <;> rfl

theorem lengthAt_add_shift : form.lengthAt + form.shift = 6 := by
  cases form <;> rfl

/-- What the receiver reads is what the length field of the whole message says. -/
theorem wireLength_eq {frame : List UInt8} (h : 1 ≤ (getWord (form.expand frame) 6).toNat) :
    (form.wireLength frame).toNat = (getWord (form.expand frame) 6).toNat - form.shift := by
  cases form with
  | full => rfl
  | compact =>
      show (getWord frame 5 - 1).toNat = (getWord frame 5).toNat - 1
      exact UInt16.toNat_sub_of_le _ _ (UInt16.le_iff_toNat_le.mpr h)

theorem verifies_append {message rest : List UInt8}
    (h : (form.wireLength (message ++ rest)).toNat = message.length) :
    form.verifies (message ++ rest) ↔ form.checksum message = 0xFFFF := by
  rw [verifies, h, List.take_left', decide_eq_true_eq]
  rfl

/-! ## Messages that were sent -/

section Sent

variable {form : NnseForm} {m : NnseMessage} (csum : UInt16)

/-- A message of zero `misc` byte is known from its compact form. -/
theorem expand_wire (hform : form = .compact → m.misc = 0) :
    form.expand (form.wire (m.bytesWith csum)) = m.bytesWith csum := by
  cases form with
  | full => rfl
  | compact =>
      show 0 :: (m.bytesWith csum).tail = m.bytesWith csum
      simp [NnseMessage.bytesWith, hform rfl]

theorem wireLength_wire (hform : form = .compact → m.misc = 0)
    (hfits : m.payload.length ≤ nspNnseMaxPayload) (rest : List UInt8) :
    (form.wireLength (form.wire (m.bytesWith csum) ++ rest)).toNat
      = (form.wire (m.bytesWith csum)).length := by
  have hexpand := expand_wire csum hform
  have hword := m.getWord_bytesWith csum hfits rest
  have hlength := form.length_expand (form.wire (m.bytesWith csum))
  rw [hexpand] at hlength
  have hmin : 1 ≤ (m.bytesWith csum).length := by
    rw [m.length_bytesWith]
    simp only [nspNnseHeaderSize]
    omega
  rw [wireLength_eq, expand_append, hexpand, hword]
  · omega
  · rw [expand_append, hexpand, hword]
    exact hmin

/-- A change outside the length field leaves what the receiver reads. -/
theorem wireLength_wire_set (hform : form = .compact → m.misc = 0)
    (hfits : m.payload.length ≤ nspNnseMaxPayload) (rest : List UInt8) {i : Nat} (b : UInt8)
    (hi : i < (form.wire (m.bytesWith csum)).length) (h : i ≠ form.lengthAt)
    (h' : i ≠ form.lengthAt + 1) :
    (form.wireLength ((form.wire (m.bytesWith csum)).set i b ++ rest)).toNat
      = ((form.wire (m.bytesWith csum)).set i b).length := by
  have hsame := wireLength_wire csum hform hfits rest
  rw [List.length_set, ← hsame, ← List.set_append_left _ _ hi]
  have hat := form.lengthAt_add_shift
  have hfield : getWord ((form.wire (m.bytesWith csum) ++ rest).set i b) form.lengthAt
      = getWord (form.wire (m.bytesWith csum) ++ rest) form.lengthAt := getWord_set b h h'
  cases form with
  | full => exact congrArg UInt16.toNat hfield
  | compact => exact congrArg (fun length => (length - 1).toNat) hfield

theorem checksum_wire (hform : form = .compact → m.misc = 0)
    (hfits : m.payload.length ≤ nspNnseMaxPayload) :
    form.checksum (form.wire (m.bytesWith m.csum)) = 0xFFFF := by
  have hexpand := expand_wire m.csum hform
  rw [checksum_eq_iff, hexpand]
  · exact ⟨m.wordSum_bytesWith_pos m.csum hfits, m.wordSum_bytes_modEq hfits⟩
  · rw [hexpand]
    exact m.length_le m.csum hfits

/-- No change of one byte verifies. -/
theorem checksum_wire_set (hform : form = .compact → m.misc = 0)
    (hfits : m.payload.length ≤ nspNnseMaxPayload) {i : Nat} {b : UInt8}
    (hi : i < (form.wire (m.bytesWith m.csum)).length)
    (hne : b ≠ (form.wire (m.bytesWith m.csum))[i]) :
    form.checksum ((form.wire (m.bytesWith m.csum)).set i b) ≠ 0xFFFF := by
  have hexpand := expand_wire m.csum hform
  rw [Ne, checksum_eq_iff]
  · rintro ⟨-, hzero⟩
    rw [expand_set] at hzero
    have hlength := form.length_expand (form.wire (m.bytesWith m.csum))
    refine wordSum_set_not_modEq (by omega) ?_ (hzero.trans ?_)
    · cases form <;> exact hne
    · rw [hexpand]
      exact (m.wordSum_bytes_modEq hfits).symm
  · rw [length_expand, List.length_set, ← length_expand, hexpand]
    exact m.length_le m.csum hfits

end Sent

end NnseForm

/-- The two forms are told apart by their first byte. -/
theorem not_full_of_compact {frame : List UInt8} {maxpayload : Nat}
    (h : NnseForm.compact.headerPlausible frame maxpayload) :
    ¬ NnseForm.full.headerPlausible frame maxpayload := by
  have hfirst : frame.getD 0 0 = nspNnseSrvStreamCtrl := by
    simp only [NnseForm.headerPlausible, nnseCompactStreamControlPlausible, Bool.and_eq_true,
      decide_eq_true_eq] at h
    exact h.1.1.1
  intro hfull
  simp only [NnseForm.headerPlausible, nnseHeaderPlausible, hfirst, Bool.and_eq_true,
    decide_eq_true_eq] at hfull
  exact absurd hfull.1.1.1.1.1.1.1 (by decide)

theorem nnseReadMessage_bytesWith (m : NnseMessage) (csum : UInt16) :
    nnseReadMessage (m.bytesWith csum) = m := by
  have hseqno : getWord (m.bytesWith csum) 8 = m.seqno := by
    simp only [NnseMessage.bytesWith, putWord_eq, getWord, List.cons_append, List.nil_append,
      List.drop_succ_cons, List.drop_zero, List.take_succ_cons, List.take_zero]
    exact getBE_word _
  unfold nnseReadMessage
  rw [hseqno]
  simp [NnseMessage.bytesWith, putWord_eq, nspNnseHeaderSize]

/-- A message whose header is plausible is received as it was sent. -/
theorem nnseTakeMessage_wire {m : NnseMessage} {frame : List UInt8}
    (hsent : nnseMessageBytes m = .ok frame) {form : NnseForm}
    (hform : form = .compact → m.misc = 0) {rest : List UInt8} {maxpayload : Nat}
    (haccepted : form.headerPlausible (form.wire frame ++ rest) maxpayload) :
    nnseTakeMessage (form.wire frame ++ rest) maxpayload = some (m, rest) := by
  have htake : form.take (form.wire frame ++ rest) = some (m, rest) := by
    unfold nnseMessageBytes at hsent
    split at hsent
    · simp at hsent
    · rename_i hfits
      rw [Nat.not_lt] at hfits
      obtain rfl : m.bytesWith m.csum = frame := by simpa using hsent
      have hlength := NnseForm.wireLength_wire m.csum hform hfits rest
      have hverifies := (NnseForm.verifies_append form hlength).mpr
        (NnseForm.checksum_wire hform hfits)
      rw [NnseForm.take, if_pos ⟨by rw [hlength, List.length_append]; omega, hverifies⟩, hlength,
        List.take_left', List.drop_left', NnseForm.expand_wire m.csum hform,
        nnseReadMessage_bytesWith]
      · rfl
      · rfl
  cases form with
  | full => rw [nnseTakeMessage, if_pos haccepted, htake]
  | compact =>
      rw [nnseTakeMessage, if_neg (not_full_of_compact haccepted), if_pos haccepted, htake]

/-- The checksum the sender stores verifies in both forms, and fails when one byte of
the message is not what was sent.  The receiver finds that out whatever comes behind
the message, unless the byte is one of the length that says what it reads. -/
theorem nnseMessageBytes_checksum {m : NnseMessage} {frame : List UInt8}
    (hsent : nnseMessageBytes m = .ok frame) (form : NnseForm)
    (hform : form = .compact → m.misc = 0) (rest : List UInt8) :
    form.verifies (form.wire frame ++ rest) ∧
      ∀ (i : Nat) (b : UInt8) (h : i < (form.wire frame).length), b ≠ (form.wire frame)[i] →
        form.checksum ((form.wire frame).set i b) ≠ 0xFFFF ∧
        (i ≠ form.lengthAt → i ≠ form.lengthAt + 1 →
          ¬ form.verifies ((form.wire frame).set i b ++ rest)) := by
  unfold nnseMessageBytes at hsent
  split at hsent
  · simp at hsent
  · rename_i hfits
    rw [Nat.not_lt] at hfits
    obtain rfl : m.bytesWith m.csum = frame := by simpa using hsent
    constructor
    · rw [NnseForm.verifies_append form (NnseForm.wireLength_wire m.csum hform hfits rest)]
      exact NnseForm.checksum_wire hform hfits
    · intro i b h hne
      have hfails := NnseForm.checksum_wire_set hform hfits h hne
      constructor
      · exact hfails
      · intro hat hat'
        rw [NnseForm.verifies_append form
          (NnseForm.wireLength_wire_set m.csum hform hfits rest b h hat hat')]
        exact hfails

theorem nnseMessageBytes_streamControlReset :
    nnseMessageBytes ⟨0, 8, 1, 0xFE, 0, 0, 5, [2]⟩
        = .ok [0, 8, 1, 0xFE, 0, 0, 0, 13, 0, 5, 0xFB, 0xE7, 2] ∧
      NnseForm.compact.verifies [8, 1, 0xFE, 0, 0, 0, 13, 0, 5, 0xFB, 0xE7, 2] ∧
      ¬ NnseForm.compact.verifies [8, 1, 0xFF, 0, 0, 0, 13, 0, 5, 0xFB, 0xE7, 2] := by
  have hcsum : NnseMessage.csum ⟨0, 8, 1, 0xFE, 0, 0, 5, [2]⟩ = 0xFBE7 := by
    have hfold := NnseMessage.toNat_csum ⟨0, 8, 1, 0xFE, 0, 0, 5, [2]⟩ (by decide)
    rw [endAround_of_lt (by decide)] at hfold
    exact UInt16.toNat_inj.mp (hfold.trans (by decide))
  have hsent : nnseMessageBytes ⟨0, 8, 1, 0xFE, 0, 0, 5, [2]⟩
      = .ok [0, 8, 1, 0xFE, 0, 0, 0, 13, 0, 5, 0xFB, 0xE7, 2] := by
    rw [nnseMessageBytes, hcsum]
    decide
  obtain ⟨hverifies, hchanged⟩ := nnseMessageBytes_checksum hsent .compact (fun _ => rfl) []
  constructor
  · exact hsent
  constructor
  · exact hverifies
  · exact (hchanged 2 0xFF (by decide) (by decide)).2 (by decide) (by decide)

/-- A length that is read as two bytes less leaves out a word that is two less than
nothing, and the rest of the message verifies. -/
theorem nnseTakeMessage_shortened :
    nnseMessageBytes ⟨0, 4, 1, 0xFE, 0, 0, 0, [0xFF, 0xFD]⟩
        = .ok [0, 4, 1, 0xFE, 0, 0, 0, 14, 0, 0, 0xFD, 0xF1, 0xFF, 0xFD] ∧
      NnseForm.full.verifies [0, 4, 1, 0xFE, 0, 0, 0, 12, 0, 0, 0xFD, 0xF1, 0xFF, 0xFD] ∧
      nnseTakeMessage [0, 4, 1, 0xFE, 0, 0, 0, 12, 0, 0, 0xFD, 0xF1, 0xFF, 0xFD] nspNnseMaxPayload
        = some (⟨0, 4, 1, 0xFE, 0, 0, 0, []⟩, [0xFF, 0xFD]) := by
  have hcsum : NnseMessage.csum ⟨0, 4, 1, 0xFE, 0, 0, 0, [0xFF, 0xFD]⟩ = 0xFDF1 := by
    have hfold := NnseMessage.toNat_csum ⟨0, 4, 1, 0xFE, 0, 0, 0, [0xFF, 0xFD]⟩ (by decide)
    rw [endAround_of_le (by decide) (by decide), endAround_of_lt (by decide)] at hfold
    exact UInt16.toNat_inj.mp (hfold.trans (by decide))
  have hverifies : NnseForm.full.verifies
      [0, 4, 1, 0xFE, 0, 0, 0, 12, 0, 0, 0xFD, 0xF1, 0xFF, 0xFD] := by
    rw [NnseForm.verifies, decide_eq_true_eq, NnseForm.checksum_eq_iff] <;> decide
  constructor
  · rw [nnseMessageBytes, hcsum]
    decide
  constructor
  · exact hverifies
  · rw [nnseTakeMessage, if_pos (by decide), NnseForm.take, if_pos ⟨by decide, hverifies⟩]
    decide

end Tilibs.Nsp
