import Tilibs.Lib.Bytes
import Tilibs.Lib.Proc

/-!
# Tilibs.Nsp.Packet

Raw packets of the NavNet protocol (`nsp_rpkt.cc`, `nsp_vpkt.cc`): a header of
16 bytes and the data.

On a byte stream the data has at most 254 bytes.  Inside an NNSE message it may
be longer; the size byte is then `0xFF` and the size follows the header in four
bytes.
-/

namespace Tilibs.Nsp

open Tilibs.Lib

/-! ## Constants -/

def nspHeaderSize : Nat := 16
def nspDataSize : Nat := 254
def nspNnseDataSize : Nat := 1440

def nspSrcAddr : UInt16 := 0x6400
def nspDevAddr : UInt16 := 0x6401

def nspPortPktNack : UInt16 := 0x00D3
def nspPortPktAck1 : UInt16 := 0x00FE
def nspPortPktAck2 : UInt16 := 0x00FF
def nspPortAddrRequest : UInt16 := 0x4003
def nspPortAddrAssign : UInt16 := 0x4003
def nspPortKeypresses : UInt16 := 0x4042
def nspPortLogin : UInt16 := 0x4050
def nspPortDisconnect : UInt16 := 0x40DE

def nspCmdOsOk : UInt8 := 0x04
def nspCmdStatus : UInt8 := 0xFF

inductive NspErr
  | readTimeout
  | writeError
  | invalidParameter
  | invalidPacket
  | checksum
  | busy
  | nack
  | malloc
  | calcError3 (index : Nat)
  | undefinedBehaviour
  deriving DecidableEq, Repr

/-! ## Words -/

def putWord (x : UInt16) : List UInt8 := putBE 2 x.toNat

def getWord (bytes : List UInt8) (offset : Nat) : UInt16 :=
  UInt16.ofNat (getBE ((bytes.drop offset).take 2))

@[simp] theorem length_putWord (x : UInt16) : (putWord x).length = 2 := length_putBE 2 x.toNat

theorem putWord_eq (x : UInt16) :
    putWord x = [UInt8.ofNat (x.toNat / 256), x.toUInt8] := by
  simp [putWord, putBE, putLE]

/-- The two bytes of a word make the word. -/
theorem getBE_word (x : UInt16) :
    UInt16.ofNat (getBE [UInt8.ofNat (x.toNat / 256), x.toUInt8]) = x := by
  rw [← putWord_eq, putWord, getBE_putBE x.toNat_lt, UInt16.ofNat_toNat]

/-! ## Checksums -/

/-- The CRC of the data of a packet. -/
def nspComputeCrc (data : List UInt8) : UInt16 :=
  data.foldl
    (fun (acc : UInt16) (b : UInt8) =>
      let first := (b.toUInt16 <<< 8) ||| (acc >>> 8)
      let acc := acc &&& 0xFF
      let second := (((acc &&& 0x0F) <<< 4) ^^^ acc) <<< 8
      let third := second >>> 5
      (third >>> 7) ^^^ first ^^^ second ^^^ third)
    0

def nspHeaderChecksum (header : List UInt8) : UInt8 :=
  UInt8.ofNat (byteSum (header.take (nspHeaderSize - 1)))

/-! ## Headers -/

def nspPackHeader (srcAddr srcPort dstAddr dstPort dataSum : UInt16)
    (dataSize ack seq : UInt8) : List UInt8 :=
  let header := 0x54 :: 0xFD :: (putWord srcAddr ++ putWord srcPort ++ putWord dstAddr ++
    putWord dstPort ++ putWord dataSum) ++ [dataSize, ack, seq]
  header ++ [nspHeaderChecksum header]

@[simp] theorem length_nspPackHeader (srcAddr srcPort dstAddr dstPort dataSum : UInt16)
    (dataSize ack seq : UInt8) :
    (nspPackHeader srcAddr srcPort dstAddr dstPort dataSum dataSize ack seq).length =
      nspHeaderSize := by
  simp [nspPackHeader, nspHeaderSize]

/-! ## Raw packets -/

/-- A raw packet; the length of `data` is its size field. -/
structure NSPRawPacket where
  unused : UInt16
  srcAddr : UInt16
  srcPort : UInt16
  dstAddr : UInt16
  dstPort : UInt16
  dataSum : UInt16
  ack : UInt8
  seq : UInt8
  hdrSum : UInt8
  data : List UInt8
  fits : data.length ≤ nspDataSize
  deriving DecidableEq

def NSPRawPacket.header (pkt : NSPRawPacket) : List UInt8 :=
  putWord pkt.unused ++ putWord pkt.srcAddr ++ putWord pkt.srcPort ++ putWord pkt.dstAddr ++
    putWord pkt.dstPort ++ putWord pkt.dataSum ++
    [UInt8.ofNat pkt.data.length, pkt.ack, pkt.seq, pkt.hdrSum]

def NSPRawPacket.bytes (pkt : NSPRawPacket) : List UInt8 := pkt.header ++ pkt.data

/-- The header fields of a received packet, with the data that came with it. -/
def nspReadPacket (header data : List UInt8) (fits : data.length ≤ nspDataSize) : NSPRawPacket :=
  { unused := getWord header 0
    srcAddr := getWord header 2
    srcPort := getWord header 4
    dstAddr := getWord header 6
    dstPort := getWord header 8
    dataSum := getWord header 10
    ack := header.getD 13 0
    seq := header.getD 14 0
    hdrSum := header.getD 15 0
    data
    fits }

section Read

variable (pkt : NSPRawPacket) (rest : List UInt8)

@[simp] theorem length_header : pkt.header.length = nspHeaderSize := by
  simp [NSPRawPacket.header, nspHeaderSize]

@[simp] theorem length_bytes : pkt.bytes.length = nspHeaderSize + pkt.data.length := by
  simp [NSPRawPacket.bytes]

/-- The size byte is not the mark of a longer packet. -/
theorem getD_header_12 : (pkt.header ++ rest).getD 12 0 = UInt8.ofNat pkt.data.length := by
  simp [NSPRawPacket.header, putWord, putBE, putLE]

theorem toNat_dataSize : (UInt8.ofNat pkt.data.length).toNat = pkt.data.length := by
  have hfits := pkt.fits
  simp only [nspDataSize] at hfits
  simp only [UInt8.toNat_ofNat']
  omega

/-- A packet is read back from its bytes, whatever follows them. -/
theorem nspReadPacket_header : nspReadPacket (pkt.header ++ rest) pkt.data pkt.fits = pkt := by
  simp [nspReadPacket, NSPRawPacket.header, putWord_eq, getWord, getBE_word]

end Read

/-! ## Packets in NNSE messages -/

/-- A packet found in a message; `data` is the part of the message it points
to, and `rawSize` the number of bytes the packet takes. -/
structure NSPParsedRawPacket where
  srcAddr : UInt16
  srcPort : UInt16
  dstAddr : UInt16
  dstPort : UInt16
  dataSum : UInt16
  ack : UInt8
  seq : UInt8
  hdrSum : UInt8
  data : List UInt8
  rawSize : Nat
  deriving DecidableEq

def nspParseRawPacket (msg : List UInt8) : Except NspErr NSPParsedRawPacket :=
  let dataSize := msg.getD 12 0
  let extended := dataSize = 0xFF
  let logicalDataSize := if extended then getBE ((msg.drop 16).take 4) else dataSize.toNat
  let wireDataSize := if extended then logicalDataSize + 4 else logicalDataSize
  if msg.length < nspHeaderSize then .error .invalidPacket
  else if msg.getD 0 0 ≠ 0x54 ∨ msg.getD 1 0 ≠ 0xFD ∨ msg.getD 15 0 ≠ nspHeaderChecksum msg then
    .error .invalidPacket
  else if extended ∧ msg.length < nspHeaderSize + 4 then .error .invalidPacket
  else if logicalDataSize < 1 ∨ nspNnseDataSize < logicalDataSize then .error .invalidPacket
  else if msg.length < nspHeaderSize + wireDataSize then .error .invalidPacket
  else if getWord msg 10 ≠ nspComputeCrc ((msg.drop nspHeaderSize).take wireDataSize) then
    .error .checksum
  else
    .ok
      { srcAddr := getWord msg 2
        srcPort := getWord msg 4
        dstAddr := getWord msg 6
        dstPort := getWord msg 8
        dataSum := getWord msg 10
        ack := msg.getD 13 0
        seq := msg.getD 14 0
        hdrSum := msg.getD 15 0
        data := (msg.drop (if extended then nspHeaderSize + 4 else nspHeaderSize)).take
          logicalDataSize
        rawSize := nspHeaderSize + wireDataSize }

/-- The loop of `nsp_find_raw_packet_boundary`, from the offset on where `msg`
is what is left. -/
def nspFindRawPacketBoundaryFrom (sawChecksumCandidate : Bool) :
    Nat → List UInt8 → Except NspErr (NSPParsedRawPacket × Nat)
  | _, [] => .error (if sawChecksumCandidate then .checksum else .invalidPacket)
  | offset, b :: msg =>
      if (b :: msg).length < nspHeaderSize then
        .error (if sawChecksumCandidate then .checksum else .invalidPacket)
      else if b ≠ 0x54 ∨ msg.getD 0 0 ≠ 0xFD then
        nspFindRawPacketBoundaryFrom sawChecksumCandidate (offset + 1) msg
      else
        match nspParseRawPacket (b :: msg) with
        | .ok pkt => .ok (pkt, offset)
        | .error e =>
            nspFindRawPacketBoundaryFrom (sawChecksumCandidate || e = .checksum) (offset + 1) msg

/-- The first packet in a message, and where it starts. -/
def nspFindRawPacketBoundary (msg : List UInt8) : Except NspErr (NSPParsedRawPacket × Nat) :=
  nspFindRawPacketBoundaryFrom false 0 msg

/-- The message `nsp_nnse_send_raw_data` builds around some data. -/
def nspNnseRawData (srcAddr srcPort dstAddr dstPort : UInt16) (ack seq : UInt8)
    (data : List UInt8) : Except NspErr (List UInt8) :=
  let extended := 0xFF ≤ data.length
  let wireData := if extended then putBE 4 data.length ++ data else data
  if data.length < 1 ∨ nspNnseDataSize < data.length then .error .invalidParameter
  else
    .ok (nspPackHeader srcAddr srcPort dstAddr dstPort (nspComputeCrc wireData)
      (if extended then 0xFF else UInt8.ofNat data.length) ack seq ++ wireData)

section Parse

variable (srcAddr srcPort dstAddr dstPort dataSum : UInt16) (dataSize ack seq : UInt8)
  (wire : List UInt8)

theorem drop_nspPackHeader (n : Nat) :
    (nspPackHeader srcAddr srcPort dstAddr dstPort dataSum dataSize ack seq ++ wire).drop
      (nspHeaderSize + n) = wire.drop n := by
  rw [← List.drop_drop, List.drop_left' (length_nspPackHeader ..)]

/-- The checksum byte is that of the header. -/
theorem nspHeaderChecksum_nspPackHeader :
    nspHeaderChecksum (nspPackHeader srcAddr srcPort dstAddr dstPort dataSum dataSize ack seq ++
        wire) =
      (nspPackHeader srcAddr srcPort dstAddr dstPort dataSum dataSize ack seq ++ wire).getD 15 0 := by
  simp [nspPackHeader, nspHeaderChecksum, putWord_eq, nspHeaderSize]

/-- The fields of a header, where the parser reads them. -/
theorem fields_nspPackHeader {msg : List UInt8}
    (h : msg = nspPackHeader srcAddr srcPort dstAddr dstPort dataSum dataSize ack seq ++ wire) :
    msg.getD 0 0 = 0x54 ∧ msg.getD 1 0 = 0xFD ∧ getWord msg 2 = srcAddr ∧
      getWord msg 4 = srcPort ∧ getWord msg 6 = dstAddr ∧ getWord msg 8 = dstPort ∧
      getWord msg 10 = dataSum ∧ msg.getD 12 0 = dataSize ∧ msg.getD 13 0 = ack ∧
      msg.getD 14 0 = seq := by
  subst h
  simp [nspPackHeader, putWord_eq, getWord, getBE_word]

/-- The data of a packet as it stands behind the header, with the size byte
that announces it. -/
inductive WireData (data : List UInt8) : UInt8 → List UInt8 → Prop
  | short (h : data.length < 0xFF) : WireData data (UInt8.ofNat data.length) data
  | extended (h : 0xFF ≤ data.length) : WireData data 0xFF (putBE 4 data.length ++ data)

theorem nspParseRawPacket_nspPackHeader {data : List UInt8} (hwire : WireData data dataSize wire)
    (hsum : dataSum = nspComputeCrc wire) (hpos : 1 ≤ data.length)
    (hmax : data.length ≤ nspNnseDataSize) :
    ∃ hdrSum, nspParseRawPacket
        (nspPackHeader srcAddr srcPort dstAddr dstPort dataSum dataSize ack seq ++ wire) =
      .ok ⟨srcAddr, srcPort, dstAddr, dstPort, dataSum, ack, seq, hdrSum, data,
        nspHeaderSize + wire.length⟩ := by
  have hchecksum := nspHeaderChecksum_nspPackHeader srcAddr srcPort dstAddr dstPort dataSum
    dataSize ack seq wire
  have hdrop := drop_nspPackHeader srcAddr srcPort dstAddr dstPort dataSum dataSize ack seq wire
  have hlength : (nspPackHeader srcAddr srcPort dstAddr dstPort dataSum dataSize ack seq ++
      wire).length = nspHeaderSize + wire.length := by
    rw [List.length_append, length_nspPackHeader]
  generalize hmsg : nspPackHeader srcAddr srcPort dstAddr dstPort dataSum dataSize ack seq ++ wire =
    msg at *
  obtain ⟨h0, h1, hsrcAddr, hsrcPort, hdstAddr, hdstPort, hdataSum, hsize, hack, hseq⟩ :=
    fields_nspPackHeader srcAddr srcPort dstAddr dstPort dataSum dataSize ack seq wire hmsg.symm
  have hdrop0 := hdrop 0
  have hdrop4 := hdrop 4
  rw [Nat.add_zero, List.drop_zero] at hdrop0
  have hmagic : ¬ (msg.getD 0 0 ≠ 0x54 ∨ msg.getD 1 0 ≠ 0xFD ∨
      msg.getD 15 0 ≠ nspHeaderChecksum msg) := by
    rw [h0, h1, hchecksum]
    simp
  refine ⟨msg.getD 15 0, ?_⟩
  cases hwire with
  | short hshort =>
      have hbyte : (UInt8.ofNat wire.length).toNat = wire.length := by
        simp only [UInt8.toNat_ofNat']
        omega
      have hne : UInt8.ofNat wire.length ≠ 0xFF := by
        intro h
        rw [h] at hbyte
        simp at hbyte
        omega
      simp only [nspParseRawPacket, hsize, hne, if_false, false_and, hbyte, hdrop0,
        List.take_length, hdataSum, hsrcAddr, hsrcPort, hdstAddr, hdstPort, hack, hseq]
      rw [if_neg (by omega), if_neg hmagic, if_neg (by omega), if_neg (by omega),
        if_neg (not_not.mpr hsum)]
  | extended hlong =>
      have hget : getBE ((msg.drop nspHeaderSize).take 4) = data.length := by
        rw [hdrop0, List.take_left' (length_putBE 4 _), getBE_putBE]
        simp only [nspNnseDataSize] at hmax
        omega
      have htake : (putBE 4 data.length ++ data).take (data.length + 4) =
          putBE 4 data.length ++ data :=
        List.take_of_length_le (by rw [List.length_append, length_putBE]; omega)
      have hdata : (msg.drop (nspHeaderSize + 4)).take data.length = data := by
        rw [hdrop4, List.drop_left' (length_putBE 4 _), List.take_length]
      rw [List.length_append, length_putBE] at hlength
      simp only [nspHeaderSize] at hget hdata hlength hdrop0
      simp only [nspParseRawPacket, hsize, if_true, true_and, nspHeaderSize, hget, hdata,
        hdataSum, hsrcAddr, hsrcPort, hdstAddr, hdstPort, hack, hseq]
      rw [if_neg (by omega), if_neg hmagic, if_neg (by omega), if_neg (by omega),
        if_neg (by omega), hdrop0, htake, if_neg (not_not.mpr hsum), List.length_append,
        length_putBE, Nat.add_comm 4]

end Parse

/-- A packet built for a message is found at its start, and takes all of it. -/
theorem nspFindRawPacketBoundary_nspNnseRawData {srcAddr srcPort dstAddr dstPort : UInt16}
    {ack seq : UInt8} {data msg : List UInt8}
    (h : nspNnseRawData srcAddr srcPort dstAddr dstPort ack seq data = .ok msg) :
    ∃ dataSum hdrSum, nspFindRawPacketBoundary msg =
      .ok (⟨srcAddr, srcPort, dstAddr, dstPort, dataSum, ack, seq, hdrSum, data, msg.length⟩, 0) := by
  simp only [nspNnseRawData] at h
  by_cases hsize : data.length < 1 ∨ nspNnseDataSize < data.length
  · rw [if_pos hsize] at h
    cases h
  · rw [if_neg hsize] at h
    obtain ⟨hpos, hmax⟩ := not_or.mp hsize
    cases h
    generalize hwire : (if 0xFF ≤ data.length then putBE 4 data.length ++ data else data) = wire
    generalize hbyte : (if 0xFF ≤ data.length then (0xFF : UInt8) else UInt8.ofNat data.length) =
      dataSize
    have hdata : WireData data dataSize wire := by
      subst hwire hbyte
      split
      · next hlong => exact .extended hlong
      · next hshort => exact .short (by omega)
    obtain ⟨hdrSum, hparse⟩ := nspParseRawPacket_nspPackHeader srcAddr srcPort dstAddr dstPort
      (nspComputeCrc wire) dataSize ack seq wire hdata rfl (by omega) (by omega)
    refine ⟨nspComputeCrc wire, hdrSum, ?_⟩
    have hlength : (nspPackHeader srcAddr srcPort dstAddr dstPort (nspComputeCrc wire) dataSize ack
        seq ++ wire).length = nspHeaderSize + wire.length := by
      rw [List.length_append, length_nspPackHeader]
    obtain ⟨tail, htail⟩ : ∃ tail, nspPackHeader srcAddr srcPort dstAddr dstPort
        (nspComputeCrc wire) dataSize ack seq ++ wire = 0x54 :: 0xFD :: tail := ⟨_, rfl⟩
    rw [hlength]
    rw [htail] at hparse hlength ⊢
    have hlong : ¬ (0x54 :: 0xFD :: tail).length < nspHeaderSize := by omega
    rw [nspFindRawPacketBoundary, nspFindRawPacketBoundaryFrom, if_neg hlong, if_neg (by simp),
      hparse]

/-! ## A packet built and parsed -/

/-- The checksums of a parsed packet are those of the message. -/
theorem sums_of_nspParseRawPacket {msg : List UInt8} {pkt : NSPParsedRawPacket}
    (h : nspParseRawPacket msg = .ok pkt) :
    pkt.hdrSum = nspHeaderChecksum msg
      ∧ pkt.dataSum = nspComputeCrc ((msg.drop nspHeaderSize).take (pkt.rawSize - nspHeaderSize)) := by
  unfold nspParseRawPacket at h
  extract_lets dataSize extended logicalDataSize wireDataSize at h
  by_cases hheader : msg.length < nspHeaderSize
  · rw [if_pos hheader] at h
    cases h
  rw [if_neg hheader] at h
  by_cases hmagic : msg.getD 0 0 ≠ 0x54 ∨ msg.getD 1 0 ≠ 0xFD ∨ msg.getD 15 0 ≠ nspHeaderChecksum msg
  · rw [if_pos hmagic] at h
    cases h
  rw [if_neg hmagic] at h
  rw [not_or, not_or, not_not, not_not, not_not] at hmagic
  split at h
  · cases h
  split at h
  · cases h
  split at h
  · cases h
  by_cases hsum : getWord msg 10 ≠ nspComputeCrc ((msg.drop nspHeaderSize).take wireDataSize)
  · rw [if_pos hsum] at h
    cases h
  rw [if_neg hsum] at h
  cases h
  refine ⟨hmagic.2.2, ?_⟩
  dsimp only
  rw [Nat.add_sub_cancel_left]
  exact not_not.mp hsum

/-- The wire form of some data: with its size in front from 255 bytes on. -/
def wireForm (data : List UInt8) : UInt8 × List UInt8 :=
  if 0xFF ≤ data.length then (0xFF, putBE 4 data.length ++ data)
  else (UInt8.ofNat data.length, data)

theorem wireData_wireForm (data : List UInt8) :
    WireData data (wireForm data).1 (wireForm data).2 := by
  unfold wireForm
  split
  · rename_i hlong
    exact .extended hlong
  · rename_i hshort
    exact .short (Nat.lt_of_not_le hshort)

/-- **Round trip of a raw packet.**  The sender takes 1 to 1440 bytes of data.
What it builds is parsed into the same fields and the same data, with the
checksums of the header and of what follows it, and has the size byte and the
length of the form the data has on the wire. -/
theorem nspParseRawPacket_nspNnseRawData (srcAddr srcPort dstAddr dstPort : UInt16)
    (ack seq : UInt8) (data : List UInt8) :
    (1 ≤ data.length ∧ data.length ≤ nspNnseDataSize →
        ∃ msg pkt, nspNnseRawData srcAddr srcPort dstAddr dstPort ack seq data = .ok msg
          ∧ nspParseRawPacket msg = .ok pkt
          ∧ (pkt.srcAddr = srcAddr ∧ pkt.srcPort = srcPort ∧ pkt.dstAddr = dstAddr
            ∧ pkt.dstPort = dstPort ∧ pkt.ack = ack ∧ pkt.seq = seq ∧ pkt.data = data)
          ∧ pkt.rawSize = msg.length
          ∧ msg.getD 12 0 = (wireForm data).1 ∧ msg.drop nspHeaderSize = (wireForm data).2
          ∧ pkt.dataSum = nspComputeCrc (wireForm data).2 ∧ pkt.hdrSum = nspHeaderChecksum msg)
      ∧ (¬(1 ≤ data.length ∧ data.length ≤ nspNnseDataSize) →
        nspNnseRawData srcAddr srcPort dstAddr dstPort ack seq data = .error .invalidParameter) := by
  constructor
  · rintro ⟨hpos, hmax⟩
    have hbuild : nspNnseRawData srcAddr srcPort dstAddr dstPort ack seq data
        = .ok (nspPackHeader srcAddr srcPort dstAddr dstPort (nspComputeCrc (wireForm data).2)
          (wireForm data).1 ack seq ++ (wireForm data).2) := by
      unfold nspNnseRawData wireForm
      dsimp only
      rw [if_neg (by omega)]
      split <;> rfl
    obtain ⟨hdrSum, hparse⟩ := nspParseRawPacket_nspPackHeader srcAddr srcPort dstAddr dstPort _
      (wireForm data).1 ack seq _ (wireData_wireForm data) rfl hpos hmax
    have hsums := sums_of_nspParseRawPacket hparse
    have hfields := fields_nspPackHeader srcAddr srcPort dstAddr dstPort
      (nspComputeCrc (wireForm data).2) (wireForm data).1 ack seq (wireForm data).2 rfl
    refine ⟨_, _, hbuild, hparse, ⟨rfl, rfl, rfl, rfl, rfl, rfl, rfl⟩, ?_, ?_, ?_, rfl, hsums.1⟩
    · rw [List.length_append, length_nspPackHeader]
    · exact hfields.2.2.2.2.2.2.2.1
    · exact List.drop_left' (length_nspPackHeader ..)
  · intro hsize
    unfold nspNnseRawData
    dsimp only
    rw [if_pos (by omega)]

/-- Without data there is nothing to send, and a header that announces none is
not parsed. -/
theorem nspNnseRawData_nil :
    nspNnseRawData 0x6400 0x8001 0x6401 0x4060 0 1 [] = .error .invalidParameter
      ∧ nspParseRawPacket (nspPackHeader 0x6400 0x8001 0x6401 0x4060 (nspComputeCrc []) 0 0 1)
        = .error .invalidPacket := by
  constructor
  · rfl
  · decide

end Tilibs.Nsp
