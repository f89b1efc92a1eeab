import Mathlib
import Tilibs.Prime.File

/-!
# Tilibs.Prime.FileRoundTrip

A file that is sent to an HP Prime and read back from the packet.  The receiver reads back
what the sender wrote, except for a packet that is its header only, and for a V2 packet whose
name and data begin like a zlib stream.
-/

namespace Tilibs.Prime

open Lib

/-! ## names -/

@[simp] theorem unitBytes_cons (u : UInt16) (us : List UInt16) :
    unitBytes (u :: us) = putLE 2 u.toNat ++ unitBytes us := List.flatMap_cons

theorem length_unitBytes (units : List UInt16) : (unitBytes units).length = 2 * units.length := by
  induction units with
  | nil => rfl
  | cons u us ih =>
      rw [unitBytes_cons, List.length_append, length_putLE, ih, List.length_cons]
      omega

theorem unitsOf_unitBytes (units : List UInt16) : unitsOf (unitBytes units) = units := by
  induction units with
  | nil => rfl
  | cons u us ih =>
      have hword : getLE (putLE 2 u.toNat) = u.toNat := getLE_putLE u.toNat_lt
      rw [unitBytes_cons]
      show UInt16.ofNat (getLE (putLE 2 u.toNat)) :: unitsOf (unitBytes us) = u :: us
      rw [hword, ih, UInt16.ofNat_toNat]

/-- A name comes back out of its field. -/
theorem PrimeName.ofField_unitBytes (name : PrimeName) : .ofField (unitBytes name.units) = name := by
  ext1
  show ((unitsOf (unitBytes name.units)).takeWhile (· ≠ 0)).take 128 = name.units
  have hwhole : name.units.takeWhile (· ≠ 0) = name.units := by
    rw [List.takeWhile_eq_self_iff]
    simpa using name.noNul
  rw [unitsOf_unitBytes, hwhole, List.take_of_length_le name.fits]

/-! ## the layout of a packet -/

theorem length_filePacket (format type : UInt8) (crc : UInt16) (name data : List UInt8) :
    (filePacket format type crc name data).length = 10 + name.length + data.length := by
  unfold filePacket
  simp only [List.length_append, List.length_cons, List.length_nil, length_putBE, length_putLE]

/-- The ten bytes before the name. -/
theorem filePacket_eq (format type : UInt8) (crc : UInt16) (name data : List UInt8) :
    ∃ s3 s2 s1 s0, filePacket format type crc name data
      = [cmdPrimeRecvFile, format, s3, s2, s1, s0, type, UInt8.ofNat name.length,
          UInt8.ofNat crc.toNat, UInt8.ofNat (crc.toNat / 256)] ++ (name ++ data)
      ∧ ∀ crc', filePacket format type crc' name data
      = [cmdPrimeRecvFile, format, s3, s2, s1, s0, type, UInt8.ofNat name.length,
          UInt8.ofNat crc'.toNat, UInt8.ofNat (crc'.toNat / 256)] ++ (name ++ data) := by
  obtain ⟨s3, s2, s1, s0, hsize⟩ : ∃ s3 s2 s1 s0,
      putBE 4 (4 + name.length + data.length) = [s3, s2, s1, s0] := ⟨_, _, _, _, rfl⟩
  refine ⟨s3, s2, s1, s0, ?_, fun crc' => ?_⟩
  · unfold filePacket
    rw [hsize, List.append_assoc]
    rfl
  · unfold filePacket
    rw [hsize, List.append_assoc]
    rfl

/-- The fields of a packet are read back. -/
theorem readFilePacket_filePacket (format type : UInt8) (crc : UInt16) {name data : List UInt8}
    (hname : name.length < 256) (heven : name.length % 2 = 0) (hbody : name ++ data ≠ []) :
    readFilePacket (filePacket format type crc name data) = .ok (some {
      name := .ofField name
      type := type
      invalid := decide ((crc16Block (crcRange format
        (filePacket format type 0 name data))).toNat ≠ crc.toNat)
      data := data }) := by
  have hlen := length_filePacket format type crc name data
  have hpos := List.length_pos_iff.mpr hbody
  rw [List.length_append] at hpos
  obtain ⟨s3, s2, s1, s0, hpacket, hall⟩ := filePacket_eq format type crc name data
  have hclear : clearCrc (filePacket format type crc name data) = filePacket format type 0 name data := by
    rw [hpacket, hall 0]
    rfl
  have hnamelen : (UInt8.ofNat name.length).toNat = name.length :=
    UInt8.toNat_ofNat_of_lt' hname
  have hcrc : getLE [UInt8.ofNat crc.toNat, UInt8.ofNat (crc.toNat / 256)] = crc.toNat := by
    show getLE (putLE 2 crc.toNat) = crc.toNat
    exact getLE_putLE crc.toNat_lt
  have h1 : (filePacket format type crc name data).getD 1 0 = format := by rw [hpacket]; rfl
  have h6 : (filePacket format type crc name data).getD 6 0 = type := by rw [hpacket]; rfl
  have h7 : (filePacket format type crc name data).getD 7 0 = UInt8.ofNat name.length := by
    rw [hpacket]; rfl
  have h8 : (filePacket format type crc name data).getD 8 0 = UInt8.ofNat crc.toNat := by
    rw [hpacket]; rfl
  have h9 : (filePacket format type crc name data).getD 9 0 = UInt8.ofNat (crc.toNat / 256) := by
    rw [hpacket]; rfl
  have hdrop : (filePacket format type crc name data).drop 10 = name ++ data := by rw [hpacket]; rfl
  have hdata : (filePacket format type crc name data).drop (10 + name.length) = data := by
    rw [← List.drop_drop, hdrop, List.drop_left]
  unfold readFilePacket
  dsimp only
  rw [h1, h6, h7, h8, h9, hdrop, hnamelen, hclear, hcrc, hlen, if_pos (by omega), if_neg (by omega),
    hdata, List.take_left]

/-! ## compressed packets -/

theorem looksCompressed_filePacket (format type : UInt8) (crc : UInt16) (name data : List UInt8) :
    looksCompressed (filePacket format type crc name data)
      = (format == 0x03 && zlibHeader (name ++ data)) := by
  obtain ⟨s3, s2, s1, s0, hpacket, -⟩ := filePacket_eq format type crc name data
  rw [hpacket]
  rfl

/-- The envelope of a file: its type, its name in a field, a checksum that is right and its
data. -/
def EnvelopeOf (file : PrimeFile) (envelope : List UInt8) : Prop :=
  ∃ field, field.length < 256 ∧ field.length % 2 = 0 ∧ PrimeName.ofField field = file.name
    ∧ field ++ file.data ≠ []
    ∧ rebuiltPacket envelope = filePacket 0x03 file.type
        (crc16Block (filePacket 0x03 file.type 0 field file.data)) field file.data

/-- A packet around an envelope is a file packet. -/
theorem rebuiltPacket_eq {envelope : List UInt8} {type n c0 c1 : UInt8} {rest : List UInt8}
    (henvelope : envelope = type :: n :: c0 :: c1 :: rest) (hn : n.toNat ≤ rest.length) :
    rebuiltPacket envelope = filePacket 0x03 type (UInt16.ofNat (getLE [c0, c1]))
      (rest.take n.toNat) (rest.drop n.toNat) := by
  have htake : (rest.take n.toNat).length = n.toNat := by
    rw [List.length_take]
    omega
  have hword : putLE 2 (UInt16.ofNat (getLE [c0, c1])).toNat = [c0, c1] := by
    have hread := putLE_getLE [c0, c1]
    have hlt := getLE_lt [c0, c1]
    rw [UInt16.toNat_ofNat_of_lt' (by simpa using hlt)]
    exact hread
  have hlen : envelope.length = 4 + (rest.take n.toNat).length + (rest.drop n.toNat).length := by
    rw [henvelope, htake, List.length_drop]
    simp only [List.length_cons]
    omega
  unfold rebuiltPacket filePacket
  rw [hword, htake, UInt8.ofNat_toNat, hlen, htake, henvelope]
  simp

/-- The checksum of a V2 packet is over all of it. -/
theorem crcRange_v2 (packet : List UInt8) : crcRange 0x03 packet = packet := rfl

/-- An inflated packet is read as a file that is not marked exactly when its envelope is
that of the file. -/
theorem readFilePacket_rebuiltPacket_iff {file : PrimeFile} (hvalid : file.invalid = false)
    (envelope : List UInt8) :
    readFilePacket (rebuiltPacket envelope) = .ok (some file) ↔ EnvelopeOf file envelope := by
  constructor
  · intro h
    have hlen : (rebuiltPacket envelope).length = envelope.length + 6 := by
      unfold rebuiltPacket
      simp only [List.length_append, List.length_cons, List.length_nil, length_putBE]
      omega
    by_cases hlong : (rebuiltPacket envelope).length ≥ 11
    · obtain ⟨type, n, c0, c1, rest, henvelope⟩ :
          ∃ type n c0 c1 rest, envelope = type :: n :: c0 :: c1 :: rest := by
        rcases envelope with _ | ⟨a, _ | ⟨b, _ | ⟨c, _ | ⟨d, rest⟩⟩⟩⟩
        case cons.cons.cons.cons => exact ⟨a, b, c, d, rest, rfl⟩
        all_goals
          simp only [List.length_cons, List.length_nil] at hlen
          omega
      have hrest : rest.length = envelope.length - 4 := by
        rw [henvelope]
        rfl
      have hfield : (rebuiltPacket envelope).getD 7 0 = n := by
        rw [henvelope]
        rfl
      by_cases hbad : n.toNat % 2 ≠ 0 ∨ n.toNat > (rebuiltPacket envelope).length - 10
      · unfold readFilePacket at h
        dsimp only at h
        rw [if_pos hlong, hfield, if_pos hbad] at h
        cases h
      · have hn : n.toNat ≤ rest.length := by omega
        have hpacket := rebuiltPacket_eq henvelope hn
        have htake : (rest.take n.toNat).length = n.toNat := by
          rw [List.length_take]
          omega
        have hbody : rest.take n.toNat ++ rest.drop n.toNat ≠ [] := by
          rw [List.take_append_drop]
          apply List.ne_nil_of_length_pos
          omega
        have hsmall := n.toNat_lt
        rw [hpacket, readFilePacket_filePacket _ _ _ (by omega) (by omega) hbody] at h
        have hfile := Option.some.inj (Except.ok.inj h)
        have hcrc : crc16Block (filePacket 0x03 type 0 (rest.take n.toNat) (rest.drop n.toNat))
            = UInt16.ofNat (getLE [c0, c1]) := by
          have hmark := congrArg PrimeFile.invalid hfile
          rw [hvalid, crcRange_v2] at hmark
          exact UInt16.toNat_inj.mp (of_not_not (of_decide_eq_false hmark))
        refine ⟨rest.take n.toNat, by omega, by omega, congrArg PrimeFile.name hfile, ?_, ?_⟩
        · rw [← hfile]
          exact hbody
        · rw [hpacket, ← hcrc, ← hfile]
    · unfold readFilePacket at h
      rw [if_neg hlong] at h
      split at h
      · cases h
      · cases h
  · rintro ⟨field, hfield, heven, hname, hbody, hpacket⟩
    rw [hpacket, readFilePacket_filePacket _ _ _ hfield heven hbody, hname, crcRange_v2]
    simp only [ne_eq, not_true_eq_false, decide_false, ← hvalid]

/-! ## the round trip -/

/-- What the receiver makes of a packet that looks compressed. -/
theorem calcPrimeRRecvFile_compressed_iff {inflate : Inflate} {packet : List UInt8}
    {file : PrimeFile} (hvalid : file.invalid = false) (hlooks : looksCompressed packet = true) :
    calcPrimeRRecvFile inflate packet = .ok (some file) ↔
      ∃ envelope, inflate (packet.drop 10) = some envelope
        ∧ inflatedSizeOk (expectedSize packet) envelope.length = true
        ∧ EnvelopeOf file envelope := by
  unfold calcPrimeRRecvFile inflateV2FileMessage
  rw [if_pos hlooks]
  cases inflate (packet.drop 10) with
  | none =>
      constructor
      · intro h
        cases h
      · rintro ⟨envelope, hnone, -⟩
        cases hnone
  | some envelope =>
      dsimp only
      by_cases hsize : inflatedSizeOk (expectedSize packet) envelope.length = true
      · rw [if_pos hsize]
        show readFilePacket (rebuiltPacket envelope) = .ok (some file) ↔ _
        rw [readFilePacket_rebuiltPacket_iff hvalid]
        constructor
        · intro henvelope
          exact ⟨envelope, rfl, hsize, henvelope⟩
        · rintro ⟨_, hsome, -, henvelope⟩
          cases hsome
          exact henvelope
      · rw [if_neg hsize]
        constructor
        · intro h
          cases h
        · rintro ⟨_, hsome, hok, -⟩
          cases hsome
          exact absurd hok hsize

/-- The file that a transfer should give: the data without its byte order mark, not marked. -/
def transferred (file : PrimeFile) : PrimeFile :=
  { file with invalid := false, data := withoutBom file }

/-- What the sender builds. -/
theorem calcPrimeSSendFile_eq_ok {version : PrimeProtocol} {file : PrimeFile} {packet : List UInt8}
    (hsend : calcPrimeSSendFile version file = .ok packet) :
    file.name.units.length ≤ 127 ∧
      packet = filePacket (fileFormat version) file.type
        (crc16Block (crcRange (fileFormat version)
          (filePacket (fileFormat version) file.type 0 (unitBytes file.name.units) (withoutBom file))))
        (unitBytes file.name.units) (withoutBom file) := by
  unfold calcPrimeSSendFile at hsend
  split at hsend
  · cases hsend
  · rename_i hname
    dsimp only at hsend
    split at hsend
    · cases hsend
    · exact ⟨by omega, (Except.ok.inj hsend).symm⟩

/-- A packet with nothing behind its header is too short. -/
theorem readFilePacket_short (format type : UInt8) (crc : UInt16) :
    readFilePacket (filePacket format type crc [] []) = .error .packetFormat := by
  obtain ⟨s3, s2, s1, s0, hpacket, -⟩ := filePacket_eq format type crc [] []
  rw [hpacket]
  rfl

/-- A packet that does not look compressed is read as it is. -/
theorem calcPrimeRRecvFile_plain {inflate : Inflate} {packet : List UInt8}
    (hplain : looksCompressed packet = false) :
    calcPrimeRRecvFile inflate packet = readFilePacket packet := by
  unfold calcPrimeRRecvFile inflateV2FileMessage
  rw [if_neg (by simp [hplain])]
  rfl

/-- A packet that the sender builds comes back as its file exactly when it has more than its
header and, in V2, what follows the header does not begin like a zlib stream, or the stream
there is one of an envelope of that same file. -/
theorem calcPrimeRRecvFile_calcPrimeSSendFile_iff (inflate : Inflate) (version : PrimeProtocol)
    (file : PrimeFile) (packet : List UInt8) (hsend : calcPrimeSSendFile version file = .ok packet) :
    calcPrimeRRecvFile inflate packet = .ok (some (transferred file)) ↔
      unitBytes file.name.units ++ withoutBom file ≠ []
      ∧ (version = .v2 → zlibHeader (unitBytes file.name.units ++ withoutBom file) = true →
          ∃ envelope, inflate (unitBytes file.name.units ++ withoutBom file) = some envelope
            ∧ inflatedSizeOk (expectedSize packet) envelope.length = true
            ∧ EnvelopeOf (transferred file) envelope) := by
  obtain ⟨hname, hpacket⟩ := calcPrimeSSendFile_eq_ok hsend
  have hlen := length_unitBytes file.name.units
  have hlooks := looksCompressed_filePacket (fileFormat version) file.type
    (crc16Block (crcRange (fileFormat version)
      (filePacket (fileFormat version) file.type 0 (unitBytes file.name.units) (withoutBom file))))
    (unitBytes file.name.units) (withoutBom file)
  rw [← hpacket] at hlooks
  have hdrop : packet.drop 10 = unitBytes file.name.units ++ withoutBom file := by
    obtain ⟨s3, s2, s1, s0, hbytes, -⟩ := filePacket_eq (fileFormat version) file.type
      (crc16Block (crcRange (fileFormat version)
        (filePacket (fileFormat version) file.type 0 (unitBytes file.name.units) (withoutBom file))))
      (unitBytes file.name.units) (withoutBom file)
    rw [hpacket, hbytes]
    rfl
  -- what the receiver makes of the packet when it reads it as it is
  have hread : readFilePacket packet = .ok (some (transferred file)) ↔
      unitBytes file.name.units ++ withoutBom file ≠ [] := by
    by_cases hbody : unitBytes file.name.units ++ withoutBom file = []
    · obtain ⟨hunits, hdata⟩ := List.append_eq_nil_iff.mp hbody
      rw [hpacket, hunits, hdata, readFilePacket_short]
      simp
    · rw [hpacket, readFilePacket_filePacket _ _ _ (by omega) (by omega) hbody,
        PrimeName.ofField_unitBytes]
      simp [transferred, hbody]
  by_cases hzlib : version = .v2 ∧ zlibHeader (unitBytes file.name.units ++ withoutBom file) = true
  · have hcompressed : looksCompressed packet = true := by
      rw [hlooks, hzlib.1, hzlib.2]
      rfl
    have hbody : unitBytes file.name.units ++ withoutBom file ≠ [] := by
      intro hnil
      have hheader := hzlib.2
      rw [hnil] at hheader
      cases hheader
    rw [calcPrimeRRecvFile_compressed_iff rfl hcompressed, hdrop]
    constructor
    · intro h
      exact ⟨hbody, fun _ _ => h⟩
    · rintro ⟨-, h⟩
      exact h hzlib.1 hzlib.2
  · have hplain : looksCompressed packet = false := by
      rw [hlooks]
      cases version with
      | legacy => rfl
      | v2 => simpa [fileFormat] using hzlib
    rw [calcPrimeRRecvFile_plain hplain, hread]
    constructor
    · intro h
      exact ⟨h, fun hv2 hheader => absurd ⟨hv2, hheader⟩ hzlib⟩
    · rintro ⟨h, -⟩
      exact h

/-- A program `A` of one byte. -/
def sampleFile : PrimeFile := ⟨⟨[0x41], by simp, by simp⟩, 0x06, false, [0x2A]⟩

/-- A V2 transfer of a file. -/
theorem calcPrimeRRecvFile_calcPrimeSSendFile_sample :
    ∃ packet, calcPrimeSSendFile .v2 sampleFile = .ok packet
      ∧ calcPrimeRRecvFile (fun _ => none) packet = .ok (some (transferred sampleFile)) := by
  have hsend : calcPrimeSSendFile .v2 sampleFile = .ok
      [0xF7, 0x03, 0x00, 0x00, 0x00, 0x07, 0x06, 0x02, 0xF3, 0x59, 0x41, 0x00, 0x2A] := by
    decide +kernel
  exact ⟨_, hsend, (calcPrimeRRecvFile_calcPrimeSSendFile_iff (fun _ => none) .v2 sampleFile _
    hsend).mpr ⟨by decide, fun _ h => absurd h (by decide)⟩⟩

/-- The same file under the name `ø`, which begins like a zlib stream with a window too
large. -/
def oslashFile : PrimeFile := ⟨⟨[0xF8], by simp, by simp⟩, 0x06, false, [0x2A]⟩

/-- Not every file comes back: one named `ø` is taken for a compressed one. -/
theorem not_all_transferred :
    ¬ ∀ (inflate : Inflate) (version : PrimeProtocol) (file : PrimeFile) (packet : List UInt8),
      calcPrimeSSendFile version file = .ok packet →
        calcPrimeRRecvFile inflate packet = .ok (some (transferred file)) := by
  intro hall
  have hrecv := hall (fun _ => none) .v2 oslashFile _
    (show calcPrimeSSendFile .v2 oslashFile = .ok
      [0xF7, 0x03, 0x00, 0x00, 0x00, 0x07, 0x06, 0x02, 0x9D, 0x39, 0xF8, 0x00, 0x2A] by
      decide +kernel)
  revert hrecv
  decide

end Tilibs.Prime
