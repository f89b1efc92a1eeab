import Mathlib
import Tilibs.Files.IntelHex

/-!
# Tilibs.Files.IntelHexBlock

A packet is read as it was written.  A block stays within the page buffer exactly where the data
packets of the text fill it to the byte: the loop asks whether the buffer is full before it reads
a packet, and not whether the packet fits.
-/

namespace Tilibs.Files

open Lib

/-! ## bytes -/

theorem hexDigit_facts : ∀ n < 16, hexVal (hexDigit n) = some n ∧ isspace (hexDigit n) = false
    ∧ hexDigit n ≠ 0x2B ∧ hexDigit n ≠ 0x2D ∧ hexDigit n ≠ 0x78 ∧ hexDigit n ≠ 0x58 := by
  decide

/-- Two digits are read as their byte, whatever follows them. -/
theorem scanHex_writeByte (b : UInt8) (tail : List UInt8) :
    scanHex (writeByte b ++ tail) = (b.toNat, 2) := by
  have hb := b.toNat_lt
  obtain ⟨hhigh, -, hplus, hminus, -, -⟩ := hexDigit_facts (b.toNat / 16) (by omega)
  obtain ⟨hlow, -, -, -, hx, hX⟩ := hexDigit_facts (b.toNat % 16) (by omega)
  have hvalue : 16 * (b.toNat / 16) + b.toNat % 16 = b.toNat := Nat.div_add_mod _ _
  show scanHex (hexDigit (b.toNat / 16) :: hexDigit (b.toNat % 16) :: tail) = _
  simp [scanHex, hhigh, hlow, hplus, hminus, hx, hX, hvalue]

theorem readByte_writeByte {f : InFile} {b : UInt8} {tail : List UInt8}
    (h : f.rest = writeByte b ++ tail) : readByte f = (b, f.advance 2) := by
  have hb := b.toNat_lt
  obtain ⟨-, hspace, -⟩ := hexDigit_facts (b.toNat / 16) (by omega)
  have hspaces : f.rest.takeWhile isspace = [] := by
    rw [h]
    show List.takeWhile isspace (hexDigit (b.toNat / 16) :: _) = []
    simp [hspace]
  unfold readByte
  rw [hspaces]
  simp only [List.length_nil, List.drop_zero]
  rw [h, scanHex_writeByte, UInt8.ofNat_toNat]
  rfl

theorem length_flatMap_writeByte (bs : List UInt8) :
    (bs.flatMap writeByte).length = 2 * bs.length := by
  induction bs with
  | nil => rfl
  | cons b bs ih =>
      rw [List.flatMap_cons, List.length_append, ih, List.length_cons]
      show 2 + _ = _
      omega

theorem readBytes_written {f : InFile} {bs tail : List UInt8}
    (h : f.rest = bs.flatMap writeByte ++ tail) :
    readBytes bs.length f = (bs, f.advance (2 * bs.length)) := by
  induction bs generalizing f with
  | nil => rfl
  | cons b bs ih =>
      rw [List.flatMap_cons, List.append_assoc] at h
      have hnext := ih (InFile.rest_advance_append h rfl)
      rw [List.length_cons, readBytes, readByte_writeByte h]
      dsimp only
      rw [show (writeByte b).length = 2 from rfl] at hnext
      rw [hnext, InFile.advance_advance, show 2 + 2 * bs.length = 2 * (bs.length + 1) by omega]

/-! ## packets -/

/-- The end of a packet's line. -/
def packetTail (type : UInt8) : List UInt8 := if type = hexEof then [] else [0x0D, 0x0A]

/-- The type that stands in the packet. -/
def packetType (type : UInt8) : UInt8 := if type = hexEof then hexEnd else type

/-- The byte that makes the sum of a packet 0. -/
def packetChecksum (addr : UInt16) (type : UInt8) (data : List UInt8) : UInt8 :=
  UInt8.ofNat (256 - packetSum addr type data % 256)

theorem hexPacketWrite_eq (addr : UInt16) (type : UInt8) (data : List UInt8) :
    hexPacketWrite addr type data = 0x3A :: ([UInt8.ofNat data.length,
        UInt8.ofNat (addr.toNat / 256), UInt8.ofNat addr.toNat, packetType type].flatMap writeByte
      ++ (data.flatMap writeByte
        ++ (writeByte (packetChecksum addr (packetType type) data) ++ packetTail type))) := by
  simp [hexPacketWrite, packetChecksum, packetType, packetTail]

theorem length_hexPacketWrite (addr : UInt16) (type : UInt8) (data : List UInt8) :
    (hexPacketWrite addr type data).length
      = 11 + 2 * data.length + (packetTail type).length := by
  rw [hexPacketWrite_eq, List.length_cons, List.length_append, List.length_append,
    List.length_append, length_flatMap_writeByte, length_flatMap_writeByte]
  show 8 + (2 * data.length + (2 + (packetTail type).length)) + 1 = _
  omega

/-- The two bytes of an address. -/
theorem addr_bytes (addr : UInt16) : UInt16.ofNat (256 * (UInt8.ofNat (addr.toNat / 256)).toNat
    + (UInt8.ofNat addr.toNat).toNat) = addr := by
  have ha := addr.toNat_lt
  have hvalue : 256 * (addr.toNat / 256 % 256) + addr.toNat % 256 = addr.toNat := by omega
  rw [UInt8.toNat_ofNat', UInt8.toNat_ofNat', hvalue, UInt16.ofNat_toNat]

theorem packetChecksum_sum (addr : UInt16) (type : UInt8) (data : List UInt8) :
    (packetSum addr type data + (packetChecksum addr type data).toNat) % 256 = 0 := by
  unfold packetChecksum
  rw [UInt8.toNat_ofNat']
  omega

/-- What a packet becomes by what follows it. -/
theorem hexPacketRead_written {f : InFile} {addr : UInt16} {type : UInt8}
    {data tail : List UInt8} (hdata : data.length ≤ pktMax)
    (h : f.rest = hexPacketWrite addr type data ++ tail) {ended : Bool} {n : Nat}
    (hend : ∀ g : InFile, g.rest = packetTail type ++ tail → packetEnd g = (ended, g.advance n)) :
    hexPacketRead f = (.ok ⟨addr, if ended then hexEof else packetType type, data⟩,
      f.advance (11 + 2 * data.length + n)) := by
  have hsize : (UInt8.ofNat data.length).toNat = data.length :=
    UInt8.toNat_ofNat_of_lt' (Nat.lt_of_le_of_lt hdata (by decide))
  rw [hexPacketWrite_eq, List.cons_append, ← List.singleton_append] at h
  simp only [List.append_assoc] at h
  have h1 : (f.advance 1).rest = _ := InFile.rest_advance_append h rfl
  have h2 : ((f.advance 1).advance 8).rest = _ :=
    InFile.rest_advance_append h1 (length_flatMap_writeByte _)
  have h3 : (((f.advance 1).advance 8).advance (2 * data.length)).rest = _ :=
    InFile.rest_advance_append h2 (length_flatMap_writeByte _)
  have h4 : ((((f.advance 1).advance 8).advance (2 * data.length)).advance 2).rest = _ :=
    InFile.rest_advance_append h3 rfl
  have hfields := readBytes_written h1
  have hhead : readPacketHead (f.advance 1)
      = ((UInt8.ofNat data.length, addr, packetType type), (f.advance 1).advance 8) := by
    unfold readPacketHead
    rw [show (4 : Nat) = [UInt8.ofNat data.length, UInt8.ofNat (addr.toNat / 256),
      UInt8.ofNat addr.toNat, packetType type].length from rfl, hfields]
    simp only [List.getD_cons_zero, List.getD_cons_succ, addr_bytes]
    rfl
  have hbody : readPacketBody (UInt8.ofNat data.length) addr (packetType type)
      ((f.advance 1).advance 8) = (.ok ⟨addr, if ended then hexEof else packetType type, data⟩,
        f.advance (11 + 2 * data.length + n)) := by
    have hpos : ((((f.advance 1).advance 8).advance (2 * data.length)).advance 2).advance n
        = f.advance (11 + 2 * data.length + n) := by
      simp only [InFile.advance_advance]
      congr 1
      omega
    unfold readPacketBody
    rw [hsize, readBytes_written h2]
    dsimp only
    rw [readByte_writeByte h3]
    dsimp only
    rw [packetChecksum_sum, if_neg (fun h => h rfl), hend _ h4, hpos]
  have hfit : ¬(UInt8.ofNat data.length).toNat > pktMax := by
    rw [hsize]
    exact Nat.not_lt.mpr hdata
  have hfirst : f.rest.head? = some 0x3A := by
    rw [h]
    rfl
  unfold hexPacketRead
  rw [hfirst]
  dsimp only
  rw [hhead]
  dsimp only
  rw [if_neg hfit, hbody]
  rfl

/-- A packet with another one behind it is read as it was written. -/
theorem hexPacketRead_packet {f : InFile} {addr : UInt16} {type : UInt8}
    {data tail : List UInt8} (htype : type ≠ hexEof) (hdata : data.length ≤ pktMax)
    (htail : tail ≠ []) (h : f.rest = hexPacketWrite addr type data ++ tail) :
    hexPacketRead f
      = (.ok ⟨addr, type, data⟩, f.advance (hexPacketWrite addr type data).length) := by
  have hend : ∀ g : InFile, g.rest = packetTail type ++ tail →
      packetEnd g = (false, g.advance 2) := by
    intro g hg
    cases tail with
    | nil => exact absurd rfl htail
    | cons c tail =>
        have hrest : g.rest = 0x0D :: 0x0A :: c :: tail := by
          rw [hg, packetTail, if_neg htype]
          rfl
        unfold packetEnd
        rw [hrest]
        rfl
  have hread := hexPacketRead_written hdata h hend
  have hlen : (packetTail type).length = 2 := by
    rw [packetTail, if_neg htype]
    rfl
  rw [length_hexPacketWrite, hlen, hread, packetType, if_neg htype]
  rfl

/-- The last packet of the text, where no line follows. -/
theorem hexPacketRead_eof {f : InFile} {tail : List UInt8}
    (htail : tail.head? ≠ some 0x0D ∧ tail.head? ≠ some 0x0A)
    (h : f.rest = hexBlockWriteEnd ++ tail) :
    hexPacketRead f = (.ok ⟨0, hexEof, []⟩, f.advance hexBlockWriteEnd.length) := by
  have hend : ∀ g : InFile, g.rest = packetTail hexEof ++ tail →
      packetEnd g = (true, g.advance 0) := by
    intro g hg
    have hrest : g.rest = tail := hg
    unfold packetEnd
    rw [hrest]
    split
    · exact absurd rfl htail.1
    · exact absurd rfl htail.2
    · exact absurd rfl htail.2
    · rfl
  have hread := hexPacketRead_written (Nat.zero_le _) h hend
  rw [hread]
  rfl

/-! ## the page buffer -/

/-- Where the data packets at this place of the text run past a page buffer that has `n` bytes:
a packet that begins before the end of the buffer and ends after it, in the same block. -/
inductive RunsPast : Nat → InFile → Prop
  | overrun {n : Nat} {f f' : InFile} {p : HexPacket} (hread : hexPacketRead f = (.ok p, f'))
      (htype : p.type = hexData) (hroom : n < blkMax) (hover : blkMax < n + p.data.length) :
      RunsPast n f
  | data {n : Nat} {f f' : InFile} {p : HexPacket} (hread : hexPacketRead f = (.ok p, f'))
      (htype : p.type = hexData) (hroom : n < blkMax) (hrest : RunsPast (n + p.data.length) f') :
      RunsPast n f
  | page {n : Nat} {f f' : InFile} {p : HexPacket} (hread : hexPacketRead f = (.ok p, f'))
      (htype : p.type = hexPage) (hrest : RunsPast n f') : RunsPast n f
  | newSection {f f' : InFile} {p : HexPacket} (hread : hexPacketRead f = (.ok p, f'))
      (htype : p.type = hexEnd) (hrest : RunsPast 0 f') : RunsPast 0 f

/-- A full buffer takes no more packets. -/
theorem not_runsPast_full {n : Nat} {f : InFile} (h : blkMax ≤ n) : ¬RunsPast n f := by
  intro hover
  induction hover with
  | overrun hread htype hroom hover => omega
  | data hread htype hroom hrest ih => omega
  | page hread htype hrest ih => exact ih h
  | newSection hread htype hrest ih => exact absurd h (by decide)

/-- What a packet says about the rest of its block. -/
theorem runsPast_iff {n : Nat} {f f' : InFile} {p : HexPacket}
    (h : hexPacketRead f = (.ok p, f')) :
    RunsPast n f ↔ (p.type = hexData ∧ n < blkMax
        ∧ (blkMax < n + p.data.length ∨ RunsPast (n + p.data.length) f'))
      ∨ (p.type = hexPage ∧ RunsPast n f') ∨ (p.type = hexEnd ∧ n = 0 ∧ RunsPast 0 f') := by
  constructor
  · intro hover
    cases hover with
    | overrun hread htype hroom hover =>
        cases h.symm.trans hread
        exact .inl ⟨htype, hroom, .inl hover⟩
    | data hread htype hroom hrest =>
        cases h.symm.trans hread
        exact .inl ⟨htype, hroom, .inr hrest⟩
    | page hread htype hrest =>
        cases h.symm.trans hread
        exact .inr (.inl ⟨htype, hrest⟩)
    | newSection hread htype hrest =>
        cases h.symm.trans hread
        exact .inr (.inr ⟨htype, rfl, hrest⟩)
  · rintro (⟨htype, hroom, hover | hrest⟩ | ⟨htype, hrest⟩ | ⟨htype, rfl, hrest⟩)
    · exact .overrun h htype hroom hover
    · exact .data h htype hroom hrest
    · exact .page h htype hrest
    · exact .newSection h htype hrest

/-- Where no packet is read, none runs past the buffer. -/
theorem not_runsPast_error {n : Nat} {f f' : InFile} {ret : Int}
    (h : hexPacketRead f = (.error ret, f')) : ¬RunsPast n f := by
  intro hover
  cases hover with
  | overrun hread htype hroom hover => cases h.symm.trans hread
  | data hread htype hroom hrest => cases h.symm.trans hread
  | page hread htype hrest => cases h.symm.trans hread
  | newSection hread htype hrest => cases h.symm.trans hread

/-- The loop from a buffer that is not past its end. -/
theorem length_hexBlockLoop_le_iff {st : HexState} {newPage : Bool} {b : HexBlock} {f : InFile}
    (hle : b.data.length ≤ blkMax) :
    (hexBlockLoop st newPage b f).block.data.length ≤ blkMax ↔ ¬RunsPast b.data.length f := by
  fun_induction hexBlockLoop st newPage b f with
  | case1 st newPage b f hfull => exact iff_of_true hle (not_runsPast_full hfull)
  | case2 st newPage b f hroom ret f' hread => exact iff_of_true hle (not_runsPast_error hread)
  | case3 st newPage b f hroom p f' hread heof =>
      have hkinds : hexEof ≠ hexData ∧ hexEof ≠ hexPage ∧ hexEof ≠ hexEnd := by decide
      rw [runsPast_iff hread, heof]
      refine iff_of_true hle ?_
      simp only [hkinds.1, hkinds.2.1, hkinds.2.2, false_and, or_self, not_false_eq_true]
  | case4 st newPage b f hroom p f' hread heof hdata ih =>
      rw [runsPast_iff hread, hdata]
      by_cases hover : blkMax < b.data.length + p.data.length
      · -- the buffer is more than full, and the loop ends
        have hlen : (b.data ++ p.data).length > blkMax := by
          rw [List.length_append]
          exact hover
        rw [hexBlockLoop_full hlen.le]
        refine iff_of_false (Nat.not_le.mpr hlen) ?_
        rw [not_not]
        exact .inl ⟨rfl, by omega, .inl hover⟩
      · have hstep := ih (by
          show (b.data ++ p.data).length ≤ blkMax
          rw [List.length_append]
          omega)
        rw [hstep]
        show ¬RunsPast (b.data ++ p.data).length f' ↔ _
        rw [List.length_append]
        have hlt : b.data.length < blkMax := by omega
        have hkinds : hexData ≠ hexPage ∧ hexData ≠ hexEnd := by decide
        simp [hover, hlt, hkinds.1, hkinds.2]
  | case5 st newPage b f hroom p f' hread heof hdata hend hzero ih =>
      have hkinds : hexEnd ≠ hexData ∧ hexEnd ≠ hexPage := by decide
      rw [ih hle, runsPast_iff hread, hend]
      show ¬RunsPast b.data.length f' ↔ _
      rw [hzero]
      simp [hkinds.1, hkinds.2]
  | case6 st newPage b f hroom p f' hread heof hdata hend hzero =>
      have hkinds : hexEnd ≠ hexData ∧ hexEnd ≠ hexPage := by decide
      rw [runsPast_iff hread, hend]
      refine iff_of_true hle ?_
      simp only [hkinds.1, hkinds.2, hzero, false_and, and_false, or_self, not_false_eq_true]
  | case7 st newPage b f hroom p f' hread heof hdata hend hpage ih =>
      have hkinds : hexPage ≠ hexData ∧ hexPage ≠ hexEnd := by decide
      rw [ih hle, runsPast_iff hread, hpage]
      show ¬RunsPast b.data.length f' ↔ _
      simp [hkinds.1, hkinds.2]
  | case8 st newPage b f hroom p f' hread heof hdata hend hpage =>
      rw [runsPast_iff hread]
      refine iff_of_true hle ?_
      simp only [hdata, hend, hpage, false_and, or_self, not_false_eq_true]

/-- A result within the page buffer: an error or a block that is not larger than the buffer,
and no byte stored behind it. -/
def BlockBounded (r : HexRead) : Prop :=
  (r.ret ≠ 0 ∨ r.block.data.length ≤ blkMax) ∧ ∀ i < r.block.data.length, i < blkMax

/-- A call stays within the page buffer exactly where no data packet of its block runs past it. -/
theorem blockBounded_hexBlockRead_iff (st : HexState) (f : InFile) :
    BlockBounded (hexBlockRead st f) ↔ ¬RunsPast 0 f := by
  have hloop : (hexBlockRead st f).block.data.length ≤ blkMax ↔ ¬RunsPast 0 f :=
    length_hexBlockLoop_le_iff (Nat.zero_le _)
  rw [← hloop]
  constructor
  · rintro ⟨-, hstores⟩
    by_contra hgt
    exact absurd (hstores blkMax (by omega)) (Nat.lt_irrefl _)
  · intro hle
    exact ⟨.inr hle, fun i hi => by omega⟩

/-- Packets of one length that never fill the buffer to the byte run past it. -/
theorem runsPast_replicate {data tail : List UInt8} (hdata : data.length ≤ pktMax)
    (htail : tail ≠ []) {n m : Nat} {f : InFile} (hmiss : ∀ k, n + k * data.length ≠ blkMax)
    (hroom : n < blkMax) (hover : blkMax < n + m * data.length)
    (h : f.rest = (List.replicate m (hexPacketWrite 0 hexData data)).flatten ++ tail) :
    RunsPast n f := by
  induction m generalizing n f with
  | zero => omega
  | succ m ih =>
      have hbehind : (List.replicate m (hexPacketWrite 0 hexData data)).flatten ++ tail ≠ [] := by
        simp [htail]
      rw [List.replicate_succ, List.flatten_cons, List.append_assoc] at h
      have hread := hexPacketRead_packet (by decide) hdata hbehind h
      have hnext := hmiss 1
      rw [Nat.one_mul] at hnext
      by_cases hpast : blkMax < n + data.length
      · exact .overrun hread rfl hroom hpast
      · refine .data hread rfl hroom (ih (fun k hk => ?_) ?_ ?_
          (InFile.rest_advance_append h rfl))
        · refine hmiss (k + 1) ?_
          rw [Nat.add_one_mul]
          show n + (k * data.length + data.length) = blkMax
          have hk' : n + data.length + k * data.length = blkMax := hk
          omega
        · show n + data.length < blkMax
          omega
        · show blkMax < n + data.length + m * data.length
          rw [Nat.add_one_mul] at hover
          omega

/-- A text of packets of 31 bytes. -/
def oddPackets : InFile :=
  ⟨(List.replicate 529 (hexPacketWrite 0 hexData (List.replicate 31 0))).flatten
    ++ hexBlockWriteEnd, 0⟩

theorem not_blockBounded_oddPackets : ¬BlockBounded (hexBlockRead hexReset oddPackets) := by
  have hpast : RunsPast 0 oddPackets := by
    have hmiss : ∀ k, 0 + k * (List.replicate 31 (0 : UInt8)).length ≠ blkMax := by
      intro k
      rw [List.length_replicate]
      unfold blkMax
      omega
    exact runsPast_replicate (by decide) (by decide) hmiss (by decide) (by decide) rfl
  have hloop : (hexBlockRead hexReset oddPackets).block.data.length ≤ blkMax
      ↔ ¬RunsPast 0 oddPackets := length_hexBlockLoop_le_iff (Nat.zero_le _)
  rintro ⟨-, hstores⟩
  by_cases hle : (hexBlockRead hexReset oddPackets).block.data.length ≤ blkMax
  · exact hloop.mp hle hpast
  · exact absurd (hstores blkMax (by omega)) (Nat.lt_irrefl _)

end Tilibs.Files
