import Mathlib
import Tilibs.Files.FileTypes
import Tilibs.Lib.Bytes
import Tilibs.Lib.Stdio

/-!
# Tilibs.Files.IntelHex

The Intel-HEX text of applications and operating systems for the TI-83+ family, written and read
by `intelhex.cc`: packets of up to 32 bytes as upper-case hex digits, and pages of up to 16 KB
made of packets.

Nothing in the text says where a page ends.  The reader takes a page to end when its buffer is
full, at the packet that ends a section, or at the end of the text.
-/

namespace Tilibs.Files

open Lib

/-- `HEX_DATA` -/
def hexData : UInt8 := 0

/-- `HEX_END` -/
def hexEnd : UInt8 := 1

/-- `HEX_PAGE` -/
def hexPage : UInt8 := 2

/-- `HEX_EOF` -/
def hexEof : UInt8 := 3

/-- `PKT_MAX` -/
def pktMax : Nat := 32

/-- `BLK_MAX`, which is `FLASH_PAGE_SIZE`. -/
def blkMax : Nat := 16384

/-! ## writing -/

/-- An upper-case hex digit. -/
def hexDigit (n : Nat) : UInt8 := UInt8.ofNat (if n < 10 then 0x30 + n else 0x37 + n)

/-- `write_byte` -/
def writeByte (b : UInt8) : List UInt8 := [hexDigit (b.toNat / 16), hexDigit (b.toNat % 16)]

/-- The sum of a packet's fields, before it is cut to a byte. -/
def packetSum (addr : UInt16) (type : UInt8) (data : List UInt8) : Nat :=
  data.length + addr.toNat / 256 + addr.toNat % 256 + type.toNat + byteSum data

/-- `hex_packet_write`; the size is that of the data. -/
def hexPacketWrite (addr : UInt16) (type : UInt8) (data : List UInt8) : List UInt8 :=
  let packetType := if type = hexEof then hexEnd else type
  [0x3A] ++ writeByte (UInt8.ofNat data.length) ++ writeByte (UInt8.ofNat (addr.toNat / 256))
    ++ writeByte (UInt8.ofNat addr.toNat) ++ writeByte packetType ++ data.flatMap writeByte
    ++ writeByte (UInt8.ofNat (256 - packetSum addr packetType data % 256))
    ++ (if type = hexEof then [] else [0x0D, 0x0A])

/-- The data of a page, followed by `extra` bytes 0xFF, packet by packet. -/
def hexDataWrite (addr : UInt16) (data : List UInt8) (extra : Nat) : List UInt8 :=
  if data.length = 0 ∧ extra = 0 then []
  else
    let n := min data.length pktMax
    let m := min extra (pktMax - n)
    hexPacketWrite addr hexData (data.take n ++ List.replicate m 0xFF)
      ++ hexDataWrite (addr + UInt16.ofNat (n + m)) (data.drop n) (extra - m)
termination_by data.length + extra
decreasing_by
  rw [List.length_drop]
  unfold pktMax
  omega

/-- A page of flash memory; its data is in the first `size` bytes of a buffer. -/
structure FlashPage where
  addr : UInt16
  page : UInt16
  flag : UInt8
  size : UInt16
  data : List UInt8
  deriving DecidableEq

/-- The packet that ends a section, where the flag changes. -/
def sectionPacket (oldFlag flag : UInt8) : List UInt8 :=
  if oldFlag ≠ flag then hexPacketWrite 0 hexEnd [] else []

/-- The packet with the number of a page, but for page 0 at address 0 within a section. -/
def pagePacket (oldFlag : UInt8) (p : FlashPage) : List UInt8 :=
  if p.addr = 0 ∧ p.page = 0 ∧ ¬(oldFlag = 0x80 ∧ p.flag = 0) then []
  else hexPacketWrite 0 hexPage [UInt8.ofNat (p.page.toNat / 256), UInt8.ofNat p.page.toNat]

/-- `hex_block_write` of a page, given its static `old_flag`, which becomes the page's flag. -/
def hexBlockWrite (oldFlag : UInt8) (p : FlashPage) (extra : Nat) : List UInt8 :=
  sectionPacket oldFlag p.flag ++ pagePacket oldFlag p
    ++ hexDataWrite p.addr (p.data.take p.size.toNat) extra

/-- `hex_block_write` without a page: the end of the text. -/
def hexBlockWriteEnd : List UInt8 := hexPacketWrite 0 hexEof []

/-! ## reading a byte -/

/-- `isspace` in the C locale. -/
def isspace (b : UInt8) : Bool := b = 0x20 || (0x09 ≤ b && b ≤ 0x0D)

/-- The value of a hex digit of either case. -/
def hexVal (b : UInt8) : Option Nat :=
  if 0x30 ≤ b ∧ b ≤ 0x39 then some (b.toNat - 0x30)
  else if 0x41 ≤ b ∧ b ≤ 0x46 then some (b.toNat - 0x37)
  else if 0x61 ≤ b ∧ b ≤ 0x66 then some (b.toNat - 0x57)
  else none

/-- What `fscanf("%02X")` makes of the characters after white space: a value and how many
characters it took.  A sign counts as one of the two, and so does each character of `0x`. -/
def scanHex : List UInt8 → Nat × Nat
  | [] => (0, 0)
  | c :: rest =>
      if c = 0x2B ∨ c = 0x2D then
        match rest.head?.bind hexVal with
        | some v => (if c = 0x2D then (256 - v) % 256 else v, 2)
        | none => (0, 1)
      else
        match hexVal c with
        | none => (0, 0)
        | some v =>
            match rest.head? with
            | none => (v, 1)
            | some d =>
                if c = 0x30 ∧ (d = 0x78 ∨ d = 0x58) then (0, 2)
                else
                  match hexVal d with
                  | some w => (16 * v + w, 2)
                  | none => (v, 1)

/-- `read_byte`: 0 where there is no number. -/
def readByte (f : InFile) : UInt8 × InFile :=
  let spaces := (f.rest.takeWhile isspace).length
  let scanned := scanHex (f.rest.drop spaces)
  (UInt8.ofNat scanned.1, f.advance (spaces + scanned.2))

/-- `read_byte` so many times. -/
def readBytes : Nat → InFile → List UInt8 × InFile
  | 0, f => ([], f)
  | n + 1, f =>
      let first := readByte f
      let others := readBytes n first.2
      (first.1 :: others.1, others.2)

/-! ## reading a packet -/

/-- A packet; its size is that of the data. -/
structure HexPacket where
  addr : UInt16
  type : UInt8
  data : List UInt8
  deriving DecidableEq

/-- The look past a packet: whether the text ends here, and where the next packet starts. -/
def packetEnd (f : InFile) : Bool × InFile :=
  match f.rest with
  | 0x0D :: 0x0A :: _ :: _ => (false, f.advance 2)
  | 0x0A :: _ :: _ => (false, f.advance 1)
  -- a line feed that is the last character: the position before it was decremented
  | [0x0A] => (true, { f with pos := f.pos - 1 })
  | _ => (true, f)

/-- The size, the address and the type of a packet. -/
def readPacketHead (f : InFile) : (UInt8 × UInt16 × UInt8) × InFile :=
  let fields := readBytes 4 f
  ((fields.1.getD 0 0,
      UInt16.ofNat (256 * (fields.1.getD 1 0).toNat + (fields.1.getD 2 0).toNat),
      fields.1.getD 3 0), fields.2)

/-- The rest of a packet, whose checksum must make the sum 0. -/
def readPacketBody (size : UInt8) (addr : UInt16) (type : UInt8) (f : InFile) :
    Except Int HexPacket × InFile :=
  let data := readBytes size.toNat f
  let checksum := readByte data.2
  if (packetSum addr type data.1 + checksum.1.toNat) % 256 ≠ 0 then (.error (-3), checksum.2)
  else
    let ended := packetEnd checksum.2
    (.ok ⟨addr, if ended.1 then hexEof else type, data.1⟩, ended.2)

/-- `hex_packet_read`: the negative result of a packet that is not well formed, or the packet,
whose type is changed at the end of the text. -/
def hexPacketRead (f : InFile) : Except Int HexPacket × InFile :=
  match f.rest.head? with
  | some 0x3A =>
      let head := readPacketHead (f.advance 1)
      if head.1.1.toNat > pktMax then (.error (-2), head.2)
      else readPacketBody head.1.1 head.1.2.1 head.1.2.2 head.2
  | some _ => (.error (-1), f.advance 1)
  | none => (.error (-1), f)

theorem le_pos_readByte (f : InFile) : f.pos ≤ (readByte f).2.pos := Nat.le_add_right _ _

theorem readBytes_facts (n : Nat) (f : InFile) : (readBytes n f).1.length = n
    ∧ (readBytes n f).2.bytes = f.bytes ∧ f.pos ≤ (readBytes n f).2.pos := by
  induction n generalizing f with
  | zero => exact ⟨rfl, rfl, Nat.le_refl _⟩
  | succ n ih =>
      obtain ⟨hlen, hbytes, hpos⟩ := ih (readByte f).2
      have hfirst := le_pos_readByte f
      refine ⟨congrArg (· + 1) hlen, hbytes, ?_⟩
      exact hfirst.trans hpos

theorem packetEnd_facts (f : InFile) : (packetEnd f).2.bytes = f.bytes
    ∧ ((packetEnd f).1 = false → f.pos ≤ (packetEnd f).2.pos) := by
  unfold packetEnd
  split <;> simp [InFile.advance]

theorem readPacketBody_facts {size type : UInt8} {addr : UInt16} {f f' : InFile} {p : HexPacket}
    (h : readPacketBody size addr type f = (.ok p, f')) :
    p.data.length = size.toNat ∧ f'.bytes = f.bytes ∧ (p.type ≠ hexEof → f.pos ≤ f'.pos) := by
  obtain ⟨hlen, hbytes, hpos⟩ := readBytes_facts size.toNat f
  have hsum := le_pos_readByte (readBytes size.toNat f).2
  obtain ⟨hend, hnext⟩ := packetEnd_facts (readByte (readBytes size.toNat f).2).2
  unfold readPacketBody at h
  dsimp only at h
  split at h
  · cases h
  · cases h
    refine ⟨hlen, hend.trans hbytes, fun htype => ?_⟩
    have hlast : (packetEnd (readByte (readBytes size.toNat f).2).2).1 = false := by
      cases hended : (packetEnd (readByte (readBytes size.toNat f).2).2).1 with
      | false => rfl
      | true => exact absurd (if_pos hended) htype
    have hle := hnext hlast
    omega

/-- A packet has at most 32 bytes, and moves the position on unless it is the last one. -/
theorem hexPacketRead_facts {f f' : InFile} {p : HexPacket} (h : hexPacketRead f = (.ok p, f')) :
    p.data.length ≤ pktMax ∧ f'.bytes = f.bytes ∧ f.pos < f.bytes.length
      ∧ (p.type ≠ hexEof → f.pos < f'.pos) := by
  unfold hexPacketRead at h
  split at h
  · rename_i hhead
    have hlt : f.pos < f.bytes.length := by
      by_contra hge
      have hnil : f.rest = [] := List.drop_eq_nil_of_le (by omega)
      rw [hnil] at hhead
      cases hhead
    obtain ⟨-, hbytes, hpos⟩ := readBytes_facts 4 (f.advance 1)
    dsimp only at h
    split at h
    · cases h
    · rename_i hsize
      obtain ⟨hlen, hsame, hnext⟩ := readPacketBody_facts h
      refine ⟨by omega, hsame.trans hbytes, hlt, fun htype => ?_⟩
      exact Nat.lt_of_lt_of_le (Nat.lt_succ_self _) (hpos.trans (hnext htype))
  · cases h
  · cases h

/-! ## reading a page -/

/-- The static variables of `hex_block_read`. -/
structure HexState where
  flag : UInt8
  flashPage : UInt16
  flashAddr : UInt16
  deriving DecidableEq

/-- The reset of `hex_block_read`. -/
def hexReset : HexState := ⟨0x80, 0, 0⟩

/-- The arguments that `hex_block_read` fills in.  `data` are the bytes that it has stored into
the page buffer, from its start on; their number is the size. -/
structure HexBlock where
  addr : UInt16
  page : UInt16
  flag : UInt8
  data : List UInt8
  deriving DecidableEq

/-- The outputs that are set after each packet. -/
def HexState.block (st : HexState) (data : List UInt8) : HexBlock :=
  ⟨st.flashAddr, st.flashPage, st.flag, data⟩

/-- The first packet of a new page sets the address. -/
def HexState.setAddr (st : HexState) (newPage : Bool) (p : HexPacket) : HexState :=
  if newPage then { st with flashAddr := p.addr } else st

/-- A new section. -/
def HexState.endSection (st : HexState) : HexState := ⟨st.flag ^^^ 0x80, 0, 0⟩

/-- A new page.  Bytes that the packet does not have are indeterminate. -/
def HexState.newPage (st : HexState) (p : HexPacket) : HexState :=
  { st with flashPage := UInt16.ofNat (256 * (p.data.getD 0 0).toNat + (p.data.getD 1 0).toNat) }

/-- What a call of `hex_block_read` leaves: its result, the outputs, the static variables and
the position in the text. -/
structure HexRead where
  ret : Int
  block : HexBlock
  st : HexState
  file : InFile

/-- The loop of `hex_block_read`. -/
def hexBlockLoop (st : HexState) (newPage : Bool) (b : HexBlock) (f : InFile) : HexRead :=
  if b.data.length ≥ blkMax then ⟨0, b, st, f⟩
  else
    match h : hexPacketRead f with
    | (.error ret, f') => ⟨ret, b, st, f'⟩
    | (.ok p, f') =>
        if heof : p.type = hexEof then
          ⟨-1, (st.setAddr newPage p).block b.data, st.setAddr newPage p, f'⟩
        else if p.type = hexData then
          hexBlockLoop (st.setAddr newPage p) false
            ((st.setAddr newPage p).block (b.data ++ p.data)) f'
        else if p.type = hexEnd then
          if b.data.length = 0 then
            hexBlockLoop (st.setAddr newPage p).endSection false
              ((st.setAddr newPage p).block b.data) f'
          else
            ⟨0, (st.setAddr newPage p).block b.data, (st.setAddr newPage p).endSection, f'⟩
        else if p.type = hexPage then
          hexBlockLoop ((st.setAddr newPage p).newPage p) true
            ((st.setAddr newPage p).block b.data) f'
        else ⟨-1, (st.setAddr newPage p).block b.data, st.setAddr newPage p, f'⟩
termination_by f.bytes.length - f.pos
decreasing_by
  all_goals
    obtain ⟨-, hbytes, hlt, hpos⟩ := hexPacketRead_facts h
    have hmoved := hpos heof
    rw [hbytes]
    omega

section

variable {st : HexState} {newPage : Bool} {b : HexBlock} {f f' : InFile} {p : HexPacket}

/-- A full buffer ends the block. -/
theorem hexBlockLoop_full (h : blkMax ≤ b.data.length) :
    hexBlockLoop st newPage b f = ⟨0, b, st, f⟩ := by
  rw [hexBlockLoop, if_pos h]

theorem hexBlockLoop_eof (hroom : b.data.length < blkMax) (hread : hexPacketRead f = (.ok p, f'))
    (htype : p.type = hexEof) : hexBlockLoop st newPage b f
      = ⟨-1, (st.setAddr newPage p).block b.data, st.setAddr newPage p, f'⟩ := by
  rw [hexBlockLoop, if_neg (Nat.not_le.mpr hroom)]
  split
  · rename_i herr
    cases hread.symm.trans herr
  · rename_i hok
    cases hread.symm.trans hok
    rw [dif_pos htype]

theorem hexBlockLoop_data (hroom : b.data.length < blkMax)
    (hread : hexPacketRead f = (.ok p, f')) (htype : p.type = hexData) :
    hexBlockLoop st newPage b f = hexBlockLoop (st.setAddr newPage p) false
      ((st.setAddr newPage p).block (b.data ++ p.data)) f' := by
  have heof : p.type ≠ hexEof := htype ▸ by decide
  rw [hexBlockLoop, if_neg (Nat.not_le.mpr hroom)]
  split
  · rename_i herr
    cases hread.symm.trans herr
  · rename_i hok
    cases hread.symm.trans hok
    rw [dif_neg heof, if_pos htype]

/-- The packet that ends a section before the first data of a block. -/
theorem hexBlockLoop_newSection (hempty : b.data.length = 0)
    (hread : hexPacketRead f = (.ok p, f')) (htype : p.type = hexEnd) :
    hexBlockLoop st newPage b f = hexBlockLoop (st.setAddr newPage p).endSection false
      ((st.setAddr newPage p).block b.data) f' := by
  have heof : p.type ≠ hexEof := htype ▸ by decide
  have hdata : p.type ≠ hexData := htype ▸ by decide
  have hroom : ¬b.data.length ≥ blkMax := by
    rw [hempty]
    decide
  rw [hexBlockLoop, if_neg hroom]
  split
  · rename_i herr
    cases hread.symm.trans herr
  · rename_i hok
    cases hread.symm.trans hok
    rw [dif_neg heof, if_neg hdata, if_pos htype, if_pos hempty]

/-- The packet that ends a section ends the block. -/
theorem hexBlockLoop_end (hroom : b.data.length < blkMax) (hne : b.data.length ≠ 0)
    (hread : hexPacketRead f = (.ok p, f')) (htype : p.type = hexEnd) :
    hexBlockLoop st newPage b f
      = ⟨0, (st.setAddr newPage p).block b.data, (st.setAddr newPage p).endSection, f'⟩ := by
  have heof : p.type ≠ hexEof := htype ▸ by decide
  have hdata : p.type ≠ hexData := htype ▸ by decide
  rw [hexBlockLoop, if_neg (Nat.not_le.mpr hroom)]
  split
  · rename_i herr
    cases hread.symm.trans herr
  · rename_i hok
    cases hread.symm.trans hok
    rw [dif_neg heof, if_neg hdata, if_pos htype, if_neg hne]

theorem hexBlockLoop_page (hroom : b.data.length < blkMax)
    (hread : hexPacketRead f = (.ok p, f')) (htype : p.type = hexPage) :
    hexBlockLoop st newPage b f = hexBlockLoop ((st.setAddr newPage p).newPage p) true
      ((st.setAddr newPage p).block b.data) f' := by
  have heof : p.type ≠ hexEof := htype ▸ by decide
  have hdata : p.type ≠ hexData := htype ▸ by decide
  have hend : p.type ≠ hexEnd := htype ▸ by decide
  rw [hexBlockLoop, if_neg (Nat.not_le.mpr hroom)]
  split
  · rename_i herr
    cases hread.symm.trans herr
  · rename_i hok
    cases hread.symm.trans hok
    rw [dif_neg heof, if_neg hdata, if_neg hend, if_pos htype]

end

/-- `hex_block_read` -/
def hexBlockRead (st : HexState) (f : InFile) : HexRead := hexBlockLoop st false (st.block []) f

/-- The page that the reader makes of a block; its buffer was filled with 0xFF. -/
def flashPageOf (b : HexBlock) : FlashPage :=
  ⟨b.addr, b.page, b.flag, UInt16.ofNat b.data.length, padRight blkMax 0xFF b.data⟩

/-- The page loop of `ti8x_file_read_flash` with room for so many pages: any result but 0 ends
it, and one page too many is an error. -/
def readFlashPages : Nat → HexState → InFile → Option (List FlashPage × InFile)
  | 0, _, _ => none
  | n + 1, st, f =>
      let r := hexBlockRead st f
      if r.ret ≠ 0 then some ([flashPageOf r.block], r.file)
      else (readFlashPages n r.st r.file).map fun out => (flashPageOf r.block :: out.1, out.2)

end Tilibs.Files
