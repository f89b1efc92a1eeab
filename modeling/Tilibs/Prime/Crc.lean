import Tilibs.Lib.Crc
import Tilibs.Prime.File

/-!
# Tilibs.Prime.Crc

The checksum of a file of the HP Prime: what `crc16_block` looks up in its table is the check with
the polynomial `0x1021`, bit by bit.
-/

namespace Tilibs.Prime

open Lib

/-- An entry of the table is the register behind the eight bits of its index. -/
theorem ccittCrc16Table_eq : ∀ i : BitVec 8,
    (ccittCrc16Table.getD i.toNat 0).toBitVec
      = (shiftL 0x1021#16)^[8] (i.setWidth 16 <<< 8) := by
  decide

/-- The index of the entry for a byte. -/
theorem topPlaces_xor_topByte (crc : UInt16) (b : UInt8) :
    (topPlaces 8 (crc.toBitVec ^^^ topByte 16 b)).toNat = (crc >>> 8).toNat ^^^ b.toNat := by
  have hcrc := crc.toNat_lt
  have hb := b.toNat_lt
  unfold topPlaces topByte
  rw [BitVec.ushiftRight_xor_distrib, BitVec.setWidth_xor, BitVec.toNat_xor]
  congr 1
  · rw [BitVec.toNat_setWidth, BitVec.toNat_ushiftRight, UInt16.toNat_toBitVec,
      UInt16.toNat_shiftRight, Nat.shiftRight_eq_div_pow, Nat.mod_eq_of_lt (by omega)]
    exact (Nat.shiftRight_eq_div_pow _ _).symm
  · rw [BitVec.toNat_setWidth, BitVec.toNat_ushiftRight, BitVec.toNat_shiftLeft,
      BitVec.toNat_setWidth, UInt8.toNat_toBitVec, Nat.shiftLeft_eq, Nat.shiftRight_eq_div_pow]
    omega

/-- The byte is shifted out of the register. -/
theorem shiftLeft_xor_topByte (crc : BitVec 16) (b : UInt8) :
    (crc ^^^ topByte 16 b) <<< 8 = crc <<< 8 := by
  have hout : topByte 16 b <<< 8 = 0#16 := by
    unfold topByte
    rw [← BitVec.shiftLeft_add]
    exact BitVec.shiftLeft_eq_zero (by decide)
  rw [BitVec.shiftLeft_xor_distrib, hout, BitVec.xor_zero]

/-- `crc16_block` is the check, most significant bit first. -/
theorem crc16Block_eq_crcMsb (buffer : List UInt8) :
    (crc16Block buffer).toBitVec = crcMsb 0x1021#16 buffer := by
  rw [crcMsb_eq_foldl (by decide)]
  unfold crc16Block
  refine (List.foldl_hom UInt16.toBitVec fun crc b => ?_).symm
  rw [iterate_shiftL_eq (by decide), shiftLeft_xor_topByte, ← ccittCrc16Table_eq,
    topPlaces_xor_topByte]
  rfl

end Tilibs.Prime
