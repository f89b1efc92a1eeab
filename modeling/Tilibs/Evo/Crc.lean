import Tilibs.Evo.Packet
import Tilibs.Lib.Crc

/-!
# Tilibs.Evo.Crc

The CRC of a packet of the TI-84 Evo: what `evo_crc16_kermit` computes from a multiplication for
each half of a byte is the reflected check with the polynomial `0x8408`, bit by bit.
-/

namespace Tilibs.Evo

open Lib

/-- The product is the register behind the four bits of a half. -/
theorem mul_nibble : ∀ q : BitVec 4,
    q.setWidth 16 * 0x1081#16 = (shiftR 0x8408#16)^[4] (q.setWidth 16) := by
  decide

theorem setWidth_nibble (x : BitVec 16) : (x.setWidth 4).setWidth 16 = x &&& 0x0F#16 := by
  refine BitVec.eq_of_toNat_eq ?_
  have hmask : (0x0F#16).toNat = 2 ^ 4 - 1 := rfl
  rw [BitVec.toNat_and, hmask, Nat.and_two_pow_sub_one_eq_mod, BitVec.toNat_setWidth,
    BitVec.toNat_setWidth]
  omega

/-- Four steps of the register. -/
theorem iterate_four (x : BitVec 16) :
    (shiftR 0x8408#16)^[4] x = (x >>> 4) ^^^ ((x &&& 0x0F#16) * 0x1081#16) := by
  rw [iterate_shiftR_eq, ← mul_nibble, setWidth_nibble, BitVec.xor_comm]

/-- The two halves of a byte, one after the other. -/
theorem iterate_eight (x : BitVec 16) (b : UInt8) :
    (shiftR 0x8408#16)^[8] (x ^^^ lowByte 16 b)
      = (shiftR 0x8408#16)^[4]
        (((x >>> 4) ^^^ (((x ^^^ lowByte 16 b) &&& 0x0F#16) * 0x1081#16)) ^^^ lowByte 16 b >>> 4) := by
  rw [Function.iterate_add_apply _ 4 4, iterate_four (x ^^^ lowByte 16 b),
    BitVec.ushiftRight_xor_distrib, BitVec.xor_assoc, BitVec.xor_assoc,
    BitVec.xor_comm (lowByte 16 b >>> 4)]

theorem lowByte_out (b : UInt8) : (lowByte 16 b >>> 4) >>> 4 = 0#16 := by
  refine BitVec.eq_of_toNat_eq ?_
  have hb := b.toNat_lt
  rw [lowByte, ← BitVec.shiftRight_add, BitVec.toNat_ushiftRight, BitVec.toNat_setWidth,
    UInt8.toNat_toBitVec, Nat.shiftRight_eq_div_pow]
  show b.toNat % 2 ^ 16 / 2 ^ (4 + 4) = 0
  omega

/-- `evo_crc16_kermit` is the reflected check, least significant bit first. -/
theorem evoCrc16Kermit_eq_crcLsb (body : List UInt8) :
    (evoCrc16Kermit body).toBitVec = crcLsb 0x8408#16 body := by
  rw [crcLsb_eq_foldl (by decide)]
  unfold evoCrc16Kermit
  refine (List.foldl_hom UInt16.toBitVec fun crc b => ?_).symm
  rw [iterate_eight, iterate_four, BitVec.ushiftRight_xor_distrib, lowByte_out, BitVec.xor_zero]
  rfl

end Tilibs.Evo
