import Tilibs.Lib.Crc
import Tilibs.Nsp.Packet

/-!
# Tilibs.Nsp.Crc

The CRC of the packets of the Nspire, of which there are two: `compute_crc` of the raw packets and
`nsp_compute_crc` of the virtual ones.  Both are the reflected remainder with the polynomial
`0x8408`, bit by bit: a byte enters the register at the end that is shifted in, and no zeros are
appended.  So two errors next to each other are never missed.
-/

namespace Tilibs.Nsp

open Lib

/-- `compute_crc` of `nsp_rpkt.cc`. -/
def computeCrc (data : List UInt8) : UInt16 :=
  if data.length = 0 then 0
  else
    data.foldl
      (fun (acc : UInt16) (b : UInt8) =>
        let first := (b.toUInt16 <<< 8) ||| (acc >>> 8)
        let acc := acc &&& 0xFF
        let second := (((acc &&& 0x0F) <<< 4) ^^^ acc) <<< 8
        let third := second >>> 5
        (third >>> 7) ^^^ first ^^^ second ^^^ third)
      0

/-- The data differ in one byte, or in two that are next to each other, and nowhere else. -/
def DifferInTwo (data data' : List UInt8) : Prop :=
  data.length = data'.length ∧ data ≠ data'
    ∧ ∃ i, ∀ j, j ≠ i → j ≠ i + 1 → data[j]? = data'[j]?

/-! ## the check -/

/-- `second`, for the low byte of the register. -/
def second (low : BitVec 16) : BitVec 16 := (((low &&& 0x0F#16) <<< 4) ^^^ low) <<< 8

/-- What the code adds for the low byte of the register. -/
def foldLow (low : BitVec 16) : BitVec 16 :=
  ((second low >>> 5) >>> 7) ^^^ second low ^^^ (second low >>> 5)

/-- It is the register behind the eight bits. -/
theorem foldLow_eq : ∀ low : BitVec 8,
    foldLow (low.setWidth 16) = (shiftR 0x8408#16)^[8] (low.setWidth 16) := by
  decide +kernel

theorem setWidth_low (acc : BitVec 16) : (acc.setWidth 8).setWidth 16 = acc &&& 0xFF#16 := by
  refine BitVec.eq_of_toNat_eq ?_
  have hmask : (0xFF#16).toNat = 2 ^ 8 - 1 := rfl
  rw [BitVec.toNat_and, hmask, Nat.and_two_pow_sub_one_eq_mod, BitVec.toNat_setWidth,
    BitVec.toNat_setWidth]
  omega

/-- The byte and the high byte of the register have no place in common. -/
theorem topByte_or (b : UInt8) (acc : BitVec 16) :
    topByte 16 b ||| acc >>> 8 = topByte 16 b ^^^ acc >>> 8 := by
  refine BitVec.eq_of_getLsbD_eq fun i hi => ?_
  rw [BitVec.getLsbD_or, BitVec.getLsbD_xor, topByte, BitVec.getLsbD_shiftLeft,
    BitVec.getLsbD_ushiftRight]
  by_cases hlow : i < 8
  · simp [hlow]
  · simp [BitVec.getLsbD_of_ge acc (8 + i) (by omega)]

theorem nspComputeCrc_eq_remLsb (data : List UInt8) :
    (nspComputeCrc data).toBitVec = remLsb 0x8408#16 data := by
  rw [remLsb_eq_foldl (by decide)]
  unfold nspComputeCrc
  refine (List.foldl_hom UInt16.toBitVec fun acc b => ?_).symm
  rw [iterate_shiftR_eq, ← foldLow_eq, setWidth_low]
  generalize hlow : second (acc.toBitVec &&& 0xFF#16) = s
  have hcode : ((s >>> 5) >>> 7) ^^^ (topByte 16 b ||| acc.toBitVec >>> 8) ^^^ s ^^^ (s >>> 5)
      = ((s >>> 5) >>> 7) ^^^ s ^^^ (s >>> 5) ^^^ acc.toBitVec >>> 8 ^^^ topByte 16 b := by
    rw [topByte_or]
    ac_rfl
  rw [foldLow, hlow, ← hcode, ← hlow]
  rfl

theorem computeCrc_eq (data : List UInt8) : computeCrc data = nspComputeCrc data := by
  unfold computeCrc
  split
  · next hempty =>
    rw [List.length_eq_zero_iff.mp hempty]
    rfl
  · rfl

/-! ## errors -/

/-- A burst of at most two bytes between what the data have in common. -/
theorem DifferInTwo.exists_burst {data data' : List UInt8} (h : DifferInTwo data data') :
    ∃ before burst burst' after, data = before ++ (burst ++ after)
      ∧ data' = before ++ (burst' ++ after) ∧ burst.length = burst'.length
      ∧ burst.length ≤ 2 ∧ burst ≠ burst' := by
  obtain ⟨hlength, hne, i, hsame⟩ := h
  have hbefore : data.take i = data'.take i := by
    refine List.ext_getElem? fun j => ?_
    rw [List.getElem?_take, List.getElem?_take]
    split
    · exact hsame j (by omega) (by omega)
    · rfl
  have hafter : data.drop (i + 2) = data'.drop (i + 2) := by
    refine List.ext_getElem? fun j => ?_
    rw [List.getElem?_drop, List.getElem?_drop]
    exact hsame _ (by omega) (by omega)
  have hsplit : ∀ l : List UInt8, l = l.take i ++ ((l.drop i).take 2 ++ l.drop (i + 2)) := by
    intro l
    rw [← List.drop_drop, List.take_append_drop, List.take_append_drop]
  refine ⟨data.take i, (data.drop i).take 2, (data'.drop i).take 2, data.drop (i + 2),
    hsplit data, ?_, ?_, ?_, fun heq => hne ?_⟩
  · rw [hbefore, hafter]
    exact hsplit data'
  · simp [hlength]
  · exact List.length_take_le 2 _
  · rw [hsplit data, hsplit data', hbefore, heq, hafter]

theorem nspComputeCrc_ne {data data' : List UInt8} (h : DifferInTwo data data') :
    nspComputeCrc data ≠ nspComputeCrc data' := by
  obtain ⟨before, burst, burst', after, rfl, rfl, hlength, htwo, hne⟩ := h.exists_burst
  intro heq
  have hrem := congrArg UInt16.toBitVec heq
  rw [nspComputeCrc_eq_remLsb, nspComputeCrc_eq_remLsb] at hrem
  exact remLsb_ne_of_burst (by decide) hlength (by omega) hne before after hrem

/-- Both implementations are one CRC, and it finds every error in one byte or in two bytes that
are next to each other. -/
theorem computeCrc_correct :
    (∀ data, computeCrc data = nspComputeCrc data
      ∧ (computeCrc data).toBitVec = remLsb 0x8408#16 data)
    ∧ ∀ data data', DifferInTwo data data' →
      computeCrc data ≠ computeCrc data' ∧ nspComputeCrc data ≠ nspComputeCrc data' := by
  refine ⟨fun data => ⟨computeCrc_eq data, ?_⟩, fun data data' h => ?_⟩
  · rw [computeCrc_eq]
    exact nspComputeCrc_eq_remLsb data
  · rw [computeCrc_eq, computeCrc_eq]
    exact ⟨nspComputeCrc_ne h, nspComputeCrc_ne h⟩

/-- Data of two bytes, of which the second one is changed. -/
theorem computeCrc_correct_sample :
    computeCrc [0x61, 0x62] ≠ computeCrc [0x61, 0x63]
      ∧ nspComputeCrc [0x61, 0x62] ≠ nspComputeCrc [0x61, 0x63] := by
  refine computeCrc_correct.2 _ _ ⟨rfl, by decide, 1, fun j hone htwo => ?_⟩
  match j with
  | 0 => rfl
  | 1 => exact absurd rfl hone
  | _ + 2 => rfl

end Tilibs.Nsp
