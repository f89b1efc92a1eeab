import Mathlib

/-!
# Tilibs.Lib.Bits

Bytes as bits, the lowest first, and the two shift registers between them: one that gives the bits
of a byte away at its low end, and one that takes bits in at its high end.
-/

namespace Tilibs.Lib

/-- The bits of a byte, the lowest first. -/
def bitsOfByte (b : UInt8) : List Bool := (List.range 8).map b.toNat.testBit

def bitsOf (bytes : List UInt8) : List Bool := bytes.flatMap bitsOfByte

@[simp] theorem length_bitsOfByte (b : UInt8) : (bitsOfByte b).length = 8 := by simp [bitsOfByte]

@[simp] theorem bitsOf_nil : bitsOf [] = [] := rfl

@[simp] theorem bitsOf_cons (b : UInt8) (bytes : List UInt8) :
    bitsOf (b :: bytes) = bitsOfByte b ++ bitsOf bytes := rfl

@[simp] theorem bitsOf_append (xs ys : List UInt8) : bitsOf (xs ++ ys) = bitsOf xs ++ bitsOf ys :=
  List.flatMap_append

@[simp] theorem length_bitsOf (bytes : List UInt8) : (bitsOf bytes).length = 8 * bytes.length := by
  induction bytes with
  | nil => rfl
  | cons b bytes ih =>
      rw [bitsOf_cons, List.length_append, length_bitsOfByte, ih, List.length_cons]
      omega

theorem testBit_byte (b : UInt8) {i : Nat} (h : 8 ≤ i) : b.toNat.testBit i = false :=
  Nat.testBit_lt_two_pow (b.toNat_lt.trans_le (Nat.pow_le_pow_right (by decide) h))

/-- A byte is what its bits are. -/
theorem bitsOfByte_injective {b c : UInt8} (h : bitsOfByte b = bitsOfByte c) : b = c := by
  rw [← UInt8.toNat_inj]
  refine Nat.eq_of_testBit_eq fun i => ?_
  by_cases hi : i < 8
  · exact List.map_inj_left.mp h i (List.mem_range.mpr hi)
  · rw [testBit_byte b (by omega), testBit_byte c (by omega)]

/-- Bytes whose bits come first come first. -/
theorem prefix_of_bitsOf {xs ys : List UInt8} (h : bitsOf xs <+: bitsOf ys) : xs <+: ys := by
  induction xs generalizing ys with
  | nil => exact List.nil_prefix
  | cons x xs ih =>
      cases ys with
      | nil =>
          have hlen := h.length_le
          simp at hlen
      | cons y ys =>
          obtain ⟨rest, hrest⟩ := h
          rw [bitsOf_cons, bitsOf_cons, List.append_assoc] at hrest
          obtain ⟨hbyte, hbits⟩ := List.append_inj hrest (by simp)
          exact List.cons_prefix_cons.mpr ⟨bitsOfByte_injective hbyte, ih ⟨rest, hbits⟩⟩

theorem bitsOf_injective {xs ys : List UInt8} (h : bitsOf xs = bitsOf ys) : xs = ys :=
  (prefix_of_bitsOf (h ▸ List.prefix_rfl)).eq_of_length (by
    have hlen := congrArg List.length h
    rw [length_bitsOf, length_bitsOf] at hlen
    omega)

/-! ## giving bits away -/

/-- The first `k` bits of a byte. -/
def lowBits (k : Nat) (b : UInt8) : List Bool := (List.range k).map b.toNat.testBit

theorem lowBits_succ (k : Nat) (b : UInt8) :
    lowBits (k + 1) b = lowBits k b ++ [b.toNat.testBit k] := by
  rw [lowBits, List.range_succ, List.map_append, List.map_singleton]
  rfl

theorem lowBits_eight (b : UInt8) : lowBits 8 b = bitsOfByte b := rfl

theorem prefix_lowBits {k n : Nat} (h : k ≤ n) (b : UInt8) : lowBits k b <+: lowBits n b := by
  rw [lowBits, lowBits, ← Nat.min_eq_left h, ← List.take_range, List.map_take]
  exact List.take_prefix _ _

/-- Whole bytes and some bits of the next one come first. -/
theorem prefix_bits {bytes : List UInt8} {j k : Nat} (hj : j < bytes.length) (hk : k ≤ 8) :
    bitsOf (bytes.take j) ++ lowBits k (bytes.getD j 0) <+: bitsOf bytes := by
  have hsplit : bitsOf bytes = bitsOf (bytes.take j)
      ++ (bitsOfByte (bytes.getD j 0) ++ bitsOf (bytes.drop (j + 1))) := by
    rw [← bitsOf_cons, List.getD_eq_getElem _ _ hj, ← List.drop_eq_getElem_cons hj,
      ← bitsOf_append, List.take_append_drop]
  rw [hsplit, List.prefix_append_right_inj]
  exact (prefix_lowBits hk _).trans (List.prefix_append _ _)

/-- What a byte holds after `k` bits have been shifted out of it. -/
def ShiftedOut (k : Nat) (b reg : UInt8) : Prop := reg.toNat = b.toNat >>> k

theorem shiftedOut_zero (b : UInt8) : ShiftedOut 0 b b := rfl

theorem ShiftedOut.succ {k : Nat} {b reg : UInt8} (h : ShiftedOut k b reg) :
    ShiftedOut (k + 1) b (reg >>> 1) := by
  show (reg >>> 1).toNat = b.toNat >>> (k + 1)
  rw [UInt8.toNat_shiftRight, show reg.toNat = b.toNat >>> k from h, Nat.shiftRight_add]
  rfl

/-- The bit at the low end is the next one. -/
theorem ShiftedOut.bit {k : Nat} {b reg : UInt8} (h : ShiftedOut k b reg) :
    (reg &&& 1 ≠ 0) ↔ b.toNat.testBit k = true := by
  have hand : (reg &&& 1).toNat = (b.toNat >>> k) % 2 := by
    rw [UInt8.toNat_and, show reg.toNat = b.toNat >>> k from h]
    exact Nat.and_one_is_mod _
  rw [ne_eq, ← UInt8.toNat_inj, hand, Nat.testBit_eq_decide_div_mod_eq, decide_eq_true_eq,
    Nat.shiftRight_eq_div_pow]
  have hlt := Nat.mod_lt (b.toNat / 2 ^ k) (by decide : 0 < 2)
  show ¬ b.toNat / 2 ^ k % 2 = 0 ↔ _
  omega

/-! ## taking bits in -/

/-- The `k` bits that a register holds after `k` bits have been shifted into it. -/
def highBits (k : Nat) (reg : UInt8) : List Bool :=
  (List.range k).map fun i => reg.toNat.testBit (8 - k + i)

theorem highBits_eight (reg : UInt8) : highBits 8 reg = bitsOfByte reg := by
  simp [highBits, bitsOfByte]

/-- A bit is shifted into a register. -/
def shiftIn (reg : UInt8) (bit : Bool) : UInt8 :=
  if bit then (reg >>> 1) ||| 0x80 else (reg >>> 1) &&& 0x7F

theorem testBit_shiftIn (reg : UInt8) (bit : Bool) {i : Nat} (h : i < 8) :
    (shiftIn reg bit).toNat.testBit i = if i = 7 then bit else reg.toNat.testBit (i + 1) := by
  have hshift : (reg >>> 1).toNat = reg.toNat >>> 1 := by
    rw [UInt8.toNat_shiftRight]
    rfl
  cases bit with
  | true =>
      rw [shiftIn, if_pos rfl, UInt8.toNat_or, Nat.testBit_or, hshift, Nat.testBit_shiftRight,
        Nat.add_comm 1 i]
      interval_cases i <;> simp [Nat.testBit]
  | false =>
      rw [shiftIn, if_neg (by decide), UInt8.toNat_and, Nat.testBit_and, hshift,
        Nat.testBit_shiftRight, Nat.add_comm 1 i]
      interval_cases i <;> simp [Nat.testBit]

/-- What is shifted in comes behind what is there. -/
theorem highBits_shiftIn {k : Nat} (hk : k < 8) (reg : UInt8) (bit : Bool) :
    highBits (k + 1) (shiftIn reg bit) = highBits k reg ++ [bit] := by
  rw [highBits, List.range_succ, List.map_append, List.map_singleton]
  congr 1
  · refine List.map_congr_left fun i hi => ?_
    have hlt := List.mem_range.mp hi
    rw [testBit_shiftIn reg bit (by omega), if_neg (by omega)]
    congr 1
    omega
  · rw [testBit_shiftIn reg bit (by omega), if_pos (by omega)]

end Tilibs.Lib
