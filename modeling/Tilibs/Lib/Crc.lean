import Mathlib

/-!
# Tilibs.Lib.Crc

Cyclic redundancy checks, bit by bit: a register of `w` bits is shifted by one place for each bit
of a message, and a polynomial is added where a one falls out.

* `feed` adds a bit of the message to the place that falls out next;
* `enter` lets it enter at the other end, which leaves the remainder of the message itself.

All of it is linear in exclusive or, so that a register and a message go their ways apart
(`enter_eq_xor`), bits may be added all at once (`feed_eq_iterate_placed`), and places that fall
out without a one only move (`iterate_shiftL_of_clear`, `iterate_shiftR_of_clear`).  No burst of
errors that fits the register is missed (`enter_ne_of_burst`).
-/

namespace Tilibs.Lib

variable {w : Nat}

/-! ## exclusive or -/

/-- The map commutes with exclusive or. -/
def XorLinear (f : BitVec w → BitVec w) : Prop := ∀ x y, f (x ^^^ y) = f x ^^^ f y

/-- The word, or zero. -/
def only (b : Bool) (x : BitVec w) : BitVec w := if b then x else 0#w

@[simp] theorem only_false (x : BitVec w) : only false x = 0#w := rfl

theorem only_xor (a b : Bool) (x : BitVec w) : only (a ^^ b) x = only a x ^^^ only b x := by
  cases a <;> cases b <;> simp [only]

namespace XorLinear

variable {f : BitVec w → BitVec w}

theorem zero (hf : XorLinear f) : f 0#w = 0#w := by
  have h := hf 0#w 0#w
  rw [BitVec.xor_self] at h
  exact h.trans BitVec.xor_self

theorem iterate (hf : XorLinear f) (n : Nat) : XorLinear f^[n] := by
  induction n with
  | zero => exact fun x y => rfl
  | succ n ih =>
      intro x y
      rw [Function.iterate_succ_apply, hf, ih]
      rfl

/-- A linear map that only zero goes to zero under is injective. -/
theorem injective (hf : XorLinear f) (hker : ∀ x, f x = 0#w → x = 0#w) : Function.Injective f := by
  intro x y hxy
  refine BitVec.xor_eq_zero_iff.mp (hker _ ?_)
  rw [hf, hxy]
  exact BitVec.xor_self

end XorLinear

/-! ## registers -/

/-- One place up; the polynomial is added where the most significant bit falls out. -/
def shiftL (poly x : BitVec w) : BitVec w := (x <<< 1) ^^^ only x.msb poly

/-- One place down; the polynomial is added where the least significant bit falls out. -/
def shiftR (poly x : BitVec w) : BitVec w := (x >>> 1) ^^^ only (x.getLsbD 0) poly

/-- A bit in the most significant place. -/
def topBit (w : Nat) (b : Bool) : BitVec w := only b (BitVec.twoPow w (w - 1))

/-- A bit in the least significant place. -/
def lowBit (w : Nat) (b : Bool) : BitVec w := only b (BitVec.twoPow w 0)

/-- The bits of a message, each of which is added before a shift. -/
def feed (S : BitVec w → BitVec w) (place : Bool → BitVec w) (x : BitVec w) (bits : List Bool) :
    BitVec w :=
  bits.foldl (fun x b => S (x ^^^ place b)) x

/-- The bits of a message, each of which is added behind a shift. -/
def enter (S : BitVec w → BitVec w) (place : Bool → BitVec w) (x : BitVec w) (bits : List Bool) :
    BitVec w :=
  bits.foldl (fun x b => S x ^^^ place b) x

/-- The bits of bytes, each byte from its least significant bit on. -/
def lsbBits (bytes : List UInt8) : List Bool :=
  bytes.flatMap fun b => (List.range 8).map b.toBitVec.getLsbD

/-- The bits of bytes, each byte from its most significant bit on. -/
def msbBits (bytes : List UInt8) : List Bool :=
  bytes.flatMap fun b => (List.range 8).map b.toBitVec.getMsbD

/-- The check of `bytes`, most significant bit first. -/
def crcMsb (poly : BitVec w) (bytes : List UInt8) : BitVec w :=
  feed (shiftL poly) (topBit w) 0#w (msbBits bytes)

/-- The reflected check of `bytes`, least significant bit first. -/
def crcLsb (poly : BitVec w) (bytes : List UInt8) : BitVec w :=
  feed (shiftR poly) (lowBit w) 0#w (lsbBits bytes)

/-- The reflected remainder of `bytes`, to which no zeros are appended. -/
def remLsb (poly : BitVec w) (bytes : List UInt8) : BitVec w :=
  enter (shiftR poly) (topBit w) 0#w (lsbBits bytes)

variable {poly x : BitVec w} {S T : BitVec w → BitVec w} {place : Bool → BitVec w}

theorem xorLinear_shiftL (poly : BitVec w) : XorLinear (shiftL poly) := by
  intro x y
  unfold shiftL
  rw [BitVec.shiftLeft_xor_distrib, BitVec.msb_xor, only_xor]
  ac_rfl

theorem xorLinear_shiftR (poly : BitVec w) : XorLinear (shiftR poly) := by
  intro x y
  unfold shiftR
  rw [BitVec.ushiftRight_xor_distrib, BitVec.getLsbD_xor, only_xor]
  ac_rfl

/-! ## registers and messages -/

/-- The register and the message go their ways apart. -/
theorem enter_eq_xor (hS : XorLinear S) (place : Bool → BitVec w) (x : BitVec w)
    (bits : List Bool) :
    enter S place x bits = S^[bits.length] x ^^^ enter S place 0#w bits := by
  induction bits generalizing x with
  | nil => exact BitVec.xor_zero.symm
  | cons b bits ih =>
      have hx := ih (S x ^^^ place b)
      have hzero := ih (S 0#w ^^^ place b)
      unfold enter at hx hzero ⊢
      rw [List.foldl_cons, List.foldl_cons, hx, hzero, hS.zero, (hS.iterate _), BitVec.zero_xor,
        List.length_cons, Function.iterate_succ_apply, BitVec.xor_assoc]

/-- The bits where they are if they are added all at once; `T` undoes a shift. -/
def placed (T : BitVec w → BitVec w) (place : Bool → BitVec w) : List Bool → BitVec w
  | [] => 0#w
  | b :: bits => place b ^^^ T (placed T place bits)

/-- Bits that are fed one after the other may be added all at once. -/
theorem feed_eq_iterate_placed (hS : XorLinear S)
    (hT : ∀ bits : List Bool, bits.length < w → S (T (placed T place bits)) = placed T place bits)
    {bits : List Bool} (hbits : bits.length ≤ w) (x : BitVec w) :
    feed S place x bits = S^[bits.length] (x ^^^ placed T place bits) := by
  induction bits generalizing x with
  | nil => exact BitVec.xor_zero.symm
  | cons b bits ih =>
      have hstep := ih (Nat.le_of_succ_le hbits) (S (x ^^^ place b))
      unfold feed at hstep ⊢
      rw [List.foldl_cons, hstep, placed, List.length_cons, Function.iterate_succ_apply,
        ← BitVec.xor_assoc, hS (x ^^^ place b), hT bits hbits]

/-! ## places that move -/

theorem shiftL_of_msb (h : x.msb = false) : shiftL poly x = x <<< 1 := by
  rw [shiftL, h, only_false, BitVec.xor_zero]

theorem shiftR_of_lsb (h : x.getLsbD 0 = false) : shiftR poly x = x >>> 1 := by
  rw [shiftR, h, only_false, BitVec.xor_zero]

/-- Without a one in the places that fall out, everything moves up. -/
theorem iterate_shiftL_of_clear {k : Nat} (h : ∀ i < k, x.getMsbD i = false) :
    (shiftL poly)^[k] x = x <<< k := by
  induction k with
  | zero => exact (BitVec.shiftLeft_zero x).symm
  | succ k ih =>
      have hmsb : (x <<< k).msb = false := by
        rw [BitVec.msb_shiftLeft]
        exact h k (Nat.lt_succ_self k)
      rw [Function.iterate_succ_apply', ih fun i hi => h i (Nat.lt_succ_of_lt hi),
        shiftL_of_msb hmsb, BitVec.shiftLeft_add]

/-- Without a one in the places that fall out, everything moves down. -/
theorem iterate_shiftR_of_clear {k : Nat} (h : ∀ i < k, x.getLsbD i = false) :
    (shiftR poly)^[k] x = x >>> k := by
  induction k with
  | zero => exact (BitVec.ushiftRight_zero x).symm
  | succ k ih =>
      have hlsb : (x >>> k).getLsbD 0 = false := by
        rw [BitVec.getLsbD_ushiftRight]
        exact h k (Nat.lt_succ_self k)
      rw [Function.iterate_succ_apply', ih fun i hi => h i (Nat.lt_succ_of_lt hi),
        shiftR_of_lsb hlsb, BitVec.shiftRight_add]

/-- The `k` places that fall out at the top. -/
def topPlaces (k : Nat) (x : BitVec w) : BitVec k := (x >>> (w - k)).setWidth k

/-- The places that fall out go their way, and the others move up. -/
theorem iterate_shiftL_eq {k : Nat} (hk : k ≤ w) (poly x : BitVec w) :
    (shiftL poly)^[k] x
      = (shiftL poly)^[k] ((topPlaces k x).setWidth w <<< (w - k)) ^^^ (x <<< k) := by
  have hsplit : x = ((topPlaces k x).setWidth w <<< (w - k)) ^^^ ((x <<< k) >>> k) := by
    unfold topPlaces
    refine BitVec.eq_of_getLsbD_eq fun i hi => ?_
    simp only [BitVec.getLsbD_xor, BitVec.getLsbD_shiftLeft, BitVec.getLsbD_setWidth,
      BitVec.getLsbD_ushiftRight]
    by_cases htop : i < w - k
    · simp [htop, show k + i < w by omega]
    · simp [htop, hi, show ¬(k + i < w) by omega, show i - (w - k) < w by omega,
        show i - (w - k) < k by omega, show w - k + (i - (w - k)) = i by omega]
  have hlow : (shiftL poly)^[k] ((x <<< k) >>> k) = x <<< k := by
    rw [iterate_shiftL_of_clear]
    · refine BitVec.eq_of_getLsbD_eq fun i hi => ?_
      simp only [BitVec.getLsbD_shiftLeft, BitVec.getLsbD_ushiftRight]
      by_cases hlow : i < k
      · simp [hlow]
      · simp [hlow, hi, show k + (i - k) = i by omega]
    · intro i hi
      rw [BitVec.getMsbD_ushiftRight]
      simp [hi]
  conv_lhs => rw [hsplit, (xorLinear_shiftL poly).iterate k, hlow]

/-- The places that fall out go their way, and the others move down. -/
theorem iterate_shiftR_eq (k : Nat) (poly x : BitVec w) :
    (shiftR poly)^[k] x = (shiftR poly)^[k] ((x.setWidth k).setWidth w) ^^^ (x >>> k) := by
  have hsplit : x = (x.setWidth k).setWidth w ^^^ ((x >>> k) <<< k) := by
    refine BitVec.eq_of_getLsbD_eq fun i hi => ?_
    simp only [BitVec.getLsbD_xor, BitVec.getLsbD_shiftLeft, BitVec.getLsbD_setWidth,
      BitVec.getLsbD_ushiftRight]
    by_cases hlow : i < k
    · simp [hlow, hi]
    · simp [hlow, hi, show k + (i - k) = i by omega]
  have hhigh : (shiftR poly)^[k] ((x >>> k) <<< k) = x >>> k := by
    rw [iterate_shiftR_of_clear]
    · refine BitVec.eq_of_getLsbD_eq fun i hi => ?_
      simp only [BitVec.getLsbD_shiftLeft, BitVec.getLsbD_ushiftRight]
      by_cases hin : k + i < w
      · simp [hin]
      · simp [hin, BitVec.getLsbD_of_ge x (k + i) (by omega)]
    · intro i hi
      rw [BitVec.getLsbD_shiftLeft]
      simp [hi]
  conv_lhs => rw [hsplit, (xorLinear_shiftR poly).iterate k, hhigh]

/-! ## bits all at once -/

section Placed

variable {bits : List Bool} {i : Nat}

/-- From the top the bits are in their order. -/
theorem getLsbD_placed_top (bits : List Bool) (hi : i < w) :
    (placed (· >>> 1) (topBit w) bits).getLsbD i = bits.getD (w - 1 - i) false := by
  induction bits generalizing i with
  | nil => simp [placed]
  | cons b bits ih =>
      rw [placed, BitVec.getLsbD_xor, BitVec.getLsbD_ushiftRight]
      by_cases htop : i = w - 1
      · subst htop
        have hout : 1 + (w - 1) = w := by omega
        rw [hout, BitVec.getLsbD_of_ge _ w le_rfl, Nat.sub_self]
        cases b <;> simp [topBit, only, hi]
      · have hnext : w - 1 - i = (w - 1 - (1 + i)) + 1 := by omega
        rw [ih (by omega), hnext, List.getD_cons_succ]
        cases b <;> simp [topBit, only, Ne.symm htop]

/-- From below the bits are in their order. -/
theorem getLsbD_placed_low (bits : List Bool) (hi : i < w) :
    (placed (· <<< 1) (lowBit w) bits).getLsbD i = bits.getD i false := by
  induction bits generalizing i with
  | nil => simp [placed]
  | cons b bits ih =>
      rw [placed, BitVec.getLsbD_xor, BitVec.getLsbD_shiftLeft]
      cases i with
      | zero => cases b <;> simp [lowBit, only, hi]
      | succ i =>
          rw [Nat.add_sub_cancel, ih (by omega), List.getD_cons_succ]
          cases b <;> simp [lowBit, only, hi]

theorem lsb_placed_top (h : bits.length < w) :
    (placed (· >>> 1) (topBit w) bits).getLsbD 0 = false := by
  rw [getLsbD_placed_top bits (by omega)]
  exact List.getD_eq_default bits false (by omega)

theorem msb_placed_low (h : bits.length < w) :
    (placed (· <<< 1) (lowBit w) bits).msb = false := by
  rw [BitVec.msb_eq_getLsbD_last, getLsbD_placed_low bits (by omega)]
  exact List.getD_eq_default bits false (by omega)

theorem feed_shiftL (h : bits.length ≤ w) (poly x : BitVec w) :
    feed (shiftL poly) (topBit w) x bits
      = (shiftL poly)^[bits.length] (x ^^^ placed (· >>> 1) (topBit w) bits) := by
  refine feed_eq_iterate_placed (xorLinear_shiftL poly) (fun bits hbits => ?_) h x
  have hlsb := lsb_placed_top hbits
  generalize placed (· >>> 1) (topBit w) bits = y at hlsb
  have hmsb : (y >>> 1).msb = false := by
    rw [BitVec.msb_ushiftRight]
    rfl
  rw [shiftL_of_msb hmsb]
  refine BitVec.eq_of_getLsbD_eq fun i hi => ?_
  cases i with
  | zero => simp [hlsb]
  | succ i => simp [hi, Nat.add_comm 1 i]

theorem feed_shiftR (h : bits.length ≤ w) (poly x : BitVec w) :
    feed (shiftR poly) (lowBit w) x bits
      = (shiftR poly)^[bits.length] (x ^^^ placed (· <<< 1) (lowBit w) bits) := by
  refine feed_eq_iterate_placed (xorLinear_shiftR poly) (fun bits hbits => ?_) h x
  have hmsb := msb_placed_low hbits
  generalize placed (· <<< 1) (lowBit w) bits = y at hmsb
  have hlsb : (y <<< 1).getLsbD 0 = false := by simp
  rw [shiftR_of_lsb hlsb]
  refine BitVec.eq_of_getLsbD_eq fun i hi => ?_
  rw [BitVec.msb_eq_getLsbD_last] at hmsb
  rw [BitVec.getLsbD_ushiftRight, BitVec.getLsbD_shiftLeft]
  by_cases htop : 1 + i < w
  · simp [htop]
  · obtain rfl : i = w - 1 := by omega
    simp [htop, hmsb]

/-- Bits that have entered are from the top in the other order. -/
theorem enter_shiftR (h : bits.length ≤ w) :
    enter (shiftR poly) (topBit w) 0#w bits = placed (· >>> 1) (topBit w) bits.reverse := by
  induction bits using List.reverseRecOn with
  | nil => rfl
  | append_singleton bits b ih =>
      rw [List.length_append, List.length_singleton] at h
      have hearlier := ih (by omega)
      unfold enter at hearlier ⊢
      rw [List.foldl_append, hearlier, List.foldl_cons, List.foldl_nil, List.reverse_append,
        List.reverse_singleton, List.singleton_append, placed, BitVec.xor_comm,
        shiftR_of_lsb (lsb_placed_top (by rw [List.length_reverse]; omega))]

end Placed

/-! ## bursts of errors -/

section Burst

variable {before burst burst' after : List Bool}

theorem shiftR_injective (hpoly : poly.msb = true) : Function.Injective (shiftR poly) := by
  refine (xorLinear_shiftR poly).injective fun x hx => ?_
  have hlsb : x.getLsbD 0 = false := by
    have hmsb := congrArg BitVec.msb hx
    rw [shiftR, BitVec.msb_xor, BitVec.msb_ushiftRight] at hmsb
    cases hbit : x.getLsbD 0 with
    | false => rfl
    | true => simp [hbit, only, hpoly] at hmsb
  rw [shiftR_of_lsb hlsb] at hx
  refine BitVec.eq_of_getLsbD_eq fun i hi => ?_
  cases i with
  | zero => simpa using hlsb
  | succ i =>
      have hbit := congrArg (fun y => BitVec.getLsbD y i) hx
      simpa [Nat.add_comm 1 i] using hbit

theorem placed_top_injective (hlength : burst.length = burst'.length) (h : burst.length ≤ w)
    (heq : placed (· >>> 1) (topBit w) burst = placed (· >>> 1) (topBit w) burst') :
    burst = burst' := by
  refine List.ext_getElem hlength fun i hi hi' => ?_
  have hbit := congrArg (fun y => BitVec.getLsbD y (w - 1 - i)) heq
  rw [getLsbD_placed_top _ (by omega), getLsbD_placed_top _ (by omega),
    show w - 1 - (w - 1 - i) = i by omega, List.getD_eq_getElem _ _ hi,
    List.getD_eq_getElem _ _ hi'] at hbit
  exact hbit

/-- Messages that differ in a burst that fits the register have different remainders. -/
theorem enter_ne_of_burst (hpoly : poly.msb = true) (hlength : burst.length = burst'.length)
    (h : burst.length ≤ w) (hne : burst ≠ burst') (before after : List Bool) :
    enter (shiftR poly) (topBit w) 0#w (before ++ (burst ++ after))
      ≠ enter (shiftR poly) (topBit w) 0#w (before ++ (burst' ++ after)) := by
  intro heq
  unfold enter at heq
  rw [List.foldl_append, List.foldl_append, List.foldl_append, List.foldl_append] at heq
  have hafter := (enter_eq_xor (xorLinear_shiftR poly) (topBit w) _ after).symm.trans
    (heq.trans (enter_eq_xor (xorLinear_shiftR poly) (topBit w) _ after))
  have hstates := ((shiftR_injective hpoly).iterate _) ((BitVec.xor_left_inj _).mp hafter)
  have hburst := (enter_eq_xor (xorLinear_shiftR poly) (topBit w) _ burst).symm.trans
    (hstates.trans (enter_eq_xor (xorLinear_shiftR poly) (topBit w) _ burst'))
  rw [hlength] at hburst
  have hplaced := (BitVec.xor_right_inj _).mp hburst
  rw [enter_shiftR h, enter_shiftR (hlength ▸ h)] at hplaced
  refine hne (List.reverse_injective (placed_top_injective ?_ ?_ hplaced))
  · rw [List.length_reverse, List.length_reverse, hlength]
  · rw [List.length_reverse]
    exact h

end Burst

/-! ## byte by byte -/

section Bytes

variable {bytes : List UInt8}

/-- A byte at the top of a register. -/
def topByte (w : Nat) (b : UInt8) : BitVec w := b.toBitVec.setWidth w <<< (w - 8)

/-- A byte at the low end of a register. -/
def lowByte (w : Nat) (b : UInt8) : BitVec w := b.toBitVec.setWidth w

theorem placed_top_byte (hw : 8 ≤ w) (b : UInt8) :
    placed (· >>> 1) (topBit w) ((List.range 8).map b.toBitVec.getMsbD) = topByte w b := by
  refine BitVec.eq_of_getLsbD_eq fun i hi => ?_
  rw [getLsbD_placed_top _ hi, topByte, BitVec.getLsbD_shiftLeft, BitVec.getLsbD_setWidth]
  by_cases htop : i < w - 8
  · rw [List.getD_eq_default _ _ (by rw [List.length_map, List.length_range]; omega)]
    simp [htop]
  · simp [BitVec.getMsbD, hi, htop, show w - 1 - i < 8 by omega, show i - (w - 8) < w by omega,
      show 7 - (w - 1 - i) = i - (w - 8) by omega]

theorem placed_low_byte (b : UInt8) :
    placed (· <<< 1) (lowBit w) ((List.range 8).map b.toBitVec.getLsbD) = lowByte w b := by
  refine BitVec.eq_of_getLsbD_eq fun i hi => ?_
  rw [getLsbD_placed_low _ hi, lowByte, BitVec.getLsbD_setWidth]
  by_cases hlow : i < 8
  · simp [hi, hlow]
  · rw [List.getD_eq_default _ _ (by rw [List.length_map, List.length_range]; omega),
      BitVec.getLsbD_of_ge _ i (by omega), Bool.and_false]

/-- The other order of the bits of a byte. -/
theorem reverse_bits (b : BitVec 8) :
    ((List.range 8).map b.getLsbD).reverse = (List.range 8).map b.getMsbD := rfl

theorem crcMsb_eq_foldl (hw : 8 ≤ w) (poly : BitVec w) (bytes : List UInt8) :
    crcMsb poly bytes = bytes.foldl (fun x b => (shiftL poly)^[8] (x ^^^ topByte w b)) 0#w := by
  unfold crcMsb msbBits feed
  rw [List.foldl_flatMap]
  congr 1
  funext x b
  have hbits : ((List.range 8).map b.toBitVec.getMsbD).length = 8 := by simp
  have hstep := feed_shiftL (hbits.trans_le hw) poly x
  rw [placed_top_byte hw, hbits] at hstep
  exact hstep

theorem crcLsb_eq_foldl (hw : 8 ≤ w) (poly : BitVec w) (bytes : List UInt8) :
    crcLsb poly bytes = bytes.foldl (fun x b => (shiftR poly)^[8] (x ^^^ lowByte w b)) 0#w := by
  unfold crcLsb lsbBits feed
  rw [List.foldl_flatMap]
  congr 1
  funext x b
  have hbits : ((List.range 8).map b.toBitVec.getLsbD).length = 8 := by simp
  have hstep := feed_shiftR (hbits.trans_le hw) poly x
  rw [placed_low_byte, hbits] at hstep
  exact hstep

theorem remLsb_eq_foldl (hw : 8 ≤ w) (poly : BitVec w) (bytes : List UInt8) :
    remLsb poly bytes = bytes.foldl (fun x b => (shiftR poly)^[8] x ^^^ topByte w b) 0#w := by
  unfold remLsb lsbBits enter
  rw [List.foldl_flatMap]
  congr 1
  funext x b
  have hbits : ((List.range 8).map b.toBitVec.getLsbD).length = 8 := by simp
  have hstep := enter_eq_xor (xorLinear_shiftR poly) (topBit w) x
    ((List.range 8).map b.toBitVec.getLsbD)
  rw [enter_shiftR (hbits.trans_le hw), reverse_bits, placed_top_byte hw, hbits] at hstep
  exact hstep

theorem length_lsbBits (bytes : List UInt8) : (lsbBits bytes).length = 8 * bytes.length := by
  simp [lsbBits, List.length_flatMap, Nat.mul_comm]

theorem lsbBits_append (bytes bytes' : List UInt8) :
    lsbBits (bytes ++ bytes') = lsbBits bytes ++ lsbBits bytes' := List.flatMap_append

theorem lsbBits_injective : Function.Injective lsbBits := by
  intro bytes bytes' heq
  induction bytes generalizing bytes' with
  | nil =>
      cases bytes' with
      | nil => rfl
      | cons b' bytes' => cases congrArg List.length heq
  | cons b bytes ih =>
      cases bytes' with
      | nil => cases congrArg List.length heq
      | cons b' bytes' =>
          unfold lsbBits at heq
          rw [List.flatMap_cons, List.flatMap_cons] at heq
          obtain ⟨hbits, hrest⟩ := List.append_inj heq (by simp)
          have hb : b = b' := by
            refine UInt8.toBitVec_inj.mp (BitVec.eq_of_getLsbD_eq fun i hi => ?_)
            exact List.map_inj_left.mp hbits i (List.mem_range.mpr hi)
          rw [hb, ih hrest]

/-- No burst of bytes that fits the register is missed. -/
theorem remLsb_ne_of_burst {burst burst' : List UInt8} (hpoly : poly.msb = true)
    (hlength : burst.length = burst'.length) (h : 8 * burst.length ≤ w) (hne : burst ≠ burst')
    (before after : List UInt8) :
    remLsb poly (before ++ (burst ++ after)) ≠ remLsb poly (before ++ (burst' ++ after)) := by
  unfold remLsb
  rw [lsbBits_append, lsbBits_append, lsbBits_append, lsbBits_append]
  refine enter_ne_of_burst hpoly ?_ ?_ (fun heq => hne (lsbBits_injective heq)) _ _
  · rw [length_lsbBits, length_lsbBits, hlength]
  · rw [length_lsbBits]
    exact h

end Bytes

end Tilibs.Lib
