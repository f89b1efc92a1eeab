import Mathlib

/-!
# Tilibs.Lib.OnesComplement

Sums with end-around carry.

A checksum of this kind adds the words of a message and folds what is carried
out of the top of a word back in at its bottom, which keeps the sum modulo the
largest word.  A message verifies when its sum folds to the largest word; the
complement of the sum, stored as one more word, makes it do so, and no change
of one byte leaves the sum as it was.
-/

namespace Tilibs.Lib

/-! ## folding the carry -/

variable {B acc : Nat}

theorem div_add_mod_lt (hB : 2 ≤ B) (h : B ≤ acc) : acc / B + acc % B < acc := by
  have hsplit := Nat.div_add_mod acc B
  have hquot : 0 < acc / B := Nat.div_pos h (by omega)
  have hdouble : 2 * (acc / B) ≤ B * (acc / B) := Nat.mul_le_mul_right _ hB
  omega

/-- One turn of the folding keeps the sum modulo the largest word. -/
theorem div_add_mod_modEq (hB : 2 ≤ B) (acc : Nat) : acc / B + acc % B ≡ acc [MOD B - 1] := by
  have hone : B ≡ 1 [MOD B - 1] := by
    have hself : B - 1 + 1 ≡ 0 + 1 [MOD B - 1] :=
      Nat.ModEq.add_right 1 (Nat.modEq_zero_iff_dvd.mpr (dvd_refl _))
    simpa [Nat.sub_add_cancel (by omega : 1 ≤ B)] using hself
  calc acc / B + acc % B
      = 1 * (acc / B) + acc % B := by rw [one_mul]
    _ ≡ B * (acc / B) + acc % B [MOD B - 1] := (hone.symm.mul_right _).add_right _
    _ = acc := Nat.div_add_mod acc B

/-- Add what is above a word of `B` values back in, until nothing is. -/
def endAround (B acc : Nat) : Nat :=
  if _ : 2 ≤ B ∧ B ≤ acc then endAround B (acc / B + acc % B) else acc
termination_by acc
decreasing_by exact div_add_mod_lt (by omega) (by omega)

theorem endAround_of_lt (h : acc < B) : endAround B acc = acc := by
  rw [endAround, dif_neg (by omega)]

theorem endAround_of_le (hB : 2 ≤ B) (h : B ≤ acc) :
    endAround B acc = endAround B (acc / B + acc % B) := by
  rw [endAround, dif_pos ⟨hB, h⟩]

theorem endAround_modEq (hB : 2 ≤ B) (acc : Nat) : endAround B acc ≡ acc [MOD B - 1] := by
  fun_induction endAround B acc with
  | case1 acc h ih => exact ih.trans (div_add_mod_modEq hB acc)
  | case2 acc h => exact Nat.ModEq.refl acc

theorem endAround_lt (hB : 2 ≤ B) (acc : Nat) : endAround B acc < B := by
  fun_induction endAround B acc with
  | case1 acc h ih => exact ih
  | case2 acc h => omega

/-- Only a sum of nothing folds to nothing. -/
theorem endAround_pos (h : 0 < acc) : 0 < endAround B acc := by
  fun_induction endAround B acc with
  | case1 acc hle ih =>
      have hquot : 0 < acc / B := Nat.div_pos hle.2 (by omega)
      exact ih (by omega)
  | case2 acc hlt => exact h

/-- A sum folds to the largest word when it is a multiple of it. -/
theorem endAround_eq_top_iff (hB : 2 ≤ B) :
    endAround B acc = B - 1 ↔ 0 < acc ∧ acc ≡ 0 [MOD B - 1] := by
  have hmod := endAround_modEq hB acc
  constructor
  · intro htop
    constructor
    · by_contra hzero
      rw [endAround_of_lt (by omega)] at htop
      omega
    · rw [htop] at hmod
      exact hmod.symm.trans (Nat.modEq_zero_iff_dvd.mpr (dvd_refl _))
  · rintro ⟨hpos, hzero⟩
    have hdvd := Nat.modEq_zero_iff_dvd.mp (hmod.trans hzero)
    have hle := Nat.le_of_dvd (endAround_pos hpos) hdvd
    have hlt := endAround_lt hB acc
    omega

/-- The complement of a sum makes it verify. -/
theorem endAround_complement (hB : 2 ≤ B) (h : 0 < acc) :
    endAround B (acc + (B - 1 - endAround B acc)) = B - 1 := by
  rw [endAround_eq_top_iff hB]
  constructor
  · omega
  · have hlt := endAround_lt hB acc
    have hsum : acc + (B - 1 - endAround B acc)
        ≡ endAround B acc + (B - 1 - endAround B acc) [MOD B - 1] :=
      (endAround_modEq hB acc).symm.add_right _
    rw [Nat.add_sub_cancel' (by omega)] at hsum
    exact hsum.trans (Nat.modEq_zero_iff_dvd.mpr (dvd_refl _))

/-! ## sums of 16-bit words -/

/-- Sum of the big-endian words; a last odd byte is the high byte of one more. -/
def wordSum : List UInt8 → Nat
  | [] => 0
  | [high] => 256 * high.toNat
  | high :: low :: rest => 256 * high.toNat + low.toNat + wordSum rest

@[simp] theorem wordSum_nil : wordSum [] = 0 := rfl

@[simp] theorem wordSum_singleton (high : UInt8) : wordSum [high] = 256 * high.toNat := rfl

@[simp] theorem wordSum_cons_cons (high low : UInt8) (rest : List UInt8) :
    wordSum (high :: low :: rest) = 256 * high.toNat + low.toNat + wordSum rest := rfl

theorem wordSum_append {xs : List UInt8} (h : xs.length % 2 = 0) (ys : List UInt8) :
    wordSum (xs ++ ys) = wordSum xs + wordSum ys := by
  fun_induction wordSum xs with
  | case1 => simp
  | case2 high => simp at h
  | case3 high low rest ih =>
      have hrest : rest.length % 2 = 0 := by
        simp only [List.length_cons] at h
        omega
      simp only [List.cons_append, wordSum_cons_cons, ih hrest]
      omega

theorem wordSum_le (bs : List UInt8) : wordSum bs ≤ 65535 * ((bs.length + 1) / 2) := by
  fun_induction wordSum bs with
  | case1 => simp
  | case2 high =>
      have hbyte := high.toNat_lt
      simp
      omega
  | case3 high low rest ih =>
      have hhigh := high.toNat_lt
      have hlow := low.toNat_lt
      simp only [List.length_cons]
      omega

/-- What a byte counts for at its place. -/
def byteWeight (i : Nat) : Nat := if i % 2 = 0 then 256 else 1

theorem byteWeight_add_two (i : Nat) : byteWeight (i + 2) = byteWeight i := by
  simp [byteWeight]

theorem wordSum_set (bs : List UInt8) (i : Nat) (b : UInt8) (h : i < bs.length) :
    wordSum (bs.set i b) + byteWeight i * bs[i].toNat = wordSum bs + byteWeight i * b.toNat := by
  fun_induction wordSum bs generalizing i with
  | case1 => simp at h
  | case2 high =>
      obtain rfl : i = 0 := by simpa using h
      simp [byteWeight]
      omega
  | case3 high low rest ih =>
      match i with
      | 0 => simp [byteWeight]; omega
      | 1 => simp [byteWeight]; omega
      | j + 2 =>
          have hstep := ih j (by simpa using h)
          rw [byteWeight_add_two]
          simp only [List.set_cons_succ, wordSum_cons_cons, List.getElem_cons_succ]
          omega

/-- A change of one byte changes the sum modulo the largest word. -/
theorem wordSum_set_not_modEq {bs : List UInt8} {i : Nat} {b : UInt8} (h : i < bs.length)
    (hne : b ≠ bs[i]) : ¬ wordSum (bs.set i b) ≡ wordSum bs [MOD 65535] := by
  intro hmod
  have hset := wordSum_set bs i b h
  have hold := bs[i].toNat_lt
  have hnew := b.toNat_lt
  have hdiff : b.toNat ≠ bs[i].toNat := fun heq => hne (UInt8.toNat_inj.mp heq)
  have hscaled : byteWeight i * b.toNat ≡ byteWeight i * bs[i].toNat [MOD 65535] := by
    have hright := hmod.add_right (byteWeight i * bs[i].toNat)
    rw [hset] at hright
    exact Nat.ModEq.add_left_cancel' _ hright
  unfold byteWeight at hscaled
  split at hscaled
  · have heq := Nat.ModEq.eq_of_lt_of_lt hscaled (by omega) (by omega)
    omega
  · have heq := Nat.ModEq.eq_of_lt_of_lt hscaled (by omega) (by omega)
    omega

end Tilibs.Lib
