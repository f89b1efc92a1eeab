import Mathlib

/-!
# Tilibs.Lib.Decimal

Decimal digits, and the rounding of rational numbers to a number of significant digits.

A number is rounded half away from zero: its last place is the power of ten that the last
digit to keep stands for, and the magnitude is rounded to a multiple of it.
-/

namespace Tilibs.Lib

/-! ## digits -/

/-- The number that decimal digits make, the most significant first. -/
def decimalNumber (ds : List ℕ) : ℕ := Nat.ofDigits 10 ds.reverse

@[simp] theorem decimalNumber_nil : decimalNumber [] = 0 := rfl

@[simp] theorem decimalNumber_singleton (d : ℕ) : decimalNumber [d] = d := by
  simp [decimalNumber]

theorem decimalNumber_append (ds es : List ℕ) :
    decimalNumber (ds ++ es) = decimalNumber ds * 10 ^ es.length + decimalNumber es := by
  unfold decimalNumber
  rw [List.reverse_append, Nat.ofDigits_append, List.length_reverse]
  ring

theorem decimalNumber_cons (d : ℕ) (ds : List ℕ) :
    decimalNumber (d :: ds) = d * 10 ^ ds.length + decimalNumber ds := by
  rw [← List.singleton_append, decimalNumber_append, decimalNumber_singleton]

@[simp] theorem decimalNumber_zeros (k : ℕ) : decimalNumber (List.replicate k 0) = 0 := by
  simp [decimalNumber]

theorem decimalNumber_lt {ds : List ℕ} (h : ∀ d ∈ ds, d < 10) :
    decimalNumber ds < 10 ^ ds.length := by
  have hlt := Nat.ofDigits_lt_base_pow_length (b := 10) (l := ds.reverse) (by decide)
    (fun d hd => h d (List.mem_reverse.mp hd))
  rwa [List.length_reverse] at hlt

/-- A first digit that is not zero. -/
theorem le_decimalNumber_cons {d : ℕ} (hd : d ≠ 0) (ds : List ℕ) :
    10 ^ ds.length ≤ decimalNumber (d :: ds) := by
  rw [decimalNumber_cons]
  have hmul : 1 * 10 ^ ds.length ≤ d * 10 ^ ds.length :=
    Nat.mul_le_mul_right _ (Nat.one_le_iff_ne_zero.mpr hd)
  omega

/-! ## the leading digit -/

theorem log_eq_of_bounds {x : ℚ} {p : ℤ} (hle : (10 : ℚ) ^ p ≤ x) (hlt : x < 10 ^ (p + 1)) :
    Int.log 10 x = p := by
  have hpos : 0 < x := lt_of_lt_of_le (by positivity) hle
  have hlow : p ≤ Int.log 10 x := (Int.zpow_le_iff_le_log (by decide) hpos).mp (by exact_mod_cast hle)
  have hhigh : Int.log 10 x < p + 1 :=
    (Int.lt_zpow_iff_log_lt (by decide) hpos).mp (by exact_mod_cast hlt)
  omega

/-- Multiplied by a power of ten. -/
theorem log_mul_zpow {x : ℚ} (hx : 0 < x) (k : ℤ) :
    Int.log 10 (x * 10 ^ k) = Int.log 10 x + k := by
  have hten : (10 : ℚ) ≠ 0 := by norm_num
  have hpow : (0 : ℚ) < 10 ^ k := by positivity
  have hlow : (10 : ℚ) ^ Int.log 10 x ≤ x := by
    exact_mod_cast (Int.zpow_le_iff_le_log (b := 10) (by decide) hx).mpr le_rfl
  have hhigh : x < (10 : ℚ) ^ (Int.log 10 x + 1) := by
    exact_mod_cast (Int.lt_zpow_iff_log_lt (b := 10) (by decide) hx).mpr (Int.lt_succ _)
  apply log_eq_of_bounds
  · rw [zpow_add₀ hten]
    exact mul_le_mul_of_nonneg_right hlow hpow.le
  · have hsplit : Int.log 10 x + k + 1 = Int.log 10 x + 1 + k := by ring
    rw [hsplit, zpow_add₀ hten (Int.log 10 x + 1)]
    exact mul_lt_mul_of_pos_right hhigh hpow

/-- The exponent of the leading digit of a number given by its digits. -/
theorem log_decimalNumber {d : ℕ} {ds : List ℕ} (hd : d ≠ 0) (h : ∀ e ∈ d :: ds, e < 10) :
    Int.log 10 (decimalNumber (d :: ds) : ℚ) = ds.length := by
  have hlow := le_decimalNumber_cons hd ds
  have hhigh := decimalNumber_lt h
  apply log_eq_of_bounds
  · rw [zpow_natCast]
    exact_mod_cast hlow
  · have hsucc : (10 : ℚ) ^ ((ds.length : ℤ) + 1) = 10 ^ (d :: ds).length := by
      rw [List.length_cons, ← zpow_natCast, Nat.cast_succ]
    rw [hsucc]
    exact_mod_cast hhigh

/-! ## rounding -/

/-- What one unit of the last of `n` significant digits is worth. -/
def lastPlace (n : ℕ) (v : ℚ) : ℚ := 10 ^ (Int.log 10 |v| + 1 - n)

/-- A number rounded half away from zero to `n` significant digits. -/
def roundSig (n : ℕ) (v : ℚ) : ℚ :=
  (if v < 0 then -1 else 1) * (round (|v| / lastPlace n v) * lastPlace n v)

@[simp] theorem roundSig_zero (n : ℕ) : roundSig n 0 = 0 := by
  simp [roundSig]

theorem roundSig_neg (n : ℕ) (v : ℚ) : roundSig n (-v) = -roundSig n v := by
  have hplace : lastPlace n (-v) = lastPlace n v := by
    unfold lastPlace
    rw [abs_neg]
  unfold roundSig
  rw [hplace, abs_neg]
  by_cases hneg : v < 0
  · rw [if_pos hneg, if_neg (by linarith)]
    ring
  · by_cases hzero : v = 0
    · subst hzero
      simp
    · have hpos : 0 < v := lt_of_le_of_ne (not_lt.mp hneg) (Ne.symm hzero)
      rw [if_neg hneg, if_pos (neg_neg_of_pos hpos)]
      ring

/-- The sign stands apart. -/
theorem roundSig_sign (n : ℕ) (v : ℚ) (negative : Bool) :
    roundSig n ((if negative then -1 else 1) * v)
      = (if negative then -1 else 1) * roundSig n v := by
  cases negative with
  | false => simp
  | true => simp [roundSig_neg]

/-- A number that is not zero does not become zero. -/
theorem roundSig_pos {n : ℕ} (hn : 0 < n) {v : ℚ} (hv : 0 < v) : 0 < roundSig n v := by
  have hten : (10 : ℚ) ≠ 0 := by norm_num
  have hplace : 0 < lastPlace n v := by
    unfold lastPlace
    positivity
  have hlow : (10 : ℚ) ^ Int.log 10 v ≤ v := by
    exact_mod_cast (Int.zpow_le_iff_le_log (b := 10) (by decide) hv).mpr le_rfl
  have hone : (1 : ℚ) ≤ v / lastPlace n v := by
    rw [one_le_div₀ hplace]
    refine le_trans ?_ hlow
    unfold lastPlace
    rw [abs_of_pos hv]
    exact zpow_le_zpow_right₀ (by norm_num) (by omega)
  have hround : (1 : ℤ) ≤ round (v / lastPlace n v) := by
    rw [round_eq, Int.le_floor]
    push_cast
    linarith
  have hcast : (1 : ℚ) ≤ (round (v / lastPlace n v) : ℤ) := by exact_mod_cast hround
  unfold roundSig
  rw [if_neg (not_lt.mpr hv.le), one_mul, abs_of_pos hv]
  exact mul_pos (by linarith) hplace

theorem roundSig_ne_zero {n : ℕ} (hn : 0 < n) {v : ℚ} (hv : v ≠ 0) : roundSig n v ≠ 0 := by
  cases lt_or_gt_of_ne hv with
  | inl hneg =>
      have hpos := roundSig_pos hn (neg_pos.mpr hneg)
      rw [roundSig_neg] at hpos
      linarith
  | inr hpos => exact (roundSig_pos hn hpos).ne'

/-- Rounding does not depend on the scale. -/
theorem roundSig_mul_zpow (n : ℕ) (v : ℚ) (k : ℤ) :
    roundSig n (v * 10 ^ k) = roundSig n v * 10 ^ k := by
  have hten : (10 : ℚ) ≠ 0 := by norm_num
  have hpow : (0 : ℚ) < 10 ^ k := by positivity
  have hpos : ∀ v : ℚ, 0 < v → roundSig n (v * 10 ^ k) = roundSig n v * 10 ^ k := by
    intro v hv
    have hprod : 0 < v * 10 ^ k := mul_pos hv hpow
    have hplace : lastPlace n (v * 10 ^ k) = lastPlace n v * 10 ^ k := by
      unfold lastPlace
      rw [abs_of_pos hprod, abs_of_pos hv, log_mul_zpow hv, ← zpow_add₀ hten]
      congr 1
      ring
    unfold roundSig
    rw [hplace, abs_of_pos hprod, abs_of_pos hv, if_neg (not_lt.mpr hprod.le),
      if_neg (not_lt.mpr hv.le), mul_div_mul_right _ _ hpow.ne']
    ring
  rcases lt_trichotomy v 0 with hneg | hzero | hv
  · have hflip := hpos (-v) (neg_pos.mpr hneg)
    rw [neg_mul, roundSig_neg, roundSig_neg, neg_mul] at hflip
    exact neg_injective hflip
  · rw [hzero, zero_mul, roundSig_zero, zero_mul]
  · exact hpos v hv

/-- One digit more decides. -/
theorem round_digit {F d r j : ℕ} (hd : d < 10) (hr : r < 10 ^ j) :
    round ((((F * 10 + d) * 10 ^ j + r : ℕ) : ℚ) / 10 ^ (j + 1))
      = ((F + if 5 ≤ d then 1 else 0 : ℕ) : ℤ) := by
  have hpow : (0 : ℚ) < 10 ^ (j + 1) := by positivity
  have hr' : (r : ℚ) < 10 ^ j := by exact_mod_cast hr
  have hr0 : (0 : ℚ) ≤ r := Nat.cast_nonneg r
  have hj : (0 : ℚ) < 10 ^ j := by positivity
  rw [round_eq_iff, Set.mem_Ico, le_div_iff₀ hpow, div_lt_iff₀ hpow, pow_succ]
  push_cast
  by_cases hfive : 5 ≤ d
  · have hlow : (5 : ℚ) ≤ d := by exact_mod_cast hfive
    have hhigh : (d : ℚ) ≤ 9 := by exact_mod_cast Nat.le_of_lt_succ hd
    rw [if_pos hfive]
    constructor
    · nlinarith only [hlow, hj, hr0]
    · nlinarith only [hhigh, hj, hr']
  · have hhigh : (d : ℚ) ≤ 4 := by exact_mod_cast Nat.le_of_lt_succ (Nat.lt_of_not_le hfive)
    have hlow : (0 : ℚ) ≤ d := Nat.cast_nonneg d
    rw [if_neg hfive]
    constructor
    · nlinarith only [hlow, hj, hr0]
    · nlinarith only [hhigh, hj, hr']

/-- The first `n` digits, with zeros when there are fewer. -/
def firstDigits (n : ℕ) (ds : List ℕ) : List ℕ := ds.take n ++ List.replicate (n - ds.length) 0

/-- A number given by its digits, of which the first is not zero: the first `n` digits are
kept, and the next one rounds them. -/
theorem roundSig_decimalNumber (n : ℕ) {d : ℕ} {ds : List ℕ} (hd : d ≠ 0)
    (h : ∀ e ∈ d :: ds, e < 10) :
    roundSig n (decimalNumber (d :: ds))
      = (decimalNumber (firstDigits n (d :: ds)) + if 5 ≤ (d :: ds).getD n 0 then 1 else 0)
        * 10 ^ ((ds.length : ℤ) + 1 - n) := by
  have hten : (10 : ℚ) ≠ 0 := by norm_num
  have hpos : (0 : ℚ) < decimalNumber (d :: ds) := by
    have hle := le_decimalNumber_cons hd ds
    have hpow : 0 < 10 ^ ds.length := by positivity
    exact_mod_cast lt_of_lt_of_le hpow hle
  have hplace : lastPlace n (decimalNumber (d :: ds) : ℚ) = 10 ^ ((ds.length : ℤ) + 1 - n) := by
    unfold lastPlace
    rw [abs_of_pos hpos, log_decimalNumber hd h]
  unfold roundSig
  rw [hplace, abs_of_pos hpos, if_neg (not_lt.mpr hpos.le), one_mul]
  by_cases hlen : (d :: ds).length ≤ n
  · -- every digit is kept
    have hget : (d :: ds).getD n 0 = 0 := List.getD_eq_default _ _ hlen
    have hfirst : decimalNumber (firstDigits n (d :: ds))
        = decimalNumber (d :: ds) * 10 ^ (n - (d :: ds).length) := by
      unfold firstDigits
      rw [List.take_of_length_le hlen, decimalNumber_append, decimalNumber_zeros,
        List.length_replicate, Nat.add_zero]
    have hscale : (10 : ℚ) ^ (n - (d :: ds).length) = (10 ^ ((ds.length : ℤ) + 1 - n))⁻¹ := by
      rw [← zpow_neg, ← zpow_natCast, Nat.cast_sub hlen, List.length_cons]
      congr 1
      push_cast
      ring
    have hint : (decimalNumber (d :: ds) : ℚ) / 10 ^ ((ds.length : ℤ) + 1 - n)
        = (decimalNumber (firstDigits n (d :: ds)) : ℕ) := by
      rw [hfirst, Nat.cast_mul, Nat.cast_pow, Nat.cast_ofNat, hscale, div_eq_mul_inv]
    rw [hint, round_natCast, hget]
    simp
  · -- the digit after the first `n` rounds
    have hlt : n < (d :: ds).length := Nat.lt_of_not_le hlen
    have hsplit : d :: ds = (d :: ds).take n ++ (d :: ds).getD n 0 :: (d :: ds).drop (n + 1) := by
      rw [List.getD_eq_getElem _ _ hlt, ← List.drop_eq_getElem_cons hlt, List.take_append_drop]
    have hfirst : firstDigits n (d :: ds) = (d :: ds).take n := by
      unfold firstDigits
      rw [Nat.sub_eq_zero_of_le hlt.le, List.replicate_zero, List.append_nil]
    have hnext : (d :: ds).getD n 0 < 10 := by
      rw [List.getD_eq_getElem _ _ hlt]
      exact h _ (List.getElem_mem hlt)
    have hrest : decimalNumber ((d :: ds).drop (n + 1)) < 10 ^ ((d :: ds).drop (n + 1)).length :=
      decimalNumber_lt fun e he => h e (List.mem_of_mem_drop he)
    have hnumber : decimalNumber (d :: ds)
        = (decimalNumber ((d :: ds).take n) * 10 + (d :: ds).getD n 0)
            * 10 ^ ((d :: ds).drop (n + 1)).length
          + decimalNumber ((d :: ds).drop (n + 1)) := by
      conv => lhs; rw [hsplit]
      rw [decimalNumber_append, decimalNumber_cons, List.length_cons, pow_succ]
      ring
    have hexp : (10 : ℚ) ^ ((ds.length : ℤ) + 1 - n) = 10 ^ (((d :: ds).drop (n + 1)).length + 1) := by
      rw [← zpow_natCast, List.length_drop, Nat.cast_add, Nat.cast_sub hlt, List.length_cons]
      congr 1
      push_cast
      ring
    have hround := round_digit (F := decimalNumber ((d :: ds).take n)) hnext hrest
    rw [← hnumber, ← hexp] at hround
    rw [hround, hfirst]
    push_cast
    rfl

end Tilibs.Lib
