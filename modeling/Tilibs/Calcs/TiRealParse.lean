import Mathlib
import Tilibs.Lib.Decimal
import Tilibs.Calcs.ListGrammar

/-!
# Tilibs.Calcs.TiRealParse

What `tixx_parse_decimal_to_ti_real` stores for a number of the list grammar.

The exponent's digits are read up to the one that takes it over 100000.  With the exponent
that has been read, the number is rounded to fourteen digits as it should be, whatever its
length; so it is the number itself that is stored unless digits of the exponent are left out.
-/

namespace Tilibs.Calcs

open Lib

/-! ## the value of a number -/

def digitValue (c : UInt8) : ℕ := c.toNat - 0x30

/-- The number that digits make. -/
def charsNumber (cs : List UInt8) : ℕ := decimalNumber (cs.map digitValue)

def ExponentText.value (e : ExponentText) : ℤ :=
  (if e.sign = some 0x2D then -1 else 1) * charsNumber e.digits

/-- The exponent as it is written. -/
def Numeral.exponent (t : Numeral) : ℤ := (t.exp.map ExponentText.value).getD 0

def Numeral.fracDigits (t : Numeral) : List UInt8 := t.frac.getD []

def Numeral.negative (t : Numeral) : Bool := t.sign = some 0x2D

/-- The value of a number. -/
def Numeral.value (t : Numeral) : ℚ :=
  (if t.negative then -1 else 1)
    * (charsNumber (t.int ++ t.fracDigits) * 10 ^ (t.exponent - t.fracDigits.length))

/-- The value of a TI real: one digit before the point. -/
def TiRealValue.number (value : TiRealValue) : ℚ :=
  (if value.negative then -1 else 1) * (charsNumber value.digits.val * 10 ^ (value.exp10 - 13))

/-- The exponent of a number when it has been rounded; 0 for zero. -/
def roundedExponent (v : ℚ) : ℤ := Int.log 10 |roundSig 14 v|

/-- The number has no place in the format. -/
def OutOfRange (is8586 : Bool) (v : ℚ) : Prop := expLimit is8586 < |roundedExponent v|

/-- What the conversion of the number `v` is to give: an error when its rounded exponent is out
of range, and else the real that the rounded number is. -/
structure StoresRounded (is8586 : Bool) (v : ℚ) (result : Except LabErr (List UInt8)) : Prop where
  error_iff : (∃ e, result = .error e) ↔ OutOfRange is8586 v
  stored : ∀ real, result = .ok real → CanonicalReal is8586 real
    ∧ ∃ value, tixxDecodeTiRealDigits real is8586 = .ok value ∧ value.Canonical is8586
      ∧ value.number = roundSig 14 v

/-! ## the digits of the exponent -/

/-- The digits up to the one that takes the number over 100000. -/
def cutDigits : ℕ → List UInt8 → List UInt8
  | _, [] => []
  | n, c :: cs => if n ≤ 100000 then c :: cutDigits (n * 10 + digitValue c) cs else []

/-- The number with the digits of its exponent that are read. -/
def Numeral.cut (t : Numeral) : Numeral :=
  { t with exp := t.exp.map fun e => { e with digits := cutDigits 0 e.digits } }

theorem charsNumber_append (cs ds : List UInt8) :
    charsNumber (cs ++ ds) = charsNumber cs * 10 ^ ds.length + charsNumber ds := by
  unfold charsNumber
  rw [List.map_append, decimalNumber_append, List.length_map]

theorem charsNumber_cons (c : UInt8) (cs : List UInt8) :
    charsNumber (c :: cs) = digitValue c * 10 ^ cs.length + charsNumber cs := by
  unfold charsNumber
  rw [List.map_cons, decimalNumber_cons, List.length_map]

@[simp] theorem charsNumber_nil : charsNumber [] = 0 := rfl

theorem digitValue_of_isDigit {c : UInt8} (h : isDigit c = true) :
    digitValue c < 10 ∧ ((c.toNat : ℤ) - 0x30 = digitValue c) := by
  simp only [isDigit, Bool.and_eq_true, decide_eq_true_eq, UInt8.le_iff_toNat_le] at h
  have hlow : 0x30 ≤ c.toNat := h.1
  have hhigh : c.toNat ≤ 0x39 := h.2
  unfold digitValue
  omega

/-- The loop over the exponent stops taking digits in when it is over 100000. -/
theorem scanExponentDigits_eq (n : ℕ) {cs rest : List UInt8} (h : AllDigits cs)
    (hrest : Stops rest) :
    scanExponentDigits n (cs ++ rest)
      = (n * 10 ^ (cutDigits n cs).length + charsNumber (cutDigits n cs) : ℕ) := by
  induction cs generalizing n with
  | nil =>
      rw [List.nil_append, scanExponentDigits_stops hrest]
      simp [cutDigits]
  | cons c cs ih =>
      obtain ⟨hc, hcs⟩ := List.forall_mem_cons.mp h
      rw [List.cons_append, scanExponentDigits, if_pos hc]
      dsimp only
      by_cases hn : n ≤ 100000
      · have hnext : (n : ℤ) * 10 + (c.toNat - 0x30) = (n * 10 + digitValue c : ℕ) := by
          rw [(digitValue_of_isDigit hc).2]
          push_cast
          rfl
        rw [if_pos (by exact_mod_cast hn), hnext, ih _ hcs, cutDigits, if_pos hn, charsNumber_cons,
          List.length_cons, pow_succ]
        congr 1
        ring
      · have hcut : cutDigits n cs = [] := by
          cases cs with
          | nil => rfl
          | cons c' cs => exact if_neg hn
        have hbound : ¬(n : ℤ) ≤ 100000 := by exact_mod_cast hn
        rw [if_neg hbound, ih _ hcs, hcut, cutDigits, if_neg hn]

/-- Digits that are left out make the number larger. -/
theorem charsNumber_cutDigits_lt {n : ℕ} {cs : List UInt8} (hcut : cutDigits n cs ≠ cs) :
    n * 10 ^ (cutDigits n cs).length + charsNumber (cutDigits n cs)
      < n * 10 ^ cs.length + charsNumber cs := by
  induction cs generalizing n with
  | nil => exact absurd rfl hcut
  | cons c cs ih =>
      by_cases hn : n ≤ 100000
      · rw [cutDigits, if_pos hn] at hcut ⊢
        have hrest : cutDigits (n * 10 + digitValue c) cs ≠ cs := fun heq => hcut (by rw [heq])
        have hlt := ih hrest
        rw [charsNumber_cons, charsNumber_cons, List.length_cons, List.length_cons, pow_succ,
          pow_succ]
        calc _ = (n * 10 + digitValue c) * 10 ^ (cutDigits (n * 10 + digitValue c) cs).length
              + charsNumber (cutDigits (n * 10 + digitValue c) cs) := by ring
          _ < (n * 10 + digitValue c) * 10 ^ cs.length + charsNumber cs := hlt
          _ = _ := by ring
      · rw [cutDigits, if_neg hn, charsNumber_cons, List.length_cons]
        have hpow : 10 ^ 1 ≤ 10 ^ (cs.length + 1) := Nat.pow_le_pow_right (by decide) (by omega)
        have hmul : n * 10 ^ 1 ≤ n * 10 ^ (cs.length + 1) := Nat.mul_le_mul_left n hpow
        simp only [List.length_nil, pow_zero, charsNumber_nil]
        omega

/-! ## what the scanner finds -/

theorem scanExponent_of_ne {c : UInt8} (hminus : c ≠ 0x2D) (hplus : c ≠ 0x2B) (cs : List UInt8) :
    scanExponent (c :: cs) = scanExponentDigits 0 (c :: cs) := by
  unfold scanExponent
  split
  · rename_i heq
    exact absurd (List.cons.inj heq).1 hminus
  · rename_i heq
    exact absurd (List.cons.inj heq).1 hplus
  · rfl

/-- The exponent that is read. -/
theorem scanExponent_eq {e : ExponentText} (h : e.WellFormed) {rest : List UInt8}
    (hrest : Stops rest) :
    scanExponent (e.sign.toList ++ e.digits ++ rest)
      = ExponentText.value { e with digits := cutDigits 0 e.digits } := by
  have hdigits : scanExponentDigits 0 (e.digits ++ rest) = charsNumber (cutDigits 0 e.digits) := by
    have heq := scanExponentDigits_eq 0 h.digits hrest
    simpa using heq
  unfold ExponentText.value
  cases hsign : e.sign with
  | none =>
      obtain ⟨c, cs, hcs⟩ := List.exists_cons_of_ne_nil h.digits_ne
      obtain ⟨-, -, -, -, hminus, hplus, -⟩ :=
        isDigit_ne (h.digits c (by rw [hcs]; exact List.mem_cons_self))
      have hscan : scanExponent (e.digits ++ rest) = scanExponentDigits 0 (e.digits ++ rest) := by
        rw [hcs, List.cons_append]
        exact scanExponent_of_ne hminus hplus _
      simp only [Option.toList_none, List.nil_append, reduceCtorEq, if_false, one_mul]
      rw [hscan, hdigits]
  | some b =>
      rcases h.sign b hsign with rfl | rfl
      · show -scanExponentDigits 0 (e.digits ++ rest) = _
        rw [hdigits]
        simp
      · show scanExponentDigits 0 (e.digits ++ rest) = _
        rw [hdigits]
        simp

/-- Up to the exponent. -/
theorem scanDecimal_mantissa {t : Numeral} (h : t.WellFormed) (tail : List UInt8) :
    ∃ s : DecimalScan, scanDecimal {} (t.int ++ (fracText t.frac ++ tail)) = scanDecimal s tail
      ∧ s.Found (t.int ++ t.fracDigits) ∧ s.nInt = t.int.length ∧ s.exponent = 0 := by
  have hfound := found_nil.digits t.int
  obtain ⟨hnInt, hexponent, -⟩ := foldl_digit_other t.int {}
  unfold Numeral.fracDigits
  rw [scanDecimal_digits h.int]
  cases hfrac : t.frac with
  | none =>
      refine ⟨_, rfl, ?_, by simpa using hnInt, hexponent⟩
      simpa using hfound
  | some ds =>
      have hpoint : DecimalScan.Found { t.int.foldl DecimalScan.digit {} with seenDot := true }
          ([] ++ t.int) := ⟨hfound.pos, hfound.significant, hfound.firstSig⟩
      obtain ⟨hnInt', hexponent', -⟩ :=
        foldl_digit_other ds { t.int.foldl DecimalScan.digit {} with seenDot := true }
      refine ⟨_, ?_, hpoint.digits ds, ?_, hexponent'.trans hexponent⟩
      · show scanDecimal { t.int.foldl DecimalScan.digit {} with seenDot := true } (ds ++ tail) = _
        rw [scanDecimal_digits (h.frac ds hfrac)]
      · rw [hnInt', hnInt]
        simp

/-- The digits of a number, how many stand before the point, and the exponent that is read. -/
theorem scanDecimal_numeral {t : Numeral} (h : t.WellFormed) {rest : List UInt8}
    (hrest : Stops rest) :
    let s := scanDecimal {} (t.int ++ (fracText t.frac ++ (expText t.exp ++ rest)))
    s.Found (t.int ++ t.fracDigits) ∧ s.nInt = t.int.length ∧ s.exponent = t.cut.exponent := by
  intro s
  obtain ⟨s', hscan, hfound, hnInt, hexponent⟩ := scanDecimal_mantissa h (expText t.exp ++ rest)
  have hs : s = scanDecimal s' (expText t.exp ++ rest) := hscan
  cases hexp : t.exp with
  | none =>
      have hcut : t.cut.exponent = 0 := by simp [Numeral.exponent, Numeral.cut, hexp]
      rw [hs, hexp, expText, List.nil_append, scanDecimal_stops hrest, hcut]
      exact ⟨hfound, hnInt, hexponent⟩
  | some e =>
      have he := h.exp e hexp
      have hcut : t.cut.exponent = ExponentText.value { e with digits := cutDigits 0 e.digits } := by
        simp [Numeral.exponent, Numeral.cut, hexp]
      have hletter : e.letter ≠ 0x20 ∧ e.letter ≠ 0x2E := by
        rcases he.letter with hl | hl <;> rw [hl] <;> decide
      have hlast : s = { s' with exponent := scanExponent (e.sign.toList ++ e.digits ++ rest) } := by
        rw [hs, hexp, expText, List.cons_append, scanDecimal, if_neg hletter.1, if_neg hletter.2,
          if_pos he.letter]
      rw [hlast, hcut]
      exact ⟨⟨hfound.pos, hfound.significant, hfound.firstSig⟩, hnInt, scanExponent_eq he hrest⟩

/-- The conversion of a number, from its digits and the exponent that is read. -/
theorem tixxParseDecimalToTiReal_numeral {t : Numeral} (h : t.WellFormed) {rest : List UInt8}
    (hrest : Stops rest) (is8586 : Bool) :
    tixxParseDecimalToTiReal (t.chars ++ rest) is8586 =
      if significantDigits (t.int ++ t.fracDigits) = [] then
        .ok (tixxEncodeTiRealDigits false zeroDigits 0 is8586)
      else
        let r := roundDigits ((significantDigits (t.int ++ t.fracDigits)).take 15)
          (t.int.length + t.cut.exponent - leadingZeros (t.int ++ t.fracDigits) - 1)
        if r.2 > expLimit is8586 ∨ r.2 < -expLimit is8586 then .error .outOfRange
        else .ok (tixxEncodeTiRealDigits t.negative r.1 r.2 is8586) := by
  obtain ⟨hfound, hnInt, hexponent⟩ := scanDecimal_numeral h hrest
  have hbody : t.chars ++ rest
      = t.sign.toList ++ (t.int ++ (fracText t.frac ++ (expText t.exp ++ rest))) := by
    simp [Numeral.chars]
  -- the first character is the sign, a digit or the dot
  have hfirst : ∃ c cs, t.chars ++ rest = c :: cs ∧ c ≠ 0x20 ∧ decide (c = 0x2D) = t.negative
      ∧ (if c = 0x2D ∨ c = 0x2B then cs else c :: cs)
        = t.int ++ (fracText t.frac ++ (expText t.exp ++ rest)) := by
    rw [hbody]
    unfold Numeral.negative
    cases hsign : t.sign with
    | some b =>
        refine ⟨b, _, rfl, ?_, ?_, if_pos (h.sign b hsign)⟩
        · rcases h.sign b hsign with rfl | rfl <;> decide
        · simp
    | none =>
        have hhead : ∃ c cs, t.int ++ (fracText t.frac ++ (expText t.exp ++ rest)) = c :: cs
            ∧ (isDigit c = true ∨ c = 0x2E) := by
          cases hint : t.int with
          | cons c cs =>
              exact ⟨c, _, rfl, Or.inl (h.int c (by rw [hint]; exact List.mem_cons_self))⟩
          | nil =>
              cases hfrac : t.frac with
              | some ds => exact ⟨0x2E, _, rfl, Or.inr rfl⟩
              | none =>
                  have hne := h.digits_ne
                  simp [hint, hfrac] at hne
        obtain ⟨c, cs, hcs, hc⟩ := hhead
        have hne : c ≠ 0x20 ∧ c ≠ 0x2D ∧ c ≠ 0x2B := by
          cases hc with
          | inl hdigit =>
              obtain ⟨hspace, -, -, -, hminus, hplus, -⟩ := isDigit_ne hdigit
              exact ⟨hspace, hminus, hplus⟩
          | inr hdot => rw [hdot]; decide
        refine ⟨c, cs, hcs, hne.1, by simp [hne.2.1], ?_⟩
        rw [if_neg (fun hor => hor.elim hne.2.1 hne.2.2), hcs]
  obtain ⟨c, cs, hchars, hspace, hneg, htail⟩ := hfirst
  unfold tixxParseDecimalToTiReal
  rw [hchars]
  dsimp only
  rw [if_neg hspace, htail, hfound.firstSig, hneg]
  by_cases hzero : significantDigits (t.int ++ t.fracDigits) = []
  · rw [if_pos hzero, if_pos hzero]
  · rw [if_neg hzero, if_neg hzero, hfound.significant, hnInt, hexponent]

/-! ## rounding the digits -/

theorem AllDigits.digitValue_lt {cs : List UInt8} (h : AllDigits cs) :
    ∀ d ∈ cs.map digitValue, d < 10 := by
  intro d hd
  obtain ⟨c, hc, rfl⟩ := List.mem_map.mp hd
  exact (digitValue_of_isDigit (h c hc)).1

theorem AllDigits.charsNumber_lt {cs : List UInt8} (h : AllDigits cs) :
    charsNumber cs < 10 ^ cs.length := by
  have hlt := decimalNumber_lt h.digitValue_lt
  rwa [List.length_map] at hlt

theorem digitValue_ne_zero {c : UInt8} (h : isDigit c = true) (hc : c ≠ 0x30) :
    digitValue c ≠ 0 := by
  intro hzero
  have hval := (digitValue_of_isDigit h).2
  rw [hzero] at hval
  apply hc
  rw [← UInt8.toNat_inj]
  show c.toNat = 0x30
  omega

/-- Digits whose number is large enough do not start with a zero. -/
theorem head_ne_zero_of_le {cs : List UInt8} {n : ℕ} (h : AllDigits cs) (hlen : cs.length = n + 1)
    (hle : 10 ^ n ≤ charsNumber cs) : cs.headI ≠ 0x30 := by
  cases cs with
  | nil => cases hlen
  | cons c cs =>
      have hrest : AllDigits cs := fun d hd => h d (List.mem_cons_of_mem c hd)
      have hlt := hrest.charsNumber_lt
      have hn : cs.length = n := Nat.succ.inj hlen
      intro hzero
      have hc : c = 0x30 := hzero
      have hvalue : digitValue 0x30 = 0 := rfl
      rw [charsNumber_cons, hc, hvalue, Nat.zero_mul, Nat.zero_add] at hle
      rw [hn] at hlt
      omega

theorem le_charsNumber {c : UInt8} {cs : List UInt8} (h : AllDigits (c :: cs)) (hc : c ≠ 0x30) :
    10 ^ cs.length ≤ charsNumber (c :: cs) := by
  have hne := digitValue_ne_zero (h c List.mem_cons_self) hc
  have hle := le_decimalNumber_cons hne (cs.map digitValue)
  rwa [List.length_map] at hle

theorem isDigit_add_one {c : UInt8} (h : isDigit c = true) (hc : c ≠ 0x39) :
    isDigit (c + 1) = true ∧ digitValue (c + 1) = digitValue c + 1 := by
  have hall : ∀ n < 256, isDigit (UInt8.ofNat n) = true → UInt8.ofNat n ≠ 0x39 →
      isDigit (UInt8.ofNat n + 1) = true
        ∧ digitValue (UInt8.ofNat n + 1) = digitValue (UInt8.ofNat n) + 1 := by
    decide +kernel
  have hc' := hall c.toNat c.toNat_lt
  rw [UInt8.ofNat_toNat] at hc'
  exact hc' h hc

theorem charsNumber_concat (cs : List UInt8) (c : UInt8) :
    charsNumber (cs ++ [c]) = charsNumber cs * 10 + digitValue c := by
  rw [charsNumber_append, charsNumber_cons]
  simp

/-- The carry chain adds one. -/
theorem addOne_spec {ds : List UInt8} (h : AllDigits ds) :
    (addOne ds).1.length = ds.length ∧ AllDigits (addOne ds).1
      ∧ charsNumber (addOne ds).1.reverse + (if (addOne ds).2 then 10 ^ ds.length else 0)
        = charsNumber ds.reverse + 1 := by
  induction ds with
  | nil => exact ⟨rfl, allDigits_nil, rfl⟩
  | cons d ds ih =>
      obtain ⟨hd, hds⟩ := List.forall_mem_cons.mp h
      by_cases hnine : d = 0x39
      · obtain ⟨hlen, hdigits, hnumber⟩ := ih hds
        have hzero : digitValue 0x30 = 0 := rfl
        have hvalue : digitValue d = 9 := by rw [hnine]; rfl
        rw [addOne, if_pos hnine]
        refine ⟨by rw [List.length_cons, List.length_cons, hlen], hdigits.cons rfl, ?_⟩
        rw [List.reverse_cons, List.reverse_cons, charsNumber_concat, charsNumber_concat, hzero,
          hvalue, List.length_cons, pow_succ]
        split at hnumber
        · rename_i hcarry
          rw [if_pos hcarry]
          omega
        · rename_i hcarry
          rw [if_neg hcarry]
          omega
      · obtain ⟨hdigit, hvalue⟩ := isDigit_add_one hd hnine
        rw [addOne, if_neg hnine]
        refine ⟨rfl, AllDigits.cons hdigit hds, ?_⟩
        rw [List.reverse_cons, List.reverse_cons, charsNumber_concat, charsNumber_concat, hvalue]
        simp only [Bool.false_eq_true, if_false]
        omega

/-- The number that the first fourteen digits make, rounded by the fifteenth. -/
def roundedDigits (sd : List UInt8) : ℕ :=
  decimalNumber (firstDigits 14 (sd.map digitValue))
    + if 5 ≤ (sd.map digitValue).getD 14 0 then 1 else 0

theorem digitValue_five {c : UInt8} : c ≥ 0x35 ↔ 5 ≤ digitValue c := by
  have hle : c ≥ 0x35 ↔ 0x35 ≤ c.toNat := UInt8.le_iff_toNat_le
  unfold digitValue
  rw [hle]
  omega

/-- The fifteenth digit, where there is one. -/
theorem fifteenth_iff (sd : List UInt8) :
    (sd.take 15).length = 15 ∧ (sd.take 15).getD 14 0 ≥ 0x35
      ↔ 5 ≤ (sd.map digitValue).getD 14 0 := by
  by_cases hlen : 14 < sd.length
  · have hget : (sd.take 15).getD 14 0 = sd[14] := by
      rw [List.getD_eq_getElem _ _ (by rw [List.length_take]; omega), List.getElem_take]
    have hget' : (sd.map digitValue).getD 14 0 = digitValue sd[14] := by
      rw [List.getD_eq_getElem _ _ (by rw [List.length_map]; exact hlen), List.getElem_map]
    rw [hget, hget', List.length_take, digitValue_five]
    constructor
    · exact fun h => h.2
    · exact fun h => ⟨by omega, h⟩
  · have hget : (sd.map digitValue).getD 14 0 = 0 :=
      List.getD_eq_default _ _ (by rw [List.length_map]; omega)
    rw [hget, List.length_take]
    constructor
    · intro h
      omega
    · intro h
      omega

/-- Fourteen digits, the first of them not zero, and the exponent of the first. -/
theorem roundDigits_spec {d : UInt8} {ds : List UInt8} (h : AllDigits (d :: ds)) (hd : d ≠ 0x30)
    (exp10 : ℤ) :
    let r := roundDigits ((d :: ds).take 15) exp10
    r.1.length = 14 ∧ AllDigits r.1 ∧ r.1.headI ≠ 0x30
      ∧ (charsNumber r.1 : ℚ) * 10 ^ (r.2 - 13) = roundedDigits (d :: ds) * 10 ^ (exp10 - 13) := by
  intro r
  let digits := padRight 14 0x30 (((d :: ds).take 15).take 14)
  have htake : ((d :: ds).take 15).take 14 = (d :: ds).take 14 := by rw [List.take_take]; rfl
  have hlen : digits.length = 14 := length_padRight (by rw [List.length_take]; omega)
  have hdigits : AllDigits digits := by
    intro c hc
    cases List.mem_append.mp hc with
    | inl hmem => exact h c (List.mem_of_mem_take (List.mem_of_mem_take hmem))
    | inr hzero => rw [(List.mem_replicate.mp hzero).2]; rfl
  have hnumber : charsNumber digits = decimalNumber (firstDigits 14 ((d :: ds).map digitValue)) := by
    unfold charsNumber digits padRight firstDigits
    have hzero : digitValue 0x30 = 0 := rfl
    rw [htake, List.map_append, List.map_take, List.map_replicate, hzero, List.length_take,
      List.length_map]
    congr 3
    omega
  have hlow : 10 ^ 13 ≤ charsNumber digits := by
    have hcons : digits = d :: digits.tail := by
      unfold digits
      rw [htake]
      rfl
    have htail : digits.tail.length = 13 := by rw [List.length_tail, hlen]
    have hle := le_charsNumber (hcons ▸ hdigits) hd
    rw [htail, ← hcons] at hle
    exact hle
  by_cases hup : 5 ≤ ((d :: ds).map digitValue).getD 14 0
  · have hrounded : roundedDigits (d :: ds) = charsNumber digits + 1 := by
      rw [roundedDigits, if_pos hup, hnumber]
    have hr : r = (if (addOne digits.reverse).2 then (0x31 :: List.replicate 13 0x30, exp10 + 1)
        else ((addOne digits.reverse).1.reverse, exp10)) := by
      show roundDigits _ _ = _
      unfold roundDigits
      rw [if_pos ((fifteenth_iff (d :: ds)).mpr hup)]
    have hrev : AllDigits digits.reverse := fun c hc => hdigits c (List.mem_reverse.mp hc)
    obtain ⟨hsame, hall, hsum⟩ := addOne_spec hrev
    rw [List.reverse_reverse, List.length_reverse, hlen] at hsum
    rw [List.length_reverse, hlen] at hsame
    cases hcarry : (addOne digits.reverse).2 with
    | true =>
        have hten : (10 : ℚ) ≠ 0 := by norm_num
        have hlt := hdigits.charsNumber_lt
        rw [hlen] at hlt
        rw [hcarry, if_pos rfl] at hsum
        have hfull : charsNumber digits + 1 = 10 ^ 14 := by omega
        have hone : charsNumber (0x31 :: List.replicate 13 0x30) = 10 ^ 13 := by decide
        have hallOne : AllDigits (0x31 :: List.replicate 13 0x30) := by
          unfold AllDigits
          decide
        have hheadOne : (0x31 :: List.replicate 13 0x30 : List UInt8).headI ≠ 0x30 := by decide
        rw [hr, hcarry, if_pos rfl, hrounded, hfull]
        refine ⟨rfl, hallOne, hheadOne, ?_⟩
        have hexp : exp10 + 1 - 13 = exp10 - 13 + 1 := by ring
        rw [hone, hexp, zpow_add₀ hten]
        push_cast
        ring
    | false =>
        rw [hcarry, if_neg Bool.false_ne_true, Nat.add_zero] at hsum
        have hback : AllDigits (addOne digits.reverse).1.reverse :=
          fun c hc => hall c (List.mem_reverse.mp hc)
        have hlen' : (addOne digits.reverse).1.reverse.length = 14 := by
          rw [List.length_reverse, hsame]
        rw [hr, hcarry, if_neg Bool.false_ne_true, hrounded]
        refine ⟨hlen', hback, head_ne_zero_of_le hback hlen' (by rw [hsum]; omega), ?_⟩
        rw [hsum]
  · have hrounded : roundedDigits (d :: ds) = charsNumber digits := by
      rw [roundedDigits, if_neg hup, hnumber, Nat.add_zero]
    have hr : r = (digits, exp10) := by
      show roundDigits _ _ = _
      unfold roundDigits
      rw [if_neg (fun hfifteen => hup ((fifteenth_iff (d :: ds)).mp hfifteen))]
    rw [hr, hrounded]
    exact ⟨hlen, hdigits, head_ne_zero_of_le hdigits hlen hlow, rfl⟩

/-! ## the number that is stored -/

/-- Leading zeros do not count. -/
theorem charsNumber_significantDigits (ds : List UInt8) :
    charsNumber (significantDigits ds) = charsNumber ds := by
  induction ds with
  | nil => rfl
  | cons c cs ih =>
      by_cases hc : c = 0x30
      · have hdrop : significantDigits (c :: cs) = significantDigits cs := by
          simp [significantDigits, hc]
        have hvalue : digitValue c = 0 := by rw [hc]; rfl
        rw [hdrop, ih, charsNumber_cons, hvalue, Nat.zero_mul, Nat.zero_add]
      · have hdrop : significantDigits (c :: cs) = c :: cs := by simp [significantDigits, hc]
        rw [hdrop]

theorem length_significantDigits (ds : List UInt8) :
    leadingZeros ds + (significantDigits ds).length = ds.length := by
  have hsplit := congrArg List.length
    (List.takeWhile_append_dropWhile (p := fun c : UInt8 => decide (c = 0x30)) (l := ds))
  rw [List.length_append] at hsplit
  exact hsplit

theorem significantDigits_head {ds sd : List UInt8} {d : UInt8}
    (h : significantDigits ds = d :: sd) : d ≠ 0x30 := by
  unfold significantDigits at h
  have hhead := List.head?_dropWhile_not (fun c : UInt8 => decide (c = 0x30)) ds
  rw [h] at hhead
  simpa using hhead

theorem Numeral.WellFormed.allDigits {t : Numeral} (h : t.WellFormed) :
    AllDigits (t.int ++ t.fracDigits) := by
  intro c hc
  cases List.mem_append.mp hc with
  | inl hint => exact h.int c hint
  | inr hfrac =>
      unfold Numeral.fracDigits at hfrac
      cases hds : t.frac with
      | none => simp [hds] at hfrac
      | some ds =>
          rw [hds] at hfrac
          exact h.frac ds hds c hfrac

theorem Numeral.value_of_zeros {t : Numeral}
    (h : significantDigits (t.int ++ t.fracDigits) = []) : t.value = 0 := by
  unfold Numeral.value
  rw [← charsNumber_significantDigits, h]
  simp

/-- A number that is not zero, rounded. -/
theorem roundSig_value {t : Numeral} (h : t.WellFormed) {d : UInt8} {sd : List UInt8}
    (hsd : significantDigits (t.int ++ t.fracDigits) = d :: sd) :
    roundSig 14 t.value = (if t.negative then -1 else 1) * (roundedDigits (d :: sd)
      * 10 ^ ((t.int.length + t.exponent - leadingZeros (t.int ++ t.fracDigits) - 1 : ℤ) - 13)) := by
  have hten : (10 : ℚ) ≠ 0 := by norm_num
  have hall : AllDigits (d :: sd) := by
    intro c hc
    rw [← hsd] at hc
    exact h.allDigits c ((List.dropWhile_suffix _).subset hc)
  have hd := significantDigits_head hsd
  have hlen := length_significantDigits (t.int ++ t.fracDigits)
  rw [hsd, List.length_cons, List.length_append] at hlen
  have hround := roundSig_decimalNumber 14 (digitValue_ne_zero (hall d List.mem_cons_self) hd)
    hall.digitValue_lt
  unfold Numeral.value
  rw [← charsNumber_significantDigits, hsd, roundSig_sign, roundSig_mul_zpow]
  congr 1
  have hmap : (charsNumber (d :: sd) : ℚ)
      = decimalNumber (digitValue d :: sd.map digitValue) := rfl
  rw [hmap, hround, List.length_map, mul_assoc, ← zpow_add₀ hten]
  unfold roundedDigits
  push_cast
  rw [List.map_cons]
  congr 2
  omega

/-- The exponent of a stored number is that of its first digit. -/
theorem log_number {value : TiRealValue} (hdigits : AllDigits value.digits.val)
    (hhead : value.digits.val.headI ≠ 0x30) : Int.log 10 |value.number| = value.exp10 := by
  have hlen := value.digits.property
  cases hvalue : value.digits.val with
  | nil => rw [hvalue] at hlen; cases hlen
  | cons d ds =>
      rw [hvalue] at hlen hdigits hhead
      have hd : digitValue d ≠ 0 := digitValue_ne_zero (hdigits d List.mem_cons_self) hhead
      have hpos : (0 : ℚ) < charsNumber (d :: ds) := by
        have hle := le_charsNumber hdigits hhead
        have hpow : 0 < 10 ^ ds.length := by positivity
        exact_mod_cast lt_of_lt_of_le hpow hle
      have habs : |value.number| = charsNumber (d :: ds) * 10 ^ (value.exp10 - 13) := by
        have hprod : (0 : ℚ) < charsNumber (d :: ds) * 10 ^ (value.exp10 - 13) :=
          mul_pos hpos (by positivity)
        unfold TiRealValue.number
        rw [hvalue]
        cases value.negative with
        | false => rw [if_neg Bool.false_ne_true, one_mul, abs_of_pos hprod]
        | true => rw [if_pos rfl, neg_one_mul, abs_neg, abs_of_pos hprod]
      have hlog := log_decimalNumber hd hdigits.digitValue_lt
      have hthirteen : ds.length = 13 := Nat.succ.inj hlen
      rw [List.length_map, hthirteen] at hlog
      have hmap : (charsNumber (d :: ds) : ℚ)
          = decimalNumber (digitValue d :: ds.map digitValue) := rfl
      rw [habs, log_mul_zpow hpos, hmap, hlog]
      push_cast
      ring

/-- The canonical zero is zero. -/
theorem storesRounded_zero (is8586 : Bool) :
    StoresRounded is8586 0 (.ok (tixxEncodeTiRealDigits false zeroDigits 0 is8586)) := by
  let zero : TiRealValue := ⟨false, ⟨zeroDigits, rfl⟩, 0⟩
  have hcanon : zero.Canonical is8586 := by
    refine ⟨?_, Or.inr ⟨rfl, rfl, rfl⟩, ?_⟩
    · intro c hc
      rw [(List.mem_replicate.mp hc).2]
      rfl
    · cases is8586 <;> decide
  obtain ⟨hreal, hdecode⟩ := tixxDecodeTiRealDigits_encode hcanon
  have hrange : ¬OutOfRange is8586 0 := by
    unfold OutOfRange roundedExponent
    rw [roundSig_zero, abs_zero]
    cases is8586 <;> simp [expLimit]
  constructor
  · refine iff_of_false (fun herror => ?_) hrange
    obtain ⟨e, he⟩ := herror
    cases he
  · intro real hok
    cases hok
    have hnumber : charsNumber zeroDigits = 0 := by decide
    refine ⟨hreal, zero, hdecode, hcanon, ?_⟩
    show (if false then -1 else 1) * ((charsNumber zeroDigits : ℚ) * 10 ^ ((0 : ℤ) - 13)) = _
    rw [hnumber, roundSig_zero]
    simp

theorem allDigits_cutDigits {n : ℕ} {cs : List UInt8} (h : AllDigits cs) :
    AllDigits (cutDigits n cs) := by
  induction cs generalizing n with
  | nil => exact allDigits_nil
  | cons c cs ih =>
      obtain ⟨hc, hcs⟩ := List.forall_mem_cons.mp h
      rw [cutDigits]
      split
      · exact AllDigits.cons hc (ih hcs)
      · exact allDigits_nil

theorem Numeral.WellFormed.cut {t : Numeral} (h : t.WellFormed) : t.cut.WellFormed := by
  refine ⟨h.sign, h.int, h.frac, h.digits_ne, ?_⟩
  intro e he
  obtain ⟨e', he', rfl⟩ := Option.map_eq_some_iff.mp he
  obtain ⟨hletter, hsign, hdigits, hne⟩ := h.exp e' he'
  refine ⟨hletter, hsign, allDigits_cutDigits hdigits, ?_⟩
  obtain ⟨c, cs, hcs⟩ := List.exists_cons_of_ne_nil hne
  show cutDigits 0 e'.digits ≠ []
  rw [hcs, cutDigits, if_pos (Nat.zero_le _)]
  exact List.cons_ne_nil _ _

/-- The number with the exponent that is read is stored rounded. -/
theorem storesRounded_cut {t : Numeral} (h : t.WellFormed) {rest : List UInt8}
    (hrest : Stops rest) (is8586 : Bool) :
    StoresRounded is8586 t.cut.value (tixxParseDecimalToTiReal (t.chars ++ rest) is8586) := by
  rw [tixxParseDecimalToTiReal_numeral h hrest]
  cases hsd : significantDigits (t.int ++ t.fracDigits) with
  | nil =>
      have hzero : t.cut.value = 0 := Numeral.value_of_zeros hsd
      rw [if_pos rfl, hzero]
      exact storesRounded_zero is8586
  | cons d sd =>
      have hall : AllDigits (d :: sd) := by
        intro c hc
        rw [← hsd] at hc
        exact h.allDigits c ((List.dropWhile_suffix _).subset hc)
      have hcutDigits : significantDigits (t.cut.int ++ t.cut.fracDigits) = d :: sd := hsd
      have hround := roundSig_value h.cut hcutDigits
      obtain ⟨hlen, hdigits, hhead, hnumber⟩ := roundDigits_spec hall (significantDigits_head hsd)
        (t.int.length + t.cut.exponent - leadingZeros (t.int ++ t.fracDigits) - 1)
      let r := roundDigits ((d :: sd).take 15)
        (t.int.length + t.cut.exponent - leadingZeros (t.int ++ t.fracDigits) - 1)
      let value : TiRealValue := ⟨t.negative, ⟨r.1, hlen⟩, r.2⟩
      have hvalue : value.number = roundSig 14 t.cut.value := by
        rw [hround]
        show (if t.negative then -1 else 1) * ((charsNumber r.1 : ℚ) * 10 ^ (r.2 - 13)) = _
        rw [hnumber]
        rfl
      have hexp : roundedExponent t.cut.value = r.2 := by
        unfold roundedExponent
        rw [← hvalue]
        exact @log_number value hdigits hhead
      have hrange : OutOfRange is8586 t.cut.value
          ↔ r.2 > expLimit is8586 ∨ r.2 < -expLimit is8586 := by
        unfold OutOfRange
        rw [hexp, lt_abs]
        omega
      rw [if_neg (List.cons_ne_nil d sd)]
      dsimp only
      by_cases hout : r.2 > expLimit is8586 ∨ r.2 < -expLimit is8586
      · rw [if_pos hout]
        constructor
        · exact iff_of_true ⟨_, rfl⟩ (hrange.mpr hout)
        · intro real hok
          cases hok
      · rw [if_neg hout]
        have hcanon : value.Canonical is8586 :=
          ⟨hdigits, Or.inl hhead, by show _ ≤ r.2 ∧ r.2 ≤ _; omega⟩
        obtain ⟨hreal, hdecode⟩ := tixxDecodeTiRealDigits_encode hcanon
        constructor
        · refine iff_of_false (fun herror => ?_) (fun h => hout (hrange.mp h))
          obtain ⟨e, he⟩ := herror
          cases he
        · intro real hok
          cases hok
          exact ⟨hreal, value, hdecode, hcanon, hvalue⟩

/-! ## the numbers that are stored as they are written -/

/-- No digit of the exponent is left out; or the number is zero, or is out of range with and
without the digits that are. -/
def Numeral.ReadInFull (t : Numeral) (is8586 : Bool) : Prop :=
  t.cut = t ∨ t.value = 0 ∨ OutOfRange is8586 t.value ∧ OutOfRange is8586 t.cut.value

/-- The number with all digits of its exponent is another number. -/
theorem exponent_ne_of_cut {t : Numeral} (h : t.WellFormed) (hcut : t.cut ≠ t) :
    t.cut.exponent ≠ t.exponent := by
  cases hexp : t.exp with
  | none =>
      refine absurd ?_ hcut
      unfold Numeral.cut
      rw [hexp]
      cases t
      cases hexp
      rfl
  | some e =>
      have hdigits : cutDigits 0 e.digits ≠ e.digits := by
        intro hsame
        apply hcut
        unfold Numeral.cut
        rw [hexp, Option.map_some, hsame]
        cases t
        cases hexp
        rfl
      have hlt := charsNumber_cutDigits_lt hdigits
      rw [Nat.zero_mul, Nat.zero_mul, Nat.zero_add, Nat.zero_add] at hlt
      simp only [Numeral.exponent, Numeral.cut, hexp, Option.map_some, Option.getD_some,
        ExponentText.value]
      split <;> omega

theorem value_eq_cut (t : Numeral) :
    t.value = t.cut.value * 10 ^ (t.exponent - t.cut.exponent) := by
  have hten : (10 : ℚ) ≠ 0 := by norm_num
  have hdigits : t.cut.int ++ t.cut.fracDigits = t.int ++ t.fracDigits := rfl
  have hfrac : t.cut.fracDigits = t.fracDigits := rfl
  have hneg : t.cut.negative = t.negative := rfl
  have hexp : t.exponent - t.fracDigits.length
      = (t.cut.exponent - t.fracDigits.length) + (t.exponent - t.cut.exponent) := by
    ring
  unfold Numeral.value
  rw [hexp, zpow_add₀ hten, hdigits, hfrac, hneg]
  ring

/-- What is stored rounded has been read in full. -/
theorem readInFull_of_storesRounded {t : Numeral} (h : t.WellFormed) {rest : List UInt8}
    (hrest : Stops rest) {is8586 : Bool}
    (hstores : StoresRounded is8586 t.value (tixxParseDecimalToTiReal (t.chars ++ rest) is8586)) :
    t.ReadInFull is8586 := by
  have hread := storesRounded_cut h hrest is8586
  have hscale := value_eq_cut t
  unfold Numeral.ReadInFull
  by_cases hcut : t.cut = t
  · exact Or.inl hcut
  by_cases hzero : t.value = 0
  · exact Or.inr (Or.inl hzero)
  refine Or.inr (Or.inr ?_)
  cases hresult : tixxParseDecimalToTiReal (t.chars ++ rest) is8586 with
  | error e => exact ⟨hstores.error_iff.mp ⟨e, hresult⟩, hread.error_iff.mp ⟨e, hresult⟩⟩
  | ok real =>
      -- the same real would be both numbers
      obtain ⟨-, value, hdecode, -, hnumber⟩ := hstores.stored real hresult
      obtain ⟨-, value', hdecode', -, hnumber'⟩ := hread.stored real hresult
      cases hdecode.symm.trans hdecode'
      have hcutValue : t.cut.value ≠ 0 := by
        intro hcutZero
        rw [hcutZero, zero_mul] at hscale
        exact hzero hscale
      have hsame := hnumber'.symm.trans hnumber
      rw [hscale, roundSig_mul_zpow] at hsame
      have hpow : (10 : ℚ) ^ (t.exponent - t.cut.exponent) = 1 :=
        (mul_eq_left₀ (roundSig_ne_zero (by decide) hcutValue)).mp hsame.symm
      rw [zpow_eq_one_iff_right₀ (by norm_num) (by norm_num)] at hpow
      exact absurd (by omega) (exponent_ne_of_cut h hcut)

/-- A number of the grammar is stored rounded, or refused when its rounded exponent is out of
range, exactly when its exponent is read in full or the rest of it makes no difference. -/
theorem tixxParseDecimalToTiReal_rounds_iff {t : Numeral} (h : t.WellFormed) {rest : List UInt8}
    (hrest : Stops rest) (is8586 : Bool) :
    StoresRounded is8586 t.value (tixxParseDecimalToTiReal (t.chars ++ rest) is8586)
      ↔ t.ReadInFull is8586 := by
  have hread := storesRounded_cut h hrest is8586
  have hscale := value_eq_cut t
  have hten : (10 : ℚ) ≠ 0 := by norm_num
  constructor
  · exact readInFull_of_storesRounded h hrest
  · intro hfull
    rcases hfull with hcut | hzero | ⟨hout, hcutOut⟩
    · rw [hcut] at hread
      exact hread
    · have hcutZero : t.cut.value = 0 := by
        rw [hzero, zero_eq_mul] at hscale
        exact hscale.resolve_right (zpow_ne_zero _ hten)
      rw [hcutZero] at hread
      rw [hzero]
      exact hread
    · have herror := hread.error_iff.mpr hcutOut
      refine ⟨iff_of_true herror hout, ?_⟩
      intro real hok
      obtain ⟨e, he⟩ := herror
      rw [he] at hok
      cases hok

/-- The number -.5, before a space. -/
theorem tixxParseDecimalToTiReal_rounds_half :
    ∃ t : Numeral, t.chars = [0x2D, 0x2E, 0x35]
      ∧ StoresRounded false t.value (tixxParseDecimalToTiReal (t.chars ++ [0x20]) false) := by
  let t : Numeral := ⟨some 0x2D, [], some [0x35], none⟩
  have ht : t.WellFormed := by
    refine ⟨?_, allDigits_nil, ?_, Or.inr ⟨[0x35], rfl, List.cons_ne_nil _ _⟩, by simp [t]⟩
    · intro c hc
      exact Or.inl (Option.some.inj hc).symm
    · intro ds hds
      rw [← Option.some.inj hds]
      exact AllDigits.cons rfl allDigits_nil
  have hrest : Stops [0x20] := by
    intro c hc
    exact (Option.some.inj hc).symm
  exact ⟨t, rfl, (tixxParseDecimalToTiReal_rounds_iff ht hrest false).mpr (Or.inl rfl)⟩

/-- One, with 100001 zeros after the point and an exponent of seven digits. -/
def longNumeral : Numeral where
  sign := none
  int := [0x30]
  frac := some (List.replicate 100001 0x30 ++ [0x31])
  exp := some ⟨0x65, none, [0x31, 0x30, 0x30, 0x30, 0x30, 0x32, 0x30]⟩

theorem longNumeral_wellFormed : longNumeral.WellFormed := by
  refine ⟨isSign_none, AllDigits.cons rfl allDigits_nil, ?_, Or.inl (List.cons_ne_nil _ _), ?_⟩
  · intro ds hds
    rw [← Option.some.inj hds]
    intro c hc
    cases List.mem_append.mp hc with
    | inl hzero => rw [(List.mem_replicate.mp hzero).2]; rfl
    | inr hone => rw [List.mem_singleton.mp hone]; rfl
  · intro e he
    rw [← Option.some.inj he]
    refine ⟨Or.inl rfl, isSign_none, ?_, List.cons_ne_nil _ _⟩
    unfold AllDigits
    decide

/-- With the six digits of the exponent that are read it is one. -/
theorem longNumeral_cut_value : longNumeral.cut.value = 1 := by
  have hexp : longNumeral.cut.exponent = 100002 := by decide
  have hfrac : longNumeral.cut.fracDigits = List.replicate 100001 0x30 ++ [0x31] := by
    simp only [Numeral.fracDigits, Numeral.cut, longNumeral, Option.getD_some]
  have hlen : longNumeral.cut.fracDigits.length = 100002 := by
    rw [hfrac, List.length_append, List.length_replicate, List.length_singleton]
  have hnumber : charsNumber (longNumeral.cut.int ++ longNumeral.cut.fracDigits) = 1 := by
    have hint : longNumeral.cut.int = [0x30] := rfl
    have hzeros : charsNumber (List.replicate 100001 0x30) = 0 := by
      unfold charsNumber
      rw [List.map_replicate]
      exact decimalNumber_zeros _
    have hzero : charsNumber [0x30] = 0 := by decide
    have hone : digitValue 0x31 = 1 := rfl
    rw [hint, hfrac, charsNumber_append, hzero, Nat.zero_mul, charsNumber_concat, hzeros, hone]
  have hneg : longNumeral.cut.negative = false := rfl
  unfold Numeral.value
  rw [hexp, hlen, hnumber, hneg]
  simp

/-- A number of this kind is stored as one. -/
theorem not_storesRounded_long :
    ¬∀ (t : Numeral) (rest : List UInt8) (is8586 : Bool), t.WellFormed → Stops rest →
      StoresRounded is8586 t.value (tixxParseDecimalToTiReal (t.chars ++ rest) is8586) := by
  intro h
  have hrest : Stops [] := by
    intro c hc
    cases hc
  have hone : roundSig 14 1 = 1 := by
    have hround := roundSig_decimalNumber 14 (@one_ne_zero ℕ _ _ _) (@List.forall_mem_singleton ℕ
      (· < 10) 1 |>.mpr (by decide))
    have hfirst : decimalNumber (firstDigits 14 [1]) = 10 ^ 13 := by decide
    rw [decimalNumber_singleton, hfirst] at hround
    norm_num at hround
    exact hround
  rcases readInFull_of_storesRounded longNumeral_wellFormed hrest
    (h longNumeral [] false longNumeral_wellFormed hrest) with hcut | hzero | ⟨-, hout⟩
  · have hlen := congrArg (fun t : Numeral => t.exp.map fun e => e.digits.length) hcut
    exact absurd hlen (by decide)
  · have hscale := value_eq_cut longNumeral
    rw [hzero, longNumeral_cut_value, one_mul] at hscale
    exact zpow_ne_zero _ (by norm_num) hscale.symm
  · unfold OutOfRange roundedExponent at hout
    rw [longNumeral_cut_value, hone] at hout
    simp [expLimit] at hout

end Tilibs.Calcs
