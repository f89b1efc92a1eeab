import Mathlib
import Tilibs.Calcs.TiReal

/-!
# Tilibs.Calcs.TiRealText

The text of a TI real gives the real back.

A number's text is its sign, its integer digits, its fractional digits and its exponent.
The scanner's findings depend on the digits alone, wherever the point stands among them,
and on how many of them stand before the point.
-/

namespace Tilibs.Calcs

open Lib

/-! ## the bytes of a real -/

theorem packBcd_unpackBcd (bs : List UInt8) : packBcd (unpackBcd bs) = bs := by
  have hall : ∀ n < 256, ((nibbleChar ((UInt8.ofNat n >>> 4) &&& 0xF) - 0x30) <<< 4
      ||| (nibbleChar (UInt8.ofNat n &&& 0xF) - 0x30)) = UInt8.ofNat n := by
    decide +kernel
  induction bs with
  | nil => rfl
  | cons b bs ih =>
      have hb := hall b.toNat b.toNat_lt
      rw [UInt8.ofNat_toNat] at hb
      rw [unpackBcd, packBcd, ih, hb]

/-- The canonical zero. -/
def canonicalZero (is8586 : Bool) : List UInt8 :=
  0x00 :: (if is8586 then [0x00, 0xFC] else [0x80]) ++ List.replicate 7 0x00

/-- The reals that a calculator stores: only the sign in the flag byte, decimal digits with
the first not zero, an exponent of the format; or the canonical zero. -/
structure CanonicalReal (is8586 : Bool) (real : List UInt8) : Prop where
  length : real.length = realSize is8586
  flag : real.headI = 0x00 ∨ real.headI = 0x80
  digits : ∀ c ∈ unpackBcd (mantissaBytes is8586 real), isDigit c = true
  lead : (unpackBcd (mantissaBytes is8586 real)).headI ≠ 0x30 ∨ real = canonicalZero is8586
  exp : -expLimit is8586 ≤ realExp is8586 real ∧ realExp is8586 real ≤ expLimit is8586

/-- The mantissa is what follows the flag and the exponent. -/
theorem mantissaBytes_append {is8586 : Bool} (header : List UInt8) {rest : List UInt8}
    (hheader : header.length = if is8586 then 3 else 2) (hrest : rest.length = 7) :
    mantissaBytes is8586 (header ++ rest) = rest := by
  unfold mantissaBytes
  rw [← hheader]
  apply List.ext_getElem
  · rw [List.length_map, List.length_range, hrest]
  · intro i hi hi'
    rw [List.getElem_map, List.getElem_range, List.getD_append_right _ _ _ _ (by omega),
      Nat.add_sub_cancel_left]
    exact List.getD_eq_getElem _ _ hi'

/-- The fields of a real are all of it. -/
theorem real_eq_fields {is8586 : Bool} {real : List UInt8} (h : real.length = realSize is8586) :
    real.headI :: expField is8586 (realExp is8586 real) ++ mantissaBytes is8586 real = real := by
  cases is8586 with
  | true =>
      obtain ⟨a, b, c, rest, rfl, hrest⟩ : ∃ a b c rest, real = a :: b :: c :: rest
          ∧ rest.length = 7 := by
        obtain ⟨a, as, rfl⟩ := List.exists_cons_of_length_eq_add_one h
        obtain ⟨b, bs, rfl⟩ := List.exists_cons_of_length_eq_add_one (Nat.succ.inj h)
        obtain ⟨c, rest, rfl⟩ :=
          List.exists_cons_of_length_eq_add_one (Nat.succ.inj (Nat.succ.inj h))
        exact ⟨a, b, c, rest, rfl, by simpa [realSize] using h⟩
      have hmant : mantissaBytes true (a :: b :: c :: rest) = rest :=
        mantissaBytes_append [a, b, c] rfl hrest
      have hfield : expField true (realExp true (a :: b :: c :: rest)) = [b, c] := by
        have hb := b.toNat_lt
        have hc := c.toNat_lt
        have hword : ((0xFC00 + realExp true (a :: b :: c :: rest)) % 2 ^ 16).toNat
            = getLE [b, c] := by
          simp only [realExp, getLE, if_true, List.getD_cons_succ, List.getD_cons_zero]
          omega
        unfold expField
        rw [if_pos rfl, hword]
        exact putLE_getLE [b, c]
      rw [hmant, hfield]
      rfl
  | false =>
      obtain ⟨a, b, rest, rfl, hrest⟩ : ∃ a b rest, real = a :: b :: rest ∧ rest.length = 7 := by
        obtain ⟨a, as, rfl⟩ := List.exists_cons_of_length_eq_add_one h
        obtain ⟨b, rest, rfl⟩ := List.exists_cons_of_length_eq_add_one (Nat.succ.inj h)
        exact ⟨a, b, rest, rfl, by simpa [realSize] using h⟩
      have hmant : mantissaBytes false (a :: b :: rest) = rest :=
        mantissaBytes_append [a, b] rfl hrest
      have hfield : expField false (realExp false (a :: b :: rest)) = [b] := by
        have hb := b.toNat_lt
        have hbyte : ((0x80 + realExp false (a :: b :: rest)) % 2 ^ 8).toNat = getLE [b] := by
          simp only [realExp, getLE, Bool.false_eq_true, if_false, List.getD_cons_succ,
            List.getD_cons_zero]
          omega
        unfold expField
        rw [if_neg (by decide), hbyte]
        exact putLE_getLE [b]
      rw [hmant, hfield]
      rfl

/-! ## the scanner -/

/-- The digits from the first that is not zero. -/
def significantDigits (ds : List UInt8) : List UInt8 := ds.dropWhile (· = 0x30)

/-- How many zeros stand before them. -/
def leadingZeros (ds : List UInt8) : Nat := (ds.takeWhile (· = 0x30)).length

/-- What the scanner has found when it has gone over the digits `ds`. -/
structure DecimalScan.Found (s : DecimalScan) (ds : List UInt8) : Prop where
  pos : s.pos = ds.length
  significant : s.significant = (significantDigits ds).take 15
  firstSig : s.firstSig = if significantDigits ds = [] then none else some (leadingZeros ds : Int)

theorem found_nil : DecimalScan.Found {} [] := ⟨rfl, rfl, rfl⟩

theorem significantDigits_concat (ds : List UInt8) (c : UInt8) :
    significantDigits (ds ++ [c]) =
      if significantDigits ds = [] then (if c = 0x30 then [] else [c])
      else significantDigits ds ++ [c] := by
  unfold significantDigits
  rw [List.dropWhile_append]
  cases h : List.dropWhile (fun x => decide (x = 48)) ds with
  | nil => simp [List.dropWhile_cons]
  | cons x xs => simp

theorem leadingZeros_of_significant {ds : List UInt8} (h : significantDigits ds ≠ [])
    (cs : List UInt8) : leadingZeros (ds ++ cs) = leadingZeros ds := by
  have hlt : (ds.takeWhile (· = 0x30)).length ≠ ds.length := by
    intro heq
    have hsplit := congrArg List.length (List.takeWhile_append_dropWhile (p := (· = 0x30)) (l := ds))
    rw [List.length_append, heq] at hsplit
    exact h (List.length_eq_zero_iff.1 (by rw [significantDigits]; omega))
  unfold leadingZeros
  rw [List.takeWhile_append, if_neg hlt]

theorem leadingZeros_of_zeros {ds : List UInt8} (h : significantDigits ds = []) :
    leadingZeros ds = ds.length := by
  have hsplit := List.takeWhile_append_dropWhile (p := fun c : UInt8 => decide (c = 0x30)) (l := ds)
  unfold significantDigits at h
  rw [h, List.append_nil] at hsplit
  rw [leadingZeros, hsplit]

theorem DecimalScan.Found.digit {s : DecimalScan} {ds : List UInt8} (h : s.Found ds) (c : UInt8) :
    (s.digit c).Found (ds ++ [c]) := by
  obtain ⟨hpos, hsig, hfirst⟩ := h
  have hconcat := significantDigits_concat ds c
  by_cases hzero : significantDigits ds = []
  · have hzeros := leadingZeros_of_zeros hzero
    rw [hzero] at hsig
    rw [if_pos hzero] at hconcat hfirst
    by_cases hc : c = 0x30
    · rw [if_pos hc] at hconcat
      constructor
      · simp [DecimalScan.digit, hpos]
      · rw [hconcat]
        simp [DecimalScan.digit, hsig, hfirst, hc]
      · rw [hconcat]
        simp [DecimalScan.digit, hfirst, hc]
    · rw [if_neg hc] at hconcat
      have hlead : leadingZeros (ds ++ [c]) = ds.length := by
        unfold leadingZeros at hzeros ⊢
        rw [List.takeWhile_append, if_pos hzeros]
        simp [hc]
      constructor
      · simp [DecimalScan.digit, hpos]
      · simp [DecimalScan.digit, hconcat, hsig, hfirst, hc]
      · simp [DecimalScan.digit, hconcat, hfirst, hc, hlead, hpos]
  · have hlead := leadingZeros_of_significant hzero [c]
    rw [if_neg hzero] at hconcat hfirst
    constructor
    · simp [DecimalScan.digit, hpos]
    · rw [hconcat, List.take_append]
      by_cases hlen : (significantDigits ds).length < 15
      · have htake : ([c].take (15 - (significantDigits ds).length)) = [c] :=
          List.take_of_length_le (by simp; omega)
        rw [htake, ← hsig]
        simp [DecimalScan.digit, hfirst, hsig, hlen]
      · have htake : 15 - (significantDigits ds).length = 0 := by omega
        rw [htake, ← hsig]
        simp [DecimalScan.digit, hfirst, hsig, hlen]
    · simp [DecimalScan.digit, hconcat, hfirst, hlead]

/-- Over a run of digits. -/
theorem DecimalScan.Found.digits {s : DecimalScan} {ds : List UInt8} (h : s.Found ds)
    (cs : List UInt8) : (cs.foldl DecimalScan.digit s).Found (ds ++ cs) := by
  induction cs generalizing s ds with
  | nil => simpa using h
  | cons c cs ih =>
      have hrun := ih (h.digit c)
      rwa [List.append_assoc] at hrun

theorem foldl_digit_other (cs : List UInt8) (s : DecimalScan) :
    (cs.foldl DecimalScan.digit s).nInt = s.nInt + (if s.seenDot then 0 else (cs.length : Int))
      ∧ (cs.foldl DecimalScan.digit s).exponent = s.exponent
      ∧ (cs.foldl DecimalScan.digit s).seenDot = s.seenDot := by
  induction cs generalizing s with
  | nil => simp
  | cons c cs ih =>
      obtain ⟨hint, hexp, hdot⟩ := ih (s.digit c)
      refine ⟨?_, hexp, hdot⟩
      rw [List.foldl_cons, hint]
      cases hs : s.seenDot
      · simp [DecimalScan.digit, hs]
        omega
      · simp [DecimalScan.digit, hs]

theorem isDigit_ne {c : UInt8} (h : isDigit c = true) :
    c ≠ 0x20 ∧ c ≠ 0x2E ∧ c ≠ 0x65 ∧ c ≠ 0x45 ∧ c ≠ 0x2D ∧ c ≠ 0x2B ∧ c ≠ 0x2C ∧ c ≠ 0x7D := by
  have hall : ∀ n < 256, isDigit (UInt8.ofNat n) = true → UInt8.ofNat n ≠ 0x20
      ∧ UInt8.ofNat n ≠ 0x2E ∧ UInt8.ofNat n ≠ 0x65 ∧ UInt8.ofNat n ≠ 0x45
      ∧ UInt8.ofNat n ≠ 0x2D ∧ UInt8.ofNat n ≠ 0x2B ∧ UInt8.ofNat n ≠ 0x2C
      ∧ UInt8.ofNat n ≠ 0x7D := by
    decide +kernel
  simpa using hall c.toNat c.toNat_lt (by simpa using h)

theorem scanDecimal_digits {cs : List UInt8} (h : ∀ c ∈ cs, isDigit c = true)
    (s : DecimalScan) (rest : List UInt8) :
    scanDecimal s (cs ++ rest) = scanDecimal (cs.foldl DecimalScan.digit s) rest := by
  induction cs generalizing s with
  | nil => rfl
  | cons c cs ih =>
      obtain ⟨hc, hcs⟩ := List.forall_mem_cons.1 h
      obtain ⟨hspace, hdot, he, hE, -⟩ := isDigit_ne hc
      rw [List.cons_append, scanDecimal, if_neg hspace, if_neg hdot, if_neg (by tauto), ih hcs]
      rfl

/-! ## exponents -/

theorem isDigit_ofNat {n : Nat} (h : n < 10) :
    isDigit (0x30 + UInt8.ofNat n) = true ∧ (0x30 + UInt8.ofNat n).toNat = 0x30 + n := by
  have hall : ∀ n < 10, isDigit (0x30 + UInt8.ofNat n) = true
      ∧ (0x30 + UInt8.ofNat n).toNat = 0x30 + n := by
    decide
  exact hall n h

theorem isDigit_decimal (n : Nat) : ∀ c ∈ decimal n, isDigit c = true := by
  induction n using decimal.induct with
  | case1 n h =>
      rw [decimal, if_pos h]
      simpa using (isDigit_ofNat h).1
  | case2 n h ih =>
      rw [decimal, if_neg h]
      intro c hc
      cases List.mem_append.1 hc with
      | inl hmem => exact ih c hmem
      | inr hlast =>
          rw [List.mem_singleton.1 hlast]
          exact (isDigit_ofNat (Nat.mod_lt n (by decide))).1

theorem decimal_ne_nil (n : Nat) : decimal n ≠ [] := by
  rw [decimal]
  split <;> simp

/-- The digits of a small number give the number. -/
theorem scanExponentDigits_decimal {n : Nat} (h : n ≤ 100000) (rest : List UInt8) :
    scanExponentDigits 0 (decimal n ++ rest) = scanExponentDigits n rest := by
  induction n using decimal.induct generalizing rest with
  | case1 n hn =>
      obtain ⟨hdigit, hval⟩ := isDigit_ofNat hn
      rw [decimal, if_pos hn, List.singleton_append, scanExponentDigits, if_pos hdigit, hval]
      simp
  | case2 n hn ih =>
      obtain ⟨hdigit, hval⟩ := isDigit_ofNat (Nat.mod_lt n (by decide : 10 > 0))
      rw [decimal, if_neg hn, List.append_assoc, ih (by omega), List.singleton_append,
        scanExponentDigits, if_pos hdigit, hval]
      have hsmall : ((n / 10 : Nat) : Int) ≤ 100000 := by omega
      simp only [hsmall, if_true]
      congr 1
      push_cast
      omega

/-- The text ends here: at the end of the string or at a space. -/
def Stops (rest : List UInt8) : Prop := ∀ c ∈ rest.head?, c = 0x20

theorem scanExponentDigits_stops {rest : List UInt8} (h : Stops rest) (n : Int) :
    scanExponentDigits n rest = n := by
  cases rest with
  | nil => rfl
  | cons c cs =>
      have hc : c = 0x20 := h c rfl
      subst hc
      rfl

theorem scanDecimal_stops {rest : List UInt8} (h : Stops rest) (s : DecimalScan) :
    scanDecimal s rest = s := by
  cases rest with
  | nil => rfl
  | cons c cs =>
      have hc : c = 0x20 := h c rfl
      rw [scanDecimal, if_pos hc]

theorem scanExponent_signedDecimal {n : Int} (h : n.natAbs ≤ 100000) {rest : List UInt8}
    (hrest : Stops rest) : scanExponent (signedDecimal n ++ rest) = n := by
  unfold signedDecimal
  have hdigits := scanExponentDigits_decimal h rest
  rw [scanExponentDigits_stops hrest] at hdigits
  by_cases hneg : n < 0
  · rw [if_pos hneg, List.cons_append]
    show -scanExponentDigits 0 (decimal n.natAbs ++ rest) = n
    rw [hdigits]
    omega
  · rw [if_neg hneg, List.cons_append]
    show scanExponentDigits 0 (decimal n.natAbs ++ rest) = n
    rw [hdigits]
    omega

/-! ## the text of a number -/

/-- A number as it is written. -/
structure NumberText where
  negative : Bool
  int : List UInt8
  frac : List UInt8
  exp : Option Int

/-- Point and fraction, when there is one. -/
def NumberText.fracText (t : NumberText) : List UInt8 :=
  if t.frac = [] then [] else 0x2E :: t.frac

/-- The letter and the exponent, when there is one. -/
def NumberText.expText (t : NumberText) : List UInt8 :=
  match t.exp with
  | none => []
  | some e => 0x65 :: signedDecimal e

/-- The characters of a number. -/
def NumberText.text (t : NumberText) : List UInt8 :=
  (if t.negative then [0x2D] else []) ++ t.int ++ t.fracText ++ t.expText

/-- Digits where digits belong. -/
structure NumberText.WellFormed (t : NumberText) : Prop where
  int_ne : t.int ≠ []
  int : ∀ c ∈ t.int, isDigit c = true
  frac : ∀ c ∈ t.frac, isDigit c = true
  exp : ∀ e ∈ t.exp, e.natAbs ≤ 100000

/-- What the scanner finds in a number, wherever the point stands. -/
theorem scanDecimal_text {t : NumberText} (h : t.WellFormed) {rest : List UInt8}
    (hrest : Stops rest) :
    let s := scanDecimal {} (t.int ++ t.fracText ++ t.expText ++ rest)
    s.Found (t.int ++ t.frac) ∧ s.nInt = t.int.length ∧ s.exponent = t.exp.getD 0 := by
  intro s
  obtain ⟨-, hint, hfrac, hexp⟩ := h
  -- the scan up to the exponent
  have hdigits : ∃ s' : DecimalScan, s = scanDecimal s' (t.expText ++ rest)
      ∧ s'.Found (t.int ++ t.frac) ∧ s'.nInt = t.int.length ∧ s'.exponent = 0 := by
    have hfound := found_nil.digits t.int
    obtain ⟨hnInt, hexponent, hdot⟩ := foldl_digit_other t.int {}
    have hstart : s = scanDecimal (t.int.foldl DecimalScan.digit {})
        (t.fracText ++ (t.expText ++ rest)) := by
      show scanDecimal {} _ = _
      rw [List.append_assoc, List.append_assoc, scanDecimal_digits hint]
    unfold NumberText.fracText at hstart
    by_cases hnil : t.frac = []
    · rw [if_pos hnil] at hstart
      refine ⟨_, hstart, ?_, by simpa using hnInt, hexponent⟩
      simpa [hnil] using hfound
    · rw [if_neg hnil, List.cons_append] at hstart
      have hpoint : DecimalScan.Found { t.int.foldl DecimalScan.digit {} with seenDot := true }
          ([] ++ t.int) := ⟨hfound.pos, hfound.significant, hfound.firstSig⟩
      obtain ⟨hnInt', hexponent', -⟩ :=
        foldl_digit_other t.frac { t.int.foldl DecimalScan.digit {} with seenDot := true }
      refine ⟨_, ?_, hpoint.digits t.frac, ?_, hexponent'.trans hexponent⟩
      · rw [hstart, scanDecimal, if_neg (by decide), if_pos rfl, scanDecimal_digits hfrac]
      · rw [hnInt']
        simpa using hnInt
  obtain ⟨s', hs, hfound, hnInt, hexponent⟩ := hdigits
  unfold NumberText.expText at hs
  cases hcase : t.exp with
  | none =>
      rw [hcase, List.nil_append, scanDecimal_stops hrest] at hs
      rw [hs]
      exact ⟨hfound, hnInt, hexponent⟩
  | some e =>
      have hscan := scanExponent_signedDecimal (hexp e hcase) hrest
      rw [hcase] at hs
      simp only [List.cons_append] at hs
      rw [scanDecimal, if_neg (by decide), if_neg (by decide), if_pos (Or.inl rfl), hscan] at hs
      rw [hs]
      exact ⟨⟨hfound.pos, hfound.significant, hfound.firstSig⟩, hnInt, rfl⟩

/-- Up to fourteen digits are not rounded. -/
theorem roundDigits_of_le {significant : List UInt8} (h : significant.length ≤ 14) (exp10 : Int) :
    roundDigits significant exp10 = (padRight 14 0x30 significant, exp10) := by
  have hlong : ¬(significant.length = 15 ∧ significant.getD 14 0 ≥ 0x35) := by omega
  unfold roundDigits
  simp only [if_neg hlong, List.take_of_length_le h]

/-- The text of a number with at most fourteen significant digits, as it is parsed. -/
theorem tixxParseDecimalToTiReal_text {t : NumberText} (h : t.WellFormed) {rest : List UInt8}
    (hrest : Stops rest) (is8586 : Bool)
    (hlen : (significantDigits (t.int ++ t.frac)).length ≤ 14) :
    tixxParseDecimalToTiReal (t.text ++ rest) is8586 =
      if significantDigits (t.int ++ t.frac) = [] then
        .ok (tixxEncodeTiRealDigits false zeroDigits 0 is8586)
      else
        let exp10 := t.int.length + t.exp.getD 0 - leadingZeros (t.int ++ t.frac) - 1
        if exp10 > expLimit is8586 ∨ exp10 < -expLimit is8586 then .error .outOfRange
        else .ok (tixxEncodeTiRealDigits t.negative
          (padRight 14 0x30 (significantDigits (t.int ++ t.frac))) exp10 is8586) := by
  obtain ⟨hfound, hnInt, hexponent⟩ := scanDecimal_text h hrest
  -- the first character is the sign or a digit
  have hsign : ∃ c cs, t.text ++ rest = c :: cs ∧ c ≠ 0x20 ∧ (c = 0x2D ↔ t.negative = true)
      ∧ (if c = 0x2D ∨ c = 0x2B then cs else c :: cs)
        = t.int ++ t.fracText ++ t.expText ++ rest := by
    unfold NumberText.text
    cases hneg : t.negative
    · cases hint : t.int with
      | nil => exact absurd hint h.int_ne
      | cons c cs =>
          obtain ⟨hspace, -, -, -, hminus, hplus, -⟩ :=
            isDigit_ne (h.int c (by rw [hint]; exact List.mem_cons_self))
          refine ⟨c, cs ++ t.fracText ++ t.expText ++ rest, by simp, hspace, by simpa using hminus, ?_⟩
          rw [if_neg (by tauto)]
          rfl
    · exact ⟨0x2D, t.int ++ t.fracText ++ t.expText ++ rest, by simp, by decide, by simp, by simp⟩
  obtain ⟨c, cs, htext, hspace, hminus, hbody⟩ := hsign
  unfold tixxParseDecimalToTiReal
  rw [htext]
  dsimp only
  rw [if_neg hspace, hbody, hfound.firstSig]
  by_cases hzero : significantDigits (t.int ++ t.frac) = []
  · rw [if_pos hzero, if_pos hzero]
  · have htake : (significantDigits (t.int ++ t.frac)).take 15 = significantDigits (t.int ++ t.frac) :=
      List.take_of_length_le (by omega)
    have hneg : decide (c = 0x2D) = t.negative := by
      rw [Bool.eq_iff_iff, decide_eq_true_iff]
      exact hminus
    rw [if_neg hzero, if_neg hzero, hfound.significant, htake]
    dsimp only
    rw [roundDigits_of_le hlen, hnInt, hexponent, hneg]

/-! ## what the formatter writes -/

theorem lastDigit_le (digits : List UInt8) (n : Nat) : lastDigit digits n ≤ n := by
  induction n with
  | zero => exact Nat.le_refl 0
  | succ n ih =>
      unfold lastDigit
      split <;> omega

theorem getD_of_lastDigit_lt {digits : List UInt8} {n i : Nat} (h : lastDigit digits n < i)
    (hi : i ≤ n) : digits.getD i 0 = 0x30 := by
  induction n with
  | zero => omega
  | succ n ih =>
      unfold lastDigit at h
      split at h
      · rename_i hzero
        by_cases hlast : i = n + 1
        · rw [hlast, hzero]
        · exact ih h (by omega)
      · omega

/-- The trailing zeros come back. -/
theorem padRight_take_lastDigit {digits : List UInt8} {n m : Nat} (hlen : digits.length = n + 1)
    (hm : lastDigit digits n < m) (hmn : m ≤ n + 1) :
    padRight (n + 1) 0x30 (digits.take m) = digits := by
  have hdrop : digits.drop m = List.replicate (n + 1 - m) 0x30 := by
    rw [List.eq_replicate_iff]
    refine ⟨by rw [List.length_drop, hlen], fun c hc => ?_⟩
    obtain ⟨i, hi, rfl⟩ := List.getElem_of_mem hc
    rw [List.length_drop] at hi
    have hget := getD_of_lastDigit_lt (i := m + i) (by omega : lastDigit digits n < m + i) (by omega)
    rw [List.getD_eq_getElem _ _ (by omega)] at hget
    rw [List.getElem_drop, hget]
  rw [padRight, List.length_take, hlen, Nat.min_eq_left hmn, ← hdrop, List.take_append_drop]

/-- The number that the formatter writes. -/
def numberText (value : TiRealValue) : NumberText :=
  let digits := value.digits.val
  let last := lastDigit digits 13
  if 0 ≤ value.exp10 ∧ value.exp10 ≤ 13 then
    let n := value.exp10.toNat
    { negative := value.negative, int := digits.take (n + 1)
      frac := (digits.take (last + 1)).drop (n + 1), exp := none }
  else if value.exp10 < 0 ∧ value.exp10 ≥ -13 then
    { negative := value.negative, int := [0x30]
      frac := List.replicate (-value.exp10 - 1).toNat 0x30 ++ digits.take (last + 1), exp := none }
  else
    { negative := value.negative, int := digits.take 1, frac := (digits.take (last + 1)).drop 1
      exp := some value.exp10 }

theorem fracText_drop (digits : List UInt8) {n last : Nat} (hlast : last < digits.length) :
    (if (digits.take (last + 1)).drop (n + 1) = [] then []
      else 0x2E :: (digits.take (last + 1)).drop (n + 1))
      = if last > n then 0x2E :: (digits.take (last + 1)).drop (n + 1) else [] := by
  have hnil : (digits.take (last + 1)).drop (n + 1) = [] ↔ ¬last > n := by
    rw [List.drop_eq_nil_iff, List.length_take]
    omega
  by_cases h : last > n
  · rw [if_neg (fun hd => hnil.1 hd h), if_pos h]
  · rw [if_pos (hnil.2 h), if_neg h]

theorem tixxFormatTiRealValue_eq (value : TiRealValue) :
    tixxFormatTiRealValue value = (numberText value).text := by
  have hlast : lastDigit value.digits.val 13 < value.digits.val.length := by
    have hle := lastDigit_le value.digits.val 13
    rw [value.digits.property]
    omega
  unfold tixxFormatTiRealValue numberText NumberText.text NumberText.fracText NumberText.expText
  dsimp only
  by_cases hplain : 0 ≤ value.exp10 ∧ value.exp10 ≤ 13
  · simp only [if_pos hplain, fracText_drop _ hlast, List.append_nil]
  · by_cases hsmall : value.exp10 < 0 ∧ value.exp10 ≥ -13
    · have hne : value.digits.val.take (lastDigit value.digits.val 13 + 1) ≠ [] := by
        rw [Ne, List.take_eq_nil_iff]
        rintro (h | h)
        · cases h
        · rw [h] at hlast
          exact absurd hlast (by simp)
      have hfrac : List.replicate (-value.exp10 - 1).toNat 0x30
          ++ value.digits.val.take (lastDigit value.digits.val 13 + 1) ≠ [] :=
        List.append_ne_nil_of_right_ne_nil _ hne
      simp only [if_neg hplain, if_pos hsmall, if_neg hfrac, List.append_nil]
      simp
    · simp only [if_neg hplain, if_neg hsmall, fracText_drop _ hlast]

/-- The values that have a text: fourteen decimal digits, the first of them not zero unless
the value is, and an exponent of the format. -/
structure TiRealValue.Canonical (is8586 : Bool) (value : TiRealValue) : Prop where
  digits : ∀ c ∈ value.digits.val, isDigit c = true
  lead : value.digits.val.headI ≠ 0x30 ∨
    value.negative = false ∧ value.digits.val = zeroDigits ∧ value.exp10 = 0
  exp : -expLimit is8586 ≤ value.exp10 ∧ value.exp10 ≤ expLimit is8586

/-- A canonical real is decoded, and its value encodes to it. -/
theorem tixxDecodeTiRealDigits_canonical {is8586 : Bool} {real : List UInt8}
    (h : CanonicalReal is8586 real) :
    ∃ value, tixxDecodeTiRealDigits real is8586 = .ok value ∧ value.Canonical is8586
      ∧ tixxEncodeTiRealDigits value.negative value.digits.val value.exp10 is8586 = real := by
  unfold tixxDecodeTiRealDigits
  dsimp only
  by_cases hzero : unpackBcd (mantissaBytes is8586 real) = zeroDigits
  · rw [if_pos hzero]
    refine ⟨_, rfl, ⟨h.digits, Or.inr ⟨rfl, hzero, rfl⟩, ?_⟩, ?_⟩
    · show -expLimit is8586 ≤ 0 ∧ 0 ≤ expLimit is8586
      cases is8586 <;> decide
    · dsimp only
      rw [hzero]
      cases h.lead with
      | inl hlead =>
          rw [hzero] at hlead
          exact absurd rfl hlead
      | inr hcanon =>
          rw [hcanon]
          cases is8586 <;> decide
  · have hlead : (unpackBcd (mantissaBytes is8586 real)).headI ≠ 0x30 := by
      cases h.lead with
      | inl hlead => exact hlead
      | inr hcanon =>
          rw [hcanon] at hzero
          exact absurd (by cases is8586 <;> decide) hzero
    have hexp : ¬(realExp is8586 real > 999 ∨ realExp is8586 real < -999) := by
      have hbound := h.exp
      unfold expLimit at hbound
      split at hbound <;> omega
    rw [if_neg hzero, if_neg hexp]
    refine ⟨_, rfl, ⟨h.digits, Or.inl hlead, h.exp⟩, ?_⟩
    unfold tixxEncodeTiRealDigits
    dsimp only
    rw [packBcd_unpackBcd]
    conv => rhs; rw [← real_eq_fields h.length]
    congr 2
    cases h.flag with
    | inl hflag =>
        rw [hflag]
        rfl
    | inr hflag =>
        rw [hflag]
        rfl

/-- The digits that the formatter writes: some zeros, and all the digits but trailing zeros. -/
theorem numberText_digits (value : TiRealValue) :
    ∃ k m, (numberText value).int ++ (numberText value).frac
        = List.replicate k 0x30 ++ value.digits.val.take m
      ∧ lastDigit value.digits.val 13 < m ∧ m ≤ 14
      ∧ (numberText value).int.length + (numberText value).exp.getD 0 - k - 1 = value.exp10 := by
  have hlen := value.digits.property
  have hlast := lastDigit_le value.digits.val 13
  unfold numberText
  dsimp only
  by_cases hplain : 0 ≤ value.exp10 ∧ value.exp10 ≤ 13
  · simp only [if_pos hplain]
    refine ⟨0, max (value.exp10.toNat + 1) (lastDigit value.digits.val 13 + 1), ?_, ?_, ?_, ?_⟩
    · by_cases hmore : lastDigit value.digits.val 13 ≤ value.exp10.toNat
      · have hnil : (value.digits.val.take (lastDigit value.digits.val 13 + 1)).drop
            (value.exp10.toNat + 1) = [] := by
          rw [List.drop_eq_nil_iff, List.length_take]
          omega
        rw [hnil, Nat.max_eq_left (by omega)]
        simp
      · have hsub : value.digits.val.take (value.exp10.toNat + 1)
            = (value.digits.val.take (lastDigit value.digits.val 13 + 1)).take
              (value.exp10.toNat + 1) := by
          rw [List.take_take, Nat.min_eq_left (by omega)]
        rw [Nat.max_eq_right (by omega), hsub, List.take_append_drop]
        simp
    · omega
    · omega
    · rw [List.length_take, hlen]
      simp only [Option.getD_none]
      omega
  · by_cases hsmall : value.exp10 < 0 ∧ value.exp10 ≥ -13
    · simp only [if_neg hplain, if_pos hsmall]
      refine ⟨(-value.exp10).toNat, lastDigit value.digits.val 13 + 1, ?_, by omega, by omega, ?_⟩
      · have hsucc : (-value.exp10).toNat = (-value.exp10 - 1).toNat + 1 := by omega
        rw [hsucc, List.replicate_succ]
        rfl
      · simp only [Option.getD_none, List.length_cons, List.length_nil]
        omega
    · simp only [if_neg hplain, if_neg hsmall]
      refine ⟨0, lastDigit value.digits.val 13 + 1, ?_, by omega, by omega, ?_⟩
      · have hsub : value.digits.val.take 1
            = (value.digits.val.take (lastDigit value.digits.val 13 + 1)).take 1 := by
          rw [List.take_take, Nat.min_eq_left (by omega)]
        rw [hsub, List.take_append_drop]
        simp
      · rw [List.length_take, hlen]
        simp only [Option.getD_some]
        omega

theorem numberText_wellFormed {is8586 : Bool} {value : TiRealValue}
    (h : value.Canonical is8586) : (numberText value).WellFormed := by
  have htake : ∀ m, ∀ c ∈ value.digits.val.take m, isDigit c = true := fun m c hc =>
    h.digits c (List.mem_of_mem_take hc)
  have hzeros : ∀ k, ∀ c ∈ List.replicate k (0x30 : UInt8), isDigit c = true := by
    intro k c hc
    rw [(List.mem_replicate.1 hc).2]
    rfl
  have hne : ∀ n, value.digits.val.take (n + 1) ≠ [] := by
    intro n hnil
    have hlen := congrArg List.length hnil
    rw [List.length_take, value.digits.property, List.length_nil] at hlen
    omega
  have hexp : value.exp10.natAbs ≤ 100000 := by
    have hbound := h.exp
    unfold expLimit at hbound
    split at hbound <;> omega
  unfold numberText
  dsimp only
  split
  · exact ⟨hne _, htake _, fun c hc => htake _ c (List.mem_of_mem_drop hc), nofun⟩
  · split
    · refine ⟨by simp, by simp [isDigit], fun c hc => ?_, nofun⟩
      cases List.mem_append.1 hc with
      | inl hzero => exact hzeros _ c hzero
      | inr hdigit => exact htake _ c hdigit
    · refine ⟨hne 0, htake _, fun c hc => htake _ c (List.mem_of_mem_drop hc), ?_⟩
      rintro e ⟨⟩
      exact hexp

@[simp] theorem numberText_negative (value : TiRealValue) :
    (numberText value).negative = value.negative := by
  unfold numberText
  dsimp only
  split
  · rfl
  · split <;> rfl

/-- Zeros before digits of which the first is not zero. -/
theorem significantDigits_zeros (k : Nat) {ds : List UInt8} (h : ds.headI ≠ 0x30) :
    significantDigits (List.replicate k 0x30 ++ ds) = ds
      ∧ (ds ≠ [] → leadingZeros (List.replicate k 0x30 ++ ds) = k) := by
  have hdrop : ds.dropWhile (· = 0x30) = ds ∧ ds.takeWhile (· = 0x30) = [] := by
    cases ds with
    | nil => exact ⟨rfl, rfl⟩
    | cons d ds =>
        have hd : d ≠ 0x30 := h
        simp [hd]
  unfold significantDigits leadingZeros
  rw [List.dropWhile_append_of_pos (by simp), List.takeWhile_append_of_pos (by simp), hdrop.1,
    hdrop.2]
  simp

/-- The text of a value is parsed to the value's bytes. -/
theorem tixxParseDecimalToTiReal_format {is8586 : Bool} {value : TiRealValue}
    (h : value.Canonical is8586) {rest : List UInt8} (hrest : Stops rest) :
    tixxParseDecimalToTiReal (tixxFormatTiRealValue value ++ rest) is8586
      = .ok (tixxEncodeTiRealDigits value.negative value.digits.val value.exp10 is8586) := by
  obtain ⟨k, m, hdigits, hm, hm14, hexp⟩ := numberText_digits value
  have hlen := value.digits.property
  have hparse := tixxParseDecimalToTiReal_text (numberText_wellFormed h) hrest is8586
  rw [tixxFormatTiRealValue_eq]
  rw [hdigits] at hparse
  cases h.lead with
  | inl hlead =>
      have hne : value.digits.val.take m ≠ [] := by
        intro hnil
        have hzero := congrArg List.length hnil
        rw [List.length_take, hlen, List.length_nil] at hzero
        omega
      have hhead : (value.digits.val.take m).headI = value.digits.val.headI := by
        cases hv : value.digits.val with
        | nil =>
            rw [hv] at hlen
            cases hlen
        | cons d ds =>
            cases m with
            | zero => omega
            | succ m => rfl
      obtain ⟨hsig, hzeros⟩ := significantDigits_zeros k (hhead ▸ hlead)
      rw [hsig, hzeros hne] at hparse
      rw [hparse (by rw [List.length_take]; omega), if_neg hne]
      dsimp only
      rw [hexp, if_neg (by have hbound := h.exp; omega),
        padRight_take_lastDigit hlen hm hm14, numberText_negative]
  | inr hzero =>
      obtain ⟨hneg, hall, hexp10⟩ := hzero
      have hsig : significantDigits (List.replicate k 0x30 ++ value.digits.val.take m) = [] := by
        unfold significantDigits
        rw [List.dropWhile_eq_nil_iff]
        intro c hc
        rw [hall] at hc
        cases List.mem_append.1 hc with
        | inl hleft => simpa using (List.mem_replicate.1 hleft).2
        | inr hright => simpa using (List.mem_replicate.1 (List.mem_of_mem_take hright)).2
      rw [hsig] at hparse
      rw [hparse (by simp), if_pos rfl, hneg, hall, hexp10]

/-! ## the bytes of a value -/

/-- Digits come back from their bytes. -/
theorem unpackBcd_packBcd {ds : List UInt8} (h : ∀ c ∈ ds, isDigit c = true)
    (heven : ds.length % 2 = 0) : unpackBcd (packBcd ds) = ds := by
  have hall : ∀ m < 10, ∀ n < 10,
      nibbleChar (((0x30 + UInt8.ofNat m - 0x30) <<< 4 ||| (0x30 + UInt8.ofNat n - 0x30)) >>> 4
        &&& 0xF) = 0x30 + UInt8.ofNat m
      ∧ nibbleChar (((0x30 + UInt8.ofNat m - 0x30) <<< 4 ||| (0x30 + UInt8.ofNat n - 0x30))
        &&& 0xF) = 0x30 + UInt8.ofNat n := by
    decide
  have hdigit : ∀ c, isDigit c = true → ∃ n < 10, c = 0x30 + UInt8.ofNat n := by
    have hbytes : ∀ k < 256, isDigit (UInt8.ofNat k) = true →
        ∃ n < 10, UInt8.ofNat k = 0x30 + UInt8.ofNat n := by
      decide +kernel
    intro c hc
    simpa using hbytes c.toNat c.toNat_lt (by simpa using hc)
  induction ds using packBcd.induct with
  | case1 hi lo ds ih =>
      obtain ⟨hhi, hrest⟩ := List.forall_mem_cons.mp h
      obtain ⟨hlo, hds⟩ := List.forall_mem_cons.mp hrest
      obtain ⟨m, hm, rfl⟩ := hdigit hi hhi
      obtain ⟨n, hn, rfl⟩ := hdigit lo hlo
      obtain ⟨hfirst, hsecond⟩ := hall m hm n hn
      rw [packBcd, unpackBcd, hfirst, hsecond, ih hds (by simp at heven; omega)]
  | case2 ds hshort =>
      cases ds with
      | nil => rfl
      | cons c cs =>
          cases cs with
          | nil => cases heven
          | cons c' cs => exact absurd rfl (hshort c c' cs)

theorem length_expField (is8586 : Bool) (exp10 : Int) :
    (expField is8586 exp10).length = if is8586 then 2 else 1 := by
  unfold expField
  cases is8586 <;> exact length_putLE _ _

/-- The exponent comes back from its field. -/
theorem realExp_expField {is8586 : Bool} {exp10 : Int}
    (h : -expLimit is8586 ≤ exp10 ∧ exp10 ≤ expLimit is8586) (flag : UInt8) (rest : List UInt8) :
    realExp is8586 (flag :: (expField is8586 exp10 ++ rest)) = exp10 := by
  cases is8586 with
  | true =>
      have hbound : -999 ≤ exp10 ∧ exp10 ≤ 999 := h
      have hword : getLE (expField true exp10) = ((0xFC00 + exp10) % 2 ^ 16).toNat := by
        unfold expField
        rw [if_pos rfl, getLE_putLE (by omega)]
      obtain ⟨a, b, hfield⟩ : ∃ a b, expField true exp10 = [a, b] :=
        List.length_eq_two.mp (length_expField true exp10)
      rw [hfield] at hword ⊢
      simp only [getLE] at hword
      simp only [realExp, if_true, List.cons_append, List.getD_cons_succ, List.getD_cons_zero]
      omega
  | false =>
      have hbound : -99 ≤ exp10 ∧ exp10 ≤ 99 := h
      have hbyte : getLE (expField false exp10) = ((0x80 + exp10) % 2 ^ 8).toNat := by
        unfold expField
        rw [if_neg (by decide), getLE_putLE (by omega)]
      obtain ⟨a, hfield⟩ : ∃ a, expField false exp10 = [a] :=
        List.length_eq_one_iff.mp (length_expField false exp10)
      rw [hfield] at hbyte ⊢
      simp only [getLE] at hbyte
      simp only [realExp, Bool.false_eq_true, if_false, List.cons_append, List.getD_cons_succ,
        List.getD_cons_zero]
      omega

/-- A canonical value is decoded from its bytes, and these are canonical. -/
theorem tixxDecodeTiRealDigits_encode {is8586 : Bool} {value : TiRealValue}
    (h : value.Canonical is8586) :
    let real := tixxEncodeTiRealDigits value.negative value.digits.val value.exp10 is8586
    CanonicalReal is8586 real ∧ tixxDecodeTiRealDigits real is8586 = .ok value := by
  intro real
  have hlen := value.digits.property
  have hunpack : unpackBcd (packBcd value.digits.val) = value.digits.val :=
    unpackBcd_packBcd h.digits (by rw [hlen])
  have hpack : (packBcd value.digits.val).length = 7 := by
    have hdouble := congrArg List.length hunpack
    rw [length_unpackBcd, hlen] at hdouble
    omega
  have hmant : mantissaBytes is8586 real = packBcd value.digits.val := by
    refine mantissaBytes_append (_ :: expField is8586 value.exp10) ?_ hpack
    rw [List.length_cons, length_expField]
    cases is8586 <;> rfl
  have hexp : realExp is8586 real = value.exp10 := realExp_expField h.exp _ _
  have hhead : real.headI = if value.negative then 0x80 else 0x00 := rfl
  constructor
  · constructor
    · show (_ :: (expField is8586 value.exp10 ++ packBcd value.digits.val)).length = _
      rw [List.length_cons, List.length_append, length_expField, hpack]
      cases is8586 <;> rfl
    · rw [hhead]
      cases value.negative
      · exact Or.inl rfl
      · exact Or.inr rfl
    · rw [hmant, hunpack]
      exact h.digits
    · rw [hmant, hunpack]
      refine h.lead.imp_right fun hzero => ?_
      show tixxEncodeTiRealDigits value.negative value.digits.val value.exp10 is8586 = _
      rw [hzero.1, hzero.2.1, hzero.2.2]
      cases is8586 <;> decide
    · rw [hexp]
      exact h.exp
  · unfold tixxDecodeTiRealDigits
    have hbound : ¬(value.exp10 > 999 ∨ value.exp10 < -999) := by
      have hlimit := h.exp
      unfold expLimit at hlimit
      split at hlimit <;> omega
    have hsign : (decide (real.headI &&& 0x80 ≠ 0)) = value.negative := by
      rw [hhead]
      cases value.negative <;> rfl
    simp only [hmant, hunpack, hexp, if_neg hbound, hsign]
    split
    · rename_i hzero
      cases h.lead with
      | inl hlead =>
          rw [hzero] at hlead
          exact absurd rfl hlead
      | inr hvalue =>
          obtain ⟨hneg, -, hexp10⟩ := hvalue
          rw [← hneg, ← hexp10]
    · rfl

end Tilibs.Calcs
