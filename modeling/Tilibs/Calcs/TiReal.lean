import Mathlib
import Tilibs.Lib.Bytes

/-!
# Tilibs.Calcs.TiReal

TI real numbers and their decimal text, as `calclabequipmentdata.cc` converts them.

A real is a flag byte with the sign, a biased exponent of one byte (TI-Z80) or two
(TI-85/86), and fourteen BCD digits.  The text has no more digits than are needed; the
parser finds the digits and the exponent again from where the point stands.

Text is the list of its ASCII codes; a C string has no NUL among them.
-/

namespace Tilibs.Calcs

open Lib

/-- Error codes of libticalcs that these conversions give. -/
inductive LabErr
  | invalidParameter
  | invalidPacket
  | outOfRange
  deriving DecidableEq, Repr

/-- `tixx_ti_real_value`; the digits are characters. -/
structure TiRealValue where
  negative : Bool
  digits : Buf 14
  exp10 : Int
  deriving DecidableEq

/-- The bytes of a real. -/
def realSize (is8586 : Bool) : Nat := if is8586 then 10 else 9

/-- The largest exponent of a format, either way. -/
def expLimit (is8586 : Bool) : Int := if is8586 then 999 else 99

/-- A decimal digit. -/
def isDigit (c : UInt8) : Bool := 0x30 ≤ c && c ≤ 0x39

/-! ## the bytes of a real -/

/-- Two digits to a byte. -/
def packBcd : List UInt8 → List UInt8
  | hi :: lo :: digits => ((hi - 0x30) <<< 4 ||| (lo - 0x30)) :: packBcd digits
  | _ => []

/-- The character of a nibble. -/
def nibbleChar (n : UInt8) : UInt8 := 0x30 + n

/-- Two characters from a byte. -/
def unpackBcd : List UInt8 → List UInt8
  | [] => []
  | b :: bs => nibbleChar ((b >>> 4) &&& 0xF) :: nibbleChar (b &&& 0xF) :: unpackBcd bs

theorem length_unpackBcd (bs : List UInt8) : (unpackBcd bs).length = 2 * bs.length := by
  induction bs with
  | nil => rfl
  | cons b bs ih =>
      simp only [unpackBcd, List.length_cons, ih]
      omega

/-- The exponent field, biased. -/
def expField (is8586 : Bool) (exp10 : Int) : List UInt8 :=
  if is8586 then putLE 2 ((0xFC00 + exp10) % 2 ^ 16).toNat
  else putLE 1 ((0x80 + exp10) % 2 ^ 8).toNat

/-- `tixx_encode_ti_real_digits` -/
def tixxEncodeTiRealDigits (negative : Bool) (digits : List UInt8) (exp10 : Int)
    (is8586 : Bool) : List UInt8 :=
  (if negative then 0x80 else 0x00) :: expField is8586 exp10 ++ packBcd digits

/-- The seven bytes of the mantissa. -/
def mantissaBytes (is8586 : Bool) (real : List UInt8) : List UInt8 :=
  (List.range 7).map fun i => real.getD ((if is8586 then 3 else 2) + i) 0

/-- The exponent of a real, without its bias. -/
def realExp (is8586 : Bool) (real : List UInt8) : Int :=
  if is8586 then (real.getD 1 0).toNat + 256 * (real.getD 2 0).toNat - 0xFC00
  else (real.getD 1 0).toNat - 0x80

/-- Fourteen zeros. -/
def zeroDigits : List UInt8 := List.replicate 14 0x30

/-- `tixx_decode_ti_real_digits`: a zero mantissa is the positive zero. -/
def tixxDecodeTiRealDigits (real : List UInt8) (is8586 : Bool) : Except LabErr TiRealValue :=
  let digits : Buf 14 := ⟨unpackBcd (mantissaBytes is8586 real), by
    rw [length_unpackBcd, mantissaBytes, List.length_map, List.length_range]⟩
  if digits.val = zeroDigits then .ok { negative := false, digits, exp10 := 0 }
  else
    let exp10 := realExp is8586 real
    if exp10 > 999 ∨ exp10 < -999 then .error .outOfRange
    else .ok { negative := real.headI &&& 0x80 ≠ 0, digits, exp10 }

/-! ## text -/

/-- The index of the last digit that is not a trailing zero, from an index down. -/
def lastDigit (digits : List UInt8) : Nat → Nat
  | 0 => 0
  | last + 1 => if digits.getD (last + 1) 0 = 0x30 then lastDigit digits last else last + 1

/-- The decimal digits of a number. -/
def decimal (n : Nat) : List UInt8 :=
  if n < 10 then [0x30 + UInt8.ofNat n] else decimal (n / 10) ++ [0x30 + UInt8.ofNat (n % 10)]

/-- The conversion `%+d`. -/
def signedDecimal (n : Int) : List UInt8 :=
  (if n < 0 then 0x2D else 0x2B) :: decimal n.natAbs

/-- `tixx_format_ti_real_value` -/
def tixxFormatTiRealValue (value : TiRealValue) : List UInt8 :=
  let digits := value.digits.val
  let last := lastDigit digits 13
  let sign := if value.negative then [0x2D] else []
  if 0 ≤ value.exp10 ∧ value.exp10 ≤ 13 then
    -- the point falls between two stored digits
    let n := value.exp10.toNat
    sign ++ digits.take (n + 1)
      ++ (if last > n then 0x2E :: (digits.take (last + 1)).drop (n + 1) else [])
  else if value.exp10 < 0 ∧ value.exp10 ≥ -13 then
    sign ++ [0x30, 0x2E] ++ List.replicate (-value.exp10 - 1).toNat 0x30 ++ digits.take (last + 1)
  else
    sign ++ digits.take 1 ++ (if last > 0 then 0x2E :: (digits.take (last + 1)).drop 1 else [])
      ++ 0x65 :: signedDecimal value.exp10

/-- What the loop over a number's characters has found so far. -/
structure DecimalScan where
  significant : List UInt8 := []
  nInt : Int := 0
  pos : Int := 0
  firstSig : Option Int := none
  exponent : Int := 0
  seenDot : Bool := false
  deriving DecidableEq

/-- A digit of the mantissa; fifteen of them from the first that is not zero are kept. -/
def DecimalScan.digit (s : DecimalScan) (c : UInt8) : DecimalScan :=
  let firstSig := if s.firstSig.isNone && c ≠ 0x30 then some s.pos else s.firstSig
  { s with
    firstSig
    significant :=
      if firstSig.isSome && s.significant.length < 15 then s.significant ++ [c] else s.significant
    pos := s.pos + 1
    nInt := if s.seenDot then s.nInt else s.nInt + 1 }

/-- The digits of the exponent, clamped beyond the supported range. -/
def scanExponentDigits : Int → List UInt8 → Int
  | exponent, [] => exponent
  | exponent, c :: cs =>
      if isDigit c then
        let next := if exponent ≤ 100000 then exponent * 10 + (c.toNat - 0x30) else exponent
        scanExponentDigits next cs
      else exponent

/-- What follows the letter E. -/
def scanExponent : List UInt8 → Int
  | 0x2D :: cs => -scanExponentDigits 0 cs
  | 0x2B :: cs => scanExponentDigits 0 cs
  | cs => scanExponentDigits 0 cs

/-- The loop over a number's characters. -/
def scanDecimal : DecimalScan → List UInt8 → DecimalScan
  | s, [] => s
  | s, c :: cs =>
      if c = 0x20 then s
      else if c = 0x2E then scanDecimal { s with seenDot := true } cs
      else if c = 0x65 ∨ c = 0x45 then { s with exponent := scanExponent cs }
      else scanDecimal (s.digit c) cs

/-- One is added to the digits, least significant first; whether it carries out of them. -/
def addOne : List UInt8 → List UInt8 × Bool
  | [] => ([], true)
  | d :: ds => if d = 0x39 then (0x30 :: (addOne ds).1, (addOne ds).2) else ((d + 1) :: ds, false)

/-- The fourteen digits and the exponent; the fifteenth digit rounds. -/
def roundDigits (significant : List UInt8) (exp10 : Int) : List UInt8 × Int :=
  let digits := padRight 14 0x30 (significant.take 14)
  if significant.length = 15 ∧ significant.getD 14 0 ≥ 0x35 then
    let (rounded, carry) := addOne digits.reverse
    if carry then (0x31 :: List.replicate 13 0x30, exp10 + 1) else (rounded.reverse, exp10)
  else (digits, exp10)

/-- `tixx_parse_decimal_to_ti_real`: the number at the start of a string, up to a space or
its end. -/
def tixxParseDecimalToTiReal (src : List UInt8) (is8586 : Bool) : Except LabErr (List UInt8) :=
  match src with
  | [] => .error .invalidParameter
  | c :: cs =>
      if c = 0x20 then .error .invalidParameter
      else
        let s := scanDecimal {} (if c = 0x2D ∨ c = 0x2B then cs else c :: cs)
        match s.firstSig with
        | none => .ok (tixxEncodeTiRealDigits false zeroDigits 0 is8586)
        | some first =>
            let (digits, exp10) := roundDigits s.significant (s.nInt + s.exponent - first - 1)
            if exp10 > expLimit is8586 ∨ exp10 < -expLimit is8586 then .error .outOfRange
            else .ok (tixxEncodeTiRealDigits (c = 0x2D) digits exp10 is8586)

end Tilibs.Calcs
