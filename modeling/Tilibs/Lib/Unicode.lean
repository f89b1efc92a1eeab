import Mathlib
import Tilibs.Lib.Bytes

/-!
# Tilibs.Lib.Unicode

Text as a list of characters, and its two encodings as bytes: UTF-8 and UTF-16 with the low byte
of a unit first.

A `Char` is a Unicode scalar value, so that a string of bytes is well formed in an encoding when
it encodes some text.  For UTF-16 this says that there is no half of a unit and no surrogate
without its partner (`wellFormedUtf16le_iff`).
-/

namespace Tilibs.Lib

/-! ## scalar values -/

theorem Char.toNat_scalar (c : Char) : c.toNat < 0xD800 ∨ (0xDFFF < c.toNat ∧ c.toNat < 0x110000) :=
  c.valid

theorem Char.exists_toNat {v : Nat} (h : v < 0xD800 ∨ (0xDFFF < v ∧ v < 0x110000)) :
    ∃ c : Char, c.toNat = v := by
  refine ⟨Char.ofNat v, ?_⟩
  rw [Char.toNat_ofNat, if_pos h]

/-! ## UTF-8 -/

/-- The bytes of a text in UTF-8. -/
def utf8 (cs : List Char) : List UInt8 := cs.flatMap String.utf8EncodeChar

theorem utf8_cons (c : Char) (cs : List Char) :
    utf8 (c :: cs) = String.utf8EncodeChar c ++ utf8 cs := List.flatMap_cons

/-- The bytes are those of a text. -/
def WellFormedUtf8 (bs : List UInt8) : Prop := ∃ cs, bs = utf8 cs

/-! ## UTF-16 -/

/-- `0xD800` to `0xDBFF` -/
def HighSurrogate (unit : Nat) : Prop := 0xD800 ≤ unit ∧ unit ≤ 0xDBFF

/-- `0xDC00` to `0xDFFF` -/
def LowSurrogate (unit : Nat) : Prop := 0xDC00 ≤ unit ∧ unit ≤ 0xDFFF

/-- The bytes of a character in UTF-16. -/
def utf16leChar (c : Char) : List UInt8 :=
  if c.toNat < 0x10000 then putLE 2 c.toNat
  else putLE 2 (0xD800 + (c.toNat - 0x10000) / 0x400) ++ putLE 2 (0xDC00 + (c.toNat - 0x10000) % 0x400)

/-- The bytes of a text in UTF-16. -/
def utf16le (cs : List Char) : List UInt8 := cs.flatMap utf16leChar

theorem utf16le_cons (c : Char) (cs : List Char) :
    utf16le (c :: cs) = utf16leChar c ++ utf16le cs := List.flatMap_cons

/-- Whole units, in which every surrogate has its partner. -/
inductive WellFormedUtf16le : List UInt8 → Prop
  | nil : WellFormedUtf16le []
  | unit {lo hi : UInt8} {rest : List UInt8} : ¬HighSurrogate (getLE [lo, hi]) →
      ¬LowSurrogate (getLE [lo, hi]) → WellFormedUtf16le rest → WellFormedUtf16le (lo :: hi :: rest)
  | pair {lo hi lo' hi' : UInt8} {rest : List UInt8} : HighSurrogate (getLE [lo, hi]) →
      LowSurrogate (getLE [lo', hi']) → WellFormedUtf16le rest →
        WellFormedUtf16le (lo :: hi :: lo' :: hi' :: rest)

theorem WellFormedUtf16le.even {bs : List UInt8} (h : WellFormedUtf16le bs) : Even bs.length := by
  induction h with
  | nil => exact ⟨0, rfl⟩
  | unit _ _ _ ih =>
      rw [List.length_cons, List.length_cons]
      exact ih.add even_two
  | pair _ _ _ ih =>
      simp only [List.length_cons]
      exact (ih.add even_two).add even_two

theorem getLE_two_lt (lo hi : UInt8) : getLE [lo, hi] < 0x10000 := by
  have hlt := getLE_lt [lo, hi]
  rwa [show ([lo, hi] : List UInt8).length = 2 from rfl,
    show (256 : Nat) ^ 2 = 0x10000 by norm_num] at hlt

theorem putLE_getLE_two (lo hi : UInt8) : putLE 2 (getLE [lo, hi]) = [lo, hi] :=
  putLE_getLE [lo, hi]

/-- The two bytes of a unit. -/
theorem exists_putLE_two {v : Nat} (h : v < 0x10000) :
    ∃ lo hi, putLE 2 v = [lo, hi] ∧ getLE [lo, hi] = v := by
  have hvalue : getLE (putLE 2 v) = v := getLE_putLE (by norm_num; exact h)
  exact ⟨UInt8.ofNat v, UInt8.ofNat (v / 256), rfl, hvalue⟩

/-- A unit that is no surrogate is a character. -/
theorem utf16leChar_of_unit {c : Char} {lo hi : UInt8} (h : c.toNat = getLE [lo, hi]) :
    utf16leChar c = [lo, hi] := by
  unfold utf16leChar
  rw [h, if_pos (getLE_two_lt lo hi), putLE_getLE_two]

/-- The value of a pair of surrogates. -/
def pairValue (high low : Nat) : Nat := 0x10000 + (high - 0xD800) * 0x400 + (low - 0xDC00)

theorem utf16leChar_of_pair {c : Char} {lo hi lo' hi' : UInt8}
    (hhigh : HighSurrogate (getLE [lo, hi])) (hlow : LowSurrogate (getLE [lo', hi']))
    (h : c.toNat = pairValue (getLE [lo, hi]) (getLE [lo', hi'])) :
    utf16leChar c = [lo, hi, lo', hi'] := by
  unfold HighSurrogate at hhigh
  unfold LowSurrogate at hlow
  unfold pairValue at h
  unfold utf16leChar
  have hfirst : 0xD800 + (c.toNat - 0x10000) / 0x400 = getLE [lo, hi] := by omega
  have hsecond : 0xDC00 + (c.toNat - 0x10000) % 0x400 = getLE [lo', hi'] := by omega
  rw [if_neg (by omega), hfirst, hsecond, putLE_getLE_two, putLE_getLE_two]
  rfl

/-- A character is a unit that is no surrogate, or a pair of them. -/
theorem utf16leChar_cases (c : Char) :
    (∃ lo hi, utf16leChar c = [lo, hi] ∧ c.toNat = getLE [lo, hi]
      ∧ ¬HighSurrogate (getLE [lo, hi]) ∧ ¬LowSurrogate (getLE [lo, hi]))
    ∨ ∃ lo hi lo' hi', utf16leChar c = [lo, hi, lo', hi']
      ∧ c.toNat = pairValue (getLE [lo, hi]) (getLE [lo', hi'])
      ∧ HighSurrogate (getLE [lo, hi]) ∧ LowSurrogate (getLE [lo', hi']) := by
  have hscalar := Char.toNat_scalar c
  unfold HighSurrogate LowSurrogate pairValue
  by_cases hsmall : c.toNat < 0x10000
  · obtain ⟨lo, hi, hbytes, hvalue⟩ := exists_putLE_two hsmall
    refine .inl ⟨lo, hi, ?_, hvalue.symm, by omega, by omega⟩
    unfold utf16leChar
    rw [if_pos hsmall, hbytes]
  · obtain ⟨lo, hi, hbytes, hvalue⟩ :=
      @exists_putLE_two (0xD800 + (c.toNat - 0x10000) / 0x400) (by omega)
    obtain ⟨lo', hi', hbytes', hvalue'⟩ :=
      @exists_putLE_two (0xDC00 + (c.toNat - 0x10000) % 0x400) (by omega)
    refine .inr ⟨lo, hi, lo', hi', ?_, by omega, by omega, by omega⟩
    unfold utf16leChar
    rw [if_neg hsmall, hbytes, hbytes']
    rfl

/-- The bytes of a text, and no others, are well formed. -/
theorem wellFormedUtf16le_iff {bs : List UInt8} : WellFormedUtf16le bs ↔ ∃ cs, bs = utf16le cs := by
  constructor
  · intro h
    induction h with
    | nil => exact ⟨[], rfl⟩
    | @unit lo hi rest hhigh hlow _ ih =>
        obtain ⟨cs, rfl⟩ := ih
        have hlt := getLE_two_lt lo hi
        unfold HighSurrogate at hhigh
        unfold LowSurrogate at hlow
        obtain ⟨c, hc⟩ := Char.exists_toNat (show getLE [lo, hi] < 0xD800
          ∨ (0xDFFF < getLE [lo, hi] ∧ getLE [lo, hi] < 0x110000) by omega)
        refine ⟨c :: cs, ?_⟩
        rw [utf16le_cons, utf16leChar_of_unit hc]
        rfl
    | @pair lo hi lo' hi' rest hhigh hlow _ ih =>
        obtain ⟨cs, rfl⟩ := ih
        obtain ⟨c, hc⟩ := Char.exists_toNat
          (show pairValue (getLE [lo, hi]) (getLE [lo', hi']) < 0xD800
            ∨ (0xDFFF < pairValue (getLE [lo, hi]) (getLE [lo', hi'])
              ∧ pairValue (getLE [lo, hi]) (getLE [lo', hi']) < 0x110000) by
            unfold HighSurrogate at hhigh
            unfold LowSurrogate at hlow
            unfold pairValue
            omega)
        refine ⟨c :: cs, ?_⟩
        rw [utf16le_cons, utf16leChar_of_pair hhigh hlow hc]
        rfl
  · rintro ⟨cs, rfl⟩
    induction cs with
    | nil => exact .nil
    | cons c cs ih =>
        rw [utf16le_cons]
        obtain ⟨lo, hi, hbytes, -, hhigh, hlow⟩ | ⟨lo, hi, lo', hi', hbytes, -, hhigh, hlow⟩ :=
          utf16leChar_cases c
        · rw [hbytes]
          exact .unit hhigh hlow ih
        · rw [hbytes]
          exact .pair hhigh hlow ih

end Tilibs.Lib
