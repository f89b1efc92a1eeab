import Mathlib
import Tilibs.Conv.Tokens
import Tilibs.Conv.Varname

/-!
# Tilibs.Conv.Utf16

What the converters from UTF-16 read (`charset.cc`).

A string is in memory up to its terminator, and a converter that reads behind the
terminator has no result.  A high surrogate takes the unit that follows it, whatever
that is, so the last one of an odd run of them at the end of a string takes the
terminator (`utf16ReadsInside_iff`).  No string of calculator characters becomes such a
string, and on those the way back to the TI-68k characters is exact.
-/

namespace Tilibs.Conv

/-! ## the loop -/

/-- `0xD800` to `0xDBFF`, the units that begin a pair. -/
def isHighSurrogate (u : Nat) : Bool := 0xD800 ≤ u && u ≤ 0xDBFF

/-- What a converter makes of a unit, of a pair, and of a unit with a combining overline
where it has a character for that. -/
structure UnitTable where
  lone : Nat → List UInt8
  pair : Nat → Nat → List UInt8
  barred : Nat → Option UInt8

namespace UnitTable

/-- The loop over a string in memory. -/
def convert (table : UnitTable) : List Nat → Option (List UInt8)
  | [] => none
  | [c] => if c = 0 then some [] else none
  | c :: d :: rest =>
      if c = 0 then some []
      else if isHighSurrogate c then (table.convert rest).map (table.pair c d ++ ·)
      else match if d = 0x0305 then table.barred c else none with
        | some b => (table.convert rest).map (b :: ·)
        | none => (table.convert (d :: rest)).map (table.lone c ++ ·)

end UnitTable

/-- `ticonv_utf16_to_nonusb`; a letter with an overline is a character when the letter itself
is one. -/
def nonusbTable (charset : List Nat) : UnitTable where
  lone c := [unitChar charset c]
  pair c d := [charWithCode charset (c * 0x10000 + d)]
  barred c :=
    if (c < 256 ∧ charset.getD c 0 = c) ∧ (c = 0x78 ∨ c = 0x79) then some (barredChar charset c)
    else none

/-- The cases of `ticonv_utf16_to_ti80`. -/
def ti80Codes : List (Nat × List UInt8) :=
  [(0x03b8, [91]), (0x3c0, [29, 30]), (0x03a3, [99]), (0x03c3, [100]), (0x2080, [28]),
    (0x2081, [27])]

/-- `ticonv_utf16_to_ti80` -/
def ti80Table : UnitTable where
  lone c :=
    if (48 ≤ c ∧ c ≤ 57) ∨ (65 ≤ c ∧ c ≤ 90) then [UInt8.ofNat c]
    else (ti80Codes.lookup c).getD [64]
  pair _ _ := [64]
  barred _ := none

/-- `ticonv_utf16_to_ti83p` -/
def ti83pTable : UnitTable where
  lone c := [ti83pChar c]
  pair _ _ := [0x3F]
  barred _ := none

/-- The converters, by the calculators they are for. -/
inductive Utf16Family
  | nonusb (charset : List Nat)
  | ti80
  | ti83p

def Utf16Family.table : Utf16Family → UnitTable
  | .nonusb charset => nonusbTable charset
  | .ti80 => ti80Table
  | .ti83p => ti83pTable

/-- A string of these units is converted without a read behind its terminator. -/
def ReadsInside (family : Utf16Family) (units : List Nat) : Prop :=
  (family.table.convert (units ++ [0])).isSome

instance (family : Utf16Family) (units : List Nat) : Decidable (ReadsInside family units) :=
  inferInstanceAs (Decidable (_ = true))

/-! ## high surrogates at the end -/

/-- The high surrogates at the end of a string. -/
def trailingHighs (units : List Nat) : Nat := (units.rtakeWhile isHighSurrogate).length

theorem trailingHighs_of_all {units : List Nat} (h : ∀ u ∈ units, isHighSurrogate u) :
    trailingHighs units = units.length := by
  rw [trailingHighs, List.rtakeWhile_eq_self_iff.mpr h]

theorem trailingHighs_cons (c : Nat) (units : List Nat) :
    trailingHighs (c :: units) =
      if (∀ u ∈ units, isHighSurrogate u) ∧ isHighSurrogate c then units.length + 1
      else trailingHighs units := by
  induction units using List.reverseRecOn with
  | nil => cases hc : isHighSurrogate c <;> simp [trailingHighs, List.rtakeWhile, hc]
  | append_singleton units u ih =>
      unfold trailingHighs at ih ⊢
      rw [← List.cons_append, List.rtakeWhile_concat, List.rtakeWhile_concat]
      cases hu : isHighSurrogate u with
      | false => simp [hu]
      | true =>
          rw [if_pos rfl, if_pos rfl, List.length_append, ih, List.length_append]
          simp only [List.mem_append, List.mem_singleton, or_imp, forall_and, forall_eq, hu, and_true]
          split
          · rfl
          · rw [List.length_append]

/-- A unit that begins no pair leaves the end as it is. -/
theorem trailingHighs_cons_of_not {c : Nat} (h : isHighSurrogate c = false) (units : List Nat) :
    trailingHighs (c :: units) = trailingHighs units := by
  rw [trailingHighs_cons, if_neg]
  rintro ⟨-, hc⟩
  rw [h] at hc
  exact absurd hc (by decide)

/-- Nor does a pair change whether the run at the end is even. -/
theorem even_trailingHighs_pair {c : Nat} (h : isHighSurrogate c = true) (d : Nat)
    (units : List Nat) :
    Even (trailingHighs (c :: d :: units)) ↔ Even (trailingHighs units) := by
  cases hd : isHighSurrogate d with
  | false =>
      rw [trailingHighs_cons, if_neg, trailingHighs_cons_of_not hd]
      rintro ⟨hall, -⟩
      have := hall d List.mem_cons_self
      rw [hd] at this
      exact absurd this (by decide)
  | true =>
      rw [trailingHighs_cons, trailingHighs_cons]
      simp only [List.mem_cons, forall_eq_or_imp, hd, h, and_true, true_and]
      split
      · rename_i hall
        rw [trailingHighs_of_all hall, List.length_cons, Nat.even_add_one, Nat.even_add_one, not_not]
      · rfl

/-! ## strings in memory -/

section Convert

variable (table : UnitTable)

/-- A string stays in memory when the run of high surrogates at its end is even. -/
theorem UnitTable.isSome_convert_iff {units : List Nat} (h : ∀ u ∈ units, u ≠ 0) :
    (table.convert (units ++ [0])).isSome ↔ Even (trailingHighs units) := by
  induction units using List.twoStepInduction with
  | nil => simp [UnitTable.convert, trailingHighs, List.rtakeWhile]
  | singleton c =>
      have hc : c ≠ 0 := h c List.mem_cons_self
      show (table.convert [c, 0]).isSome ↔ _
      rw [UnitTable.convert, if_neg hc]
      cases hhigh : isHighSurrogate c with
      | true => simp [UnitTable.convert, trailingHighs, List.rtakeWhile, hhigh]
      | false => simp [UnitTable.convert, trailingHighs, List.rtakeWhile, hhigh]
  | cons_cons c d rest ihrest ihd =>
      have hc : c ≠ 0 := h c List.mem_cons_self
      have hd : ∀ u ∈ d :: rest, u ≠ 0 := fun u hu => h u (List.mem_cons_of_mem c hu)
      have hrest : ∀ u ∈ rest, u ≠ 0 := fun u hu => hd u (List.mem_cons_of_mem d hu)
      rw [List.cons_append, List.cons_append, UnitTable.convert, if_neg hc]
      cases hhigh : isHighSurrogate c with
      | true =>
          rw [if_pos rfl, Option.isSome_map, ihrest hrest, even_trailingHighs_pair hhigh]
      | false =>
          rw [if_neg (by decide), trailingHighs_cons_of_not hhigh]
          split
          · rename_i hbar
            have hover : d = 0x0305 := by
              by_contra hne
              rw [if_neg hne] at hbar
              cases hbar
            rw [Option.isSome_map, ihrest hrest, trailingHighs_cons_of_not (by rw [hover]; decide)]
          · rw [Option.isSome_map]
            exact ihd d hd

end Convert

/-- What a converter does with a string depends on its end alone. -/
theorem utf16ReadsInside_iff (family : Utf16Family) {units : List Nat} (h : ∀ u ∈ units, u ≠ 0) :
    ReadsInside family units ↔ Even (trailingHighs units) :=
  family.table.isSome_convert_iff h

theorem utf16ReadsInside_iff_emoji :
    ReadsInside .ti80 [0xD83D, 0xDE00] ↔ Even (trailingHighs [0xD83D, 0xDE00]) :=
  utf16ReadsInside_iff .ti80 (by decide)

/-- A high surrogate alone takes the terminator with it. -/
theorem not_readsInside_lone :
    ¬ ∀ (family : Utf16Family) (units : List Nat), (∀ u ∈ units, u ≠ 0) →
      ReadsInside family units := by
  intro h
  exact absurd (h .ti83p [0xD83D] (by decide)) (by decide)

/-! ## there and back -/

theorem isHighSurrogate_iff (u : Nat) : isHighSurrogate u = true ↔ u / 0x400 = 0x36 := by
  simp only [isHighSurrogate, Bool.and_eq_true, decide_eq_true_eq]
  omega

/-- On a string that it stays in, the converter of a table makes what the string of its units
becomes. -/
theorem convert_nonusbTable (charset : List Nat) {units : List Nat} (h : ∀ u ∈ units, u ≠ 0)
    (heven : Even (trailingHighs units)) :
    (nonusbTable charset).convert (units ++ [0]) = some (ticonvUtf16ToNonusb charset units) := by
  induction units using List.twoStepInduction with
  | nil => rfl
  | singleton c =>
      have hc : c ≠ 0 := h c List.mem_cons_self
      have hhigh : isHighSurrogate c = false := by
        cases hhigh : isHighSurrogate c with
        | false => rfl
        | true => simp [trailingHighs, List.rtakeWhile, hhigh] at heven
      have hunit : ¬ c / 0x400 = 0x36 := by
        rw [← isHighSurrogate_iff, hhigh]
        decide
      show (nonusbTable charset).convert [c, 0] = _
      rw [UnitTable.convert, if_neg hc, hhigh, if_neg (by decide), ticonvUtf16ToNonusb, if_neg hunit]
      rfl
  | cons_cons c d rest ihrest ihd =>
      have hc : c ≠ 0 := h c List.mem_cons_self
      have hd : ∀ u ∈ d :: rest, u ≠ 0 := fun u hu => h u (List.mem_cons_of_mem c hu)
      have hrest : ∀ u ∈ rest, u ≠ 0 := fun u hu => hd u (List.mem_cons_of_mem d hu)
      rw [List.cons_append, List.cons_append, UnitTable.convert, if_neg hc, ticonvUtf16ToNonusb]
      cases hhigh : isHighSurrogate c with
      | true =>
          rw [if_pos rfl, if_pos ((isHighSurrogate_iff c).mp hhigh),
            ihrest hrest ((even_trailingHighs_pair hhigh d rest).mp heven)]
          rfl
      | false =>
          have hunit : ¬ c / 0x400 = 0x36 := by
            rw [← isHighSurrogate_iff, hhigh]
            decide
          rw [trailingHighs_cons_of_not hhigh] at heven
          rw [if_neg (by decide), if_neg hunit]
          by_cases hbar : (c < 256 ∧ charset.getD c 0 = c) ∧ (c = 0x78 ∨ c = 0x79) ∧ d = 0x0305
          · have hover : d = 0x0305 := hbar.2.2
            have htable : (nonusbTable charset).barred c = some (barredChar charset c) :=
              if_pos ⟨hbar.1, hbar.2.1⟩
            rw [trailingHighs_cons_of_not (by rw [hover]; decide)] at heven
            rw [if_pos hbar, if_pos hover, htable, ihrest hrest heven]
            rfl
          · have htable : (if d = 0x0305 then (nonusbTable charset).barred c else none) = none := by
              by_cases hover : d = 0x0305
              · rw [if_pos hover]
                exact if_neg fun hletter => hbar ⟨hletter.1, hletter.2, hover⟩
              · rw [if_neg hover]
            rw [if_neg hbar, htable]
            show ((nonusbTable charset).convert (d :: rest ++ [0])).map _ = _
            rw [ihd d hd heven]
            rfl

/-- The units of a character leave an even run at the end even. -/
theorem even_trailingHighs_utf16Units {charset : List Nat} {b : UInt8} (h : CharBack charset b)
    (units : List Nat) :
    Even (trailingHighs (utf16Units (charset.getD b.toNat 0) ++ units))
      ↔ Even (trailingHighs units) := by
  unfold CharBack at h
  dsimp only at h
  unfold utf16Units
  split at h
  · rename_i hc
    have hlow : isHighSurrogate (charset.getD b.toNat 0) = false := by
      rw [Bool.eq_false_iff, Ne, isHighSurrogate_iff]
      exact h.1
    rw [if_pos hc, List.singleton_append, trailingHighs_cons_of_not hlow]
  · rename_i hc
    rw [if_neg hc, List.cons_append, List.singleton_append]
    split at h
    · rename_i hhigh
      exact even_trailingHighs_pair ((isHighSurrogate_iff _).mpr hhigh) _ units
    · rename_i hhigh
      have hlow : isHighSurrogate (charset.getD b.toNat 0 / 0x10000) = false := by
        rw [Bool.eq_false_iff, Ne, isHighSurrogate_iff]
        exact hhigh
      have hbar : isHighSurrogate (charset.getD b.toNat 0 % 0x10000) = false := by
        rw [h.2.2.1]
        decide
      rw [trailingHighs_cons_of_not hlow, trailingHighs_cons_of_not hbar]

/-- What calculator characters become ends in no odd run. -/
theorem even_trailingHighs_nonusb {charset : List Nat} (h : ∀ b, CharBack charset b)
    (ti : List UInt8) : Even (trailingHighs (ticonvNonusbToUtf16 charset ti)) := by
  induction ti with
  | nil => exact Even.zero
  | cons b ti ih =>
      rw [ticonvNonusbToUtf16_cons, even_trailingHighs_utf16Units (h b)]
      exact ih

/-- No unit of a TI-68k character is a terminator. -/
theorem utf16Units_ti9x_ne_zero {b : UInt8} (h : b ≠ 0) :
    ∀ u ∈ utf16Units (ti9xCharset.getD b.toNat 0), u ≠ 0 := by
  have hall : ∀ n < 256, n ≠ 0 → ∀ u ∈ utf16Units (ti9xCharset.getD n 0), u ≠ 0 := by
    decide +kernel
  exact hall b.toNat b.toNat_lt fun hzero => h (UInt8.toNat_inj.mp hzero)

/-- `ticonv_ti9x_to_utf16`, without the terminator that follows. -/
def ticonvTi9xToUtf16 (ti : List UInt8) : List Nat := ticonvNonusbToUtf16 ti9xCharset ti

/-- `ticonv_utf16_to_ti9x`, of a string in memory. -/
def ticonvUtf16ToTi9x (utf16 : List Nat) : Option (List UInt8) :=
  (nonusbTable ti9xCharset).convert utf16

theorem ticonvTi9xToUtf16_ne_zero {ti : List UInt8} (h : ∀ b ∈ ti, b ≠ 0) :
    ∀ u ∈ ticonvTi9xToUtf16 ti, u ≠ 0 := by
  intro u hu
  obtain ⟨b, hb, hunit⟩ := List.mem_flatMap.mp hu
  exact utf16Units_ti9x_ne_zero (h b hb) u hunit

/-- Strings of TI-68k characters come back from memory. -/
theorem ticonvUtf16ToTi9x_ti9x {ti : List UInt8} (h : ∀ b ∈ ti, b ≠ 0) :
    ticonvUtf16ToTi9x (ticonvTi9xToUtf16 ti ++ [0]) = some ti := by
  have hback := ticonvUtf16ToNonusb_nonusb charBack_ti9x ti
  unfold ticonvUtf16ToTi9x
  rw [convert_nonusbTable ti9xCharset (ticonvTi9xToUtf16_ne_zero h)
    (even_trailingHighs_nonusb charBack_ti9x ti), ticonvTi9xToUtf16, hback]

/-- `x` in front of x bar, and the imaginary unit at the end. -/
theorem ticonvUtf16ToTi9x_ti9x_bar :
    ticonvUtf16ToTi9x (ticonvTi9xToUtf16 [0x78, 0x9A, 0x97] ++ [0]) = some [0x78, 0x9A, 0x97] := by
  have h : ∀ b ∈ ([0x78, 0x9A, 0x97] : List UInt8), b ≠ 0 := by simp
  exact ticonvUtf16ToTi9x_ti9x h

end Tilibs.Conv
