import Mathlib
import Tilibs.CalcModel

/-!
# Tilibs.Conv.Varname

Names of variables in files, as `ticonv.cc` and `charset.cc` convert them.  Files
have the calculator's own characters; so have the entries of the models that are
linked by a serial cable, while the USB models have UTF-8.

The conversion of the TI-89 Titanium USB goes through UTF-16 and the table of the
TI-68k characters.  UTF-8 itself is GLib's; the token names of the TI-84+ family
are a parameter too.
-/

namespace Tilibs.Conv

/-! ## characters of the TI-68k models -/

/-- `ti9x_charset`: the UTF-16 code of each character; two units are one number. -/
def ti9xCharset : List Nat :=
  List.range 11
    ++ [0x2934, 12, 13, 0x2693, 0x2713, 0x25fe, 0x25c2, 0x25b8, 0x25b4, 0x25be, 0x2190, 0x2192,
      0x2191, 0x2193, 0x25c0, 0x25b6, 0x2b06, 0x222a, 0x2229, 0x2282, 0x2208]
    ++ List.range' 32 95 ++ [0x25c6]
    -- Greek letters
    ++ [0x3b1, 0x3b2, 0x393, 0x3b3, 0x394, 0x3b4, 0x3b5, 0x3b6, 0x3b8, 0x3bb, 0x3be, 0x3a0,
      0x3c0, 0x3c1, 0x3a3, 0x3c3, 0x3c4, 0x3c6, 0x3c8, 0x3a9, 0x3c9]
    -- math symbols, with two characters out of the BMP, x bar and y bar
    ++ [0xd875dda4, 0x212f, 0xd875dc8a, 0x2b3, 0x22ba, 0x00780305, 0x00790305, 0x2264, 0x2260,
      0x2265, 0x2220]
    -- Latin-1
    ++ [0x2026] ++ List.range' 161 7 ++ [0x221a] ++ List.range' 169 4 ++ [0x2212]
    ++ List.range' 174 10 ++ [0x207a] ++ List.range' 185 3 ++ [0x2202, 0x222b, 0x221e]
    ++ List.range' 191 65

/-- The units of one character. -/
def utf16Units (c : Nat) : List Nat := if c < 0x10000 then [c] else [c / 0x10000, c % 0x10000]

/-- `ticonv_nonusb_to_utf16` -/
def ticonvNonusbToUtf16 (charset : List Nat) (ti : List UInt8) : List Nat :=
  ti.flatMap fun b => utf16Units (charset.getD b.toNat 0)

/-- The character with a code, '?' when there is none. -/
def charWithCode (charset : List Nat) (c : Nat) : UInt8 :=
  match charset.findIdx? (· == c) with
  | some i => UInt8.ofNat i
  | none => 0x3F

/-- A letter followed by a combining overline: the letter itself when the table has no
such character. -/
def barredChar (charset : List Nat) (c : Nat) : UInt8 :=
  match charset.findIdx? (· == c * 0x10000 + 0x0305) with
  | some i => UInt8.ofNat i
  | none => UInt8.ofNat c

/-- A unit that is a character of its own. -/
def unitChar (charset : List Nat) (c : Nat) : UInt8 :=
  if c < 256 ∧ charset.getD c 0 = c then UInt8.ofNat c else charWithCode charset c

/-- `ticonv_utf16_to_nonusb`; a surrogate at the end takes the terminator with it. -/
def ticonvUtf16ToNonusb (charset : List Nat) : List Nat → List UInt8
  | [] => []
  | [c] => if c / 0x400 = 0x36 then [charWithCode charset (c * 0x10000)] else [unitChar charset c]
  | c :: d :: rest =>
      if c / 0x400 = 0x36 then
        charWithCode charset (c * 0x10000 + d) :: ticonvUtf16ToNonusb charset rest
      else if (c < 256 ∧ charset.getD c 0 = c) ∧ (c = 0x78 ∨ c = 0x79) ∧ d = 0x0305 then
        barredChar charset c :: ticonvUtf16ToNonusb charset rest
      else unitChar charset c :: ticonvUtf16ToNonusb charset (d :: rest)

/-- What the table must give for a character so that it comes back from its units. -/
def CharBack (charset : List Nat) (b : UInt8) : Prop :=
  let c := charset.getD b.toNat 0
  if c < 0x10000 then c / 0x400 ≠ 0x36 ∧ c ≠ 0x0305 ∧ unitChar charset c = b
  else if c / 0x10000 / 0x400 = 0x36 then charWithCode charset c = b
  else (c / 0x10000 = 0x78 ∨ c / 0x10000 = 0x79) ∧ charset.getD (c / 0x10000) 0 = c / 0x10000
    ∧ c % 0x10000 = 0x0305 ∧ barredChar charset (c / 0x10000) = b

instance (charset : List Nat) (b : UInt8) : Decidable (CharBack charset b) :=
  inferInstanceAs (Decidable (ite _ _ _))

/-- Every character of the TI-68k models comes back. -/
theorem charBack_ti9x (b : UInt8) : CharBack ti9xCharset b := by
  have hall : ∀ n < 256, CharBack ti9xCharset (UInt8.ofNat n) := by decide +kernel
  simpa using hall b.toNat b.toNat_lt

theorem ticonvNonusbToUtf16_cons (charset : List Nat) (b : UInt8) (ti : List UInt8) :
    ticonvNonusbToUtf16 charset (b :: ti)
      = utf16Units (charset.getD b.toNat 0) ++ ticonvNonusbToUtf16 charset ti :=
  List.flatMap_cons

/-- No character of such a table begins with the combining overline. -/
theorem head_utf16_ne {charset : List Nat} (h : ∀ b, CharBack charset b) (ti : List UInt8) :
    (ticonvNonusbToUtf16 charset ti).head? ≠ some 0x0305 := by
  cases ti with
  | nil => nofun
  | cons b ti =>
      have hb := h b
      unfold CharBack at hb
      dsimp only at hb
      rw [ticonvNonusbToUtf16_cons, utf16Units]
      split at hb
      · rename_i hc
        rw [if_pos hc, List.singleton_append, List.head?_cons, Ne, Option.some.injEq]
        exact hb.2.1
      · rename_i hc
        rw [if_neg hc, List.cons_append, List.head?_cons, Ne, Option.some.injEq]
        split at hb <;> omega

/-- A string of calculator characters comes back from UTF-16. -/
theorem ticonvUtf16ToNonusb_nonusb {charset : List Nat} (h : ∀ b, CharBack charset b)
    (ti : List UInt8) : ticonvUtf16ToNonusb charset (ticonvNonusbToUtf16 charset ti) = ti := by
  induction ti with
  | nil => rfl
  | cons b ti ih =>
      have hb := h b
      have hhead := head_utf16_ne h ti
      rw [ticonvNonusbToUtf16_cons]
      unfold CharBack at hb
      dsimp only at hb
      unfold utf16Units
      split at hb
      · rename_i hc
        rw [if_pos hc, List.singleton_append]
        cases hrest : ticonvNonusbToUtf16 charset ti with
        | nil =>
            rw [hrest] at ih
            rw [ticonvUtf16ToNonusb, if_neg hb.1, hb.2.2, ← ih]
            rfl
        | cons d rest =>
            have hd : d ≠ 0x0305 := by simpa [hrest] using hhead
            rw [hrest] at ih
            rw [ticonvUtf16ToNonusb, if_neg hb.1, if_neg (fun hbar => hd hbar.2.2), hb.2.2, ih]
      · rename_i hc
        rw [if_neg hc]
        simp only [List.cons_append, List.nil_append]
        split at hb
        · rename_i hsur
          have hjoin : charset.getD b.toNat 0 / 0x10000 * 0x10000 + charset.getD b.toNat 0 % 0x10000
              = charset.getD b.toNat 0 := Nat.div_add_mod' _ _
          rw [ticonvUtf16ToNonusb, if_pos hsur, hjoin, hb, ih]
        · rename_i hsur
          obtain ⟨hletter, hself, hbar, hback⟩ := hb
          have hsmall : charset.getD b.toNat 0 / 0x10000 < 256 := by omega
          rw [ticonvUtf16ToNonusb, if_neg hsur, if_pos ⟨⟨hsmall, hself⟩, hletter, hbar⟩, hback, ih]

/-! ## conversion of names -/

/-- What is not in the two files: GLib's UTF-8, where a UTF-16 unit takes at most three
bytes, and the names of the TI-84+ family. -/
structure Converters where
  utf16ToUtf8 : List Nat → Option (List UInt8)
  length_utf16ToUtf8 : ∀ units s, utf16ToUtf8 units = some s → s.length ≤ 3 * units.length
  utf8ToUtf16 : List UInt8 → Option (List Nat)
  toTifile84 : CalcModel → UInt8 → List UInt8 → Option (List UInt8)
  fromTifile84 : CalcModel → UInt8 → List UInt8 → Option (List UInt8)

/-- The USB models of the TI-84+ family. -/
def isUsb84 (model : CalcModel) : Bool :=
  model == .ti84pUsb || model == .ti82aUsb || model == .ti84ptUsb
    || model == .ti84pcUsb || model == .ti83pceUsb || model == .ti84pceUsb || model == .ti82aepUsb

/-- `ticonv_varname_to_tifile` -/
def ticonvVarnameToTifile (conv : Converters) (model : CalcModel) (src : List UInt8)
    (type : UInt8) : Option (List UInt8) :=
  if isUsb84 model then conv.toTifile84 model type src
  else if model = .ti89tUsb then (conv.utf8ToUtf16 src).map (ticonvUtf16ToNonusb ti9xCharset)
  else some src

/-- `ticonv_varname_from_tifile` -/
def ticonvVarnameFromTifile (conv : Converters) (model : CalcModel) (src : List UInt8)
    (type : UInt8) : Option (List UInt8) :=
  if isUsb84 model then conv.fromTifile84 model type src
  else if model = .ti89tUsb then conv.utf16ToUtf8 (ticonvNonusbToUtf16 ti9xCharset src)
  else some src

/-- A name that the model's file characters can express, in at most `n` of them: the
conversion to a file gives them and the conversion back gives the name. -/
def CalcName (conv : Converters) (model : CalcModel) (n : Nat) (name : List UInt8) : Prop :=
  ∃ raw, raw.length ≤ n ∧ (∀ b ∈ raw, b ≠ 0)
    ∧ (∀ type, ticonvVarnameToTifile conv model name type = some raw)
    ∧ (∀ type, ticonvVarnameFromTifile conv model raw type = some name)

/-- On a model that is not linked by USB, every string of at most `n` characters is one. -/
theorem calcName_serial (conv : Converters) {model : CalcModel} {n : Nat} {name : List UInt8}
    (h84 : isUsb84 model = false) (h89 : model ≠ .ti89tUsb) (hlen : name.length ≤ n)
    (hnul : ∀ b ∈ name, b ≠ 0) : CalcName conv model n name := by
  refine ⟨name, hlen, hnul, fun type => ?_, fun type => ?_⟩
  · unfold ticonvVarnameToTifile
    rw [h84, if_neg (by decide), if_neg h89]
  · unfold ticonvVarnameFromTifile
    rw [h84, if_neg (by decide), if_neg h89]

/-- On the TI-89 Titanium USB it is the UTF-8 of any string of TI-68k characters, where
GLib decodes what it encoded. -/
theorem calcName_ti89tUsb (conv : Converters) {n : Nat} {raw name : List UInt8}
    (hlen : raw.length ≤ n) (hnul : ∀ b ∈ raw, b ≠ 0)
    (hto : conv.utf16ToUtf8 (ticonvNonusbToUtf16 ti9xCharset raw) = some name)
    (hfrom : conv.utf8ToUtf16 name = some (ticonvNonusbToUtf16 ti9xCharset raw)) :
    CalcName conv .ti89tUsb n name := by
  refine ⟨raw, hlen, hnul, fun type => ?_, fun type => ?_⟩
  · unfold ticonvVarnameToTifile
    rw [if_neg (by decide), if_pos rfl, hfrom, Option.map_some,
      ticonvUtf16ToNonusb_nonusb charBack_ti9x]
  · unfold ticonvVarnameFromTifile
    rw [if_neg (by decide), if_pos rfl, hto]

theorem length_ticonvNonusbToUtf16_le (charset : List Nat) (ti : List UInt8) :
    (ticonvNonusbToUtf16 charset ti).length ≤ 2 * ti.length := by
  induction ti with
  | nil => exact Nat.le_refl 0
  | cons b ti ih =>
      have hunits : (utf16Units (charset.getD b.toNat 0)).length ≤ 2 := by
        unfold utf16Units
        split <;> simp
      rw [ticonvNonusbToUtf16_cons, List.length_append, List.length_cons]
      omega

/-- A calculator character is at most six bytes of a name. -/
theorem CalcName.length_le {conv : Converters} {model : CalcModel} {n : Nat} {name : List UInt8}
    (h84 : isUsb84 model = false) (h : CalcName conv model n name) : name.length ≤ 6 * n := by
  obtain ⟨raw, hlen, -, -, hfrom⟩ := h
  have hname := hfrom 0
  unfold ticonvVarnameFromTifile at hname
  rw [h84, if_neg (by decide)] at hname
  split at hname
  · have hutf8 := conv.length_utf16ToUtf8 _ _ hname
    have hunits := length_ticonvNonusbToUtf16_le ti9xCharset raw
    omega
  · cases hname
    omega

/-- Two models of which neither is in the TI-84+ family and that are the TI-89 Titanium USB
together convert alike. -/
theorem ticonvVarnameFromTifile_congr {model model' : CalcModel} (conv : Converters)
    (h84 : isUsb84 model = false) (h84' : isUsb84 model' = false)
    (h : model = .ti89tUsb ↔ model' = .ti89tUsb) (raw : List UInt8) (type : UInt8) :
    ticonvVarnameFromTifile conv model raw type = ticonvVarnameFromTifile conv model' raw type := by
  unfold ticonvVarnameFromTifile
  simp only [h84, h84', h, Bool.false_eq_true, if_false]

end Tilibs.Conv
