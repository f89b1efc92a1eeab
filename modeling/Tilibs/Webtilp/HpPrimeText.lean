import Tilibs.Lib.Unicode
import Tilibs.Webtilp.HpPrimeApp

/-!
# Tilibs.Webtilp.HpPrimeText

The names of resources: `encode_utf16le` and `decode_utf16le` of `hp_prime_app.cpp` take the same
texts from UTF-8 to UTF-16 and back.  Each is compared with the encodings of a character, and what
one makes of a string is what the other takes back.
-/

namespace Tilibs.Webtilp.HpPrimeApp

open Lib

/-! ## bytes -/

/-- A byte that continues a character, and the six bits in it. -/
def continuationByte (r : Nat) : UInt8 := UInt8.ofNat (r + 0x80)

theorem continuationByte_bits : ∀ r < 64, continuationByte r &&& 0xC0 = 0x80
    ∧ (continuationByte r &&& 0x3F).toNat = r := by
  decide

theorem eq_continuationByte : ∀ b : UInt8, b &&& 0xC0 = 0x80 →
    b = continuationByte (b &&& 0x3F).toNat ∧ (b &&& 0x3F).toNat < 64 := by
  decide +kernel

/-- What a first byte says: the bits of the character in it, and how many bytes follow. -/
def LeadByte (first : UInt8) (bits continuation : Nat) : Prop :=
  continuation = 0 ∧ bits < 0x80 ∧ first = UInt8.ofNat bits
    ∨ continuation = 1 ∧ 2 ≤ bits ∧ bits < 0x20 ∧ first = UInt8.ofNat (bits + 0xC0)
    ∨ continuation = 2 ∧ bits < 0x10 ∧ first = UInt8.ofNat (bits + 0xE0)
    ∨ continuation = 3 ∧ bits < 0x08 ∧ first = UInt8.ofNat (bits + 0xF0)

theorem utf8Lead_of_leadByte {first : UInt8} {bits continuation : Nat}
    (h : LeadByte first bits continuation) : utf8Lead first = some (bits, continuation) := by
  have hone : ∀ bits < 0x80, utf8Lead (UInt8.ofNat bits) = some (bits, 0) := by decide
  have htwo : ∀ bits < 0x20, 2 ≤ bits → utf8Lead (UInt8.ofNat (bits + 0xC0)) = some (bits, 1) := by
    decide
  have hthree : ∀ bits < 0x10, utf8Lead (UInt8.ofNat (bits + 0xE0)) = some (bits, 2) := by decide
  have hfour : ∀ bits < 0x08, utf8Lead (UInt8.ofNat (bits + 0xF0)) = some (bits, 3) := by decide
  obtain ⟨rfl, hbits, rfl⟩ | ⟨rfl, hlow, hbits, rfl⟩ | ⟨rfl, hbits, rfl⟩ | ⟨rfl, hbits, rfl⟩ := h
  · exact hone bits hbits
  · exact htwo bits hbits hlow
  · exact hthree bits hbits
  · exact hfour bits hbits

theorem leadByte_of_utf8Lead {first : UInt8} {bits continuation : Nat}
    (h : utf8Lead first = some (bits, continuation)) : LeadByte first bits continuation := by
  have hone : ∀ b : UInt8, b < 0x80 → b.toNat < 0x80 := by decide +kernel
  have htwo : ∀ b : UInt8, b &&& 0xE0 = 0xC0 → ¬b &&& 0x1F < 2 → 2 ≤ (b &&& 0x1F).toNat
      ∧ (b &&& 0x1F).toNat < 0x20 ∧ b = UInt8.ofNat ((b &&& 0x1F).toNat + 0xC0) := by
    decide +kernel
  have hthree : ∀ b : UInt8, b &&& 0xF0 = 0xE0 → (b &&& 0x0F).toNat < 0x10
      ∧ b = UInt8.ofNat ((b &&& 0x0F).toNat + 0xE0) := by
    decide +kernel
  have hfour : ∀ b : UInt8, b &&& 0xF8 = 0xF0 → (b &&& 0x07).toNat < 0x08
      ∧ b = UInt8.ofNat ((b &&& 0x07).toNat + 0xF0) := by
    decide +kernel
  unfold utf8Lead at h
  split at h
  · next hsmall =>
    cases h
    exact .inl ⟨rfl, hone first hsmall, by rw [UInt8.ofNat_toNat]⟩
  split at h
  · next hlead =>
    split at h
    · cases h
    · next hshort =>
      cases h
      exact .inr (.inl ⟨rfl, htwo first hlead hshort⟩)
  split at h
  · next hlead =>
    cases h
    exact .inr (.inr (.inl ⟨rfl, hthree first hlead⟩))
  split at h
  · next hlead =>
    cases h
    exact .inr (.inr (.inr ⟨rfl, hfour first hlead⟩))
  · cases h

/-- The bytes that continue a character give six bits each. -/
theorem utf8Continue_iff {k v codepoint : Nat} {bs rest : List UInt8} :
    utf8Continue k v bs = some (codepoint, rest)
      ↔ ∃ rs : List Nat, rs.length = k ∧ (∀ r ∈ rs, r < 64)
        ∧ bs = rs.map continuationByte ++ rest
        ∧ codepoint = rs.foldl (fun v r => v * 64 + r) v := by
  induction k generalizing v bs with
  | zero =>
      constructor
      · intro h
        cases h
        exact ⟨[], rfl, by simp, rfl, rfl⟩
      · rintro ⟨rs, hlength, -, rfl, rfl⟩
        obtain rfl := List.eq_nil_of_length_eq_zero hlength
        rfl
  | succ k ih =>
      constructor
      · intro h
        cases bs with
        | nil => cases h
        | cons b bs =>
            unfold utf8Continue at h
            split at h
            · cases h
            · next hcontinue =>
              obtain ⟨hb, hlt⟩ := eq_continuationByte b (not_not.mp hcontinue)
              obtain ⟨rs, hlength, hrs, rfl, hvalue⟩ := ih.mp h
              refine ⟨(b &&& 0x3F).toNat :: rs, by rw [List.length_cons, hlength],
                List.forall_mem_cons.mpr ⟨hlt, hrs⟩, ?_, hvalue⟩
              rw [List.map_cons, List.cons_append, ← hb]
      · rintro ⟨rs, hlength, hrs, rfl, rfl⟩
        cases rs with
        | nil => cases hlength
        | cons r rs =>
            obtain ⟨hr, hrs⟩ := List.forall_mem_cons.mp hrs
            obtain ⟨hcontinue, hbits⟩ := continuationByte_bits r hr
            rw [List.map_cons, List.cons_append, utf8Continue, if_neg (not_not_intro hcontinue),
              hbits]
            exact ih.mpr ⟨rs, Nat.succ.inj hlength, hrs, rfl, rfl⟩

/-! ## characters -/

/-- The number whose first bits are in a first byte, and six in each byte behind it. -/
def codepointOf (bits : Nat) (rs : List Nat) : Nat := rs.foldl (fun v r => v * 64 + r) bits

/-- A character in UTF-8: a first byte and the bytes that continue it, for a codepoint that is not
rejected. -/
structure CharBytes (first : UInt8) (bits : Nat) (rs : List Nat) : Prop where
  lead : LeadByte first bits rs.length
  six : ∀ r ∈ rs, r < 64
  good : badCodepoint rs.length (codepointOf bits rs) = false

theorem good_iff {k v : Nat} : badCodepoint k v = false
    ↔ (k = 2 → 0x800 ≤ v) ∧ (k = 3 → 0x10000 ≤ v) ∧ v ≤ 0x10FFFF ∧ ¬(0xD800 ≤ v ∧ v ≤ 0xDFFF) := by
  unfold badCodepoint
  simp only [Bool.or_eq_false_iff, Bool.and_eq_false_iff, decide_eq_false_iff_not]
  omega

/-- The bytes of a character are such. -/
theorem exists_charBytes (c : Char) : ∃ first bits rs, CharBytes first bits rs
    ∧ codepointOf bits rs = c.toNat
    ∧ String.utf8EncodeChar c = first :: rs.map continuationByte := by
  have hscalar := Char.toNat_scalar c
  have hval : c.val.toNat = c.toNat := rfl
  unfold String.utf8EncodeChar
  rw [hval]
  generalize c.toNat = v at hscalar
  dsimp only
  split_ifs with hone htwo hthree
  · refine ⟨_, v, [], ⟨.inl ⟨rfl, by omega, rfl⟩, by simp, ?_⟩, rfl, rfl⟩
    rw [good_iff, codepointOf]
    simp only [List.foldl_nil, List.length_nil]
    omega
  · refine ⟨_, v / 64 % 0x20, [v % 0x40],
      ⟨.inr (.inl ⟨rfl, by omega, by omega, rfl⟩), ?_, ?_⟩, ?_, rfl⟩
    · exact List.forall_mem_singleton.mpr (by omega)
    · rw [good_iff, codepointOf]
      simp only [List.foldl_cons, List.foldl_nil, List.length_cons, List.length_nil]
      omega
    · rw [codepointOf]
      simp only [List.foldl_cons, List.foldl_nil]
      omega
  · refine ⟨_, v / 4096 % 0x10, [v / 64 % 0x40, v % 0x40],
      ⟨.inr (.inr (.inl ⟨rfl, by omega, rfl⟩)), ?_, ?_⟩, ?_, rfl⟩
    · exact List.forall_mem_cons.mpr ⟨by omega, List.forall_mem_singleton.mpr (by omega)⟩
    · rw [good_iff, codepointOf]
      simp only [List.foldl_cons, List.foldl_nil, List.length_cons, List.length_nil]
      omega
    · rw [codepointOf]
      simp only [List.foldl_cons, List.foldl_nil]
      omega
  · refine ⟨_, v / 262144 % 0x08, [v / 4096 % 0x40, v / 64 % 0x40, v % 0x40],
      ⟨.inr (.inr (.inr ⟨rfl, by omega, rfl⟩)), ?_, ?_⟩, ?_, rfl⟩
    · exact List.forall_mem_cons.mpr ⟨by omega, List.forall_mem_cons.mpr
        ⟨by omega, List.forall_mem_singleton.mpr (by omega)⟩⟩
    · rw [good_iff, codepointOf]
      simp only [List.foldl_cons, List.foldl_nil, List.length_cons, List.length_nil]
      omega
    · rw [codepointOf]
      simp only [List.foldl_cons, List.foldl_nil]
      omega

/-- Such bytes are those of a character. -/
theorem CharBytes.exists_char {first : UInt8} {bits : Nat} {rs : List Nat}
    (h : CharBytes first bits rs) : ∃ c : Char, c.toNat = codepointOf bits rs
      ∧ String.utf8EncodeChar c = first :: rs.map continuationByte := by
  obtain ⟨hlead, hsix, hgood⟩ := h
  obtain ⟨hlong3, hlong4, hmax, hsurrogate⟩ := good_iff.mp hgood
  obtain ⟨c, hc⟩ := Char.exists_toNat (show codepointOf bits rs < 0xD800
    ∨ (0xDFFF < codepointOf bits rs ∧ codepointOf bits rs < 0x110000) by omega)
  refine ⟨c, hc, ?_⟩
  have hval : c.val.toNat = codepointOf bits rs := hc
  unfold String.utf8EncodeChar
  rw [hval]
  match rs, hlead with
  | [], .inl ⟨_, hbits, hfirst⟩ =>
      have hv : codepointOf bits [] = bits := rfl
      dsimp only
      rw [hv, if_pos (by omega), hfirst]
      rfl
  | [r], .inr (.inl ⟨_, hlow, hbits, hfirst⟩) =>
      have hr := hsix r List.mem_cons_self
      have hv : codepointOf bits [r] = bits * 64 + r := rfl
      dsimp only
      rw [hv, if_neg (by omega), if_pos (by omega), hfirst,
        show (bits * 64 + r) / 64 % 0x20 = bits by omega,
        show (bits * 64 + r) % 0x40 = r by omega]
      rfl
  | [r, r'], .inr (.inr (.inl ⟨_, hbits, hfirst⟩)) =>
      have hr := hsix r List.mem_cons_self
      have hr' := hsix r' (List.mem_cons_of_mem _ List.mem_cons_self)
      have hv : codepointOf bits [r, r'] = (bits * 64 + r) * 64 + r' := rfl
      have hlow := hlong3 rfl
      rw [hv] at hlow
      dsimp only
      rw [hv, if_neg (by omega), if_neg (by omega), if_pos (by omega), hfirst,
        show ((bits * 64 + r) * 64 + r') / 4096 % 0x10 = bits by omega,
        show ((bits * 64 + r) * 64 + r') / 64 % 0x40 = r by omega,
        show ((bits * 64 + r) * 64 + r') % 0x40 = r' by omega]
      rfl
  | [r, r', r''], .inr (.inr (.inr ⟨_, hbits, hfirst⟩)) =>
      have hr := hsix r List.mem_cons_self
      have hr' := hsix r' (List.mem_cons_of_mem _ List.mem_cons_self)
      have hr'' := hsix r'' (List.mem_cons_of_mem _ (List.mem_cons_of_mem _ List.mem_cons_self))
      have hv : codepointOf bits [r, r', r''] = ((bits * 64 + r) * 64 + r') * 64 + r'' := rfl
      have hlow := hlong4 rfl
      rw [hv] at hlow
      dsimp only
      rw [hv, if_neg (by omega), if_neg (by omega), if_neg (by omega), hfirst,
        show (((bits * 64 + r) * 64 + r') * 64 + r'') / 262144 % 0x08 = bits by omega,
        show (((bits * 64 + r) * 64 + r') * 64 + r'') / 4096 % 0x40 = r by omega,
        show (((bits * 64 + r) * 64 + r') * 64 + r'') / 64 % 0x40 = r' by omega,
        show (((bits * 64 + r) * 64 + r') * 64 + r'') % 0x40 = r'' by omega]
      rfl

/-- `append_utf8` appends the bytes of the character. -/
theorem utf8Bytes_toNat (c : Char) : utf8Bytes c.toNat = String.utf8EncodeChar c := by
  have hsix (v : Nat) : UInt8.ofNat (0x80 ||| v &&& 0x3F) = UInt8.ofNat (v % 0x40 + 0x80) := by
    have hbyte : ∀ r < 0x40, UInt8.ofNat (0x80 ||| r) = UInt8.ofNat (r + 0x80) := by decide
    rw [Nat.and_two_pow_sub_one_eq_mod v 6]
    exact hbyte (v % 0x40) (by omega)
  have htwo : ∀ x < 0x20, UInt8.ofNat (0xC0 ||| x) = UInt8.ofNat (x % 0x20 + 0xC0) := by decide
  have hthree : ∀ x < 0x10, UInt8.ofNat (0xE0 ||| x) = UInt8.ofNat (x % 0x10 + 0xE0) := by decide
  have hfour : ∀ x < 0x08, UInt8.ofNat (0xF0 ||| x) = UInt8.ofNat (x % 0x08 + 0xF0) := by decide
  have hscalar := Char.toNat_scalar c
  have hval : c.val.toNat = c.toNat := rfl
  unfold utf8Bytes String.utf8EncodeChar
  rw [hval]
  dsimp only
  simp only [hsix, Nat.shiftRight_eq_div_pow, Nat.reducePow]
  split_ifs with h1 h2 h3
  · rfl
  · rw [htwo _ (by omega)]
  · rw [hthree _ (by omega)]
  · rw [hfour _ (by omega)]

/-- The UTF-16LE bytes of the character. -/
theorem utf16Bytes_toNat (c : Char) : utf16Bytes c.toNat = utf16leChar c := by
  have hscalar := Char.toNat_scalar c
  have hor (a x : Nat) (hx : x < 2 ^ 10) : 2 ^ 10 * a ||| x = 2 ^ 10 * a + x :=
    (Nat.two_pow_add_eq_or_of_lt hx a).symm
  unfold utf16Bytes utf16leChar
  by_cases hsmall : c.toNat ≤ 0xFFFF
  · rw [if_pos hsmall, if_pos (by omega)]
  · have hhigh : 0xD800 ||| (c.toNat - 0x10000) >>> 10
        = 0xD800 + (c.toNat - 0x10000) / 0x400 := by
      rw [Nat.shiftRight_eq_div_pow]
      exact hor 54 _ (by omega)
    have hlow : 0xDC00 ||| (c.toNat - 0x10000) &&& 0x3FF
        = 0xDC00 + (c.toNat - 0x10000) % 0x400 := by
      rw [Nat.and_two_pow_sub_one_eq_mod _ 10]
      exact hor 55 _ (by omega)
    rw [if_neg hsmall, if_neg (by omega), hhigh, hlow]

/-! ## texts -/

/-- A character is taken off the front. -/
theorem encodeUtf16le_char (c : Char) (rest : List UInt8) :
    encodeUtf16le (String.utf8EncodeChar c ++ rest)
      = (encodeUtf16le rest).map fun tail => utf16leChar c ++ tail := by
  obtain ⟨first, bits, rs, h, hvalue, hbytes⟩ := exists_charBytes c
  have hcontinue : utf8Continue rs.length bits (rs.map continuationByte ++ rest)
      = some (c.toNat, rest) := by
    rw [← hvalue]
    exact utf8Continue_iff.mpr ⟨rs, rfl, h.six, rfl, rfl⟩
  have hgood : badCodepoint rs.length c.toNat = false := by
    rw [← hvalue]
    exact h.good
  rw [hbytes, List.cons_append, encodeUtf16le, utf8Lead_of_leadByte h.lead]
  dsimp only
  split
  · next hnone =>
    rw [hcontinue] at hnone
    cases hnone
  · next codepoint rest' hsome =>
    rw [hcontinue] at hsome
    cases hsome
    rw [hgood, if_neg Bool.false_ne_true, utf16Bytes_toNat]

/-- What is accepted begins with a character. -/
theorem exists_char_of_encodeUtf16le {first : UInt8} {rest b : List UInt8}
    (h : encodeUtf16le (first :: rest) = some b) :
    ∃ (c : Char) (rest' : List UInt8), first :: rest = String.utf8EncodeChar c ++ rest' := by
  rw [encodeUtf16le] at h
  split at h
  · cases h
  · next bits continuation hlead =>
    split at h
    · cases h
    · next codepoint rest' hcontinue =>
      split at h
      · cases h
      · next hgood =>
        obtain ⟨rs, rfl, hsix, rfl, rfl⟩ := utf8Continue_iff.mp hcontinue
        have hchar : CharBytes first bits rs :=
          ⟨leadByte_of_utf8Lead hlead, hsix, Bool.eq_false_iff.mpr hgood⟩
        obtain ⟨c, -, hbytes⟩ := hchar.exists_char
        exact ⟨c, rest', by rw [hbytes, List.cons_append]⟩

theorem utf8EncodeChar_pos (c : Char) : 0 < (String.utf8EncodeChar c).length :=
  List.length_pos_of_ne_nil String.utf8EncodeChar_ne_nil

/-- What `encode_utf16le` makes: the other bytes of a text. -/
theorem encodeUtf16le_eq_some_iff {s b : List UInt8} :
    encodeUtf16le s = some b ↔ ∃ cs, s = utf8 cs ∧ b = utf16le cs := by
  constructor
  · intro h
    induction hn : s.length using Nat.strong_induction_on generalizing s b with
    | _ n ih =>
        cases s with
        | nil =>
            rw [encodeUtf16le] at h
            cases h
            exact ⟨[], rfl, rfl⟩
        | cons first rest =>
            obtain ⟨c, rest', hrest⟩ := exists_char_of_encodeUtf16le h
            rw [hrest] at h hn ⊢
            rw [encodeUtf16le_char] at h
            obtain ⟨tail, htail, rfl⟩ := Option.map_eq_some_iff.mp h
            have hshorter : rest'.length < n := by
              have := utf8EncodeChar_pos c
              rw [List.length_append] at hn
              omega
            obtain ⟨cs, rfl, rfl⟩ := ih _ hshorter htail rfl
            exact ⟨c :: cs, (utf8_cons c cs).symm, (utf16le_cons c cs).symm⟩
  · rintro ⟨cs, rfl, rfl⟩
    induction cs with
    | nil => rw [utf8, List.flatMap_nil, encodeUtf16le]; rfl
    | cons c cs ih => rw [utf8_cons, encodeUtf16le_char, ih, Option.map_some, utf16le_cons]

/-- A character is taken off the front of units, too. -/
theorem decodeUtf16le_char (c : Char) (rest : List UInt8) :
    decodeUtf16le (utf16leChar c ++ rest)
      = (decodeUtf16le rest).map fun tail => String.utf8EncodeChar c ++ tail := by
  obtain ⟨lo, hi, hbytes, hvalue, hhigh, hlow⟩ | ⟨lo, hi, lo', hi', hbytes, hvalue, hhigh, hlow⟩ :=
    utf16leChar_cases c
  · unfold HighSurrogate at hhigh
    unfold LowSurrogate at hlow
    rw [hbytes]
    change decodeUtf16le (lo :: hi :: rest) = _
    rw [decodeUtf16le.eq_def]
    dsimp only
    rw [if_neg hhigh, if_neg hlow, ← hvalue, utf8Bytes_toNat]
  · unfold HighSurrogate at hhigh
    unfold LowSurrogate at hlow
    unfold pairValue at hvalue
    rw [hbytes]
    change decodeUtf16le (lo :: hi :: lo' :: hi' :: rest) = _
    rw [decodeUtf16le]
    dsimp only
    rw [if_pos hhigh, if_neg (by omega), ← utf8Bytes_toNat, hvalue]
    rfl

/-- What `decode_utf16le` makes: the other bytes of a text, again. -/
theorem decodeUtf16le_eq_some_iff {s b : List UInt8} :
    decodeUtf16le b = some s ↔ ∃ cs, s = utf8 cs ∧ b = utf16le cs := by
  constructor
  · intro h
    have hwell : WellFormedUtf16le b := by
      fun_induction decodeUtf16le b generalizing s with
      | case1 => exact .nil
      | case2 => cases h
      | case3 => cases h
      | case4 lo hi unit hhigh lo' hi' rest low hgood =>
          rename_i ih
          obtain ⟨tail, htail, -⟩ := Option.map_eq_some_iff.mp h
          have hlow : 0xDC00 ≤ low ∧ low ≤ 0xDFFF := by omega
          exact .pair hhigh hlow (ih htail)
      | case5 => cases h
      | case6 => cases h
      | case7 lo hi rest unit hhigh hlow =>
          rename_i ih
          obtain ⟨tail, htail, -⟩ := Option.map_eq_some_iff.mp h
          exact .unit hhigh hlow (ih htail)
    obtain ⟨cs, rfl⟩ := wellFormedUtf16le_iff.mp hwell
    refine ⟨cs, ?_, rfl⟩
    induction cs generalizing s with
    | nil =>
        cases h
        rfl
    | cons c cs ih =>
        rw [utf16le_cons, decodeUtf16le_char] at h
        obtain ⟨tail, htail, rfl⟩ := Option.map_eq_some_iff.mp h
        rw [utf8_cons, ih htail (wellFormedUtf16le_iff.mpr ⟨cs, rfl⟩)]
  · rintro ⟨cs, rfl, rfl⟩
    induction cs with
    | nil => rfl
    | cons c cs ih => rw [utf16le_cons, decodeUtf16le_char, ih, Option.map_some, utf8_cons]

/-- Each conversion takes back what the other one makes. -/
theorem decodeUtf16le_iff_encodeUtf16le {s b : List UInt8} :
    decodeUtf16le b = some s ↔ encodeUtf16le s = some b :=
  decodeUtf16le_eq_some_iff.trans encodeUtf16le_eq_some_iff.symm

/-- The conversions succeed on the well-formed strings of their encodings exactly, and are inverse
to each other. -/
theorem utf16le_conversions_inverse :
    (∀ s, (encodeUtf16le s).isSome ↔ WellFormedUtf8 s)
      ∧ (∀ b, (decodeUtf16le b).isSome ↔ WellFormedUtf16le b)
      ∧ (∀ s, WellFormedUtf8 s → (encodeUtf16le s).bind decodeUtf16le = some s)
      ∧ ∀ b, WellFormedUtf16le b → (decodeUtf16le b).bind encodeUtf16le = some b := by
  refine ⟨fun s => ?_, fun b => ?_, fun s ⟨cs, hs⟩ => ?_, fun b hb => ?_⟩
  · rw [Option.isSome_iff_exists]
    simp only [encodeUtf16le_eq_some_iff]
    exact ⟨fun ⟨_, cs, hs, _⟩ => ⟨cs, hs⟩, fun ⟨cs, hs⟩ => ⟨utf16le cs, cs, hs, rfl⟩⟩
  · rw [Option.isSome_iff_exists, wellFormedUtf16le_iff]
    simp only [decodeUtf16le_eq_some_iff]
    exact ⟨fun ⟨_, cs, _, hb⟩ => ⟨cs, hb⟩, fun ⟨cs, hb⟩ => ⟨utf8 cs, cs, rfl, hb⟩⟩
  · have hencode : encodeUtf16le s = some (utf16le cs) := encodeUtf16le_eq_some_iff.mpr ⟨cs, hs, rfl⟩
    rw [hencode, Option.bind_some]
    exact decodeUtf16le_iff_encodeUtf16le.mpr hencode
  · obtain ⟨cs, hb⟩ := wellFormedUtf16le_iff.mp hb
    have hdecode : decodeUtf16le b = some (utf8 cs) := decodeUtf16le_eq_some_iff.mpr ⟨cs, rfl, hb⟩
    rw [hdecode, Option.bind_some]
    exact decodeUtf16le_iff_encodeUtf16le.mp hdecode

end Tilibs.Webtilp.HpPrimeApp
