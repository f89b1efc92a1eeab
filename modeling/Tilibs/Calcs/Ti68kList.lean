import Mathlib
import Tilibs.Lib.Decimal
import Tilibs.Calcs.ListGrammar

/-!
# Tilibs.Calcs.Ti68kList

Lists of the TI-68k models: a 32-bit count and the text of the numbers, with a space before
each and a NUL at the end.

From a string the payload is the copy that the state machine has worked on, up to the NUL in
the place of the closing brace.  Back to a string the tokens are copied as they are; `strtold`
gives their values, from a second copy with the decimal point of the locale.
-/

namespace Tilibs.Calcs

open Lib

/-! ## from a string -/

/-- `tixx_string_to_ti68k_raw_list_impl`; `none` when it reads behind the copy. -/
def tixxStringToTi68kRawListImpl (string : List UInt8) :
    Option (Except LabErr CalcLabEquipmentData) := do
  let loop ← parseListCopy string
  if loop.state = .success then
    let payload := loop.copy.take loop.ptr
    if loop.items ≥ 32768 ∨ 4 + payload.length > 65535 then return .error .invalidParameter
    else
      return .ok {
        type := .ti68kRawList
        size := UInt16.ofNat (4 + payload.length)
        items := UInt16.ofNat loop.items.toNat
        data := some (putLE 4 loop.items.toNat ++ payload)
        vartype := 4 }
  else return .error .invalidParameter

/-! ## to a string -/

/-- What the conversion uses of the C library: the decimal point of the locale, and the value
of the number at the start of a string with how many characters it has; 0 without a number. -/
structure CLib (α : Type) where
  decimalPoint : List UInt8
  strtold : List UInt8 → α × Nat

/-- A text with the decimal point of the locale. -/
def localized (decimalPoint : List UInt8) (text : List UInt8) : List UInt8 :=
  text.flatMap fun c => if c = 0x2E then decimalPoint else [c]

/-- The loop over the tokens, with the cursors `q_src` and `q_num`: each token and its value. -/
def readTokens {α : Type} (lib : CLib α) : Nat → List UInt8 → List UInt8 →
    Except LabErr (List (List UInt8 × α))
  | 0, _, _ => .ok []
  | n + 1, src, num =>
      let spaces := (src.takeWhile (· = 0x20)).length
      let src := src.drop spaces
      let num := num.drop spaces
      if src = [] then .error .invalidPacket
      else
        let token := src.takeWhile (· ≠ 0x20)
        let (value, read) := lib.strtold num
        if read = 0 then .error .invalidPacket
        else do
          let tokens ← readTokens lib n (src.drop token.length) (num.drop read)
          return (token, value) :: tokens

/-- The output string: a comma after each token, the last of them replaced. -/
def tokensString (tokens : List (List UInt8)) : List UInt8 :=
  0x7B :: (joinTexts 0x2C tokens ++ [0x7D])

/-- `tixx_ti68k_raw_list_to_string_impl`: the item count, the values and the string; `none`
when it reads behind the data. -/
def tixxTi68kRawListToStringImpl {α : Type} (lib : CLib α) (lab : CalcLabEquipmentData) :
    Option (Except LabErr (Nat × List α × List UInt8)) :=
  if lab.size < 4 then some (.error .invalidParameter)
  else do
    let data ← lab.data
    if data.length < lab.size.toNat then none
    else if getLE (data.take 4) ≠ lab.items.toNat then return .error .invalidParameter
    else if lab.items ≥ 32768 then return .error .invalidParameter
    else if lab.items = 0 then return .ok (0, [], [0x7B, 0x7D])
    else
      -- the payload as a C string
      let src := ((data.take lab.size.toNat).drop 4).takeWhile (· ≠ 0)
      return do
        let tokens ← readTokens lib lab.items.toNat src (localized lib.decimalPoint src)
        return (lab.items.toNat, tokens.map (·.2), tokensString (tokens.map (·.1)))

/-! ## the round trip -/

/-- `strtold` reads a number of the grammar, with the decimal point of the locale, up to the
space behind it or the end. -/
structure CLib.ReadsNumbers {α : Type} (lib : CLib α) : Prop where
  point : lib.decimalPoint ≠ []
  number : ∀ (t : Numeral) (rest : List UInt8), t.WellFormed → Stops rest →
    (lib.strtold (localized lib.decimalPoint t.chars ++ rest)).2
      = (localized lib.decimalPoint t.chars).length

/-- The list comes back to the string, with as many values as it has items. -/
def Ti68kRoundTrip {α : Type} (lib : CLib α) (string : List UInt8) (lab : CalcLabEquipmentData) :
    Prop :=
  ∃ values, tixxTi68kRawListToStringImpl lib lab = some (.ok (lab.items.toNat, values, string))
    ∧ values.length = lab.items.toNat

/-! ## tokens -/

theorem localized_append (point cs ds : List UInt8) :
    localized point (cs ++ ds) = localized point cs ++ localized point ds :=
  List.flatMap_append

theorem localized_cons_space (point cs : List UInt8) :
    localized point (0x20 :: cs) = 0x20 :: localized point cs := rfl

/-- No character of a number is a space or a NUL. -/
theorem chars_ne {t : Numeral} (h : t.WellFormed) : ∀ c ∈ t.chars, c ≠ 0x20 ∧ c ≠ 0 := by
  have hdigit : ∀ c, isDigit c = true → c ≠ 0x20 ∧ c ≠ 0 := by
    intro c hc
    refine ⟨(isDigit_ne hc).1, ?_⟩
    rintro rfl
    cases hc
  have hsign : ∀ sign, IsSign sign → ∀ c ∈ sign.toList, c ≠ 0x20 ∧ c ≠ 0 := by
    intro sign hs c hc
    rcases hs c (Option.mem_toList.mp hc) with rfl | rfl <;> decide
  have hfrac : ∀ c ∈ fracText t.frac, c ≠ 0x20 ∧ c ≠ 0 := by
    cases hf : t.frac with
    | none => simp [fracText]
    | some ds =>
        rw [fracText]
        exact List.forall_mem_cons.mpr ⟨by decide, fun c hc => hdigit c (h.frac ds hf c hc)⟩
  have hexp : ∀ c ∈ expText t.exp, c ≠ 0x20 ∧ c ≠ 0 := by
    cases he : t.exp with
    | none => simp [expText]
    | some e =>
        obtain ⟨hletter, hes, hds, -⟩ := h.exp e he
        rw [expText]
        refine List.forall_mem_cons.mpr ⟨?_, ?_⟩
        · rcases hletter with hl | hl <;> rw [hl] <;> decide
        · exact List.forall_mem_append.mpr ⟨hsign e.sign hes, fun c hc => hdigit c (hds c hc)⟩
  unfold Numeral.chars
  simp only [List.forall_mem_append]
  exact ⟨hsign t.sign h.sign, fun c hc => hdigit c (h.int c hc), hfrac, hexp⟩

theorem chars_ne_nil {t : Numeral} (h : t.WellFormed) : t.chars ≠ [] := by
  unfold Numeral.chars
  cases h.digits_ne with
  | inl hint => simp [hint]
  | inr hfrac =>
      obtain ⟨ds, hds, -⟩ := hfrac
      have hsome : t.frac = some ds := hds
      simp [hsome, fracText]

theorem localized_ne_nil {point cs : List UInt8} (hpoint : point ≠ []) (hcs : cs ≠ []) :
    localized point cs ≠ [] := by
  obtain ⟨c, cs, rfl⟩ := List.exists_cons_of_ne_nil hcs
  unfold localized
  rw [List.flatMap_cons]
  split
  · exact List.append_ne_nil_of_left_ne_nil hpoint _
  · exact List.cons_ne_nil c _

/-- The text of the numbers, with a space before each. -/
def spacedChars (ts : List Numeral) : List UInt8 := ts.flatMap fun t => 0x20 :: t.chars

theorem stops_localized_spaced (point : List UInt8) (ts : List Numeral) :
    Stops (spacedChars ts) ∧ Stops (localized point (spacedChars ts)) := by
  cases ts with
  | nil =>
      constructor
      · intro c hc
        cases hc
      · intro c hc
        cases hc
  | cons t ts =>
      constructor
      · intro c hc
        exact (Option.some.inj hc).symm
      · intro c hc
        exact (Option.some.inj hc).symm

/-- The token that `strcspn` measures ends where the number does. -/
theorem takeWhile_token {t : Numeral} (h : t.WellFormed) {rest : List UInt8} (hrest : Stops rest) :
    (t.chars ++ rest).takeWhile (· ≠ 0x20) = t.chars := by
  rw [List.takeWhile_append_of_pos (by simpa using fun c hc => (chars_ne h c hc).1)]
  cases rest with
  | nil => simp
  | cons c cs =>
      have hc : c = 0x20 := hrest c rfl
      simp [hc]

/-- Each token is read, and its number up to the next space. -/
theorem readTokens_spaced {α : Type} {lib : CLib α} (hlib : lib.ReadsNumbers) {ts : List Numeral}
    (h : ∀ t ∈ ts, t.WellFormed) :
    ∃ tokens, readTokens lib ts.length (spacedChars ts) (localized lib.decimalPoint (spacedChars ts))
        = .ok tokens
      ∧ tokens.map (·.1) = ts.map Numeral.chars := by
  induction ts with
  | nil => exact ⟨[], rfl, rfl⟩
  | cons t ts ih =>
      obtain ⟨ht, hts⟩ := List.forall_mem_cons.mp h
      obtain ⟨tokens, htokens, hmap⟩ := ih hts
      obtain ⟨hstops, hstops'⟩ := stops_localized_spaced lib.decimalPoint ts
      have hchars := chars_ne ht
      have hne := chars_ne_nil ht
      have hsrc : spacedChars (t :: ts) = 0x20 :: (t.chars ++ spacedChars ts) := rfl
      -- one space, then the token
      have hone : ((0x20 :: (t.chars ++ spacedChars ts)).takeWhile (· = 0x20)).length = 1 := by
        obtain ⟨c, cs, hcs⟩ := List.exists_cons_of_ne_nil hne
        have hc : c ≠ 0x20 := (hchars c (by rw [hcs]; exact List.mem_cons_self)).1
        rw [hcs]
        simp [hc]
      have htoken := takeWhile_token ht hstops
      have hread := hlib.number t (localized lib.decimalPoint (spacedChars ts)) ht hstops'
      have hpos : (localized lib.decimalPoint t.chars).length ≠ 0 :=
        fun hzero => localized_ne_nil hlib.point hne (List.length_eq_zero_iff.mp hzero)
      refine ⟨(t.chars, (lib.strtold (localized lib.decimalPoint t.chars
        ++ localized lib.decimalPoint (spacedChars ts))).1) :: tokens, ?_, ?_⟩
      · rw [hsrc, localized_cons_space, localized_append, List.length_cons, readTokens]
        dsimp only
        rw [hone, List.drop_one, List.drop_one, List.tail_cons, List.tail_cons, htoken, hread,
          if_neg (by simp [hne]), if_neg hpos, List.drop_left, List.drop_left, htokens]
        rfl
      · rw [List.map_cons, List.map_cons, hmap]

/-! ## the list that a string becomes -/

theorem joinTexts_space (ts : List Numeral) (hne : ts ≠ []) :
    0x20 :: joinTexts 0x20 (ts.map Numeral.chars) = spacedChars ts := by
  obtain ⟨t, ts, rfl⟩ := List.exists_cons_of_ne_nil hne
  rw [List.map_cons, joinTexts_cons_flatMap, List.flatMap_map]
  rfl

theorem length_spacedChars_ge {ts : List Numeral} (h : ∀ t ∈ ts, t.WellFormed) :
    2 * ts.length ≤ (spacedChars ts).length := by
  induction ts with
  | nil => exact Nat.le_refl 0
  | cons t ts ih =>
      obtain ⟨ht, hts⟩ := List.forall_mem_cons.mp h
      have hpos := List.length_pos_iff.mpr (chars_ne_nil ht)
      have hrest := ih hts
      have hcons : (spacedChars (t :: ts)).length = t.chars.length + 1 + (spacedChars ts).length := by
        show (0x20 :: t.chars ++ spacedChars ts).length = _
        rw [List.length_append, List.length_cons]
      rw [hcons, List.length_cons]
      omega

/-- The raw list of some numbers. -/
structure IsTi68kList (ts : List Numeral) (lab : CalcLabEquipmentData) : Prop where
  data : lab.data = some (putLE 4 ts.length ++ (spacedChars ts ++ [0]))
  size : lab.size.toNat = 4 + (spacedChars ts ++ [0]).length
  items : lab.items.toNat = ts.length
  count : ts.length < 32768

/-- A string that is accepted starts with a list, and it is the list that is made. -/
theorem isTi68kList_of_ok {string : List UInt8} {lab : CalcLabEquipmentData}
    (h : tixxStringToTi68kRawListImpl string = some (.ok lab)) :
    ∃ ts rest, IsListOf ts (listChars ts) ∧ (∀ t ∈ ts, ¬t.EndsInDot)
      ∧ string = listChars ts ++ rest ∧ IsTi68kList ts lab := by
  obtain ⟨loop, hloop, hends⟩ := parseListCopy_endsWith string
  unfold tixxStringToTi68kRawListImpl at h
  rw [hloop, Option.bind_eq_bind, Option.bind_some] at h
  by_cases hsuccess : loop.state = .success
  · rw [if_pos hsuccess] at h
    obtain ⟨r, hr⟩ := Option.isSome_iff_exists.mp (hends.success_iff.mp hsuccess)
    obtain ⟨ts, rest, hne, hnumbers, hdots, hchars⟩ := listChars_of_parseListString hr
    have hparse := (parseListString_listChars hne hnumbers rest).1 hdots
    rw [← hchars, joinTexts_space ts hne] at hparse
    rw [hparse] at hends
    obtain ⟨-, hitems, hptr, behind, hcopy⟩ := hends
    have hpayload : loop.copy.take loop.ptr = spacedChars ts ++ [0] := by
      have hsplit : loop.copy = (spacedChars ts ++ [0]) ++ behind := by
        rw [hcopy]
        simp
      have hlen : loop.ptr = (spacedChars ts ++ [0]).length := by
        rw [hptr]
        simp
      rw [hsplit, hlen, List.take_left]
    dsimp only at h
    rw [hpayload] at h
    split at h
    · cases h
    · rename_i hsmall
      rw [not_or, Nat.not_lt] at hsmall
      have hlong := length_spacedChars_ge hnumbers
      have hsize : (spacedChars ts ++ [0]).length = (spacedChars ts).length + 1 := by simp
      have hcount : ts.length < 32768 := by omega
      have hcount32 : loop.items.toNat = ts.length := by
        rw [hitems, UInt32.zero_add, UInt32.toNat_ofNat_of_lt' (by show _ < 2 ^ 32; omega)]
      have hsize16 : 4 + (spacedChars ts ++ [0]).length < 2 ^ 16 := by omega
      have hcount16 : ts.length < 2 ^ 16 := by omega
      cases h
      refine ⟨ts, rest, ⟨hne, hnumbers, rfl⟩, hdots, hchars, ?_, ?_, ?_, hcount⟩
      · show some (putLE 4 loop.items.toNat ++ _) = _
        rw [hcount32]
      · exact UInt16.toNat_ofNat_of_lt' hsize16
      · show (UInt16.ofNat loop.items.toNat).toNat = _
        rw [hcount32]
        exact UInt16.toNat_ofNat_of_lt' hcount16
  · rw [if_neg hsuccess] at h
    cases h

/-- The list comes back to the text that it was made of. -/
theorem tixxTi68kRawListToStringImpl_list {α : Type} {lib : CLib α} (hlib : lib.ReadsNumbers)
    {ts : List Numeral} (hts : IsListOf ts (listChars ts)) {lab : CalcLabEquipmentData}
    (h : IsTi68kList ts lab) :
    ∃ values, tixxTi68kRawListToStringImpl lib lab = some (.ok (lab.items.toNat, values, listChars ts))
      ∧ values.length = lab.items.toNat := by
  obtain ⟨hdata, hsize, hitems, hcount⟩ := h
  obtain ⟨tokens, htokens, hmap⟩ := readTokens_spaced hlib hts.numbers
  have hsmall : ¬lab.size < 4 := by
    rw [UInt16.lt_iff_toNat_lt, hsize]
    exact Nat.not_lt.mpr (Nat.le_add_right 4 _)
  have hlen : (putLE 4 ts.length ++ (spacedChars ts ++ [0])).length = lab.size.toNat := by
    rw [List.length_append, length_putLE, hsize]
  have hfirst : getLE ((putLE 4 ts.length ++ (spacedChars ts ++ [0])).take 4) = ts.length := by
    rw [List.take_left' (length_putLE 4 _), getLE_putLE (by omega)]
  have hmax : ¬lab.items ≥ 32768 := by
    intro hge
    have hge' := UInt16.le_iff_toNat_le.mp hge
    rw [hitems] at hge'
    exact absurd hcount (Nat.not_lt.mpr hge')
  have hpos : ts.length ≠ 0 := fun hzero => hts.ne (List.length_eq_zero_iff.mp hzero)
  have hzero : lab.items ≠ 0 := by
    intro heq
    rw [heq] at hitems
    exact hpos hitems.symm
  have hspaced : ∀ c ∈ spacedChars ts, c ≠ 0 := by
    intro c hc
    obtain ⟨t, ht, hmem⟩ := List.mem_flatMap.mp hc
    rcases List.mem_cons.mp hmem with rfl | hchar
    · decide
    · exact (chars_ne (hts.numbers t ht) c hchar).2
  have hsrc : (((putLE 4 ts.length ++ (spacedChars ts ++ [0])).take lab.size.toNat).drop 4).takeWhile
      (· ≠ 0) = spacedChars ts := by
    rw [← hlen, List.take_length, List.drop_left' (length_putLE 4 _),
      List.takeWhile_append_of_pos (by simpa using hspaced)]
    simp
  refine ⟨tokens.map (·.2), ?_, ?_⟩
  · unfold tixxTi68kRawListToStringImpl
    rw [if_neg hsmall, hdata, Option.bind_eq_bind, Option.bind_some, if_neg (by omega), hfirst,
      if_neg (by simp [hitems]), if_neg hmax, if_neg hzero, hsrc, hitems]
    dsimp only
    rw [htokens]
    show some (Except.ok (_, _, tokensString (tokens.map (·.1)))) = _
    rw [hmap]
    rfl
  · have hlength := congrArg List.length hmap
    rw [List.length_map, List.length_map] at hlength
    rw [List.length_map, hlength, hitems]

/-- A string that is accepted comes back, with as many values as items, exactly when it is a
list of the grammar: when nothing stands behind its closing brace. -/
theorem ti68kRoundTrip_iff {α : Type} {lib : CLib α} (hlib : lib.ReadsNumbers)
    {string : List UInt8} {lab : CalcLabEquipmentData}
    (h : tixxStringToTi68kRawListImpl string = some (.ok lab)) :
    Ti68kRoundTrip lib string lab ↔ ∃ ts, IsListOf ts string := by
  obtain ⟨ts, rest, hts, hdots, hchars, hlist⟩ := isTi68kList_of_ok h
  obtain ⟨values, hback, hlen⟩ := tixxTi68kRawListToStringImpl_list hlib hts hlist
  constructor
  · rintro ⟨values', hback', -⟩
    have hsame := Except.ok.inj (Option.some.inj (hback.symm.trans hback'))
    have hstring : listChars ts = string := congrArg (·.2.2) hsame
    exact ⟨ts, hstring ▸ hts⟩
  · rintro ⟨ts', hts'⟩
    have hnil := rest_eq_nil hts hdots (hchars ▸ hts')
    rw [hnil, List.append_nil] at hchars
    exact ⟨values, hchars ▸ hback, hlen⟩

/-! ### a C library for whole numbers -/

/-- `strtold` of the C locale, as it reads a whole number before a space or the end. -/
def strtoldInt (num : List UInt8) : ℤ × Nat :=
  let text := num.takeWhile (· ≠ 0x20)
  let digits := decimalNumber ((text.dropWhile (· = 0x2D)).map fun c => c.toNat - 0x30)
  (if text.head? = some 0x2D then -digits else digits, text.length)

def cLocaleInt : CLib ℤ := ⟨[0x2E], strtoldInt⟩

theorem localized_dot (cs : List UInt8) : localized [0x2E] cs = cs := by
  induction cs with
  | nil => rfl
  | cons c cs ih =>
      have hhead : (if c = 0x2E then [0x2E] else [c]) = [c] := by
        by_cases hc : c = 0x2E
        · rw [if_pos hc, hc]
        · rw [if_neg hc]
      show (if c = 0x2E then [0x2E] else [c]) ++ localized [0x2E] cs = c :: cs
      rw [hhead, ih]
      rfl

theorem cLocaleInt_readsNumbers : cLocaleInt.ReadsNumbers := by
  constructor
  · exact List.cons_ne_nil _ _
  · intro t rest ht hrest
    show ((localized [0x2E] t.chars ++ rest).takeWhile (· ≠ 0x20)).length = _
    rw [localized_dot, takeWhile_token ht hrest]
    exact congrArg List.length (localized_dot t.chars).symm

/-- The list of 3 and -1. -/
def wholeList : List UInt8 := [0x7B, 0x33, 0x2C, 0x2D, 0x31, 0x7D]

/-- The list of 3 and -1 comes back. -/
theorem ti68kRoundTrip_sample :
    ∃ lab, tixxStringToTi68kRawListImpl wholeList = some (.ok lab)
      ∧ Ti68kRoundTrip cLocaleInt wholeList lab := by
  let minus : Numeral := ⟨some 0x2D, [0x31], none, none⟩
  let three : Numeral := ⟨none, [0x33], none, none⟩
  have hthree : three.WellFormed := by
    refine ⟨isSign_none, by simp [AllDigits, three, isDigit], by simp [three], ?_, by simp [three]⟩
    exact Or.inl (List.cons_ne_nil _ _)
  have hminus : minus.WellFormed := by
    refine ⟨by simp [IsSign, minus], by simp [AllDigits, minus, isDigit], by simp [minus], ?_,
      by simp [minus]⟩
    exact Or.inl (List.cons_ne_nil _ _)
  have hlist : IsListOf [three, minus] wholeList := by
    refine ⟨List.cons_ne_nil _ _, List.forall_mem_cons.mpr
      ⟨hthree, List.forall_mem_singleton.mpr hminus⟩, ?_⟩
    decide
  have hsome : tixxStringToTi68kRawListImpl wholeList
      = some (.ok ⟨.ti68kRawList, 10, 2, some [2, 0, 0, 0, 0x20, 0x33, 0x20, 0x2D, 0x31, 0], 4⟩) := by
    decide +kernel
  exact ⟨_, hsome, (ti68kRoundTrip_iff cLocaleInt_readsNumbers hsome).mpr ⟨_, hlist⟩⟩

/-- The text behind the closing brace is dropped: `{1}x` is accepted, and `{1}` comes back. -/
theorem not_ti68kRoundTrip_trailing :
    ¬∀ string lab, tixxStringToTi68kRawListImpl string = some (.ok lab) →
      Ti68kRoundTrip cLocaleInt string lab := by
  intro h
  have hsome : tixxStringToTi68kRawListImpl [0x7B, 0x31, 0x7D, 0x78]
      = some (.ok ⟨.ti68kRawList, 7, 1, some [1, 0, 0, 0, 0x20, 0x31, 0], 4⟩) := by
    decide +kernel
  obtain ⟨values, hback, -⟩ := h _ _ hsome
  have hshort : tixxTi68kRawListToStringImpl cLocaleInt
      ⟨.ti68kRawList, 7, 1, some [1, 0, 0, 0, 0x20, 0x31, 0], 4⟩
        = some (.ok (1, [1], [0x7B, 0x31, 0x7D])) := by
    decide
  have hsame := Except.ok.inj (Option.some.inj (hshort.symm.trans hback))
  have hstring : [0x7B, 0x31, 0x7D] = [0x7B, 0x31, 0x7D, (0x78 : UInt8)] := congrArg (·.2.2) hsame
  exact absurd hstring (by decide)

end Tilibs.Calcs
