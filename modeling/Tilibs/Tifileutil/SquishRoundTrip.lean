import Mathlib
import Tilibs.CalcModel
import Tilibs.Files.FileTypes
import Tilibs.Files.VarEntry
import Tilibs.Lib.Bytes
import Tilibs.Lib.Fallible
import Tilibs.Tifileutil.Squish

/-!
# Tilibs.Tifileutil.SquishRoundTrip

`unsquish` of what `squish` wrote.

The header that `squish` puts in front of the code comes off again.  What follows it then
passes through the strippers that are still to run, and each of them takes whatever looks
like its header: the code comes back exactly when none of them finds one.  Every stripper
makes the data shorter, so a cascade of them leaves the data alone only when each of them
does.
-/

namespace Tilibs.Tifileutil

open Lib Files

/-! ## functions that only cut -/

/-- A function that leaves its data alone or makes it shorter. -/
def Cuts (f : List UInt8 → List UInt8) : Prop :=
  ∀ data, f data = data ∨ (f data).length < data.length

theorem Cuts.length_le {f : List UInt8 → List UInt8} (hf : Cuts f) (data : List UInt8) :
    (f data).length ≤ data.length := by
  cases hf data with
  | inl heq => rw [heq]
  | inr hlt => exact hlt.le

/-- One cut after the other leaves the data alone when each of them does. -/
theorem Cuts.comp_eq_iff {f g : List UInt8 → List UInt8} (hf : Cuts f) (hg : Cuts g)
    (data : List UInt8) : f (g data) = data ↔ g data = data ∧ f data = data := by
  constructor
  · intro h
    have hgd : g data = data := by
      cases hg data with
      | inl heq => exact heq
      | inr hlt =>
          have hle := hf.length_le (g data)
          rw [h] at hle
          omega
    rw [hgd] at h
    exact ⟨hgd, h⟩
  · rintro ⟨hgd, hfd⟩
    rw [hgd, hfd]

theorem Cuts.comp {f g : List UInt8 → List UInt8} (hf : Cuts f) (hg : Cuts g) :
    Cuts fun data => f (g data) := by
  intro data
  cases hg data with
  | inl heq =>
      show f (g data) = data ∨ (f (g data)).length < data.length
      rw [heq]
      exact hf data
  | inr hlt => exact .inr (lt_of_le_of_lt (hf.length_le _) hlt)

/-- A stripper whose result is shorter than the data. -/
def Shortens (strip : List UInt8 → Option (List UInt8)) : Prop :=
  ∀ data rest, strip data = some rest → rest.length < data.length

theorem Shortens.orKeep {strip : List UInt8 → Option (List UInt8)} (h : Shortens strip) :
    Cuts (orKeep strip) := by
  intro data
  unfold Tifileutil.orKeep
  cases hstrip : strip data with
  | none => exact .inl rfl
  | some rest => exact .inr (h data rest hstrip)

theorem Shortens.orKeep_eq_iff {strip : List UInt8 → Option (List UInt8)} (h : Shortens strip)
    (data : List UInt8) : Tifileutil.orKeep strip data = data ↔ strip data = none := by
  unfold Tifileutil.orKeep
  cases hstrip : strip data with
  | none => simp
  | some rest =>
      have hlt := h data rest hstrip
      constructor
      · intro heq
        rw [Option.getD_some] at heq
        rw [heq] at hlt
        exact absurd hlt (lt_irrefl _)
      · intro heq
        cases heq

theorem orKeep_some {strip : List UInt8 → Option (List UInt8)} {data rest : List UInt8}
    (h : strip data = some rest) : orKeep strip data = rest := by
  rw [orKeep, h, Option.getD_some]

theorem orKeep_none {strip : List UInt8 → Option (List UInt8)} {data : List UInt8}
    (h : strip data = none) : orKeep strip data = data := by
  rw [orKeep, h, Option.getD_none]

/-! ## the strippers only cut -/

theorem length_drop_lt {data : List UInt8} {k : Nat} (hk : 0 < k) (hdata : 0 < data.length) :
    (data.drop k).length < data.length := by
  rw [List.length_drop]
  omega

theorem length_pos_of_isPrefixOf {header data : List UInt8} (hheader : 0 < header.length)
    (h : header.isPrefixOf data = true) : 0 < data.length := by
  have hle := (List.isPrefixOf_iff_prefix.mp h).length_le
  omega

theorem skipIonMarker_length_le (data : List UInt8) :
    (skipIonMarker data).length ≤ data.length := by
  unfold skipIonMarker
  split
  · rw [List.length_drop]
    omega
  · exact le_refl _

theorem ionStrip_shortens : Shortens ionStrip := by
  intro data rest h
  have hle := skipIonMarker_length_le data
  unfold ionStrip at h
  dsimp only at h
  split at h
  · next hheader =>
    split at h
    · next i hi =>
      split at h
      · cases h
        have hlt := length_drop_lt (k := 3 + i + 1) (by omega)
          (show 0 < (skipIonMarker data).length by omega)
        omega
      · cases h
    · cases h
  · cases h

theorem mallardStrip_shortens : Shortens mallardStrip := by
  intro data rest h
  unfold mallardStrip at h
  split at h
  · next hheader =>
    obtain ⟨i, hi, hrest⟩ := Option.map_eq_some_iff.mp h
    rw [← hrest]
    exact length_drop_lt (by omega) (by omega)
  · cases h

/-- A nostub header is ten bytes. -/
theorem nostubStrip_length {data rest : List UInt8} {type : UInt8}
    (h : nostubStrip data = some (type, rest)) : rest.length + 10 = data.length := by
  unfold nostubStrip at h
  split at h
  · next hheader =>
    cases h
    rw [List.length_drop]
    omega
  · cases h

theorem ti83xStripShell_shortens (model : CalcModel) : Shortens (ti83xStripShell model) := by
  intro data rest h
  unfold ti83xStripShell at h
  dsimp only at h
  obtain ⟨header, hfind, hrest⟩ := Option.map_eq_some_iff.mp h
  have hprefix := List.find?_some hfind
  obtain ⟨shell, hshell, hheader⟩ := List.mem_map.mp (List.mem_of_find?_eq_some hfind)
  have hpos : 0 < header.length := by
    rw [← hheader, ti83xPrefix]
    split <;> simp [squishedSend9Prefix, squishedAsmPrefix]
  rw [← hrest]
  exact length_drop_lt hpos (length_pos_of_isPrefixOf hpos hprefix)

theorem tseStrip_shortens : Shortens tseStrip := by
  intro data rest h
  unfold tseStrip at h
  split at h
  · next hheader =>
    split at h
    · next i hi =>
      split at h
      · cases h
        exact length_drop_lt (by omega) (by omega)
      · cases h
    · cases h
  · cases h

theorem ti83pStripShell_shortens : Shortens ti83pStripShell := by
  intro data rest h
  unfold ti83pStripShell at h
  split at h
  · next hheader =>
    obtain ⟨i, hi, hrest⟩ := Option.map_eq_some_iff.mp h
    rw [← hrest]
    exact length_drop_lt (by omega) (by omega)
  · split at h
    · next hheader =>
      obtain ⟨i, hi, hrest⟩ := Option.map_eq_some_iff.mp h
      rw [← hrest]
      exact length_drop_lt (by omega) (by omega)
    · split at h
      · next hheader =>
        cases h
        exact length_drop_lt (by decide) (length_pos_of_isPrefixOf (by decide) hheader)
      · cases h

theorem cutTitle_length_le (rest : List UInt8) (titleoff : Nat) :
    (cutTitle rest titleoff).length ≤ rest.length := by
  unfold cutTitle
  split
  · split
    · rw [List.length_append, List.length_take, List.length_drop]
      omega
    · exact le_refl _
  · exact le_refl _

theorem ashellStrip_shortens {data rest : List UInt8} (hdata : 0 < data.length)
    (h : ashellStrip data = some rest) : rest.length < data.length := by
  unfold ashellStrip at h
  dsimp only at h
  split at h
  · cases h
  · cases h
    exact lt_of_le_of_lt (cutTitle_length_le _ _) (length_drop_lt (by omega) hdata)

theorem venusDescription_length_le (data : List UInt8) :
    (venusDescription data).length ≤ data.length := by
  unfold venusDescription
  split
  · split
    · split
      · rw [List.length_drop]
        omega
      · exact le_refl _
    · exact le_refl _
  · exact le_refl _

theorem ti83StripShell_shortens : Shortens ti83StripShell := by
  intro data rest h
  unfold ti83StripShell at h
  split at h
  · next hheader => exact ashellStrip_shortens (by omega) h
  · split at h
    · next hheader =>
      cases h
      exact lt_of_le_of_lt (venusDescription_length_le _)
        (length_drop_lt (by decide) (length_pos_of_isPrefixOf (by decide) hheader))
    · split at h
      · next shellRest hshell =>
        cases h
        exact ti83xStripShell_shortens .ti83 data _ hshell
      · split at h
        · next hheader =>
          cases h
          exact length_drop_lt (by decide) (length_pos_of_isPrefixOf (by decide) hheader)
        · unfold sosModuleStrip at h
          split at h
          · next hheader =>
            cases h
            exact length_drop_lt (by decide) (length_pos_of_isPrefixOf (by decide) hheader)
          · cases h

/-- The trailer is only cut off the TI-73 and TI-83 programs that have it. -/
theorem dropTrailer_eq_iff (model : CalcModel) (data : List UInt8) :
    dropTrailer model data = data ↔
      ¬ (squishUsesTrailer model = true ∧ squishTrailer <:+ data) := by
  unfold dropTrailer
  rw [← List.isSuffixOf_iff_suffix, ← Bool.and_eq_true]
  split
  · next htrailer =>
    have hsuffix := ((Bool.and_eq_true _ _).mp htrailer).2
    have hle := (List.isSuffixOf_iff_suffix.mp hsuffix).length_le
    have hpos : 0 < squishTrailer.length := by decide
    constructor
    · intro heq
      have hlen := congrArg List.length heq
      rw [List.length_take] at hlen
      omega
    · exact fun hno => absurd htrailer hno
  · next htrailer => exact ⟨fun _ => htrailer, fun _ => rfl⟩

theorem dropTrailer_cuts (model : CalcModel) : Cuts (dropTrailer model) := by
  intro data
  unfold dropTrailer
  split
  · next htrailer =>
    rw [Bool.and_eq_true] at htrailer
    have hle := (List.isSuffixOf_iff_suffix.mp htrailer.2).length_le
    have hpos : 0 < squishTrailer.length := by decide
    right
    rw [List.length_take]
    omega
  · exact .inl rfl

/-! ## hex text -/

theorem hexNibble_hexDigit (b : UInt8) :
    hexNibble (hexDigit (b >>> 4)) = some (b >>> 4)
      ∧ hexNibble (hexDigit (b &&& 0xF)) = some (b &&& 0xF)
      ∧ (b >>> 4) <<< 4 ||| (b &&& 0xF) = b := by
  revert b
  decide +kernel

/-- The digits of the code are read back. -/
theorem hexDecode_hexEncode (code : List UInt8) : hexDecode (hexEncode code) = some code := by
  induction code with
  | nil => rfl
  | cons b bs ih =>
      obtain ⟨hhigh, hlow, hbyte⟩ := hexNibble_hexDigit b
      rw [hexEncode, hexDecode, hhigh, hlow, ih]
      show some (((b >>> 4) <<< 4 ||| (b &&& 0xF)) :: bs) = some (b :: bs)
      rw [hbyte]

theorem hexEncode_inj {code code' : List UInt8} : hexEncode code = hexEncode code' ↔ code = code' := by
  constructor
  · intro h
    have hdecode := hexDecode_hexEncode code
    rw [h, hexDecode_hexEncode] at hdecode
    exact (Option.some.inj hdecode).symm
  · exact congrArg hexEncode

theorem length_hexEncode (code : List UInt8) : (hexEncode code).length = 2 * code.length := by
  induction code with
  | nil => rfl
  | cons b bs ih =>
      rw [hexEncode, List.length_cons, List.length_cons, ih, List.length_cons]
      omega

/-- A character of hex text. -/
def isHexChar (c : UInt8) : Bool := (hexNibble c).isSome

theorem isHexChar_of_hexDecode {text code : List UInt8} (h : hexDecode text = some code) :
    ∀ c ∈ text, isHexChar c = true := by
  fun_induction hexDecode text generalizing code with
  | case1 => nofun
  | case2 => cases h
  | case3 hi lo text ih =>
      cases hhigh : hexNibble hi with
      | none => simp [hhigh] at h
      | some high =>
        cases hlow : hexNibble lo with
        | none => simp [hhigh, hlow] at h
        | some low =>
          cases htext : hexDecode text with
          | none => simp [hhigh, hlow, htext] at h
          | some tail =>
              intro c hc
              simp only [List.mem_cons] at hc
              obtain rfl | rfl | hc := hc
              · rw [isHexChar, hhigh, Option.isSome_some]
              · rw [isHexChar, hlow, Option.isSome_some]
              · exact ih htext c hc

/-! ## reading the length, the trailer and the nostub header -/

/-- A program behind its length field. -/
def lengthed (body : List UInt8) : List UInt8 := putLE 2 body.length ++ body

theorem length_lengthed (body : List UInt8) : (lengthed body).length = body.length + 2 := by
  rw [lengthed, List.length_append, length_putLE, Nat.add_comm]

theorem lengthed_inj {body body' : List UInt8} (h : lengthed body = lengthed body') :
    body = body' :=
  (List.append_inj h (by rw [length_putLE, length_putLE])).2

theorem skipLength_lengthed {body : List UInt8} (hbody : body.length < 2 ^ 16) :
    skipLength (lengthed body) = body := by
  have htake : (lengthed body).take 2 = putLE 2 body.length :=
    List.take_left' (length_putLE _ _)
  have hdrop : (lengthed body).drop 2 = body := List.drop_left' (length_putLE _ _)
  have hword : getLE (putLE 2 body.length) = body.length := getLE_putLE hbody
  have hlen := length_lengthed body
  unfold skipLength
  dsimp only
  rw [htake, hword, if_pos ⟨by omega, .inl (by omega)⟩, hdrop]

/-- The data of a program entry, as the commands read it. -/
theorem take_lengthed {size : UInt32} {body : List UInt8}
    (hsize : size = UInt32.ofNat (lengthed body).length) (hbody : body.length < 2 ^ 16) :
    ((some (lengthed body)).getD []).take size.toNat = lengthed body := by
  have hlen := length_lengthed body
  rw [hsize, UInt32.toNat_ofNat_of_lt' (by rw [hlen]; show _ < 4294967296; omega),
    Option.getD_some, List.take_length]

/-- Hex text does not end in the trailer. -/
theorem dropTrailer_hexText {text : List UInt8} (model : CalcModel)
    (htext : ∀ c ∈ text, isHexChar c = true) : dropTrailer model text = text := by
  rw [dropTrailer_eq_iff]
  rintro ⟨-, front, hfront⟩
  have hlast := htext 0xD4 (by rw [← hfront]; simp [squishTrailer])
  cases hlast

theorem dropTrailer_append {model : CalcModel} (htrailer : squishUsesTrailer model = true)
    (text : List UInt8) : dropTrailer model (text ++ squishTrailer) = text := by
  have hsuffix : squishTrailer.isSuffixOf (text ++ squishTrailer) = true :=
    List.isSuffixOf_iff_suffix.mpr (List.suffix_append _ _)
  unfold dropTrailer
  rw [htrailer, hsuffix, Bool.true_and, if_pos rfl, List.length_append, Nat.add_sub_cancel,
    List.take_left]

/-- Hex text has no nostub header. -/
theorem dropNostub_hexText {text : List UInt8} (model : CalcModel)
    (htext : ∀ c ∈ text, isHexChar c = true) : dropNostub model text = some text := by
  have hnostub : nostubStrip text = none := by
    unfold nostubStrip
    rw [if_neg]
    rintro ⟨-, hprefix, -⟩
    obtain ⟨rest, hrest⟩ := List.isPrefixOf_iff_prefix.mp hprefix
    have hfirst := htext 0x5F (by rw [← hrest]; simp [squishedNostubPrefix])
    cases hfirst
  unfold dropNostub
  rw [hnostub]
  split <;> rfl

/-- An entry with `code` as hex text in either case, with the trailer or without it where
the model has one. -/
def HexSource (model : CalcModel) (ve : VarEntry) (code : List UInt8) : Prop :=
  ∃ text trailer, hexDecode text = some code
    ∧ (trailer = [] ∨ squishUsesTrailer model = true ∧ trailer = squishTrailer)
    ∧ (text ++ trailer).length < 2 ^ 16
    ∧ ve.data = some (lengthed (text ++ trailer))
    ∧ ve.size = UInt32.ofNat (lengthed (text ++ trailer)).length

/-- `squish` finds the code in it. -/
theorem HexSource.decode {model : CalcModel} {ve : VarEntry} {code : List UInt8}
    (h : HexSource model ve code) :
    (dropNostub model (dropTrailer model
      (skipLength ((ve.data.getD []).take ve.size.toNat)))).bind hexDecode = some code := by
  obtain ⟨text, trailer, hcode, htrailer, hlen, hdata, hsize⟩ := h
  have htext := isHexChar_of_hexDecode hcode
  have hdrop : dropTrailer model (text ++ trailer) = text := by
    obtain rfl | ⟨huses, rfl⟩ := htrailer
    · rw [List.append_nil]
      exact dropTrailer_hexText model htext
    · exact dropTrailer_append huses text
  rw [hdata, take_lengthed hsize hlen, skipLength_lengthed hlen, hdrop,
    dropNostub_hexText model htext, Option.bind_some, hcode]

/-! ## each header comes off -/

/-- The description ends at the first NUL. -/
theorem memchrNul_append {desc : List UInt8} (hdesc : ∀ b ∈ desc, b ≠ 0) (rest : List UInt8) :
    memchrNul (desc ++ 0 :: rest) = some desc.length := by
  unfold memchrNul
  induction desc with
  | nil => rfl
  | cons b bs ih =>
      have hb : (b == 0) = false := by simpa using hdesc b (List.mem_cons_self ..)
      have hbs := ih fun c hc => hdesc c (List.mem_cons_of_mem b hc)
      rw [List.cons_append, List.findIdx?_cons, hb, hbs]
      rfl

/-- What follows a header with a description and its NUL. -/
theorem drop_header (header desc code : List UInt8) :
    (header ++ (desc ++ 0 :: code)).drop (header.length + desc.length + 1) = code := by
  have hassoc : header ++ (desc ++ 0 :: code) = (header ++ desc ++ [0]) ++ code := by simp
  rw [hassoc]
  exact List.drop_left' (by simp [Nat.add_assoc])

theorem stripHeader_ti82 {shell : Shell} {desc : List UInt8} (code : List UInt8)
    (hshell : shell ∈ [Shell.ti82Crash, .ti82Ace, .ti82Ash, .ti82Sng])
    (hdesc : ∀ b ∈ desc, b ≠ 0) :
    stripHeader .ti82 (squishedBody .ti82 shell desc code) = (code, none) := by
  obtain ⟨a, b, c, hmarker, hprefix⟩ : ∃ a b c, ti82SquishedPrefix shell = [a, b, c]
      ∧ ([Shell.ti82Crash, .ti82Ace, .ti82Ash, .ti82Sng].map ti82SquishedPrefix).any
        (fun marker => marker.isPrefixOf (a :: b :: c :: (desc ++ 0 :: code))) = true := by
    simp only [List.mem_cons, List.not_mem_nil, or_false] at hshell
    obtain rfl | rfl | rfl | rfl := hshell <;> exact ⟨_, _, _, rfl, rfl⟩
  have hbody : squishedBody .ti82 shell desc code = a :: b :: c :: (desc ++ 0 :: code) := by
    rw [squishedBody, if_pos rfl, hmarker]
    simp
  have hstrip : ti82StripMarkerAndName (a :: b :: c :: (desc ++ 0 :: code)) = some code := by
    unfold ti82StripMarkerAndName
    dsimp only
    rw [if_pos hprefix, List.drop_succ_cons, List.drop_succ_cons, List.drop_succ_cons,
      List.drop_zero, memchrNul_append hdesc]
    exact congrArg some (drop_header [a, b, c] desc code)
  unfold stripHeader
  rw [hbody, hstrip]
  rfl

/-- No stripper of the TI-83 takes an Ion header. -/
theorem ti83StripShell_ion (rest : List UInt8) :
    ti83StripShell (0xC9 :: 0x30 :: rest) = none := by
  unfold ti83StripShell
  rw [if_neg (by simp)]
  rfl

theorem ti83xStripShell_header {shell : Shell}
    (hshell : shell ∈ [Shell.ti83Ion83, .ti83Pse83, .ti83Ice, .ti83Sos]) (model : CalcModel)
    (code : List UInt8) :
    ti83xStripShell model
      (ti83xPrefix model ++ (ti83xShellName shell).1 ++ (ti83xShellName shell).2 ++ code)
      = some code := by
  simp only [List.mem_cons, List.not_mem_nil, or_false] at hshell
  unfold ti83xPrefix ti83xStripShell ti83xPrefix
  split <;> obtain rfl | rfl | rfl | rfl := hshell <;> rfl

/-- An Ion header with a description whose length fits its byte. -/
theorem ionStrip_header {desc : List UInt8} (hdesc : ∀ b ∈ desc, b ≠ 0)
    (hlen : desc.length ≤ 254) (code : List UInt8) :
    ionStrip (0xC9 :: 0x30 :: UInt8.ofNat (desc.length + 1) :: (desc ++ 0 :: code))
      = some code := by
  have hskip : skipIonMarker (0xC9 :: 0x30 :: UInt8.ofNat (desc.length + 1) :: (desc ++ 0 :: code))
      = 0xC9 :: 0x30 :: UInt8.ofNat (desc.length + 1) :: (desc ++ 0 :: code) := by
    unfold skipIonMarker
    rw [if_neg (by simp)]
  have hbyte : (UInt8.ofNat (desc.length + 1)).toNat = desc.length + 1 :=
    UInt8.toNat_ofNat_of_lt' (by show _ < 256; omega)
  unfold ionStrip
  dsimp only
  rw [hskip, if_pos ⟨by simp; omega, .inl rfl, rfl⟩]
  have hdrop : (0xC9 :: 0x30 :: UInt8.ofNat (desc.length + 1) :: (desc ++ 0 :: code)).drop 3
      = desc ++ 0 :: code := rfl
  have hget : ((0xC9 :: 0x30 :: UInt8.ofNat (desc.length + 1) :: (desc ++ 0 :: code)).getD 2 0).toNat
      = desc.length + 1 := hbyte
  rw [hdrop, memchrNul_append hdesc, hget]
  dsimp only
  rw [if_pos (by omega)]
  exact congrArg some
    (drop_header [0xC9, 0x30, UInt8.ofNat (desc.length + 1)] desc code)

/-- A Venus header with a description whose length fits its byte. -/
theorem venusDescription_header {desc : List UInt8} (hdesc : ∀ b ∈ desc, b ≠ 0)
    (hlen : desc.length ≤ 254) (code : List UInt8) :
    venusDescription (0x30 :: UInt8.ofNat (desc.length + 1) :: (desc ++ 0 :: code)) = code := by
  have hbyte : (UInt8.ofNat (desc.length + 1)).toNat = desc.length + 1 :=
    UInt8.toNat_ofNat_of_lt' (by show _ < 256; omega)
  have hdrop : (0x30 :: UInt8.ofNat (desc.length + 1) :: (desc ++ 0 :: code)).drop 2
      = desc ++ 0 :: code := rfl
  have hget : ((0x30 :: UInt8.ofNat (desc.length + 1) :: (desc ++ 0 :: code)).getD 1 0).toNat
      = desc.length + 1 := hbyte
  unfold venusDescription
  rw [if_pos ⟨by simp; omega, rfl⟩, hdrop, memchrNul_append hdesc, hget]
  dsimp only
  rw [if_pos (by omega)]
  exact drop_header [0x30, UInt8.ofNat (desc.length + 1)] desc code

/-- The title of an ASHELL83 program with seven header bytes. -/
theorem ashellStrip_cons (low high : UInt8) (rest : List UInt8) :
    ashellStrip (0x00 :: 0x18 :: 0x04 :: 0x00 :: 0x00 :: low :: high :: rest)
      = some (cutTitle rest (if getLE [low, high] ≥ 0x9327 + 0x48
          then (getLE [low, high] + 2 ^ 32 - 0x9327 - 0x48 - 2 - 7) % 2 ^ 32 else 0)) := by
  have hoff : ¬ 3 + (4 : UInt8).toNat
      > (0x00 :: 0x18 :: 0x04 :: 0x00 :: 0x00 :: low :: high :: rest : List UInt8).length := by
    simp only [List.length_cons, gt_iff_lt, not_lt]
    show 7 ≤ _
    omega
  unfold ashellStrip
  exact if_neg hoff

/-- An ASHELL83 header whose title has an address of two bytes. -/
theorem ashellStrip_header {desc code : List UInt8} (hdesc : ∀ b ∈ desc, b ≠ 0)
    (hlen : code.length < 27784) :
    ashellStrip ([0x00, 0x18, 0x04, 0x00, 0x00]
        ++ (putLE 2 (0x9327 + 0x48 + 2 + 7 + code.length) ++ (code ++ (desc ++ [0])))) = some code := by
  obtain ⟨low, high, hptr⟩ : ∃ low high,
      putLE 2 (0x9327 + 0x48 + 2 + 7 + code.length) = [low, high] := ⟨_, _, rfl⟩
  have hword : getLE [low, high] = 0x9327 + 0x48 + 2 + 7 + code.length := by
    rw [← hptr]
    exact getLE_putLE (by omega)
  have htitle : cutTitle (code ++ (desc ++ [0])) code.length = code := by
    unfold cutTitle
    rw [if_pos (by simp), List.drop_left, memchrNul_append hdesc]
    dsimp only
    rw [List.take_left]
    have hrest : (code ++ (desc ++ [0])).drop (code.length + desc.length + 1) = [] :=
      drop_header code desc []
    rw [hrest, List.append_nil]
  have hoff : (0x9327 + 0x48 + 2 + 7 + code.length + 2 ^ 32 - 0x9327 - 0x48 - 2 - 7) % 2 ^ 32
      = code.length := by omega
  have hcons := ashellStrip_cons low high (code ++ (desc ++ [0]))
  rw [hword, if_pos (by omega), hoff, htitle] at hcons
  rw [hptr]
  exact hcons

/-- A Mallard header. -/
theorem mallardStrip_header {desc : List UInt8} (hdesc : ∀ b ∈ desc, b ≠ 0) (entry : Nat)
    (code : List UInt8) :
    mallardStrip (squishedMallardMagic ++ [0x44, 0x75, 0x63, 0x6B] ++ putLE 2 entry
      ++ (desc ++ 0 :: code)) = some code := by
  have hlen : (squishedMallardMagic ++ [0x44, 0x75, 0x63, 0x6B] ++ putLE 2 entry).length = 8 := by
    rw [List.length_append, length_putLE]
    rfl
  unfold mallardStrip
  rw [if_pos ⟨by rw [List.length_append, hlen]; omega, rfl⟩, List.drop_left' hlen,
    memchrNul_append hdesc, Option.map_some]
  have hdrop := drop_header (squishedMallardMagic ++ [0x44, 0x75, 0x63, 0x6B] ++ putLE 2 entry) desc code
  rw [hlen] at hdrop
  exact congrArg some hdrop

/-- A decimal digit of the nostub size. -/
theorem isDecimal_ofNat (n : Nat) : isDecimal (0x30 + UInt8.ofNat (n % 10)) = true := by
  have hlt : n % 10 < 10 := Nat.mod_lt n (by decide)
  generalize n % 10 = d at hlt
  interval_cases d <;> rfl

/-- A nostub header of a squished program. -/
theorem nostubStrip_header (n : Nat) (code : List UInt8) :
    nostubStrip (squishedNostubPrefix ++ [0x31, 0x30 + UInt8.ofNat (n / 100 % 10),
      0x30 + UInt8.ofNat (n / 10 % 10), 0x30 + UInt8.ofNat (n % 10), 0x3F] ++ code)
      = some (0x31, code) := by
  unfold nostubStrip
  rw [if_pos]
  · rfl
  · exact ⟨by simp [squishedNostubPrefix], rfl, .inr rfl, isDecimal_ofNat _, isDecimal_ofNat _,
      isDecimal_ofNat _, rfl⟩

/-- A TSE header. -/
theorem tseStrip_header {desc : List UInt8} (hdesc : ∀ b ∈ desc, b ≠ 0) (code : List UInt8) :
    tseStrip (squishedTseMagic ++ (0x20 :: desc ++ 0 :: 0 :: 0 :: code)) = some code := by
  have hspace : ∀ b ∈ (0x20 :: desc : List UInt8), b ≠ 0 := by
    intro b hb
    cases hb with
    | head => decide
    | tail _ hb => exact hdesc b hb
  have hlen : squishedTseMagic.length = 5 := rfl
  unfold tseStrip
  rw [if_pos ⟨by simp [hlen]; omega, rfl⟩, List.drop_left' hlen, memchrNul_append hspace]
  dsimp only
  rw [if_pos (by simp [hlen]; omega)]
  have hdrop : (squishedTseMagic ++ (0x20 :: desc ++ 0 :: 0 :: 0 :: code)).drop
      (squishedTseMagic.length + (0x20 :: desc).length + 1) = 0 :: 0 :: code :=
    drop_header squishedTseMagic (0x20 :: desc) (0 :: 0 :: code)
  have hmemreq := congrArg (List.drop 2) hdrop
  rw [List.drop_drop, hlen] at hmemreq
  exact congrArg some hmemreq

/-- A MirageOS header, of a program that is not empty. -/
theorem ti83pStripShell_header {desc code : List UInt8} (hdesc : ∀ b ∈ desc, b ≠ 0)
    (hsome : desc ≠ [] ∨ code ≠ []) :
    ti83pStripShell (squishedMirageMagic ++ List.replicate squishedMirageIconlen 0x00
      ++ (desc ++ 0 :: code)) = some code := by
  have hlen : (squishedMirageMagic ++ List.replicate squishedMirageIconlen (0x00 : UInt8)).length
      = 2 + squishedMirageIconlen := rfl
  have hpos : 0 < desc.length + code.length := by
    obtain hd | hc := hsome
    · have := List.length_pos_iff.mpr hd
      omega
    · have := List.length_pos_iff.mpr hc
      omega
  unfold ti83pStripShell
  rw [if_pos ⟨by simp only [List.length_append, hlen, List.length_cons]; omega, rfl⟩, List.drop_left' hlen,
    memchrNul_append hdesc, Option.map_some]
  have hdrop := drop_header
    (squishedMirageMagic ++ List.replicate squishedMirageIconlen (0x00 : UInt8)) desc code
  rw [hlen] at hdrop
  exact congrArg some hdrop

/-! ## the cascade -/

/-- The strippers that run after the header is off. -/
def unsquishedCode (model : CalcModel) (rest : List UInt8) : List UInt8 :=
  dropTrailer model (stripIon model (stripTi83pShells model rest))

/-- Data too short for an Ion header has none. -/
theorem stripIon_eq {model : CalcModel} (hmodel : model ≠ .ti82) (data : List UInt8) :
    stripIon model data = orKeep ionStrip data := by
  unfold stripIon
  split
  · rfl
  · next hshort =>
    have hlen : ¬ data.length ≥ 4 := fun h => hshort ⟨hmodel, h⟩
    have hle := skipIonMarker_length_le data
    refine (orKeep_none ?_).symm
    unfold ionStrip
    exact if_neg fun h => by omega

/-- On the TI-73 and TI-83 an Ion header and the trailer are looked for. -/
theorem unsquishedCode_trailer {model : CalcModel} (huses : squishUsesTrailer model = true)
    (rest : List UInt8) :
    unsquishedCode model rest = dropTrailer model (orKeep ionStrip rest) := by
  have hmodel : model = .ti73 ∨ model = .ti83 := by
    simpa [squishUsesTrailer] using huses
  have hshells : stripTi83pShells model rest = rest := by
    unfold stripTi83pShells
    rw [if_neg]
    rintro ⟨h73, -, h83⟩
    exact hmodel.elim h73 h83
  unfold unsquishedCode
  rw [hshells, stripIon_eq (by obtain rfl | rfl := hmodel <;> decide)]

/-- On the TI-83+ family the headers of its shells and of Ion are looked for. -/
theorem unsquishedCode_family {model : CalcModel} (h73 : model ≠ .ti73) (h82 : model ≠ .ti82)
    (h83 : model ≠ .ti83) (rest : List UInt8) :
    unsquishedCode model rest
      = orKeep ionStrip (orKeep ti83pStripShell
          (orKeep tseStrip (orKeep (ti83xStripShell .ti83p) rest))) := by
  have huses : squishUsesTrailer model = false := by simp [squishUsesTrailer, h73, h83]
  unfold unsquishedCode dropTrailer stripTi83pShells
  rw [huses, Bool.false_and, if_neg (by decide), if_pos ⟨h73, h82, h83⟩, stripIon_eq h82]

/-- What is left of the code after an Ion header and the trailer were looked for. -/
theorem ionTrailer_eq_iff (model : CalcModel) (code : List UInt8) :
    dropTrailer model (orKeep ionStrip code) = code ↔ ionStrip code = none
      ∧ ¬ (squishUsesTrailer model = true ∧ squishTrailer <:+ code) := by
  rw [(dropTrailer_cuts model).comp_eq_iff ionStrip_shortens.orKeep,
    ionStrip_shortens.orKeep_eq_iff, dropTrailer_eq_iff]

/-- The strippers of the TI-83+ family that come after the "Asm prgm" one. -/
theorem familyTail_eq_iff (code : List UInt8) :
    orKeep ionStrip (orKeep ti83pStripShell (orKeep tseStrip code)) = code ↔
      tseStrip code = none ∧ ti83pStripShell code = none ∧ ionStrip code = none := by
  rw [ionStrip_shortens.orKeep.comp_eq_iff
      (ti83pStripShell_shortens.orKeep.comp tseStrip_shortens.orKeep),
    ti83pStripShell_shortens.orKeep.comp_eq_iff tseStrip_shortens.orKeep,
    tseStrip_shortens.orKeep_eq_iff, ti83pStripShell_shortens.orKeep_eq_iff,
    ionStrip_shortens.orKeep_eq_iff, and_assoc]

/-! ## which code comes back -/

/-- No stripper that runs after the header of the shell is off takes anything from the
code. -/
def Untouched (model : CalcModel) (shell : Shell) (code : List UInt8) : Prop :=
  if model = .ti82 then True
  else if model = .ti83 then
    (shell = .none → ti83StripShell code = none) ∧ (shell ≠ .ti83Ion → ionStrip code = none)
      ∧ ¬ squishTrailer <:+ code
  else if model = .ti73 then
    (shell = .none → mallardStrip code = none ∧ nostubStrip code = none) ∧ ionStrip code = none
      ∧ ¬ squishTrailer <:+ code
  else
    (shell = .none → ti83xStripShell .ti83p code = none)
      ∧ (shell ∉ [Shell.ti83pTse, .ti83pMirage, .ti83Ion] → tseStrip code = none)
      ∧ (shell ∉ [Shell.ti83pMirage, .ti83Ion] → ti83pStripShell code = none)
      ∧ (shell ≠ .ti83Ion → ionStrip code = none)

/-- The fields of the header hold their values, and the header is one that the model's
marker goes with. -/
structure HeaderFits (model : CalcModel) (shell : Shell) (desc code : List UInt8) : Prop where
  descLength : shell = .ti83Ion ∨ shell = .ti83Venus → desc.length ≤ 254
  titlePointer : shell = .ti82Ashell → code.length < 27784
  marker : shell = .ti83pTse ∨ shell = .ti83pMirage → model = .ti83p ∨ model = .ti84p
  notEmpty : shell = .ti83pMirage → desc ≠ [] ∨ code ≠ []

/-- The hex text that `unsquish` makes of a squished program. -/
def unsquishedHex (model : CalcModel) (body : List UInt8) : List UInt8 :=
  if (stripHeader model body).2 = some 0x30 then unsquishedCode model (stripHeader model body).1
  else hexEncode (unsquishedCode model (stripHeader model body).1)

theorem unsquishedHex_eq_iff {model : CalcModel} {body rest code : List UInt8}
    (hstrip : stripHeader model body = (rest, none)) :
    unsquishedHex model body = hexEncode code ↔ unsquishedCode model rest = code := by
  unfold unsquishedHex
  rw [hstrip]
  exact hexEncode_inj

/-- The TI-82: the name is always there, and nothing is looked for after it. -/
theorem unsquishedHex_ti82 {shell : Shell} {desc : List UInt8} (code : List UInt8)
    (hshell : shell ∈ [Shell.ti82Crash, .ti82Ace, .ti82Ash, .ti82Sng])
    (hdesc : ∀ b ∈ desc, b ≠ 0) :
    unsquishedHex .ti82 (squishedBody .ti82 shell desc code) = hexEncode code := by
  rw [unsquishedHex_eq_iff (stripHeader_ti82 code hshell hdesc)]
  rfl

theorem stripHeader_ti83 (data : List UInt8) :
    stripHeader .ti83 data = (orKeep ti83StripShell data, none) := rfl

theorem ti83StripShell_header {shell : Shell} {desc code : List UInt8}
    (hshell : shell ∈ [Shell.ti82Ashell, .ti83Venus, .ti83Ion83, .ti83Pse83, .ti83Ice, .ti83Sos])
    (hdesc : ∀ b ∈ desc, b ≠ 0) (hfits : HeaderFits .ti83 shell desc code) :
    ti83StripShell (squishedBody .ti83 shell desc code) = some code := by
  simp only [List.mem_cons, List.not_mem_nil, or_false] at hshell
  obtain rfl | rfl | hsend := hshell
  · have hashell := ashellStrip_header hdesc (hfits.titlePointer rfl)
    have hbody : squishedBody .ti83 .ti82Ashell desc code = [0x00, 0x18, 0x04, 0x00, 0x00]
        ++ (putLE 2 (0x9327 + 0x48 + 2 + 7 + code.length) ++ (code ++ (desc ++ [0]))) := by
      simp [squishedBody]
    rw [hbody]
    unfold ti83StripShell
    rw [if_pos ⟨by simp, rfl, rfl⟩]
    exact hashell
  · have hvenus := venusDescription_header hdesc (hfits.descLength (.inr rfl)) code
    have hbody : squishedBody .ti83 .ti83Venus desc code = squishedVenusMagic
        ++ (0x30 :: UInt8.ofNat (desc.length + 1) :: (desc ++ 0 :: code)) := by
      simp [squishedBody]
    rw [hbody]
    unfold ti83StripShell
    rw [if_neg (by simp [squishedVenusMagic])]
    exact (if_pos rfl).trans (congrArg some hvenus)
  · have hmem : shell ∈ [Shell.ti83Ion83, .ti83Pse83, .ti83Ice, .ti83Sos] := by simpa using hsend
    have hheader := ti83xStripShell_header hmem .ti83 code
    have hbody : squishedBody .ti83 shell desc code
        = ti83xPrefix .ti83 ++ (ti83xShellName shell).1 ++ (ti83xShellName shell).2 ++ code := by
      obtain rfl | rfl | rfl | rfl := hsend <;> rfl
    rw [hbody]
    unfold ti83StripShell
    rw [hheader, if_neg, if_neg]
    · obtain rfl | rfl | rfl | rfl := hsend <;> simp [ti83xPrefix, ti83xShellName, squishedVenusMagic, squishedSend9Prefix]
    · simp [ti83xPrefix, squishedSend9Prefix]

/-- The TI-83. -/
theorem unsquishedHex_ti83 {shell : Shell} {desc code : List UInt8}
    (hshell : acceptShell .ti83 shell = some shell) (hdesc : ∀ b ∈ desc, b ≠ 0)
    (hfits : HeaderFits .ti83 shell desc code) :
    unsquishedHex .ti83 (squishedBody .ti83 shell desc code) = hexEncode code ↔
      Untouched .ti83 shell code := by
  rw [unsquishedHex_eq_iff (stripHeader_ti83 _), unsquishedCode_trailer rfl]
  by_cases hnone : shell = .none
  · cases hnone
    have hbody : squishedBody .ti83 .none desc code = code := rfl
    rw [hbody, ((dropTrailer_cuts .ti83).comp ionStrip_shortens.orKeep).comp_eq_iff
      ti83StripShell_shortens.orKeep, ti83StripShell_shortens.orKeep_eq_iff, ionTrailer_eq_iff]
    simp [Untouched, squishUsesTrailer]
  · by_cases hion : shell = .ti83Ion
    · cases hion
      have hheader := ionStrip_header hdesc (hfits.descLength (.inl rfl)) code
      have hbody : squishedBody .ti83 .ti83Ion desc code
          = 0xC9 :: 0x30 :: UInt8.ofNat (desc.length + 1) :: (desc ++ 0 :: code) := by
        simp [squishedBody, squishedPrefix]
      rw [hbody, orKeep_none (ti83StripShell_ion _), orKeep_some hheader, dropTrailer_eq_iff]
      simp [Untouched, squishUsesTrailer]
    · have hmem : shell ∈ [Shell.ti82Ashell, .ti83Venus, .ti83Ion83, .ti83Pse83, .ti83Ice,
          .ti83Sos] := by
        cases shell <;> first
          | exact absurd rfl hnone
          | exact absurd rfl hion
          | decide
          | cases hshell
      rw [orKeep_some (ti83StripShell_header hmem hdesc hfits), ionTrailer_eq_iff]
      simp [Untouched, squishUsesTrailer, hnone, hion]

theorem stripHeader_ti73_mallard {data rest : List UInt8} (h : mallardStrip data = some rest) :
    stripHeader .ti73 data = (rest, none) := by
  unfold stripHeader
  dsimp only
  rw [if_neg (by decide), if_neg (by decide), if_pos rfl, h]

theorem stripHeader_ti73_nostub {data rest : List UInt8} {type : UInt8}
    (hmallard : mallardStrip data = none) (h : nostubStrip data = some (type, rest)) :
    stripHeader .ti73 data = (rest, some type) := by
  unfold stripHeader
  dsimp only
  rw [if_neg (by decide), if_neg (by decide), if_pos rfl, hmallard, h]

theorem stripHeader_ti73_none {data : List UInt8}
    (hmallard : mallardStrip data = none) (h : nostubStrip data = none) :
    stripHeader .ti73 data = (data, none) := by
  unfold stripHeader
  dsimp only
  rw [if_neg (by decide), if_neg (by decide), if_pos rfl, hmallard, h]
  rfl

/-- The cascade only cuts, so code that lost a header does not come back, not even as the hex
text that the payload of an unsquished nostub program already is. -/
theorem unsquishedHex_ne {model : CalcModel} {code rest : List UInt8} {type : Option UInt8}
    (hcuts : Cuts (unsquishedCode model)) (hstrip : stripHeader model code = (rest, type))
    (hlt : rest.length < code.length) : unsquishedHex model code ≠ hexEncode code := by
  have hle := hcuts.length_le rest
  unfold unsquishedHex
  rw [hstrip]
  intro heq
  have hlen := congrArg List.length heq
  rw [length_hexEncode] at hlen
  split at hlen
  · dsimp only at hlen
    omega
  · rw [length_hexEncode] at hlen
    dsimp only at hlen
    omega

/-- The TI-73. -/
theorem unsquishedHex_ti73 {shell : Shell} {desc code : List UInt8}
    (hshell : acceptShell .ti73 shell = some shell) (hdesc : ∀ b ∈ desc, b ≠ 0) :
    unsquishedHex .ti73 (squishedBody .ti73 shell desc code) = hexEncode code ↔
      Untouched .ti73 shell code := by
  have hcode := unsquishedCode_trailer (show squishUsesTrailer .ti73 = true from rfl)
  have hcuts : Cuts (unsquishedCode .ti73) := by
    intro data
    rw [hcode]
    exact (dropTrailer_cuts .ti73).comp ionStrip_shortens.orKeep data
  cases shell
  case none =>
    have hbody : squishedBody .ti73 .none desc code = code := rfl
    rw [hbody]
    cases hmallard : mallardStrip code with
    | some rest =>
        have hne := unsquishedHex_ne hcuts (stripHeader_ti73_mallard hmallard)
          (mallardStrip_shortens _ _ hmallard)
        simp [Untouched, hmallard, hne]
    | none =>
        cases hnostub : nostubStrip code with
        | some header =>
            have hlen := nostubStrip_length hnostub
            have hne := unsquishedHex_ne hcuts (stripHeader_ti73_nostub hmallard hnostub)
              (by omega)
            simp [Untouched, hnostub, hne]
        | none =>
            rw [unsquishedHex_eq_iff (stripHeader_ti73_none hmallard hnostub), hcode,
              ionTrailer_eq_iff]
            simp [Untouched, squishUsesTrailer, hmallard, hnostub]
  case ti73Mallard =>
    have hheader := mallardStrip_header hdesc (0x9C37 + 2 + 4 + 2 + desc.length + 1) code
    have hbody : squishedBody .ti73 .ti73Mallard desc code = squishedMallardMagic
        ++ [0x44, 0x75, 0x63, 0x6B] ++ putLE 2 (0x9C37 + 2 + 4 + 2 + desc.length + 1)
        ++ (desc ++ 0 :: code) := by
      simp [squishedBody]
    rw [hbody, unsquishedHex_eq_iff (stripHeader_ti73_mallard hheader), hcode, ionTrailer_eq_iff]
    simp [Untouched, squishUsesTrailer]
  case ti73Nostub =>
    have hheader := nostubStrip_header code.length code
    have hmallard : mallardStrip (squishedBody .ti73 .ti73Nostub desc code) = none := by
      unfold mallardStrip
      exact if_neg fun h => nomatch h.2
    have hbody : unsquishedHex .ti73 (squishedBody .ti73 .ti73Nostub desc code)
        = hexEncode (unsquishedCode .ti73 code) := by
      unfold unsquishedHex
      rw [stripHeader_ti73_nostub hmallard hheader]
      rfl
    rw [hbody, hexEncode_inj, hcode, ionTrailer_eq_iff]
    simp [Untouched, squishUsesTrailer]
  all_goals cases hshell

/-- The models of the TI-83+ family. -/
structure Family (model : CalcModel) : Prop where
  ne73 : model ≠ .ti73
  ne82 : model ≠ .ti82
  ne83 : model ≠ .ti83

/-- The marker of a model of the family: two bytes, neither of them a token before a shell's
name. -/
theorem Family.squishedPrefix_eq {model : CalcModel} (h : Family model) :
    ∃ low high, squishedPrefix model = [low, high] ∧ (low, high) ≠ (0xBB, 0x6A) := by
  unfold squishedPrefix
  rw [if_neg (by simp [h.ne73, h.ne83]), if_neg h.ne82]
  split
  · exact ⟨_, _, rfl, by decide⟩
  · split
    · exact ⟨_, _, rfl, by decide⟩
    · exact ⟨_, _, rfl, by decide⟩

theorem Family.stripHeader_marker {model : CalcModel} (h : Family model) (rest : List UInt8) :
    stripHeader model (squishedPrefix model ++ rest) = (rest, none) := by
  obtain ⟨low, high, hprefix, -⟩ := h.squishedPrefix_eq
  unfold stripHeader
  dsimp only
  rw [if_neg h.ne82, if_neg h.ne83, if_neg h.ne73, hprefix, if_pos]
  · rfl
  · exact ⟨by simp, List.isPrefixOf_iff_prefix.mpr (List.prefix_append _ _)⟩

theorem Family.stripHeader_asm {model : CalcModel} (h : Family model) (rest : List UInt8) :
    stripHeader model (0xBB :: 0x6A :: rest) = (0xBB :: 0x6A :: rest, none) := by
  obtain ⟨low, high, hprefix, hne⟩ := h.squishedPrefix_eq
  unfold stripHeader
  dsimp only
  rw [if_neg h.ne82, if_neg h.ne83, if_neg h.ne73, hprefix, if_neg]
  rintro ⟨-, hmarker⟩
  obtain ⟨tail, htail⟩ := List.isPrefixOf_iff_prefix.mp hmarker
  cases htail
  exact hne rfl

/-- The TI-83+ family: what is left after the marker. -/
theorem Family.unsquishedHex_marker {model : CalcModel} (h : Family model)
    (rest code : List UInt8) :
    unsquishedHex model (squishedPrefix model ++ rest) = hexEncode code ↔
      orKeep ionStrip (orKeep ti83pStripShell
        (orKeep tseStrip (orKeep (ti83xStripShell .ti83p) rest))) = code := by
  rw [unsquishedHex_eq_iff (h.stripHeader_marker rest), unsquishedCode_family h.ne73 h.ne82 h.ne83]

/-- A header that begins with `ret` is none of the "Asm prgm" family. -/
theorem ti83xStripShell_ret (rest : List UInt8) : ti83xStripShell .ti83p (0xC9 :: rest) = none := rfl

theorem ti83pStripShell_ion (rest : List UInt8) :
    ti83pStripShell (0xC9 :: 0x30 :: rest) = none := by
  unfold ti83pStripShell
  exact (if_neg fun h => nomatch h.2).trans ((if_neg fun h => nomatch h.2).trans rfl)

/-- The "Asm prgm" shells have no marker before them. -/
theorem Family.unsquishedHex_asm {model : CalcModel} (h : Family model) {shell : Shell}
    (hshell : shell ∈ [Shell.ti83Ion83, .ti83Pse83, .ti83Ice]) (desc code : List UInt8) :
    unsquishedHex model (squishedBody model shell desc code) = hexEncode code ↔
      Untouched model shell code := by
  have hmem : shell ∈ [Shell.ti83Ion83, .ti83Pse83, .ti83Ice, .ti83Sos] := by
    simp only [List.mem_cons, List.not_mem_nil, or_false] at hshell ⊢
    tauto
  have hheader := ti83xStripShell_header hmem .ti83p code
  have hprefix : ti83xPrefix .ti83p = 0xBB :: 0x6A :: [0x5F] := rfl
  have hbody : squishedBody model shell desc code
      = ti83xPrefix .ti83p ++ (ti83xShellName shell).1 ++ (ti83xShellName shell).2 ++ code := by
    have hasm : ti83xPrefix model = ti83xPrefix .ti83p := if_neg h.ne83
    rw [← hasm]
    simp only [List.mem_cons, List.not_mem_nil, or_false] at hshell
    obtain rfl | rfl | rfl := hshell <;> simp [squishedBody, h.ne82]
  have hstrip : stripHeader model (squishedBody model shell desc code)
      = (squishedBody model shell desc code, none) := by
    rw [hbody, hprefix]
    exact h.stripHeader_asm _
  rw [unsquishedHex_eq_iff hstrip, unsquishedCode_family h.ne73 h.ne82 h.ne83, hbody,
    orKeep_some hheader, familyTail_eq_iff]
  simp only [List.mem_cons, List.not_mem_nil, or_false] at hshell
  obtain rfl | rfl | rfl := hshell <;> simp [Untouched, h.ne82, h.ne83, h.ne73]

/-- The TI-83+ family. -/
theorem Family.unsquishedHex_iff {model : CalcModel} (h : Family model) {shell : Shell}
    {desc code : List UInt8} (hshell : acceptShell model shell = some shell)
    (hdesc : ∀ b ∈ desc, b ≠ 0) (hfits : HeaderFits model shell desc code) :
    unsquishedHex model (squishedBody model shell desc code) = hexEncode code ↔
      Untouched model shell code := by
  have hmarker := h.unsquishedHex_marker
  have h82 := h.ne82
  have h83 := h.ne83
  have h73 := h.ne73
  have hplain : model = .ti83p ∨ model = .ti84p → squishedPrefix model = squishedPrefix83p := by
    rintro (rfl | rfl) <;> rfl
  cases shell
  case none =>
    have hbody : squishedBody model .none desc code = squishedPrefix model ++ code := by
      simp [squishedBody, h82]
    have htail := (ionStrip_shortens.orKeep.comp
      (ti83pStripShell_shortens.orKeep.comp tseStrip_shortens.orKeep)).comp_eq_iff
      (ti83xStripShell_shortens .ti83p).orKeep code
    rw [hbody, hmarker, htail, (ti83xStripShell_shortens .ti83p).orKeep_eq_iff, familyTail_eq_iff]
    simp [Untouched, h82, h83, h73]
  case ti83Ion =>
    have hheader := ionStrip_header hdesc (hfits.descLength (.inl rfl)) code
    have hbody : squishedBody model .ti83Ion desc code = squishedPrefix model
        ++ (0xC9 :: 0x30 :: UInt8.ofNat (desc.length + 1) :: (desc ++ 0 :: code)) := by
      simp [squishedBody, h82]
    have htse : tseStrip (0xC9 :: 0x30 :: UInt8.ofNat (desc.length + 1) :: (desc ++ 0 :: code))
        = none := if_neg fun h => nomatch h.2
    rw [hbody, hmarker, orKeep_none (ti83xStripShell_ret _), orKeep_none htse,
      orKeep_none (ti83pStripShell_ion _), orKeep_some hheader]
    simp [Untouched, h82, h83, h73]
  case ti83pTse =>
    have hheader := tseStrip_header hdesc code
    have hbody : squishedBody model .ti83pTse desc code = squishedPrefix model
        ++ (squishedTseMagic ++ (0x20 :: desc ++ 0 :: 0 :: 0 :: code)) := by
      rw [hplain (hfits.marker (.inl rfl))]
      simp [squishedBody, h82]
    have hret : ti83xStripShell .ti83p (squishedTseMagic ++ (0x20 :: desc ++ 0 :: 0 :: 0 :: code))
        = none := rfl
    have htail := ionStrip_shortens.orKeep.comp_eq_iff ti83pStripShell_shortens.orKeep code
    rw [hbody, hmarker, orKeep_none hret, orKeep_some hheader, htail,
      ti83pStripShell_shortens.orKeep_eq_iff, ionStrip_shortens.orKeep_eq_iff]
    simp [Untouched, h82, h83, h73]
  case ti83pMirage =>
    have hheader := ti83pStripShell_header hdesc (hfits.notEmpty rfl)
    have hbody : squishedBody model .ti83pMirage desc code = squishedPrefix model
        ++ (squishedMirageMagic ++ List.replicate squishedMirageIconlen 0x00
          ++ (desc ++ 0 :: code)) := by
      rw [hplain (hfits.marker (.inr rfl))]
      simp [squishedBody, h82]
    have hret : ti83xStripShell .ti83p (squishedMirageMagic
        ++ List.replicate squishedMirageIconlen 0x00 ++ (desc ++ 0 :: code)) = none := rfl
    have htse : tseStrip (squishedMirageMagic
        ++ List.replicate squishedMirageIconlen 0x00 ++ (desc ++ 0 :: code)) = none :=
      if_neg fun h => nomatch h.2
    rw [hbody, hmarker, orKeep_none hret, orKeep_none htse, orKeep_some hheader,
      ionStrip_shortens.orKeep_eq_iff]
    simp [Untouched, h82, h83, h73]
  case ti83Ion83 | ti83Pse83 | ti83Ice => exact h.unsquishedHex_asm (by decide) desc code
  all_goals simp [acceptShell, h82, h83, h73] at hshell

/-! ## the round trip -/

/-- The entry with `body` behind its length field. -/
def programEntry (ve : VarEntry) (type : UInt8) (body : List UInt8) : VarEntry :=
  { ve with
    type := type
    size := UInt32.ofNat (lengthed body).length
    data := some (lengthed body) }

/-- What `squish` checked and wrote. -/
theorem tifileutilSquish_some {model : CalcModel} {shell : Shell} {longname : Option (List UInt8)}
    {ve out : VarEntry} {code : List UInt8} (hsource : HexSource model ve code)
    (h : tifileutilSquish model shell longname ve = some out) :
    squishModelSupported model = true ∧ ∃ accepted body, acceptShell model shell = some accepted
      ∧ body = squishedBody model accepted (longname.getD ve.name.chars) code
      ∧ fitsFile model (lengthed body).length = true ∧ out = programEntry ve 0x06 body := by
  unfold tifileutilSquish at h
  rw [guard_bind_eq_some_iff] at h
  obtain ⟨hsupp, h⟩ := h
  obtain ⟨accepted, haccept, h⟩ := Option.bind_eq_some_iff.mp h
  rw [guard_bind_eq_some_iff, guard_bind_eq_some_iff] at h
  obtain ⟨-, -, h⟩ := h
  obtain ⟨text, htext, h⟩ := Option.bind_eq_some_iff.mp h
  obtain ⟨code', hcode, h⟩ := Option.bind_eq_some_iff.mp h
  have hdecode := hsource.decode
  rw [htext, Option.bind_some, hcode] at hdecode
  cases hdecode
  rw [guard_bind_eq_some_iff, guard_bind_eq_some_iff] at h
  obtain ⟨-, hfits, h⟩ := h
  cases h
  exact ⟨hsupp, accepted, _, haccept, rfl, hfits, rfl⟩

/-- `unsquish` of a program entry. -/
theorem tifileutilUnsquish_programEntry {model : CalcModel} {body : List UInt8} (ve : VarEntry)
    (hsupp : squishModelSupported model = true) (hbody : body.length < 2 ^ 16) :
    tifileutilUnsquish model (programEntry ve 0x06 body) =
      (do guard (fitsFile model (lengthed (unsquishedHex model body
            ++ if squishUsesTrailer model then squishTrailer else [])).length)
          return programEntry ve 0x05 (unsquishedHex model body
            ++ if squishUsesTrailer model then squishTrailer else [])) := by
  unfold tifileutilUnsquish
  have hdata : ((programEntry ve 0x06 body).data.getD []).take (programEntry ve 0x06 body).size.toNat
      = lengthed body := take_lengthed rfl hbody
  rw [hdata, skipLength_lengthed hbody, hsupp]
  rfl

/-- The program as upper-case hex text, with its trailer. -/
def hexProgram (model : CalcModel) (code : List UInt8) : List UInt8 :=
  hexEncode code ++ if squishUsesTrailer model then squishTrailer else []

/-- The TI-82 has a shell in any case; the other models take the one that is asked for. -/
theorem acceptShell_ti82 {shell accepted : Shell} (h : acceptShell .ti82 shell = some accepted) :
    accepted ∈ [Shell.ti82Crash, .ti82Ace, .ti82Ash, .ti82Sng] := by
  cases shell <;> cases h <;> decide

theorem acceptShell_eq {model : CalcModel} {shell accepted : Shell} (hmodel : model ≠ .ti82)
    (h : acceptShell model shell = some accepted) : accepted = shell := by
  unfold acceptShell at h
  rw [if_neg hmodel] at h
  repeat' split at h
  all_goals cases h
  all_goals rfl

/-- The hex text of the code comes back exactly when no stripper takes anything from it. -/
theorem unsquishedHex_squishedBody {model : CalcModel} {shell accepted : Shell}
    {desc code : List UInt8} (haccept : acceptShell model shell = some accepted)
    (hdesc : ∀ b ∈ desc, b ≠ 0) (hfits : HeaderFits model shell desc code) :
    unsquishedHex model (squishedBody model accepted desc code) = hexEncode code ↔
      Untouched model shell code := by
  by_cases h82 : model = .ti82
  · cases h82
    have huntouched : Untouched .ti82 shell code := trivial
    exact iff_of_true (unsquishedHex_ti82 code (acceptShell_ti82 haccept) hdesc) huntouched
  · cases acceptShell_eq h82 haccept
    by_cases h83 : model = .ti83
    · cases h83
      exact unsquishedHex_ti83 haccept hdesc hfits
    · by_cases h73 : model = .ti73
      · cases h73
        exact unsquishedHex_ti73 haccept hdesc
      · have hfamily : Family model := ⟨h73, h82, h83⟩
        exact hfamily.unsquishedHex_iff haccept hdesc hfits

/-- A program that `squish` made comes back as the upper-case hex text of its code exactly
when that fits a file and no stripper takes anything from the code. -/
theorem tifileutilUnsquish_squish_iff {model : CalcModel} {shell : Shell}
    {longname : Option (List UInt8)} {ve out : VarEntry} {code : List UInt8}
    (hsource : HexSource model ve code) (hlong : ∀ l ∈ longname, ∀ b ∈ l, b ≠ 0)
    (hfits : HeaderFits model shell (longname.getD ve.name.chars) code)
    (hsquish : tifileutilSquish model shell longname ve = some out) :
    tifileutilUnsquish model out = some (programEntry ve 0x05 (hexProgram model code)) ↔
      fitsFile model (lengthed (hexProgram model code)).length = true
        ∧ Untouched model shell code := by
  obtain ⟨hsupp, accepted, body, haccept, hbody, hfile, hout⟩ := tifileutilSquish_some hsource hsquish
  have hdesc : ∀ b ∈ longname.getD ve.name.chars, b ≠ 0 := by
    cases longname with
    | none => exact ve.name.noNul
    | some l => exact hlong l rfl
  have hlen : body.length < 2 ^ 16 := by
    have hsize := length_lengthed body
    unfold fitsFile at hfile
    rw [decide_eq_true_eq, hsize] at hfile
    omega
  have hhex : unsquishedHex model body = hexEncode code ↔ Untouched model shell code := by
    rw [hbody]
    exact unsquishedHex_squishedBody haccept hdesc hfits
  rw [hout, tifileutilUnsquish_programEntry ve hsupp hlen, guard_bind_eq_some_iff]
  constructor
  · rintro ⟨hfile', h⟩
    have hdata : lengthed _ = lengthed _ := Option.some.inj (congrArg VarEntry.data (Option.some.inj h))
    have heq := List.append_cancel_right (lengthed_inj hdata)
    rw [heq] at hfile'
    exact ⟨hfile', hhex.mp heq⟩
  · rintro ⟨hfile', huntouched⟩
    rw [hhex.mpr huntouched]
    exact ⟨hfile', rfl⟩

/-- A program of three bytes as hex text, without a name. -/
def sampleProgram : VarEntry := programEntry tifilesVeCreate 0x05 [0x30, 0x30, 0x30, 0x31, 0x63, 0x39]

theorem sampleProgram_source (model : CalcModel) :
    HexSource model sampleProgram [0x00, 0x01, 0xC9] :=
  ⟨[0x30, 0x30, 0x30, 0x31, 0x63, 0x39], [], by decide, .inl rfl, by decide, rfl, rfl⟩

/-- The program behind an Ion header of the TI-83+. -/
theorem tifileutilUnsquish_squish_iff_ion :
    tifileutilUnsquish .ti83p (programEntry tifilesVeCreate 0x06
        [0xBB, 0x6D, 0xC9, 0x30, 0x03, 0x48, 0x69, 0x00, 0x00, 0x01, 0xC9])
      = some (programEntry tifilesVeCreate 0x05 [0x30, 0x30, 0x30, 0x31, 0x43, 0x39]) := by
  have hfits : HeaderFits .ti83p .ti83Ion [0x48, 0x69] [0x00, 0x01, 0xC9] :=
    ⟨fun _ => by decide, nofun, nofun, nofun⟩
  have hsquish : tifileutilSquish .ti83p .ti83Ion (some [0x48, 0x69]) sampleProgram
      = some (programEntry tifilesVeCreate 0x06
        [0xBB, 0x6D, 0xC9, 0x30, 0x03, 0x48, 0x69, 0x00, 0x00, 0x01, 0xC9]) := by
    decide
  exact (tifileutilUnsquish_squish_iff (sampleProgram_source .ti83p) (by simp) hfits hsquish).mpr
    ⟨by decide, by simp [Untouched]⟩

/-- Every program that `squish` makes comes back as the hex text of its code. -/
def AllUnsquish : Prop :=
  ∀ model shell longname ve code out, HexSource model ve code →
    (∀ l ∈ longname, ∀ b ∈ l, b ≠ 0) → tifileutilSquish model shell longname ve = some out →
    tifileutilUnsquish model out = some (programEntry ve 0x05 (hexProgram model code))

/-- A TI-83 program without a shell loses the first bytes that are an SOS module header. -/
theorem not_allUnsquish : ¬ AllUnsquish := by
  intro h
  have hsample := h .ti83 .none none sampleProgram _ _ (sampleProgram_source .ti83) nofun rfl
  have hlost : tifileutilUnsquish .ti83 (programEntry sampleProgram 0x06 [0x00, 0x01, 0xC9])
      = some (programEntry sampleProgram 0x05 (hexProgram .ti83 [0xC9])) := rfl
  have hdata := congrArg VarEntry.data (Option.some.inj (hlost.symm.trans hsample))
  exact absurd (lengthed_inj (Option.some.inj hdata)) (by decide)

end Tilibs.Tifileutil
