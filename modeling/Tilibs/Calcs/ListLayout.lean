import Mathlib
import Tilibs.Calcs.LabEquipmentList

/-!
# Tilibs.Calcs.ListLayout

Raw lists of 9-byte reals as lists of 10-byte reals, and the other way round.

Each real is decoded and encoded again.  The size of the new list is kept in 16 bits, which
the 9-byte lists fill up to 7281 reals; 10-byte lists of more than 6553 reals do not fit.
-/

namespace Tilibs.Calcs

open Lib

/-! ## the conversion -/

/-- The bytes of a value. -/
def TiRealValue.encode (is8586 : Bool) (value : TiRealValue) : List UInt8 :=
  tixxEncodeTiRealDigits value.negative value.digits.val value.exp10 is8586

/-- The loop that decodes and encodes the reals. -/
def convertReals (src dst : Bool) : Nat → List UInt8 → Except LabErr (List UInt8)
  | 0, _ => .ok []
  | n + 1, bs => do
      let value ← tixxDecodeTiRealDigits bs src
      if value.exp10 > 999 ∨ value.exp10 < -999
          ∨ (dst = false ∧ (value.exp10 > 99 ∨ value.exp10 < -99)) then
        .error .outOfRange
      else do
        let reals ← convertReals src dst n (bs.drop (realSize src))
        return value.encode dst ++ reals

/-- `ticalcs_convert_lab_equipment_data_raw_list_layout`; `outType` is the type that is preset
in `out_data`. -/
def ticalcsConvertLabEquipmentDataRawListLayout (lab : CalcLabEquipmentData)
    (outType : LabDataType) : Except LabErr CalcLabEquipmentData :=
  let src : Bool := lab.type = .ti8586RawList
  let dst : Bool := outType = .ti8586RawList
  if lab.type ≠ .tiz80RawList ∧ lab.type ≠ .ti8586RawList
      ∨ outType ≠ .tiz80RawList ∧ outType ≠ .ti8586RawList ∨ outType = lab.type then
    .error .invalidParameter
  else
    match lab.data with
    | none => .error .invalidParameter
    | some data =>
        let items := getLE (data.take 2)
        if lab.size < 2 then .error .invalidParameter
        else if items ≠ lab.items.toNat ∨ lab.size.toNat ≠ 2 + items * realSize src then
          .error .invalidPacket
        else do
          let reals ← convertReals src dst items (data.drop 2)
          return {
            type := outType
            size := UInt16.ofNat (2 + items * realSize dst)
            items := UInt16.ofNat items
            data := some (putLE 2 items ++ reals)
            vartype := if dst then 0x04 else 0x01 }

/-! ## what it is to do -/

/-- The exponent of a real has a place in the format; that of a zero mantissa does not count. -/
def FitsReal (src dst : Bool) (real : List UInt8) : Prop :=
  unpackBcd (mantissaBytes src real) = zeroDigits
    ∨ -expLimit dst ≤ realExp src real ∧ realExp src real ≤ expLimit dst

/-- A raw list of a format, with its reals. -/
structure RawListOf (is8586 : Bool) (lab : CalcLabEquipmentData) (reals : List (List UInt8)) :
    Prop where
  list : IsRawList is8586 lab reals
  reals : ∀ real ∈ reals, real.length = realSize is8586

/-- The conversion to the other format: it fails only for an exponent that has no place in the
9-byte format; else it gives a raw list with the same values and the same string; and reals
that a calculator stores come back from the 10-byte format. -/
structure ConvertsLayout (src : Bool) (lab : CalcLabEquipmentData) (reals : List (List UInt8)) :
    Prop where
  fails_iff : (∃ e, ticalcsConvertLabEquipmentDataRawListLayout lab (rawListType !src) = .error e)
    ↔ src = true ∧ ∃ real ∈ reals, ¬FitsReal src false real
  converts : ∀ out, ticalcsConvertLabEquipmentDataRawListLayout lab (rawListType !src) = .ok out →
    ∃ reals', RawListOf (!src) out reals'
      ∧ decodeReals (!src) reals'.length reals'.flatten
        = decodeReals src reals.length reals.flatten
      ∧ ∃ string, tixxZ80ishRawListToStringImpl out (!src) = .ok (reals.length, string)
        ∧ tixxZ80ishRawListToStringImpl lab src = .ok (reals.length, string)
  back : src = false → (∀ real ∈ reals, CanonicalReal src real) → ∃ out back,
    ticalcsConvertLabEquipmentDataRawListLayout lab .ti8586RawList = .ok out
      ∧ ticalcsConvertLabEquipmentDataRawListLayout out .tiz80RawList = .ok back
      ∧ back.data = lab.data ∧ back.type = lab.type ∧ back.size = lab.size
      ∧ back.items = lab.items

/-! ## one real -/

theorem expLimit_le (is8586 : Bool) : expLimit is8586 ≤ 999 ∧ 99 ≤ expLimit is8586 := by
  cases is8586 <;> decide

/-- A real that fits has a value with an exponent of the format. -/
theorem decode_of_fits {src dst : Bool} {real : List UInt8} (h : FitsReal src dst real) :
    ∃ value, tixxDecodeTiRealDigits real src = .ok value
      ∧ -expLimit dst ≤ value.exp10 ∧ value.exp10 ≤ expLimit dst := by
  obtain ⟨hhigh, hlow⟩ := expLimit_le dst
  unfold tixxDecodeTiRealDigits
  dsimp only
  by_cases hzero : unpackBcd (mantissaBytes src real) = zeroDigits
  · rw [if_pos hzero]
    refine ⟨_, rfl, ?_, ?_⟩
    · show -expLimit dst ≤ 0
      omega
    · show 0 ≤ expLimit dst
      omega
  · have hexp := h.resolve_left hzero
    rw [if_neg hzero, if_neg (by omega)]
    exact ⟨_, rfl, hexp⟩

/-- A real that does not fit has no value, or one with another exponent. -/
theorem decode_of_not_fits {src dst : Bool} {real : List UInt8} (h : ¬FitsReal src dst real) :
    (∃ e, tixxDecodeTiRealDigits real src = .error e) ∨ ∃ value,
      tixxDecodeTiRealDigits real src = .ok value
        ∧ (value.exp10 > expLimit dst ∨ value.exp10 < -expLimit dst) := by
  unfold FitsReal at h
  rw [not_or] at h
  unfold tixxDecodeTiRealDigits
  dsimp only
  rw [if_neg h.1]
  split
  · exact Or.inl ⟨_, rfl⟩
  · refine Or.inr ⟨_, rfl, ?_⟩
    show realExp src real > _ ∨ realExp src real < _
    omega

theorem rangeCheck_iff (dst : Bool) (exp10 : Int) :
    (exp10 > 999 ∨ exp10 < -999 ∨ (dst = false ∧ (exp10 > 99 ∨ exp10 < -99)))
      ↔ exp10 > expLimit dst ∨ exp10 < -expLimit dst := by
  cases dst with
  | false =>
      show _ ↔ exp10 > 99 ∨ exp10 < -99
      simp only [true_and]
      omega
  | true =>
      show _ ↔ exp10 > 999 ∨ exp10 < -999
      simp only [Bool.true_eq_false, false_and, or_false]

/-- The value that a real is decoded to is what its bytes in the other format are decoded to. -/
theorem decode_encode {src dst : Bool} {real : List UInt8} {value : TiRealValue}
    (hdecode : tixxDecodeTiRealDigits real src = .ok value)
    (hexp : -expLimit dst ≤ value.exp10 ∧ value.exp10 ≤ expLimit dst) :
    (value.encode dst).length = realSize dst
      ∧ tixxDecodeTiRealDigits (value.encode dst) dst = .ok value := by
  have hmantissa : value.digits.val = unpackBcd (mantissaBytes src real)
      ∧ (value.digits.val = zeroDigits → value.negative = false ∧ value.exp10 = 0) := by
    unfold tixxDecodeTiRealDigits at hdecode
    dsimp only at hdecode
    split at hdecode
    · cases hdecode
      exact ⟨rfl, fun _ => ⟨rfl, rfl⟩⟩
    · rename_i hzero
      split at hdecode
      · cases hdecode
      · cases hdecode
        exact ⟨rfl, fun h => absurd h hzero⟩
  obtain ⟨hdigits, hzero⟩ := hmantissa
  have hseven : (mantissaBytes src real).length = 7 := by simp [mantissaBytes]
  have hpack : packBcd value.digits.val = mantissaBytes src real := by
    rw [hdigits, packBcd_unpackBcd]
  have hmant : mantissaBytes dst (value.encode dst) = mantissaBytes src real := by
    rw [← hpack]
    refine mantissaBytes_append (_ :: expField dst value.exp10) ?_ (by rw [hpack, hseven])
    rw [List.length_cons, length_expField]
    cases dst <;> rfl
  have hrealExp : realExp dst (value.encode dst) = value.exp10 := realExp_expField hexp _ _
  have hhead : (value.encode dst).headI = if value.negative then 0x80 else 0x00 := rfl
  have hsign : (decide ((value.encode dst).headI &&& 0x80 ≠ 0)) = value.negative := by
    rw [hhead]
    cases value.negative <;> rfl
  have hbound : ¬(value.exp10 > 999 ∨ value.exp10 < -999) := by
    have hlimit := expLimit_le dst
    omega
  constructor
  · show (_ :: (expField dst value.exp10 ++ packBcd value.digits.val)).length = _
    rw [List.length_cons, List.length_append, length_expField, hpack, hseven]
    cases dst <;> rfl
  · unfold tixxDecodeTiRealDigits
    simp only [hmant, ← hdigits, hrealExp, if_neg hbound, hsign]
    split
    · rename_i hzeroDigits
      obtain ⟨hneg, hexp10⟩ := hzero hzeroDigits
      rw [← hneg, ← hexp10]
    · rfl

/-! ## the loop -/

theorem drop_real {is8586 : Bool} {real : List UInt8} (h : real.length = realSize is8586)
    (rest : List UInt8) : (real ++ rest).drop (realSize is8586) = rest :=
  List.drop_left' h

theorem decodeReals_cons {is8586 : Bool} {real : List UInt8} (h : real.length = realSize is8586)
    (n : Nat) (rest : List UInt8) :
    decodeReals is8586 (n + 1) (real ++ rest) = (do
      let value ← tixxDecodeTiRealDigits real is8586
      let values ← decodeReals is8586 n rest
      return value :: values) := by
  rw [decodeReals, tixxDecodeTiRealDigits_append h, drop_real h]

theorem convertReals_cons {src dst : Bool} {real : List UInt8} (h : real.length = realSize src)
    (n : Nat) (rest : List UInt8) :
    convertReals src dst (n + 1) (real ++ rest) = (do
      let value ← tixxDecodeTiRealDigits real src
      if value.exp10 > expLimit dst ∨ value.exp10 < -expLimit dst then .error .outOfRange
      else do
        let reals ← convertReals src dst n rest
        return value.encode dst ++ reals) := by
  rw [convertReals, tixxDecodeTiRealDigits_append h, drop_real h]
  congr 1
  funext value
  simp only [rangeCheck_iff]

/-- Reals that all fit are converted one by one. -/
theorem convertReals_of_fits {src dst : Bool} {reals : List (List UInt8)}
    (hlen : ∀ real ∈ reals, real.length = realSize src)
    (hfits : ∀ real ∈ reals, FitsReal src dst real) :
    ∃ values, decodeReals src reals.length reals.flatten = .ok values
      ∧ values.length = reals.length
      ∧ convertReals src dst reals.length reals.flatten
        = .ok ((values.map (TiRealValue.encode dst)).flatten)
      ∧ (∀ value ∈ values, (value.encode dst).length = realSize dst
        ∧ tixxDecodeTiRealDigits (value.encode dst) dst = .ok value) := by
  induction reals with
  | nil => exact ⟨[], rfl, rfl, rfl, by simp⟩
  | cons real reals ih =>
      obtain ⟨hone, hmore⟩ := List.forall_mem_cons.mp hlen
      obtain ⟨hfit, hrest⟩ := List.forall_mem_cons.mp hfits
      obtain ⟨values, hdecode, hlength, hconvert, hvalues⟩ := ih hmore hrest
      obtain ⟨value, hvalue, hexp⟩ := decode_of_fits hfit
      have hrange : ¬(value.exp10 > expLimit dst ∨ value.exp10 < -expLimit dst) := by omega
      refine ⟨value :: values, ?_, ?_, ?_,
        List.forall_mem_cons.mpr ⟨decode_encode hvalue hexp, hvalues⟩⟩
      · rw [List.length_cons, List.flatten_cons, decodeReals_cons hone, hvalue, hdecode]
        rfl
      · rw [List.length_cons, List.length_cons, hlength]
      · rw [List.length_cons, List.flatten_cons, convertReals_cons hone, hvalue, hconvert]
        exact if_neg hrange

/-- One that does not fit is an error. -/
theorem convertReals_of_not_fits {src dst : Bool} {reals : List (List UInt8)}
    (hlen : ∀ real ∈ reals, real.length = realSize src)
    (hfits : ∃ real ∈ reals, ¬FitsReal src dst real) :
    ∃ e, convertReals src dst reals.length reals.flatten = .error e := by
  induction reals with
  | nil =>
      obtain ⟨real, hreal, -⟩ := hfits
      cases hreal
  | cons real reals ih =>
      obtain ⟨hone, hmore⟩ := List.forall_mem_cons.mp hlen
      rw [List.length_cons, List.flatten_cons, convertReals_cons hone]
      by_cases hfit : FitsReal src dst real
      · have hrest : ∃ real ∈ reals, ¬FitsReal src dst real := by
          obtain ⟨real', hreal', hnot⟩ := hfits
          cases List.mem_cons.mp hreal' with
          | inl heq => exact absurd (heq ▸ hfit) hnot
          | inr hmem => exact ⟨real', hmem, hnot⟩
        obtain ⟨value, hvalue, hexp⟩ := decode_of_fits hfit
        have hrange : ¬(value.exp10 > expLimit dst ∨ value.exp10 < -expLimit dst) := by omega
        obtain ⟨e, he⟩ := ih hmore hrest
        rw [hvalue, he]
        exact ⟨e, if_neg hrange⟩
      · cases decode_of_not_fits hfit with
        | inl herror =>
            obtain ⟨e, he⟩ := herror
            rw [he]
            exact ⟨e, rfl⟩
        | inr hvalue =>
            obtain ⟨value, hvalue, hexp⟩ := hvalue
            rw [hvalue]
            exact ⟨.outOfRange, if_pos hexp⟩

/-- Values come back from their bytes. -/
theorem decodeReals_encode {dst : Bool} {values : List TiRealValue}
    (h : ∀ value ∈ values, (value.encode dst).length = realSize dst
      ∧ tixxDecodeTiRealDigits (value.encode dst) dst = .ok value) :
    decodeReals dst values.length (values.map (TiRealValue.encode dst)).flatten = .ok values := by
  induction values with
  | nil => rfl
  | cons value values ih =>
      obtain ⟨⟨hlen, hdecode⟩, hrest⟩ := List.forall_mem_cons.mp h
      rw [List.length_cons, List.map_cons, List.flatten_cons, decodeReals_cons hlen, hdecode,
        ih hrest]
      rfl

/-! ## the list -/

section List

variable {src : Bool} {lab : CalcLabEquipmentData} {reals : List (List UInt8)}

/-- The checks pass, and the loop goes over the reals. -/
theorem convert_eq (h : RawListOf src lab reals) :
    ticalcsConvertLabEquipmentDataRawListLayout lab (rawListType !src)
      = (convertReals src (!src) reals.length reals.flatten).map fun new => {
          type := rawListType !src
          size := UInt16.ofNat (2 + reals.length * realSize (!src))
          items := UInt16.ofNat reals.length
          data := some (putLE 2 reals.length ++ new)
          vartype := if !src then 0x04 else 0x01 } := by
  obtain ⟨htype, hdata, hitems, hsize⟩ := h.list
  have hsrc : decide (lab.type = .ti8586RawList) = src := by
    rw [htype]
    cases src <;> rfl
  have hdst : decide (rawListType (!src) = .ti8586RawList) = !src := by
    cases src <;> rfl
  have htypes : ¬(lab.type ≠ .tiz80RawList ∧ lab.type ≠ .ti8586RawList
      ∨ rawListType (!src) ≠ .tiz80RawList ∧ rawListType (!src) ≠ .ti8586RawList
      ∨ rawListType (!src) = lab.type) := by
    rw [htype]
    cases src <;> decide
  obtain ⟨hfirst, hrest, hsmall⟩ := h.list.header
  unfold ticalcsConvertLabEquipmentDataRawListLayout
  simp only [hsrc, hdst]
  rw [if_neg htypes, hdata]
  dsimp only
  rw [hfirst, hrest, if_neg hsmall, if_neg (by rw [hitems, hsize]; simp)]
  cases convertReals src (!src) reals.length reals.flatten <;> rfl

/-- The list that the conversion makes, when its size fits. -/
theorem convert_of_fits (h : RawListOf src lab reals)
    (hfits : ∀ real ∈ reals, FitsReal src (!src) real)
    (hsize : 2 + reals.length * realSize (!src) < 2 ^ 16) :
    ∃ values out, decodeReals src reals.length reals.flatten = .ok values
      ∧ ticalcsConvertLabEquipmentDataRawListLayout lab (rawListType !src) = .ok out
      ∧ (∀ value ∈ values, tixxDecodeTiRealDigits (value.encode (!src)) (!src) = .ok value)
      ∧ RawListOf (!src) out (values.map (TiRealValue.encode (!src)))
      ∧ values.length = reals.length := by
  obtain ⟨values, hdecode, hlen, hconvert, hvalues⟩ := convertReals_of_fits h.reals hfits
  have hlt := lab.items.toNat_lt
  have hcount := h.list.items
  refine ⟨values, _, hdecode, by rw [convert_eq h, hconvert]; rfl,
    fun value hvalue => (hvalues value hvalue).2, ⟨⟨rfl, ?_, ?_, ?_⟩, ?_⟩, hlen⟩
  · rw [List.length_map, hlen]
  · rw [List.length_map, hlen]
    have hfew : reals.length < 2 ^ 16 := by omega
    exact UInt16.toNat_ofNat_of_lt' hfew
  · rw [List.length_map, hlen]
    exact UInt16.toNat_ofNat_of_lt' hsize
  · intro real hreal
    obtain ⟨value, hvalue, rfl⟩ := List.mem_map.mp hreal
    exact (hvalues value hvalue).1

theorem convert_of_not_fits (h : RawListOf src lab reals)
    (hfits : ¬∀ real ∈ reals, FitsReal src (!src) real) :
    ∃ e, ticalcsConvertLabEquipmentDataRawListLayout lab (rawListType !src) = .error e := by
  have hsome : ∃ real ∈ reals, ¬FitsReal src (!src) real := by
    simpa only [not_forall, exists_prop] using hfits
  obtain ⟨e, he⟩ := convertReals_of_not_fits h.reals hsome
  exact ⟨e, by rw [convert_eq h, he]; rfl⟩

/-- An exponent of one byte has a place in two. -/
theorem fitsReal_wide (real : List UInt8) : FitsReal false true real := by
  have hbyte := (real.getD 1 0).toNat_lt
  refine Or.inr ?_
  show -999 ≤ ((real.getD 1 0).toNat : Int) - 0x80 ∧ ((real.getD 1 0).toNat : Int) - 0x80 ≤ 999
  omega

theorem fitsReal_of_decode {dst : Bool} {real : List UInt8} {value : TiRealValue}
    (h : tixxDecodeTiRealDigits real src = .ok value)
    (hexp : -expLimit dst ≤ value.exp10 ∧ value.exp10 ≤ expLimit dst) : FitsReal src dst real := by
  unfold tixxDecodeTiRealDigits at h
  dsimp only at h
  split at h
  · rename_i hzero
    exact Or.inl hzero
  · split at h
    · cases h
    · cases h
      exact Or.inr hexp

/-- The reals of a calculator come back from the 10-byte format. -/
theorem convert_back (h : RawListOf false lab reals) (hsize : 2 + reals.length * 10 < 2 ^ 16)
    (hcanon : ∀ real ∈ reals, CanonicalReal false real) :
    ∃ out back, ticalcsConvertLabEquipmentDataRawListLayout lab .ti8586RawList = .ok out
      ∧ ticalcsConvertLabEquipmentDataRawListLayout out .tiz80RawList = .ok back
      ∧ back.data = lab.data ∧ back.type = lab.type ∧ back.size = lab.size
      ∧ back.items = lab.items := by
  obtain ⟨values, out, hdecode, hout, hvalues, hlist, hlen⟩ :=
    convert_of_fits h (fun real _ => fitsReal_wide real) hsize
  obtain ⟨values', hdecode', -, hcanonical, hencode⟩ := decodeReals_canonical hcanon
  cases hdecode.symm.trans hdecode'
  have hfits : ∀ real ∈ values.map (TiRealValue.encode true), FitsReal true false real := by
    intro real hreal
    obtain ⟨value, hvalue, rfl⟩ := List.mem_map.mp hreal
    exact fitsReal_of_decode (hvalues value hvalue) (hcanonical value hvalue).exp
  have hnine : 2 + (values.map (TiRealValue.encode true)).length * 9 < 2 ^ 16 := by
    rw [List.length_map, hlen]
    omega
  obtain ⟨values', back, hdecode', hback, -, hlist', -⟩ := convert_of_fits hlist hfits hnine
  have hpairs : ∀ value ∈ values, (TiRealValue.encode true value).length = realSize true
      ∧ tixxDecodeTiRealDigits (value.encode true) true = .ok value := fun value hvalue =>
    ⟨hlist.reals _ (List.mem_map_of_mem hvalue), hvalues value hvalue⟩
  rw [List.length_map, Bool.not_false, decodeReals_encode hpairs] at hdecode'
  cases hdecode'
  have hsame : (values.map (TiRealValue.encode false)).flatten = reals.flatten := by
    rw [← hencode, List.flatMap_def]
    rfl
  have hback' := hlist'.list
  refine ⟨out, back, hout, hback, ?_, ?_, ?_, ?_⟩
  · rw [hback'.data, h.list.data, List.length_map, hlen]
    exact congrArg (fun new => some (putLE 2 reals.length ++ new)) hsame
  · rw [hback'.type, h.list.type]
    rfl
  · rw [← UInt16.toNat_inj, hback'.size, h.list.size, List.length_map, hlen]
    rfl
  · rw [← UInt16.toNat_inj, hback'.items, h.list.items, List.length_map, hlen]

/-- A new list whose size is right has as many reals as its size lets it have. -/
theorem few_of_convertsLayout (h : RawListOf false lab reals)
    (hconverts : ConvertsLayout false lab reals) : reals.length ≤ 6553 := by
  have hlt := lab.items.toNat_lt
  have hitems := h.list.items
  obtain ⟨values, -, hlen, hconvert, -⟩ := convertReals_of_fits  h.reals
    fun real _ => fitsReal_wide real
  obtain ⟨reals', hlist, -⟩ := hconverts.converts _ (by
    rw [convert_eq h, Bool.not_false, hconvert]
    rfl)
  have hcount : (UInt16.ofNat reals.length).toNat = reals'.length := hlist.list.items
  have hsize : (UInt16.ofNat (2 + reals.length * 10)).toNat = 2 + reals'.length * 10 :=
    hlist.list.size
  have hbound := (UInt16.ofNat (2 + reals.length * 10)).toNat_lt
  have hfew : reals.length < 2 ^ 16 := by omega
  rw [UInt16.toNat_ofNat_of_lt' hfew] at hcount
  omega

end List

/-- 6554 zeros: one more than a list of 10-byte reals may have. -/
def manyZeros : List (List UInt8) := List.replicate 6554 (canonicalZero false)

/-- Their list; its size is 58988. -/
def manyZerosList : CalcLabEquipmentData where
  type := .tiz80RawList
  size := 58988
  items := 6554
  data := some (putLE 2 6554 ++ manyZeros.flatten)
  vartype := 0x01

end Tilibs.Calcs
