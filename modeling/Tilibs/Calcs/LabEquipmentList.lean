import Mathlib
import Tilibs.Calcs.TiReal
import Tilibs.Calcs.TiRealText

/-!
# Tilibs.Calcs.LabEquipmentList

Lists of lab equipment data: raw lists of reals and `{v1,v2,...}` strings, as
`calclabequipmentdata.cc` converts them for the TI-Z80 and TI-85/86 models.

A state machine goes over the string first; it counts the numbers and puts spaces
where the separators were.  The numbers are then parsed one after the other.
-/

namespace Tilibs.Calcs

open Lib

/-- `CalcLabEquipmentDataType` -/
inductive LabDataType
  | none
  | string
  | raw
  | ti68kRawList
  | ti8586RawList
  | tiz80RawList
  | gdxMeasurement
  deriving DecidableEq, Repr

/-- `CalcLabEquipmentData`, with the fields that these conversions use. -/
structure CalcLabEquipmentData where
  type : LabDataType
  size : UInt16
  items : UInt16
  data : Option (List UInt8)
  vartype : UInt8
  deriving DecidableEq

/-- The type of the raw lists of a format. -/
def rawListType (is8586 : Bool) : LabDataType := if is8586 then .ti8586RawList else .tiz80RawList

/-! ## from a raw list -/

/-- The loop that decodes the reals. -/
def decodeReals (is8586 : Bool) : Nat → List UInt8 → Except LabErr (List TiRealValue)
  | 0, _ => .ok []
  | n + 1, bs => do
      let value ← tixxDecodeTiRealDigits bs is8586
      let values ← decodeReals is8586 n (bs.drop (realSize is8586))
      return value :: values

/-- The output string: a comma after each value, the last of them replaced. -/
def listString (values : List TiRealValue) : List UInt8 :=
  0x7B :: (values.flatMap fun value => tixxFormatTiRealValue value ++ [0x2C]).dropLast ++ [0x7D]

/-- `tixx_z80ish_raw_list_to_string_impl`: the item count and the string. -/
def tixxZ80ishRawListToStringImpl (lab : CalcLabEquipmentData) (is8586 : Bool) :
    Except LabErr (Nat × List UInt8) :=
  if lab.type ≠ rawListType is8586 then .error .invalidParameter
  else
    match lab.data with
    | none => .error .invalidPacket
    | some data =>
        let items := getLE (data.take 2)
        if lab.size < 2 then .error .invalidPacket
        else if items ≠ lab.items.toNat ∨ lab.size.toNat ≠ 2 + items * realSize is8586 then
          .error .invalidPacket
        else if items ≥ 32768 then .error .invalidParameter
        else if items = 0 then .ok (0, [0x7B, 0x7D])
        else do
          let values ← decodeReals is8586 items (data.drop 2)
          return (items, listString values)

/-! ## to a raw list -/

/-- The states of the list parser: what it expects next. -/
inductive LexState
  | brace
  | number
  | afterSign
  | afterDot
  | intDigits
  | fracDigits
  | afterExp
  | afterExpSign
  | expDigits
  deriving DecidableEq, Repr

/-- What a character does: an error, the end of the list, a separator (a space is put in its
place and a number expected) or just another state. -/
inductive LexStep
  | error
  | success
  | separator
  | next (state : LexState)
  deriving DecidableEq, Repr

/-- A comma or the closing brace. -/
def lexSeparator (c : UInt8) : LexStep :=
  if c = 0x2C then .separator else if c = 0x7D then .success else .error

/-- One character of the list parser. -/
def lexStep : LexState → UInt8 → LexStep
  | .brace, c => if c = 0x7B then .separator else .error
  | .number, c =>
      if c = 0x2D ∨ c = 0x2B then .next .afterSign
      else if c = 0x2E then .next .afterDot
      else if isDigit c then .next .intDigits
      else .error
  | .afterSign, c =>
      if c = 0x2E then .next .afterDot else if isDigit c then .next .intDigits else .error
  | .afterDot, c => if isDigit c then .next .fracDigits else .error
  | .intDigits, c =>
      if isDigit c then .next .intDigits
      else if c = 0x2E then .next .afterDot
      else if c = 0x65 ∨ c = 0x45 then .next .afterExp
      else lexSeparator c
  | .fracDigits, c =>
      if isDigit c then .next .fracDigits
      else if c = 0x65 ∨ c = 0x45 then .next .afterExp
      else lexSeparator c
  | .afterExp, c =>
      if c = 0x2D ∨ c = 0x2B then .next .afterExpSign
      else if isDigit c then .next .expDigits
      else .error
  | .afterExpSign, c => if isDigit c then .next .expDigits else .error
  | .expDigits, c => if isDigit c then .next .expDigits else lexSeparator c

/-- `TIXX_PARSE_LAB_EQUIPMENT_DATA_LIST_STRING`: the number of items, and the string with its
separators replaced, up to the closing brace. Every state refuses the end of the string. -/
def parseListString : LexState → List UInt8 → Option (Nat × List UInt8)
  | _, [] => none
  | state, c :: cs =>
      let item := if state = .number then 1 else 0
      match lexStep state c with
      | .error => none
      | .success => some (item, [])
      | .separator => (parseListString .number cs).map fun r => (item + r.1, 0x20 :: r.2)
      | .next state' => (parseListString state' cs).map fun r => (item + r.1, c :: r.2)

/-- The spaces at the start of a string are skipped. -/
def skipSpaces (src : List UInt8) : List UInt8 := src.dropWhile (· = 0x20)

/-- The second pass: each token is converted, and nothing may follow the last. -/
def convertTokens (is8586 : Bool) : Nat → List UInt8 → Except LabErr (List UInt8)
  | 0, src => if src = [] then .ok [] else .error .invalidParameter
  | n + 1, src => do
      let real ← tixxParseDecimalToTiReal src is8586
      let reals ← convertTokens is8586 n (skipSpaces (src.dropWhile (· ≠ 0x20)))
      return real ++ reals

/-- `max_items` -/
def maxItems (is8586 : Bool) : Nat := (0xFFFF - 2) / realSize is8586

/-- `tixx_string_to_z80ish_raw_list_impl`; the item count is a 32-bit number. -/
def tixxStringToZ80ishRawListImpl (string : List UInt8) (is8586 : Bool) :
    Except LabErr CalcLabEquipmentData :=
  match parseListString .brace string with
  | none => .error .invalidParameter
  | some (count, tokens) =>
      let items := (UInt32.ofNat count).toNat
      if items = 0 then .error .invalidParameter
      else if items > maxItems is8586 ∨ 2 + items * realSize is8586 > 0xFFFF then
        .error .invalidParameter
      else do
        let reals ← convertTokens is8586 items (skipSpaces tokens)
        return {
          type := rawListType is8586
          size := UInt16.ofNat (2 + items * realSize is8586)
          items := UInt16.ofNat items
          data := some (putLE 2 items ++ reals)
          vartype := if is8586 then 0x04 else 0x01 }

/-! ## the parser over the text of a number -/

/-- From one state to another the parser takes `cs` as it is, with `n` new items. -/
def Lexes (state : LexState) (cs : List UInt8) (n : Nat) (state' : LexState) : Prop :=
  ∀ tail, parseListString state (cs ++ tail)
    = (parseListString state' tail).map fun r => (n + r.1, cs ++ r.2)

theorem lexes_nil (state : LexState) : Lexes state [] 0 state := by
  intro tail
  simp

theorem lexes_cons {state state' state'' : LexState} {c : UInt8} {cs : List UInt8} {n : Nat}
    (hstep : lexStep state c = .next state') (h : Lexes state' cs n state'') :
    Lexes state (c :: cs) ((if state = .number then 1 else 0) + n) state'' := by
  intro tail
  have htail := h tail
  rw [List.cons_append, parseListString, hstep]
  dsimp only
  rw [htail, Option.map_map]
  congr 1
  funext r
  simp [Nat.add_assoc]

theorem Lexes.append {state state' state'' : LexState} {cs ds : List UInt8} {m n : Nat}
    (h : Lexes state cs m state') (h' : Lexes state' ds n state'') :
    Lexes state (cs ++ ds) (m + n) state'' := by
  intro tail
  have hds := h' tail
  rw [List.append_assoc, h, hds, Option.map_map]
  congr 1
  funext r
  simp [Nat.add_assoc]

/-- A run of digits. -/
theorem lexes_digits {state : LexState} (hloop : ∀ c, isDigit c = true → lexStep state c = .next state)
    (hstate : state ≠ .number) {cs : List UInt8} (h : ∀ c ∈ cs, isDigit c = true) :
    Lexes state cs 0 state := by
  induction cs with
  | nil => exact lexes_nil state
  | cons c cs ih =>
      obtain ⟨hc, hcs⟩ := List.forall_mem_cons.1 h
      have hrun := lexes_cons (hloop c hc) (ih hcs)
      rwa [if_neg hstate] at hrun

/-- A first digit and a run of digits. -/
theorem lexes_digits_cons {state run : LexState}
    (hfirst : ∀ c, isDigit c = true → lexStep state c = .next run)
    (hloop : ∀ c, isDigit c = true → lexStep run c = .next run) (hrun : run ≠ .number)
    {cs : List UInt8} (hne : cs ≠ []) (h : ∀ c ∈ cs, isDigit c = true) :
    Lexes state cs (if state = .number then 1 else 0) run := by
  cases cs with
  | nil => exact absurd rfl hne
  | cons c cs =>
      obtain ⟨hc, hcs⟩ := List.forall_mem_cons.1 h
      exact lexes_cons (hfirst c hc) (lexes_digits hloop hrun hcs)

theorem lexStep_intDigits (c : UInt8) (h : isDigit c = true) :
    lexStep .intDigits c = .next .intDigits := if_pos h

theorem lexStep_fracDigits (c : UInt8) (h : isDigit c = true) :
    lexStep .fracDigits c = .next .fracDigits := if_pos h

theorem lexStep_expDigits (c : UInt8) (h : isDigit c = true) :
    lexStep .expDigits c = .next .expDigits := if_pos h

/-- Sign and integer digits. -/
theorem lexes_int {cs : List UInt8} (hne : cs ≠ []) (h : ∀ c ∈ cs, isDigit c = true)
    (negative : Bool) :
    Lexes .number ((if negative then [0x2D] else []) ++ cs) 1 .intDigits := by
  cases negative with
  | true =>
      have hsign : ∀ c, isDigit c = true → lexStep .afterSign c = .next .intDigits := by
        intro c hc
        exact (if_neg (isDigit_ne hc).2.1).trans (if_pos hc)
      exact lexes_cons rfl (lexes_digits_cons hsign lexStep_intDigits nofun hne h)
  | false =>
      have hstart : ∀ c, isDigit c = true → lexStep .number c = .next .intDigits := by
        intro c hc
        obtain ⟨-, hdot, -, -, hminus, hplus, -⟩ := isDigit_ne hc
        have hsign : ¬(c = 0x2D ∨ c = 0x2B) := by tauto
        exact (if_neg hsign).trans ((if_neg hdot).trans (if_pos hc))
      exact lexes_digits_cons hstart lexStep_intDigits nofun hne h

theorem lexes_frac {t : NumberText} (h : ∀ c ∈ t.frac, isDigit c = true) :
    ∃ state, (state = .intDigits ∨ state = .fracDigits) ∧ Lexes .intDigits t.fracText 0 state := by
  unfold NumberText.fracText
  by_cases hnil : t.frac = []
  · rw [if_pos hnil]
    exact ⟨_, Or.inl rfl, lexes_nil _⟩
  · have hfirst : ∀ c, isDigit c = true → lexStep .afterDot c = .next .fracDigits :=
      fun c hc => if_pos hc
    rw [if_neg hnil]
    exact ⟨_, Or.inr rfl,
      lexes_cons rfl (lexes_digits_cons hfirst lexStep_fracDigits nofun hnil h)⟩

/-- The states in which a number may end. -/
def EndsNumber (state : LexState) : Prop :=
  state = .intDigits ∨ state = .fracDigits ∨ state = .expDigits

theorem lexes_exp {state : LexState} (hstate : state = .intDigits ∨ state = .fracDigits)
    (t : NumberText) : ∃ state', EndsNumber state' ∧ Lexes state t.expText 0 state' := by
  unfold NumberText.expText
  cases t.exp with
  | none => exact ⟨state, by unfold EndsNumber; tauto, lexes_nil state⟩
  | some e =>
      have hletter : lexStep state 0x65 = .next .afterExp := by
        rcases hstate with rfl | rfl <;> rfl
      have hsign : lexStep .afterExp (if e < 0 then 0x2D else 0x2B) = .next .afterExpSign := by
        split <;> rfl
      have hfirst : ∀ c, isDigit c = true → lexStep .afterExpSign c = .next .expDigits :=
        fun c hc => if_pos hc
      have hdigits := lexes_digits_cons hfirst lexStep_expDigits nofun (decimal_ne_nil e.natAbs)
        (isDigit_decimal e.natAbs)
      have hrun := lexes_cons hletter (lexes_cons hsign hdigits)
      refine ⟨.expDigits, Or.inr (Or.inr rfl), ?_⟩
      rcases hstate with rfl | rfl <;> exact hrun

/-- The parser goes over the text of a number as one item. -/
theorem lexes_text {t : NumberText} (h : t.WellFormed) :
    ∃ state, EndsNumber state ∧ Lexes .number t.text 1 state := by
  obtain ⟨mid, hmid, hfrac⟩ := lexes_frac h.frac
  obtain ⟨state, hends, hexp⟩ := lexes_exp hmid t
  exact ⟨state, hends, ((lexes_int h.int_ne h.int t.negative).append hfrac).append hexp⟩

/-! ## the parser over a list -/

/-- Texts with a character after each but the last. -/
def joinTexts (sep : UInt8) (texts : List (List UInt8)) : List UInt8 :=
  (texts.flatMap (· ++ [sep])).dropLast

theorem joinTexts_singleton (sep : UInt8) (text : List UInt8) : joinTexts sep [text] = text := by
  simp [joinTexts]

theorem joinTexts_cons (sep : UInt8) (text : List UInt8) {texts : List (List UInt8)}
    (hne : texts ≠ []) : joinTexts sep (text :: texts) = text ++ sep :: joinTexts sep texts := by
  have hrest : texts.flatMap (· ++ [sep]) ≠ [] := by
    cases texts with
    | nil => exact absurd rfl hne
    | cons x xs => simp
  unfold joinTexts
  rw [List.flatMap_cons, List.dropLast_append_of_ne_nil hrest, List.append_assoc]
  rfl

theorem parseListString_text {t : NumberText} (h : t.WellFormed) (tail : List UInt8) :
    parseListString .number (t.text ++ 0x2C :: tail)
      = (parseListString .number tail).map (fun r => (1 + r.1, t.text ++ 0x20 :: r.2))
    ∧ parseListString .number (t.text ++ 0x7D :: tail) = some (1, t.text) := by
  obtain ⟨state, hends, hlex⟩ := lexes_text h
  have hnumber : state ≠ .number := by
    rcases hends with rfl | rfl | rfl <;> nofun
  have hcomma : lexStep state 0x2C = .separator := by
    rcases hends with rfl | rfl | rfl <;> rfl
  have hbrace : lexStep state 0x7D = .success := by
    rcases hends with rfl | rfl | rfl <;> rfl
  constructor
  · rw [hlex, parseListString, hcomma]
    simp only [if_neg hnumber, Option.map_map]
    congr 1
    funext r
    simp
  · rw [hlex, parseListString, hbrace]
    simp [hnumber]

/-- The parser over the numbers of a list. -/
theorem parseListString_join {ts : List NumberText} (hne : ts ≠ [])
    (h : ∀ t ∈ ts, t.WellFormed) :
    parseListString .number (joinTexts 0x2C (ts.map NumberText.text) ++ [0x7D])
      = some (ts.length, joinTexts 0x20 (ts.map NumberText.text)) := by
  induction ts with
  | nil => exact absurd rfl hne
  | cons t ts ih =>
      obtain ⟨ht, hts⟩ := List.forall_mem_cons.1 h
      by_cases hnil : ts = []
      · subst hnil
        simp only [List.map_cons, List.map_nil, joinTexts_singleton]
        exact (parseListString_text ht []).2
      · have hmap : ts.map NumberText.text ≠ [] := by simpa using hnil
        rw [List.map_cons, joinTexts_cons _ _ hmap, joinTexts_cons _ _ hmap, List.append_assoc,
          List.cons_append, (parseListString_text ht _).1, ih hnil hts, Option.map_some,
          List.length_cons, Nat.add_comm]

/-! ## the second pass -/

theorem text_ne_space {t : NumberText} (h : t.WellFormed) : ∀ c ∈ t.text, c ≠ 0x20 := by
  have hexp : ∀ c ∈ t.expText, c ≠ 0x20 := by
    unfold NumberText.expText signedDecimal
    cases t.exp with
    | none => simp
    | some e =>
        intro c hc
        rcases List.mem_cons.1 hc with rfl | hc
        · decide
        · rcases List.mem_cons.1 hc with rfl | hc
          · split <;> decide
          · exact (isDigit_ne (isDigit_decimal _ c hc)).1
  have hfrac : ∀ c ∈ t.fracText, c ≠ 0x20 := by
    unfold NumberText.fracText
    split
    · simp
    · intro c hc
      rcases List.mem_cons.1 hc with rfl | hc
      · decide
      · exact (isDigit_ne (h.frac c hc)).1
  have hint : ∀ c ∈ t.int, c ≠ 0x20 := fun c hc => (isDigit_ne (h.int c hc)).1
  have hsign : ∀ c ∈ (if t.negative then [0x2D] else [] : List UInt8), c ≠ 0x20 := by
    split <;> simp
  unfold NumberText.text
  simp only [List.forall_mem_append]
  exact ⟨⟨⟨hsign, hint⟩, hfrac⟩, hexp⟩

theorem text_ne_nil {t : NumberText} (h : t.WellFormed) : t.text ≠ [] := by
  unfold NumberText.text
  simp [h.int_ne]

/-- Texts without spaces start right away. -/
theorem skipSpaces_join {texts : List (List UInt8)} (hne : ∀ text ∈ texts, text ≠ [])
    (hspace : ∀ text ∈ texts, ∀ c ∈ text, c ≠ 0x20) :
    skipSpaces (joinTexts 0x20 texts) = joinTexts 0x20 texts := by
  cases texts with
  | nil => rfl
  | cons text texts =>
      obtain ⟨htext, -⟩ := List.forall_mem_cons.1 hne
      obtain ⟨hchars, -⟩ := List.forall_mem_cons.1 hspace
      cases text with
      | nil => exact absurd rfl htext
      | cons c cs =>
          have hc : c ≠ 0x20 := hchars c List.mem_cons_self
          have hhead : ∃ rest, joinTexts 0x20 ((c :: cs) :: texts) = c :: rest := by
            by_cases hnil : texts = []
            · exact ⟨cs, by rw [hnil, joinTexts_singleton]⟩
            · exact ⟨_, by rw [joinTexts_cons _ _ hnil, List.cons_append]⟩
          obtain ⟨rest, hrest⟩ := hhead
          rw [hrest]
          simp [skipSpaces, hc]

/-- Each text is converted on its own. -/
theorem convertTokens_join {is8586 : Bool} {values : List TiRealValue} (hne : values ≠ [])
    (h : ∀ value ∈ values, value.Canonical is8586) :
    convertTokens is8586 values.length (joinTexts 0x20 (values.map tixxFormatTiRealValue))
      = .ok (values.flatMap fun value =>
        tixxEncodeTiRealDigits value.negative value.digits.val value.exp10 is8586) := by
  induction values with
  | nil => exact absurd rfl hne
  | cons value values ih =>
      obtain ⟨hvalue, hvalues⟩ := List.forall_mem_cons.1 h
      have hspace := text_ne_space (numberText_wellFormed hvalue)
      rw [← tixxFormatTiRealValue_eq] at hspace
      have hskip : ∀ rest, Stops rest →
          (tixxFormatTiRealValue value ++ rest).dropWhile (· ≠ 0x20) = rest := by
        intro rest hrest
        rw [List.dropWhile_append_of_pos (by simpa using hspace)]
        cases rest with
        | nil => rfl
        | cons c cs =>
            have hc : c = 0x20 := hrest c rfl
            simp [hc]
      by_cases hnil : values = []
      · subst hnil
        have hend : Stops [] := nofun
        have hparse := tixxParseDecimalToTiReal_format hvalue hend
        have hrest := hskip [] hend
        rw [List.append_nil] at hparse hrest
        simp only [List.map_cons, List.map_nil, joinTexts_singleton, List.length_singleton]
        unfold convertTokens
        rw [hparse, hrest]
        rfl
      · have hmap : values.map tixxFormatTiRealValue ≠ [] := by simpa using hnil
        have hstops : Stops (0x20 :: joinTexts 0x20 (values.map tixxFormatTiRealValue)) := by
          rintro c ⟨⟩
          rfl
        have htexts : ∀ text ∈ values.map tixxFormatTiRealValue,
            text ≠ [] ∧ ∀ c ∈ text, c ≠ 0x20 := by
          intro text htext
          obtain ⟨v, hv, rfl⟩ := List.mem_map.1 htext
          rw [tixxFormatTiRealValue_eq]
          exact ⟨text_ne_nil (numberText_wellFormed (hvalues v hv)),
            text_ne_space (numberText_wellFormed (hvalues v hv))⟩
        have hnext : skipSpaces (0x20 :: joinTexts 0x20 (values.map tixxFormatTiRealValue))
            = joinTexts 0x20 (values.map tixxFormatTiRealValue) :=
          skipSpaces_join (fun text ht => (htexts text ht).1) fun text ht => (htexts text ht).2
        rw [List.map_cons, joinTexts_cons _ _ hmap, List.length_cons]
        unfold convertTokens
        rw [tixxParseDecimalToTiReal_format hvalue hstops, hskip _ hstops, hnext, ih hnil hvalues]
        rfl

/-! ## round trip -/

/-- A raw list of reals. -/
structure IsRawList (is8586 : Bool) (lab : CalcLabEquipmentData) (reals : List (List UInt8)) :
    Prop where
  type : lab.type = rawListType is8586
  data : lab.data = some (putLE 2 reals.length ++ reals.flatten)
  items : lab.items.toNat = reals.length
  size : lab.size.toNat = 2 + reals.length * realSize is8586

theorem tixxDecodeTiRealDigits_append {is8586 : Bool} {real : List UInt8}
    (h : real.length = realSize is8586) (rest : List UInt8) :
    tixxDecodeTiRealDigits (real ++ rest) is8586 = tixxDecodeTiRealDigits real is8586 := by
  have hget : ∀ i < realSize is8586, (real ++ rest).getD i 0 = real.getD i 0 := fun i hi =>
    List.getD_append _ _ _ _ (by omega)
  have hne : 0 < realSize is8586 := by cases is8586 <;> decide
  have hmant : mantissaBytes is8586 (real ++ rest) = mantissaBytes is8586 real := by
    refine List.map_congr_left fun i hi => hget _ ?_
    have hlt := List.mem_range.1 hi
    cases is8586 <;> simp [realSize] <;> omega
  have hexp : realExp is8586 (real ++ rest) = realExp is8586 real := by
    unfold realExp
    cases is8586 with
    | true => rw [hget 1 (by decide), hget 2 (by decide)]
    | false => simp only [hget 1 (by decide), Bool.false_eq_true, if_false]
  have hhead : (real ++ rest).headI = real.headI := by
    cases real with
    | nil =>
        rw [← h] at hne
        exact absurd hne (by decide)
    | cons b bs => rfl
  unfold tixxDecodeTiRealDigits
  simp only [hmant, hexp, hhead]

/-- The reals of a raw list are decoded one by one. -/
theorem decodeReals_canonical {is8586 : Bool} {reals : List (List UInt8)}
    (h : ∀ real ∈ reals, CanonicalReal is8586 real) :
    ∃ values, decodeReals is8586 reals.length reals.flatten = .ok values
      ∧ values.length = reals.length ∧ (∀ value ∈ values, value.Canonical is8586)
      ∧ (values.flatMap fun value =>
        tixxEncodeTiRealDigits value.negative value.digits.val value.exp10 is8586)
          = reals.flatten := by
  induction reals with
  | nil => exact ⟨[], rfl, rfl, nofun, rfl⟩
  | cons real reals ih =>
      obtain ⟨hreal, hreals⟩ := List.forall_mem_cons.1 h
      obtain ⟨values, hdecode, hlen, hcanon, hencode⟩ := ih hreals
      obtain ⟨value, hvalue, hone, hback⟩ := tixxDecodeTiRealDigits_canonical hreal
      have hdrop : (real ++ reals.flatten).drop (realSize is8586) = reals.flatten :=
        List.drop_left' hreal.length
      refine ⟨value :: values, ?_, ?_, List.forall_mem_cons.2 ⟨hone, hcanon⟩, ?_⟩
      · rw [List.length_cons, List.flatten_cons]
        unfold decodeReals
        rw [tixxDecodeTiRealDigits_append hreal.length, hvalue, hdrop, hdecode]
        rfl
      · rw [List.length_cons, List.length_cons, hlen]
      · rw [List.flatMap_cons, hback, hencode, List.flatten_cons]

theorem listString_eq (values : List TiRealValue) :
    listString values = 0x7B :: (joinTexts 0x2C (values.map tixxFormatTiRealValue) ++ [0x7D]) := by
  unfold listString joinTexts
  rw [List.flatMap_map]
  rfl

/-- The bytes of a raw list: the count, the reals behind it, and a size that holds the count. -/
theorem IsRawList.header {is8586 : Bool} {lab : CalcLabEquipmentData} {reals : List (List UInt8)}
    (h : IsRawList is8586 lab reals) :
    getLE ((putLE 2 reals.length ++ reals.flatten).take 2) = reals.length
      ∧ (putLE 2 reals.length ++ reals.flatten).drop 2 = reals.flatten ∧ ¬lab.size < 2 := by
  have hitems := lab.items.toNat_lt
  have hcount := h.items
  refine ⟨?_, List.drop_left' (length_putLE 2 _), ?_⟩
  · rw [List.take_left' (length_putLE 2 _), getLE_putLE (by omega)]
  · rw [UInt16.lt_iff_toNat_lt, h.size]
    exact Nat.not_lt.mpr (Nat.le_add_right 2 _)

/-- A real takes nine bytes or more. -/
theorem IsRawList.length_lt {is8586 : Bool} {lab : CalcLabEquipmentData}
    {reals : List (List UInt8)} (h : IsRawList is8586 lab reals) : reals.length < 32768 := by
  have hbytes := lab.size.toNat_lt
  have hsize := h.size
  have hnine : reals.length * 9 ≤ reals.length * realSize is8586 :=
    Nat.mul_le_mul_left _ (by cases is8586 <;> decide)
  omega

/-- The string of a raw list whose reals have values. -/
theorem tixxZ80ishRawListToStringImpl_values {is8586 : Bool} {lab : CalcLabEquipmentData}
    {reals : List (List UInt8)} (h : IsRawList is8586 lab reals) {values : List TiRealValue}
    (hvalues : decodeReals is8586 reals.length reals.flatten = .ok values) :
    tixxZ80ishRawListToStringImpl lab is8586
      = .ok (reals.length, if reals = [] then [0x7B, 0x7D] else listString values) := by
  obtain ⟨hfirst, hrest, hsmall⟩ := h.header
  have hmax := h.length_lt
  unfold tixxZ80ishRawListToStringImpl
  rw [if_neg (not_not.mpr h.type), h.data]
  dsimp only
  rw [hfirst, if_neg hsmall, if_neg (by rw [h.items, h.size]; simp), if_neg (by omega)]
  by_cases hnil : reals = []
  · rw [if_pos hnil, hnil]
    rfl
  · have hpos : reals.length ≠ 0 := fun hzero => hnil (List.length_eq_zero_iff.mp hzero)
    rw [if_neg hpos, if_neg hnil, hrest, hvalues]
    rfl

/-- A raw list of canonical reals, as many as fit, becomes a string and the string becomes
the same raw list again. -/
theorem tixxStringToZ80ishRawListImpl_string {is8586 : Bool} {lab : CalcLabEquipmentData}
    {reals : List (List UInt8)} (hlist : IsRawList is8586 lab reals) (hne : reals ≠ [])
    (hcanon : ∀ real ∈ reals, CanonicalReal is8586 real) :
    ∃ string lab', tixxZ80ishRawListToStringImpl lab is8586 = .ok (reals.length, string)
      ∧ tixxStringToZ80ishRawListImpl string is8586 = .ok lab'
      ∧ lab'.data = lab.data ∧ lab'.type = lab.type ∧ lab'.size = lab.size
      ∧ lab'.items = lab.items := by
  obtain ⟨values, hdecode, hlen, hvalues, hencode⟩ := decodeReals_canonical hcanon
  have hsize := lab.size.toNat_lt
  have hitems := lab.items.toNat_lt
  have hreal : 0 < realSize is8586 := by cases is8586 <;> decide
  have hcount : 2 + reals.length * realSize is8586 < 2 ^ 16 := by
    rw [← hlist.size]
    exact hsize
  have hmax : reals.length ≤ maxItems is8586 := by
    rw [maxItems, Nat.le_div_iff_mul_le hreal]
    omega
  have hpos : 0 < reals.length := List.length_pos_iff.2 hne
  have hfew := hlist.length_lt
  have hvaluesNe : values ≠ [] := by
    rw [← List.length_pos_iff, hlen]
    exact hpos
  have hto : tixxZ80ishRawListToStringImpl lab is8586 = .ok (reals.length, listString values) := by
    rw [tixxZ80ishRawListToStringImpl_values hlist hdecode, if_neg hne]
  have htexts : values.map tixxFormatTiRealValue
      = (values.map numberText).map NumberText.text := by
    rw [List.map_map]
    exact List.map_congr_left fun value _ => tixxFormatTiRealValue_eq value
  have hwell : ∀ t ∈ values.map numberText, t.WellFormed := by
    intro t ht
    obtain ⟨value, hvalue, rfl⟩ := List.mem_map.1 ht
    exact numberText_wellFormed (hvalues value hvalue)
  have hparse : parseListString .brace (listString values)
      = some (reals.length, 0x20 :: joinTexts 0x20 (values.map tixxFormatTiRealValue)) := by
    have hjoin := parseListString_join (by simpa using hvaluesNe) hwell
    rw [listString_eq, htexts, parseListString]
    simp only [lexStep, if_true, hjoin, Option.map_some, List.length_map, hlen]
    simp
  have hskip : skipSpaces (0x20 :: joinTexts 0x20 (values.map tixxFormatTiRealValue))
      = joinTexts 0x20 (values.map tixxFormatTiRealValue) := by
    rw [htexts]
    refine skipSpaces_join ?_ ?_
    · intro text htext
      obtain ⟨t, ht, rfl⟩ := List.mem_map.1 htext
      exact text_ne_nil (hwell t ht)
    · intro text htext
      obtain ⟨t, ht, rfl⟩ := List.mem_map.1 htext
      exact text_ne_space (hwell t ht)
  have hconvert := convertTokens_join hvaluesNe hvalues
  rw [hlen, hencode] at hconvert
  have hcount32 : (UInt32.ofNat reals.length).toNat = reals.length := by
    rw [UInt32.toNat_ofNat', Nat.mod_eq_of_lt (by omega)]
  have hfrom : tixxStringToZ80ishRawListImpl (listString values) is8586 = .ok
      { type := rawListType is8586
        size := UInt16.ofNat (2 + reals.length * realSize is8586)
        items := UInt16.ofNat reals.length
        data := some (putLE 2 reals.length ++ reals.flatten)
        vartype := if is8586 then 0x04 else 0x01 } := by
    unfold tixxStringToZ80ishRawListImpl
    rw [hparse]
    dsimp only
    rw [hcount32, if_neg (by omega), if_neg (by omega), hskip, hconvert]
    rfl
  refine ⟨_, _, hto, hfrom, hlist.data.symm, hlist.type.symm, ?_, ?_⟩
  · rw [← hlist.size]
    exact UInt16.ofNat_toNat
  · rw [← hlist.items]
    exact UInt16.ofNat_toNat

/-- Minus 12.5 and zero, as a TI-83 stores them. -/
def sampleReals : List (List UInt8) :=
  [[0x80, 0x81, 0x12, 0x50, 0, 0, 0, 0, 0], canonicalZero false]

/-- Their list. -/
def sampleList : CalcLabEquipmentData where
  type := .tiz80RawList
  size := 20
  items := 2
  data := some (putLE 2 2 ++ sampleReals.flatten)
  vartype := 0x01

theorem canonicalReal_sample : ∀ real ∈ sampleReals, CanonicalReal false real := by
  intro real hreal
  rcases List.mem_cons.1 hreal with rfl | hzero
  · constructor <;> decide
  · rw [List.mem_singleton.1 hzero]
    constructor <;> decide

theorem tixxStringToZ80ishRawListImpl_string_sample :
    ∃ string lab', tixxZ80ishRawListToStringImpl sampleList false = .ok (2, string)
      ∧ tixxStringToZ80ishRawListImpl string false = .ok lab' ∧ lab'.data = sampleList.data := by
  have hlist : IsRawList false sampleList sampleReals := by
    constructor <;> decide
  obtain ⟨string, lab', hto, hfrom, hdata, -⟩ :=
    tixxStringToZ80ishRawListImpl_string hlist (by decide) canonicalReal_sample
  exact ⟨string, lab', hto, hfrom, hdata⟩

end Tilibs.Calcs
