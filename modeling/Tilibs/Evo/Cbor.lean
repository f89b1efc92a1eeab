import Tilibs.Lib.Bytes
import Tilibs.Lib.Reader
import Tilibs.Lib.Tiling

/-!
# Tilibs.Evo.Cbor

The CBOR parser of the TI-84 Evo (`evo_cbor.cc`).

`CborItem` is the grammar of the items that the parser is for, with arrays and maps of a given
length and such that a break closes.  The parser also accepts a buffer that ends where the break of
an array or a map is still to come (`CborUnclosed`).
-/

namespace Tilibs.Evo

open Tilibs.Lib

/-! ## values -/

/-- `EvoCborValue`: a tree has no null, and the keys of a map are C strings. -/
inductive EvoCborValue
  | uint (n : Nat)
  | neg (n : Int)
  | bytes (bytes : List UInt8)
  | text (str : List UInt8)
  | array (items : List EvoCborValue)
  | map (pairs : List (List UInt8 × EvoCborValue))
  | bool (b : Bool)

def evoCborBreak : UInt8 := 0xFF
def evoCborMaxDepth : Nat := 64

/-! ## the parser -/

/-- `cbor_len` -/
def cborLen (addl : Nat) (data : List UInt8) : Option (Nat × List UInt8) :=
  if addl < 24 then some (addl, data)
  else if addl = 24 ∧ 1 ≤ data.length then some (getBE (data.take 1), data.drop 1)
  else if addl = 25 ∧ 2 ≤ data.length then some (getBE (data.take 2), data.drop 2)
  else if addl = 26 ∧ 4 ≤ data.length then some (getBE (data.take 4), data.drop 4)
  else none

/-- `cbor_take_text_key` -/
def cborTakeTextKey : EvoCborValue → Option (List UInt8)
  | .text str => some (cstr str)
  | _ => none

/-- A key and a value.  In a map of no given length the key is looked at behind the value only,
which makes no difference. -/
def cborPair (item : Reader UInt8 EvoCborValue) : Reader UInt8 (List UInt8 × EvoCborValue) :=
  (item.choose cborTakeTextKey).andThen item

/-- The simple values. -/
def evoCborSimple (addl : Nat) : Reader UInt8 EvoCborValue := fun data =>
  if addl = 20 ∨ addl = 21 ∨ addl = 22 ∨ addl = 23 then some (.bool (addl = 21), data) else none

/-- Bytes of a given length. -/
def evoCborString (len : Nat) : Reader UInt8 (List UInt8) := fun data =>
  if data.length < len then none else some (data.take len, data.drop len)

/-- What a major type with a length stands for. -/
def evoCborDefinite (item : Reader UInt8 EvoCborValue) (major len : Nat) :
    Reader UInt8 EvoCborValue := fun data =>
  if major = 0 then some (.uint len, data)
  else if major = 1 then some (.neg (-1 - len), data)
  else if major = 2 then (evoCborString len).choose (fun bytes => some (.bytes bytes)) data
  else if major = 3 then (evoCborString len).choose (fun str => some (.text str)) data
  else if major = 4 then
    if data.length < len then none
    else (item.items len).choose (fun items => some (.array items)) data
  else if major = 5 then
    if data.length / 2 < len then none
    else ((cborPair item).items len).choose (fun pairs => some (.map pairs)) data
  else none

/-- An array or a map that goes on up to a break. -/
def evoCborIndefinite (item : Reader UInt8 EvoCborValue) (major : Nat) :
    Reader UInt8 EvoCborValue := fun data =>
  if major = 4 then
    (item.itemsUntil evoCborBreak (data.length + 1)).choose (fun items => some (.array items)) data
  else
    ((cborPair item).itemsUntil evoCborBreak (data.length + 1)).choose
      (fun pairs => some (.map pairs)) data

/-- One level of `evo_cbor_parse_at`, with the parser of the items inside. -/
def evoCborLevel (item : Reader UInt8 EvoCborValue) : Reader UInt8 EvoCborValue
  | [] => none
  | initial :: data =>
      let major := initial.toNat / 32
      let addl := initial.toNat % 32
      if major = 7 then evoCborSimple addl data
      else if addl = 31 ∧ (major = 4 ∨ major = 5) then evoCborIndefinite item major data
      else (cborLen addl data).bind fun len => evoCborDefinite item major len.1 len.2

/-- `evo_cbor_parse_at` at the depth that leaves so many levels. -/
def evoCborParseAt : Nat → Reader UInt8 EvoCborValue
  | 0 => fun _ => none
  | levels + 1 => evoCborLevel (evoCborParseAt levels)

/-- `evo_cbor_parse`: the value, and the offset behind it. -/
def evoCborParse (data : List UInt8) (off : Nat) : Option (EvoCborValue × Nat) :=
  (evoCborParseAt (evoCborMaxDepth + 1) (data.drop off)).map fun read =>
    (read.1, data.length - read.2.length)

/-! ## the grammar -/

/-- The first byte of an item, and the bytes of its number. -/
inductive CborHead (major : Nat) : Nat → List UInt8 → Prop
  | direct {n : Nat} : n < 24 → CborHead major n [UInt8.ofNat (32 * major + n)]
  | one {ext : List UInt8} : ext.length = 1 →
      CborHead major (getBE ext) (UInt8.ofNat (32 * major + 24) :: ext)
  | two {ext : List UInt8} : ext.length = 2 →
      CborHead major (getBE ext) (UInt8.ofNat (32 * major + 25) :: ext)
  | four {ext : List UInt8} : ext.length = 4 →
      CborHead major (getBE ext) (UInt8.ofNat (32 * major + 26) :: ext)

/-- A key and a value; a key is a text. -/
def CborPair (item : EvoCborValue → List UInt8 → Prop) :
    List UInt8 × EvoCborValue → List UInt8 → Prop :=
  Both (fun key data => ∃ str, item (.text str) data ∧ key = cstr str) item

/-- A key and a value that breaks off. -/
def CborPairBroken (item broken : EvoCborValue → List UInt8 → Prop) :
    List UInt8 × EvoCborValue → List UInt8 → Prop :=
  Both (fun key data => ∃ str, item (.text str) data ∧ key = cstr str) broken

/-- What follows the head with a major type and a number, and the value. -/
inductive CborBody (item : EvoCborValue → List UInt8 → Prop) :
    Nat → Nat → EvoCborValue → List UInt8 → Prop
  | uint {n : Nat} : CborBody item 0 n (.uint n) []
  | neg {n : Nat} : CborBody item 1 n (.neg (-1 - n)) []
  | bytes {bytes : List UInt8} : CborBody item 2 bytes.length (.bytes bytes) bytes
  | text {str : List UInt8} : CborBody item 3 str.length (.text str) str
  | array {items : List EvoCborValue} {body : List UInt8} : Seq item items body →
      CborBody item 4 items.length (.array items) body
  | map {pairs : List (List UInt8 × EvoCborValue)} {body : List UInt8} :
      Seq (CborPair item) pairs body → CborBody item 5 pairs.length (.map pairs) body

/-- A whole item, when the items inside are known. -/
inductive CborItemLevel (item : EvoCborValue → List UInt8 → Prop) :
    EvoCborValue → List UInt8 → Prop
  | definite {major n : Nat} {v : EvoCborValue} {head body : List UInt8} : CborHead major n head →
      CborBody item major n v body → CborItemLevel item v (head ++ body)
  | openArray {items : List EvoCborValue} {body : List UInt8} :
      Stopped item evoCborBreak items body → CborItemLevel item (.array items) (0x9F :: body)
  | openMap {pairs : List (List UInt8 × EvoCborValue)} {body : List UInt8} :
      Stopped (CborPair item) evoCborBreak pairs body →
      CborItemLevel item (.map pairs) (0xBF :: body)
  | simple {initial : UInt8} : initial ∈ [0xF4, 0xF5, 0xF6, 0xF7] →
      CborItemLevel item (.bool (initial = 0xF5)) [initial]

/-- A whole item of so many levels at most. -/
def CborItem : Nat → EvoCborValue → List UInt8 → Prop
  | 0 => fun _ _ => False
  | levels + 1 => CborItemLevel (CborItem levels)

/-- A body that ends with an item that breaks off. -/
inductive CborBodyBroken (item broken : EvoCborValue → List UInt8 → Prop) :
    Nat → Nat → EvoCborValue → List UInt8 → Prop
  | array {items : List EvoCborValue} {body : List UInt8} : LastBroken item broken items body →
      CborBodyBroken item broken 4 items.length (.array items) body
  | map {pairs : List (List UInt8 × EvoCborValue)} {body : List UInt8} :
      LastBroken (CborPair item) (CborPairBroken item broken) pairs body →
      CborBodyBroken item broken 5 pairs.length (.map pairs) body

/-- An item that ends before the break of an array or a map, when that is known of the items
inside. -/
inductive CborUnclosedLevel (item broken : EvoCborValue → List UInt8 → Prop) :
    EvoCborValue → List UInt8 → Prop
  | definite {major n : Nat} {v : EvoCborValue} {head body : List UInt8} : CborHead major n head →
      CborBodyBroken item broken major n v body → CborUnclosedLevel item broken v (head ++ body)
  | openArray {items : List EvoCborValue} {body : List UInt8} : EndBroken item broken items body →
      CborUnclosedLevel item broken (.array items) (0x9F :: body)
  | openMap {pairs : List (List UInt8 × EvoCborValue)} {body : List UInt8} :
      EndBroken (CborPair item) (CborPairBroken item broken) pairs body →
      CborUnclosedLevel item broken (.map pairs) (0xBF :: body)

/-- An item of so many levels at most that ends before a break. -/
def CborUnclosed : Nat → EvoCborValue → List UInt8 → Prop
  | 0 => fun _ _ => False
  | levels + 1 => CborUnclosedLevel (CborItem levels) (CborUnclosed levels)

/-! ## heads -/

section Heads

variable {major n : Nat} {head rest : List UInt8}

/-- What the parser makes of a head. -/
theorem exists_cborLen_of_head (hmajor : major < 6) (h : CborHead major n head)
    (rest : List UInt8) : ∃ initial ext, head = initial :: ext ∧ initial.toNat / 32 = major
      ∧ initial.toNat % 32 < 27 ∧ cborLen (initial.toNat % 32) (ext ++ rest) = some (n, rest) := by
  have hinitial {addl : Nat} (haddl : addl < 27) :
      (UInt8.ofNat (32 * major + addl)).toNat / 32 = major
        ∧ (UInt8.ofNat (32 * major + addl)).toNat % 32 = addl := by
    rw [UInt8.toNat_ofNat_of_lt' (by show 32 * major + addl < 256; omega)]
    omega
  cases h with
  | direct hn =>
      obtain ⟨hdiv, hmod⟩ := hinitial (show n < 27 by omega)
      refine ⟨_, [], rfl, hdiv, by omega, ?_⟩
      rw [hmod]
      exact if_pos hn
  | one hext =>
      obtain ⟨hdiv, hmod⟩ := hinitial (show 24 < 27 by omega)
      refine ⟨_, _, rfl, hdiv, by omega, ?_⟩
      rw [hmod]
      simp [cborLen, hext]
  | two hext =>
      obtain ⟨hdiv, hmod⟩ := hinitial (show 25 < 27 by omega)
      refine ⟨_, _, rfl, hdiv, by omega, ?_⟩
      rw [hmod]
      simp [cborLen, hext]
  | four hext =>
      obtain ⟨hdiv, hmod⟩ := hinitial (show 26 < 27 by omega)
      refine ⟨_, _, rfl, hdiv, by omega, ?_⟩
      rw [hmod]
      simp [cborLen, hext]

/-- The heads that the parser takes. -/
theorem cborHead_of_cborLen {initial : UInt8} {data : List UInt8}
    (h : cborLen (initial.toNat % 32) data = some (n, rest)) :
    ∃ ext, data = ext ++ rest ∧ CborHead (initial.toNat / 32) n (initial :: ext) := by
  have hinitial : initial = UInt8.ofNat (32 * (initial.toNat / 32) + initial.toNat % 32) := by
    rw [Nat.div_add_mod, UInt8.ofNat_toNat]
  generalize initial.toNat / 32 = major, initial.toNat % 32 = addl at *
  subst hinitial
  unfold cborLen at h
  split_ifs at h with hdirect hone htwo hfour
  · obtain ⟨rfl, rfl⟩ := Prod.mk.inj (Option.some.inj h)
    exact ⟨[], rfl, .direct hdirect⟩
  · obtain ⟨rfl, rfl⟩ := Prod.mk.inj (Option.some.inj h)
    obtain ⟨rfl, hlength⟩ := hone
    exact ⟨data.take 1, (List.take_append_drop 1 data).symm, .one (List.length_take_of_le hlength)⟩
  · obtain ⟨rfl, rfl⟩ := Prod.mk.inj (Option.some.inj h)
    obtain ⟨rfl, hlength⟩ := htwo
    exact ⟨data.take 2, (List.take_append_drop 2 data).symm, .two (List.length_take_of_le hlength)⟩
  · obtain ⟨rfl, rfl⟩ := Prod.mk.inj (Option.some.inj h)
    obtain ⟨rfl, hlength⟩ := hfour
    exact ⟨data.take 4, (List.take_append_drop 4 data).symm,
      .four (List.length_take_of_le hlength)⟩

end Heads

/-! ## bodies -/

section Levels

variable {item : Reader UInt8 EvoCborValue} {whole broken : EvoCborValue → List UInt8 → Prop}

theorem evoCborString_eq_some_iff {len : Nat} {data bytes rest : List UInt8} :
    evoCborString len data = some (bytes, rest) ↔ bytes.length = len ∧ data = bytes ++ rest := by
  unfold evoCborString
  constructor
  · intro h
    split at h
    · cases h
    · next hlen =>
      obtain ⟨rfl, rfl⟩ := Prod.mk.inj (Option.some.inj h)
      exact ⟨List.length_take_of_le (Nat.not_lt.mp hlen), (List.take_append_drop len data).symm⟩
  · rintro ⟨rfl, rfl⟩
    rw [if_neg (by rw [List.length_append]; omega), List.take_left, List.drop_left]

/-- What the parser needs to know of the items inside. -/
structure CborInside (item : Reader UInt8 EvoCborValue)
    (whole broken : EvoCborValue → List UInt8 → Prop) : Prop where
  meets : item.Meets whole broken
  nil : item [] = none
  whole : ∀ v data, whole v data → Begins evoCborBreak data
  broken : ∀ v data, broken v data → Begins evoCborBreak data

theorem cborTakeTextKey_eq_some_iff {v : EvoCborValue} {key : List UInt8} :
    cborTakeTextKey v = some key ↔ ∃ str, v = .text str ∧ key = cstr str := by
  cases v <;> simp [cborTakeTextKey, eq_comm]

/-- The pairs of a map are read when its items are. -/
theorem cborPair_meets (h : CborInside item whole broken) :
    (cborPair item).Meets (CborPair whole) (CborPairBroken whole broken) := by
  have hpair := (h.meets.choose cborTakeTextKey).andThen h.meets h.nil
  have hkey : (fun key data => ∃ v, whole v data ∧ cborTakeTextKey v = some key)
      = fun key data => ∃ str, whole (.text str) data ∧ key = cstr str := by
    funext key data
    apply propext
    constructor
    · rintro ⟨v, hv, htake⟩
      obtain ⟨str, rfl, hkey⟩ := cborTakeTextKey_eq_some_iff.mp htake
      exact ⟨str, hv, hkey⟩
    · rintro ⟨str, hv, hkey⟩
      exact ⟨_, hv, cborTakeTextKey_eq_some_iff.mpr ⟨str, rfl, hkey⟩⟩
  rw [hkey] at hpair
  exact hpair

theorem cborPair_nil (h : CborInside item whole broken) : cborPair item [] = none := by
  unfold cborPair Reader.andThen Reader.choose
  rw [h.nil]
  rfl

theorem length_pos_of_begins {data : List UInt8} (h : Begins evoCborBreak data) :
    1 ≤ data.length := by
  obtain ⟨s, items, rfl, -⟩ := h
  exact Nat.le_add_left _ _

theorem length_cborPair (h : CborInside item whole broken) {R : EvoCborValue → List UInt8 → Prop}
    (hR : ∀ v data, R v data → Begins evoCborBreak data) {pair : List UInt8 × EvoCborValue}
    {data : List UInt8}
    (hpair : Both (fun key data => ∃ str, whole (.text str) data ∧ key = cstr str) R pair data) :
    2 ≤ data.length := by
  cases hpair with
  | mk hkey hvalue =>
      obtain ⟨str, hkey, -⟩ := hkey
      have hone := length_pos_of_begins (h.whole _ _ hkey)
      have htwo := length_pos_of_begins (hR _ _ hvalue)
      rw [List.length_append]
      omega

theorem evoCborDefinite_meets (h : CborInside item whole broken) (major len : Nat) :
    (evoCborDefinite item major len).Meets (CborBody whole major len)
      (CborBodyBroken whole broken major len) := by
  intro data v rest
  unfold evoCborDefinite
  constructor
  · intro hread
    split_ifs at hread with huint hneg hbytes htext harray hshort hmap hshort
    · obtain ⟨rfl, rfl⟩ := Prod.mk.inj (Option.some.inj hread)
      exact .whole [] (huint ▸ .uint) rfl
    · obtain ⟨rfl, rfl⟩ := Prod.mk.inj (Option.some.inj hread)
      exact .whole [] (hneg ▸ .neg) rfl
    · obtain ⟨bytes, hread, hv⟩ := choose_eq_some_iff.mp hread
      obtain ⟨rfl, hdata⟩ := evoCborString_eq_some_iff.mp hread
      obtain rfl := Option.some.inj hv
      exact .whole bytes (hbytes ▸ .bytes) hdata
    · obtain ⟨str, hread, hv⟩ := choose_eq_some_iff.mp hread
      obtain ⟨rfl, hdata⟩ := evoCborString_eq_some_iff.mp hread
      obtain rfl := Option.some.inj hv
      exact .whole str (htext ▸ .text) hdata
    · obtain ⟨items, hread, hv⟩ := choose_eq_some_iff.mp hread
      obtain ⟨rfl, hreads⟩ := (h.meets.items h.nil).mp hread
      obtain rfl := Option.some.inj hv
      cases hreads with
      | whole body hseq hdata => exact .whole body (harray ▸ .array hseq) hdata
      | broken hlast hrest => exact .broken (harray ▸ .array hlast) hrest
    · obtain ⟨pairs, hread, hv⟩ := choose_eq_some_iff.mp hread
      obtain ⟨rfl, hreads⟩ := ((cborPair_meets h).items (cborPair_nil h)).mp hread
      obtain rfl := Option.some.inj hv
      cases hreads with
      | whole body hseq hdata => exact .whole body (hmap ▸ .map hseq) hdata
      | broken hlast hrest => exact .broken (hmap ▸ .map hlast) hrest
  · intro hreads
    have hone {v : EvoCborValue} {data : List UInt8} (hv : whole v data) :=
      length_pos_of_begins (h.whole v data hv)
    cases hreads with
    | whole body hbody hdata =>
        subst hdata
        cases hbody with
        | uint => rfl
        | neg => rfl
        | bytes =>
            show (evoCborString body.length).choose
              (fun bytes => some (EvoCborValue.bytes bytes)) _ = _
            exact choose_eq_some_iff.mpr ⟨body, evoCborString_eq_some_iff.mpr ⟨rfl, rfl⟩, rfl⟩
        | text =>
            show (evoCborString body.length).choose (fun str => some (EvoCborValue.text str)) _ = _
            exact choose_eq_some_iff.mpr ⟨body, evoCborString_eq_some_iff.mpr ⟨rfl, rfl⟩, rfl⟩
        | array hseq =>
            rename_i items
            have hlength := hseq.length_le fun v data => hone
            show (if (body ++ rest).length < items.length then none else _) = _
            rw [if_neg (by rw [List.length_append]; omega)]
            exact choose_eq_some_iff.mpr
              ⟨items, (h.meets.items h.nil).mpr ⟨rfl, .whole body hseq rfl⟩, rfl⟩
        | map hseq =>
            rename_i pairs
            have hlength := hseq.length_le fun pair data => length_cborPair h h.whole
            show (if (body ++ rest).length / 2 < pairs.length then none else _) = _
            rw [if_neg (by rw [List.length_append]; omega)]
            exact choose_eq_some_iff.mpr ⟨pairs, ((cborPair_meets h).items (cborPair_nil h)).mpr
              ⟨rfl, .whole body hseq rfl⟩, rfl⟩
    | broken hbody hrest =>
        subst hrest
        cases hbody with
        | array hlast =>
            rename_i items
            have hlength := hlast.length_le (fun v data => hone)
              fun v data hv => length_pos_of_begins (h.broken v data hv)
            show (if data.length < items.length then none else _) = _
            rw [if_neg (by omega)]
            exact choose_eq_some_iff.mpr
              ⟨items, (h.meets.items h.nil).mpr ⟨rfl, .broken hlast rfl⟩, rfl⟩
        | map hlast =>
            rename_i pairs
            have hlength := hlast.length_le (fun pair data => length_cborPair h h.whole)
              fun pair data => length_cborPair h h.broken
            show (if data.length / 2 < pairs.length then none else _) = _
            rw [if_neg (by omega)]
            exact choose_eq_some_iff.mpr ⟨pairs, ((cborPair_meets h).items (cborPair_nil h)).mpr
              ⟨rfl, .broken hlast rfl⟩, rfl⟩

/-- A pair begins with its key. -/
theorem begins_of_cborPair {R : EvoCborValue → List UInt8 → Prop}
    (hwhole : ∀ v data, whole v data → Begins evoCborBreak data)
    {pair : List UInt8 × EvoCborValue} {data : List UInt8}
    (h : Both (fun key data => ∃ str, whole (.text str) data ∧ key = cstr str) R pair data) :
    Begins evoCborBreak data := by
  cases h with
  | mk hkey hvalue =>
      obtain ⟨str, hstr, -⟩ := hkey
      obtain ⟨s, items, rfl, hs⟩ := hwhole _ _ hstr
      exact ⟨s, _, List.cons_append, hs⟩

/-- A loop up to a break, for an array or for a map. -/
theorem itemsUntil_choose_meets {β : Type} {p : Reader UInt8 β} {R S : β → List UInt8 → Prop}
    (hp : p.Meets R S) (hR : ∀ b data, R b data → Begins evoCborBreak data)
    (hS : ∀ b data, S b data → Begins evoCborBreak data) (f : List β → EvoCborValue)
    (data : List UInt8) (v : EvoCborValue) (rest : List UInt8) :
    (p.itemsUntil evoCborBreak (data.length + 1)).choose (fun bs => some (f bs)) data
        = some (v, rest)
      ↔ ∃ bs, v = f bs ∧ Reads (Stopped R evoCborBreak) (EndBroken R S) bs data rest := by
  rw [choose_eq_some_iff]
  constructor
  · rintro ⟨bs, hread, hv⟩
    exact ⟨bs, (Option.some.inj hv).symm, (hp.itemsUntil hR hS (Nat.lt_succ_self _)).mp hread⟩
  · rintro ⟨bs, rfl, hreads⟩
    exact ⟨bs, (hp.itemsUntil hR hS (Nat.lt_succ_self _)).mpr hreads, rfl⟩

theorem evoCborIndefinite_array (h : CborInside item whole broken) (data : List UInt8)
    (v : EvoCborValue) (rest : List UInt8) : evoCborIndefinite item 4 data = some (v, rest)
      ↔ ∃ items, v = .array items
        ∧ Reads (Stopped whole evoCborBreak) (EndBroken whole broken) items data rest :=
  itemsUntil_choose_meets h.meets h.whole h.broken .array data v rest

theorem evoCborIndefinite_map (h : CborInside item whole broken) (data : List UInt8)
    (v : EvoCborValue) (rest : List UInt8) : evoCborIndefinite item 5 data = some (v, rest)
      ↔ ∃ pairs, v = .map pairs
        ∧ Reads (Stopped (CborPair whole) evoCborBreak)
          (EndBroken (CborPair whole) (CborPairBroken whole broken)) pairs data rest := by
  exact itemsUntil_choose_meets (cborPair_meets h) (fun _ _ => begins_of_cborPair h.whole)
    (fun _ _ => begins_of_cborPair h.whole) .map data v rest

theorem evoCborSimple_eq_some_iff {initial : UInt8} (hmajor : initial.toNat / 32 = 7)
    {data rest : List UInt8} {v : EvoCborValue} :
    evoCborSimple (initial.toNat % 32) data = some (v, rest)
      ↔ initial ∈ [0xF4, 0xF5, 0xF6, 0xF7] ∧ v = .bool (initial = 0xF5) ∧ rest = data := by
  have hmem : initial ∈ [0xF4, 0xF5, 0xF6, 0xF7] ↔ initial.toNat % 32 = 20
      ∨ initial.toNat % 32 = 21 ∨ initial.toNat % 32 = 22 ∨ initial.toNat % 32 = 23 := by
    simp only [List.mem_cons, List.not_mem_nil, or_false, ← UInt8.toNat_inj]
    show initial.toNat = 244 ∨ initial.toNat = 245 ∨ initial.toNat = 246 ∨ initial.toNat = 247 ↔ _
    omega
  have htrue : initial = 0xF5 ↔ initial.toNat % 32 = 21 := by
    rw [← UInt8.toNat_inj]
    show initial.toNat = 245 ↔ _
    omega
  unfold evoCborSimple
  rw [hmem]
  simp only [htrue]
  grind

/-- A level at a head. -/
theorem evoCborLevel_head (item : Reader UInt8 EvoCborValue) {major n : Nat} {head : List UInt8}
    (hmajor : major < 6) (h : CborHead major n head) (data : List UInt8) :
    evoCborLevel item (head ++ data) = evoCborDefinite item major n data := by
  obtain ⟨initial, ext, rfl, hdiv, hmod, hlen⟩ := exists_cborLen_of_head hmajor h data
  rw [List.cons_append]
  unfold evoCborLevel
  dsimp only
  rw [if_neg (by omega), if_neg (by omega), hlen, hdiv]
  rfl

theorem lt_of_cborBody {major n : Nat} {v : EvoCborValue} {body : List UInt8}
    (h : CborBody whole major n v body) : major < 6 := by
  cases h <;> decide

theorem lt_of_cborBodyBroken {major n : Nat} {v : EvoCborValue} {body : List UInt8}
    (h : CborBodyBroken whole broken major n v body) : major < 6 := by
  cases h <;> decide

/-- One level reads the items of the grammar when the parser of the items inside does. -/
theorem evoCborLevel_meets (h : CborInside item whole broken) :
    (evoCborLevel item).Meets (CborItemLevel whole) (CborUnclosedLevel whole broken) := by
  intro data v rest
  constructor
  · intro hread
    cases data with
    | nil => cases hread
    | cons initial data =>
        unfold evoCborLevel at hread
        dsimp only at hread
        split_ifs at hread with hseven hopen
        · obtain ⟨hmem, rfl, rfl⟩ := (evoCborSimple_eq_some_iff hseven).mp hread
          exact .whole [initial] (.simple hmem) rfl
        · obtain ⟨hindefinite, hmajor⟩ := hopen
          cases hmajor with
          | inl hmajor =>
              have hinitial : initial = 0x9F := by
                rw [← UInt8.toNat_inj]
                show initial.toNat = 159
                omega
              rw [hmajor] at hread
              obtain ⟨items, rfl, hreads⟩ := (evoCborIndefinite_array h _ _ _).mp hread
              rw [hinitial]
              cases hreads with
              | whole body hbody hdata =>
                  exact .whole _ (.openArray hbody) (congrArg (List.cons 0x9F) hdata)
              | broken hbody hrest => exact .broken (.openArray hbody) hrest
          | inr hmajor =>
              have hinitial : initial = 0xBF := by
                rw [← UInt8.toNat_inj]
                show initial.toNat = 191
                omega
              rw [hmajor] at hread
              obtain ⟨pairs, rfl, hreads⟩ := (evoCborIndefinite_map h _ _ _).mp hread
              rw [hinitial]
              cases hreads with
              | whole body hbody hdata =>
                  exact .whole _ (.openMap hbody) (congrArg (List.cons 0xBF) hdata)
              | broken hbody hrest => exact .broken (.openMap hbody) hrest
        · obtain ⟨⟨len, data'⟩, hlen, hdefinite⟩ := Option.bind_eq_some_iff.mp hread
          obtain ⟨ext, rfl, hhead⟩ := cborHead_of_cborLen hlen
          cases (evoCborDefinite_meets h _ _ _ _ _).mp hdefinite with
          | whole body hbody hdata =>
              refine .whole _ (.definite hhead hbody) ?_
              rw [List.append_assoc, ← hdata]
              rfl
          | broken hbody hrest => exact .broken (.definite hhead hbody) hrest
  · intro hreads
    cases hreads with
    | whole data' hitem hdata =>
        subst hdata
        cases hitem with
        | definite hhead hbody =>
            rw [List.append_assoc, evoCborLevel_head item (lt_of_cborBody hbody) hhead]
            exact (evoCborDefinite_meets h _ _ _ _ _).mpr (.whole _ hbody rfl)
        | openArray hbody =>
            exact (evoCborIndefinite_array h _ _ _).mpr ⟨_, rfl, .whole _ hbody rfl⟩
        | openMap hbody =>
            exact (evoCborIndefinite_map h _ _ _).mpr ⟨_, rfl, .whole _ hbody rfl⟩
        | simple hmem =>
            rename_i initial
            have hseven : initial.toNat / 32 = 7 := by
              simp only [List.mem_cons, List.not_mem_nil, or_false] at hmem
              rcases hmem with rfl | rfl | rfl | rfl <;> rfl
            exact (if_pos hseven).trans
              ((evoCborSimple_eq_some_iff hseven).mpr ⟨hmem, rfl, rfl⟩)
    | broken hitem hrest =>
        subst hrest
        cases hitem with
        | definite hhead hbody =>
            rw [evoCborLevel_head item (lt_of_cborBodyBroken hbody) hhead]
            exact (evoCborDefinite_meets h _ _ _ _ _).mpr (.broken hbody rfl)
        | openArray hbody => exact (evoCborIndefinite_array h _ _ _).mpr ⟨_, rfl, .broken hbody rfl⟩
        | openMap hbody => exact (evoCborIndefinite_map h _ _ _).mpr ⟨_, rfl, .broken hbody rfl⟩

theorem begins_of_cborHead {major n : Nat} {head : List UInt8} (hmajor : major < 6)
    (h : CborHead major n head) : Begins evoCborBreak head := by
  obtain ⟨initial, ext, rfl, hdiv, -⟩ := exists_cborLen_of_head hmajor h []
  refine ⟨initial, ext, rfl, ?_⟩
  intro hbreak
  subst hbreak
  have hseven : evoCborBreak.toNat / 32 = 7 := rfl
  omega

theorem begins_append {stop : UInt8} {data : List UInt8} (h : Begins stop data)
    (more : List UInt8) : Begins stop (data ++ more) := by
  obtain ⟨s, items, rfl, hs⟩ := h
  exact ⟨s, items ++ more, rfl, hs⟩

/-- The next level may be built on this one. -/
theorem cborInside_level (h : CborInside item whole broken) :
    CborInside (evoCborLevel item) (CborItemLevel whole) (CborUnclosedLevel whole broken) := by
  constructor
  · exact evoCborLevel_meets h
  · rfl
  · intro v data hitem
    cases hitem with
    | definite hhead hbody =>
        exact begins_append (begins_of_cborHead (lt_of_cborBody hbody) hhead) _
    | openArray _ => exact ⟨_, _, rfl, by decide⟩
    | openMap _ => exact ⟨_, _, rfl, by decide⟩
    | simple hmem =>
        refine ⟨_, [], rfl, ?_⟩
        intro hbreak
        rw [hbreak] at hmem
        exact absurd hmem (by decide)
  · intro v data hitem
    cases hitem with
    | definite hhead hbody =>
        exact begins_append (begins_of_cborHead (lt_of_cborBodyBroken hbody) hhead) _
    | openArray _ => exact ⟨_, _, rfl, by decide⟩
    | openMap _ => exact ⟨_, _, rfl, by decide⟩

end Levels

/-! ## the whole parser -/

theorem cborInside_parseAt (levels : Nat) :
    CborInside (evoCborParseAt levels) (CborItem levels) (CborUnclosed levels) := by
  induction levels with
  | zero =>
      constructor
      · intro data v rest
        constructor
        · exact nofun
        · intro h
          cases h with
          | whole _ h _ => cases h
          | broken h _ => cases h
      · rfl
      · exact nofun
      · exact nofun
  | succ levels ih => exact cborInside_level ih

/-- An item that ends before a break becomes whole with so many breaks behind it. -/
theorem close_cborUnclosed {levels : Nat} {v : EvoCborValue} {data : List UInt8}
    (h : CborUnclosed levels v data) :
    ∃ k, 0 < k ∧ CborItem levels v (data ++ List.replicate k evoCborBreak) := by
  induction levels generalizing v data with
  | zero => cases h
  | succ levels ih =>
      have hclose (v : EvoCborValue) (data : List UInt8) := @ih v data
      have hpair (pair : List UInt8 × EvoCborValue) (data : List UInt8)
          (hpair : CborPairBroken (CborItem levels) (CborUnclosed levels) pair data) :
          ∃ k, 0 < k ∧ CborPair (CborItem levels) pair (data ++ List.replicate k evoCborBreak) := by
        cases hpair with
        | mk hkey hvalue =>
            obtain ⟨k, hk, hvalue⟩ := ih hvalue
            refine ⟨k, hk, ?_⟩
            rw [List.append_assoc]
            exact .mk hkey hvalue
      cases h with
      | definite hhead hbody =>
          cases hbody with
          | array hlast =>
              obtain ⟨k, hk, hseq⟩ := hlast.close hclose
              refine ⟨k, hk, ?_⟩
              rw [List.append_assoc]
              exact .definite hhead (.array hseq)
          | map hlast =>
              obtain ⟨k, hk, hseq⟩ := hlast.close hpair
              refine ⟨k, hk, ?_⟩
              rw [List.append_assoc]
              exact .definite hhead (.map hseq)
      | openArray hbody =>
          obtain ⟨k, hk, hstopped⟩ := hbody.close hclose
          exact ⟨k, hk, .openArray hstopped⟩
      | openMap hbody =>
          obtain ⟨k, hk, hstopped⟩ := hbody.close hpair
          exact ⟨k, hk, .openMap hstopped⟩

/-- No list is a whole item and one that ends before a break. -/
theorem not_cborItem_of_cborUnclosed {levels : Nat} {v v' : EvoCborValue} {data : List UInt8}
    (h : CborUnclosed levels v data) : ¬CborItem levels v' data := by
  intro hitem
  obtain ⟨k, hk, hclosed⟩ := close_cborUnclosed h
  have hmeets := (cborInside_parseAt levels).meets
  have hread := hmeets.read_whole hclosed []
  rw [List.append_nil, hmeets.read_whole hitem] at hread
  have hnil := (Prod.mk.inj (Option.some.inj hread)).2
  have hlength := congrArg List.length hnil
  rw [List.length_replicate, List.length_nil] at hlength
  omega

/-- The parser takes the items of the grammar, and nothing else. -/
structure CborExact (data : List UInt8) (off : Nat) : Prop where
  sound : ∀ v stop, evoCborParse data off = some (v, stop) → off < stop ∧ stop ≤ data.length
    ∧ CborItem (evoCborMaxDepth + 1) v (slice data (off, stop - off))
  complete : ∀ v item rest, data.drop off = item ++ rest → CborItem (evoCborMaxDepth + 1) v item →
    evoCborParse data off = some (v, off + item.length)

section Parse

variable {data : List UInt8} {off : Nat}

theorem evoCborParse_eq_some_iff {v : EvoCborValue} {stop : Nat} :
    evoCborParse data off = some (v, stop) ↔ ∃ rest, stop = data.length - rest.length
      ∧ evoCborParseAt (evoCborMaxDepth + 1) (data.drop off) = some (v, rest) := by
  unfold evoCborParse
  cases evoCborParseAt (evoCborMaxDepth + 1) (data.drop off) with
  | none => simp
  | some read =>
      obtain ⟨v', rest⟩ := read
      grind

/-- Where an item ends that begins at the offset. -/
theorem stop_of_item {levels : Nat} {v : EvoCborValue} {item rest : List UInt8}
    (hitem : CborItem levels v item) (hdata : data.drop off = item ++ rest) :
    0 < item.length ∧ off + item.length + rest.length = data.length := by
  have hpos := length_pos_of_begins ((cborInside_parseAt levels).whole v item hitem)
  have hlength := congrArg List.length hdata
  rw [List.length_drop, List.length_append] at hlength
  omega

/-- The parser is exact on a buffer that does not end before the break of an array or a map that
the item has open. -/
theorem evoCborParse_exact_iff (data : List UInt8) (off : Nat) :
    CborExact data off ↔ ¬∃ v, CborUnclosed (evoCborMaxDepth + 1) v (data.drop off) := by
  have hmeets := (cborInside_parseAt (evoCborMaxDepth + 1)).meets
  constructor
  · rintro hexact ⟨v, hunclosed⟩
    have hparse : evoCborParse data off = some (v, data.length) :=
      evoCborParse_eq_some_iff.mpr ⟨[], rfl, hmeets.read_broken hunclosed⟩
    obtain ⟨hlt, -, hitem⟩ := hexact.sound v data.length hparse
    have hslice : slice data (off, data.length - off) = data.drop off := by
      unfold slice
      dsimp only
      rw [← List.length_drop, List.take_length]
    rw [hslice] at hitem
    exact not_cborItem_of_cborUnclosed hunclosed hitem
  · intro hclosed
    constructor
    · intro v stop hparse
      obtain ⟨rest, hstop, hread⟩ := evoCborParse_eq_some_iff.mp hparse
      cases (hmeets _ _ _).mp hread with
      | whole item hitem hdata =>
          obtain ⟨hpos, hlength⟩ := stop_of_item hitem hdata
          have hslice : slice data (off, stop - off) = item := by
            unfold slice
            dsimp only
            rw [hdata, show stop - off = item.length by omega, List.take_left]
          rw [hslice]
          exact ⟨by omega, by omega, hitem⟩
      | broken hunclosed _ => exact absurd ⟨v, hunclosed⟩ hclosed
    · intro v item rest hdata hitem
      obtain ⟨hpos, hlength⟩ := stop_of_item hitem hdata
      exact evoCborParse_eq_some_iff.mpr
        ⟨rest, by omega, hdata ▸ hmeets.read_whole hitem rest⟩

/-- An array with one number, and no break. -/
theorem not_cborExact_of_no_break :
    evoCborParse [0x9F, 0x01] 0 = some (.array [.uint 1], 2) ∧ ¬CborExact [0x9F, 0x01] 0 := by
  have hparse : evoCborParse [0x9F, 0x01] 0 = some (.array [.uint 1], 2) := rfl
  refine ⟨hparse, fun hexact => ?_⟩
  obtain ⟨-, -, hitem⟩ := hexact.sound _ _ hparse
  have hread := (cborInside_parseAt (evoCborMaxDepth + 1)).meets.read_whole hitem [0xFF]
  have hclosed : evoCborParseAt (evoCborMaxDepth + 1)
      (slice [0x9F, 0x01] (0, 2 - 0) ++ [0xFF]) = some (.array [.uint 1], []) := rfl
  rw [hclosed] at hread
  cases hread

end Parse

end Tilibs.Evo
