import Mathlib
import Tilibs.CalcModel
import Tilibs.Lib.Bytes
import Tilibs.Lib.Remaining
import Tilibs.Tifileutil.Squish
import Tilibs.Tifileutil.SquishRoundTrip

/-!
# Tilibs.Tifileutil.Strippers

The header strippers of `unsquish` on a pointer and a remaining length.

A stripper has no result when it reads or writes outside of what is left.  None does: each
computes what the function of the same name does to a list (`Refines`), and moves the front to
get there.  Only the title of an ASHELL83 program is taken out of the middle
(`unsquishStrip_inside`).
-/

namespace Tilibs.Tifileutil

open Lib

/-- Whether a header was found, and what is left. -/
abbrev Stripper := Remaining UInt8 → Option (Bool × Remaining UInt8)

/-! ## strippers -/

/-- The loop over the markers of the TI-82 shells. -/
def ti82StripMarkersAt : List (List UInt8) → Stripper
  | [], r => some (false, r)
  | marker :: markers, r => do
      if ← r.hasPrefix 0 marker then
        let r := r.advance 3
        match ← r.memchr 0 0 r.len.toNat with
        | some namelen => pure (true, r.advance (namelen + 1))
        | none => pure (true, r)
      else ti82StripMarkersAt markers r

/-- `ti82_strip_marker_and_name` -/
def ti82StripMarkerAndNameAt : Stripper :=
  ti82StripMarkersAt ([Shell.ti82Crash, .ti82Ace, .ti82Ash, .ti82Sng].map ti82SquishedPrefix)

/-- The marker before an Ion header is skipped. -/
def skipIonMarkerAt (r : Remaining UInt8) : Option (Remaining UInt8) := do
  if 6 ≤ r.len.toNat then
    if ← r.isAt 0 0xBB <&&> (r.isAt 2 0xC9 <||> r.isAt 2 0xAF) <&&> r.isAt 3 0x30 then
      pure (r.advance 2)
    else pure r
  else pure r

/-- `ion_strip` -/
def ionStripAt : Stripper := fun r => do
  let ip ← skipIonMarkerAt r
  if 4 ≤ ip.len.toNat then
    if ← (ip.isAt 0 0xC9 <||> ip.isAt 0 0xAF) <&&> ip.isAt 1 0x30 then
      match ← ip.memchr 0 3 (ip.rest 3) with
      | some nul =>
          let offset ← ip.read 2
          if nul < 3 + offset.toNat then pure (true, ip.advance (nul + 1)) else pure (false, r)
      | none => pure (false, r)
    else pure (false, r)
  else pure (false, r)

/-- `mallard_strip` -/
def mallardStripAt : Stripper := fun r => do
  if 8 ≤ r.len.toNat then
    if ← r.hasPrefix 0 squishedMallardMagic then
      match ← r.memchr 0 8 (r.rest 8) with
      | some nul => pure (true, r.advance (nul + 1))
      | none => pure (false, r)
    else pure (false, r)
  else pure (false, r)

/-- Whether the byte at an index is a decimal digit. -/
def isDecimalAt (r : Remaining UInt8) (i : Nat) : Option Bool := (r.read i).map isDecimal

/-- `nostub_strip`, with the type. -/
def nostubStripTypeAt (r : Remaining UInt8) : Option (Option UInt8 × Remaining UInt8) := do
  if 10 ≤ r.len.toNat then
    if ← r.hasPrefix 0 squishedNostubPrefix <&&> (r.isAt 5 0x30 <||> r.isAt 5 0x31)
        <&&> isDecimalAt r 6 <&&> isDecimalAt r 7 <&&> isDecimalAt r 8 <&&> r.isAt 9 0x3F then
      let type ← r.read 5
      pure (some type, r.advance 10)
    else pure (none, r)
  else pure (none, r)

def nostubStripAt : Stripper := fun r =>
  (nostubStripTypeAt r).map fun found => (found.1.isSome, found.2)

/-- The loop over the shells of a family. -/
def ti83xStripShellsAt (header : List UInt8) : List (List UInt8 × List UInt8) → Stripper
  | [], r => some (false, r)
  | (name, tail) :: shells, r => do
      if ← r.hasPrefix 0 header <&&> r.hasPrefix header.length name
          <&&> r.hasPrefix (header.length + name.length) tail then
        pure (true, r.advance (header.length + name.length + tail.length))
      else ti83xStripShellsAt header shells r

/-- `ti83x_strip_shell` -/
def ti83xStripShellAt (model : CalcModel) : Stripper :=
  ti83xStripShellsAt (ti83xPrefix model) ti83xShells

/-- `tse_strip` -/
def tseStripAt : Stripper := fun r => do
  if 5 + 3 ≤ r.len.toNat then
    if ← r.hasPrefix 0 squishedTseMagic then
      match ← r.memchr 0 5 (r.rest 5) with
      | some nul =>
          if nul + 3 ≤ r.len.toNat then pure (true, r.advance (nul + 3)) else pure (false, r)
      | none => pure (false, r)
    else pure (false, r)
  else pure (false, r)

/-- A header of the TI-83+ that ends in a description, which starts at this offset. -/
def descriptionStripAt (start : Nat) : Stripper := fun r => do
  match ← r.memchr 0 start (r.rest start) with
  | some nul => pure (true, r.advance (nul + 1))
  | none => pure (false, r)

/-- A header that is a fixed string. -/
def prefixStripAt (header : List UInt8) : Stripper := fun r => do
  if ← r.hasPrefix 0 header then pure (true, r.advance header.length) else pure (false, r)

/-- `ti83p_strip_shell` -/
def ti83pStripShellAt : Stripper := fun r => do
  if ← pure (decide (2 + squishedMirageIconlen + 2 ≤ r.len.toNat))
      <&&> r.hasPrefix 0 squishedMirageMagic then
    descriptionStripAt (2 + squishedMirageIconlen) r
  else if ← pure (decide (2 + squishedMirageIconlen + 2 + 2 ≤ r.len.toNat))
      <&&> r.hasPrefix 0 squishedMirageModified then
    descriptionStripAt (2 + squishedMirageIconlen + 2) r
  else prefixStripAt squishedIonModule r

/-- `sos_module_strip` -/
def sosModuleStripAt : Stripper := prefixStripAt squishedSosModule

/-- The title of an ASHELL83 program is cut out: what follows it is moved down. -/
def cutTitleAt (r : Remaining UInt8) (titleoff : Nat) : Option (Remaining UInt8) := do
  if titleoff < r.len.toNat then
    match ← r.memchr 0 titleoff (r.rest titleoff) with
    | some nul =>
        let moved ← r.readN (nul + 1) (r.rest (nul + 1))
        let r ← r.write titleoff moved
        pure (r.shorten (nul + 1 - titleoff))
    | none => pure r
  else pure r

/-- The title's offset in what follows the header, which wraps when the title is before that. -/
def ashellTitleoff (titleptr codeoff : UInt32) : UInt32 :=
  if 0x9327 + 0x48 ≤ titleptr then titleptr - 0x9327 - 0x48 - 2 - codeoff else 0

/-- The ASHELL83 branch of `ti83_strip_shell`. -/
def ashellStripAt : Stripper := fun r => do
  let jump ← r.read 2
  let low ← r.read 5
  let high ← r.read 6
  let codeoff := 3 + jump.toUInt32
  let titleoff := ashellTitleoff (UInt32.ofNat (getLE [low, high])) codeoff
  if r.len < codeoff then pure (false, r)
  else
    let r ← cutTitleAt (r.advance codeoff.toNat) titleoff.toNat
    pure (true, r)

/-- The Venus branch of `ti83_strip_shell`, after the magic. -/
def venusDescriptionAt (r : Remaining UInt8) : Option (Remaining UInt8) := do
  if 3 ≤ r.len.toNat then
    if ← r.isAt 0 0x30 then
      match ← r.memchr 0 2 (r.rest 2) with
      | some nul =>
          let offset ← r.read 1
          if nul < 2 + offset.toNat then pure (r.advance (nul + 1)) else pure r
      | none => pure r
    else pure r
  else pure r

/-- Two strippers, the second when the first finds nothing. -/
def orElseAt (first second : Stripper) : Stripper := fun r => do
  let (found, r) ← first r
  if found then pure (true, r) else second r

/-- `ti83_strip_shell` -/
def ti83StripShellAt : Stripper := fun r => do
  if ← pure (decide (7 ≤ r.len.toNat)) <&&> r.isAt 0 0x00 <&&> r.isAt 1 0x18 then ashellStripAt r
  else if ← r.hasPrefix 0 squishedVenusMagic then
    let r ← venusDescriptionAt (r.advance squishedVenusMagic.length)
    pure (true, r)
  else
    orElseAt (ti83xStripShellAt .ti83)
      (orElseAt (prefixStripAt squishedIonModule) sosModuleStripAt) r

/-! ## unsquish -/

/-- The length field is skipped: the length of the rest or of the whole data. -/
def skipLengthAt (r : Remaining UInt8) : Option (Remaining UInt8) := do
  if 2 ≤ r.len.toNat then
    let low ← r.read 0
    let high ← r.read 1
    if getLE [low, high] = r.rest 2 ∨ getLE [low, high] = r.len.toNat then pure (r.advance 2)
    else pure r
  else pure r

/-- The strippers that are asked one after the other until one finds its header; the last one
is for the marker of the model. -/
def headerStrippers (model : CalcModel) : List Stripper :=
  (if model = .ti82 then [ti82StripMarkerAndNameAt]
    else if model = .ti83 then [ti83StripShellAt]
    else if model = .ti73 then [mallardStripAt, nostubStripAt]
    else []) ++ if squishedPrefix model = [] then [] else [prefixStripAt (squishedPrefix model)]

/-- The strippers that are all asked. -/
def shellStrippers (model : CalcModel) : List Stripper :=
  if model ≠ .ti73 ∧ model ≠ .ti82 ∧ model ≠ .ti83 then
    [ti83xStripShellAt .ti83p, tseStripAt, ti83pStripShellAt]
  else []

/-- What is left now, and what was left before each of the strippers that were called. -/
structure StripRun where
  now : Remaining UInt8
  past : List (Remaining UInt8)

namespace StripRun

def states (run : StripRun) : List (Remaining UInt8) := run.now :: run.past

def call (run : StripRun) (strip : Stripper) : Option (Bool × StripRun) := do
  let (found, r) ← strip run.now
  pure (found, ⟨r, run.states⟩)

def callFirst : List Stripper → StripRun → Option StripRun
  | [], run => some run
  | strip :: strippers, run => do
      let (found, run) ← run.call strip
      if found then pure run else callFirst strippers run

def callAll : List Stripper → StripRun → Option StripRun
  | [], run => some run
  | strip :: strippers, run => do
      let (_, run) ← run.call strip
      callAll strippers run

end StripRun

/-- The strippers of `tifileutil_unsquish`, in its order. -/
def unsquishStrip (model : CalcModel) (data : List UInt8) : Option StripRun := do
  let r ← skipLengthAt (.whole data)
  let run ← StripRun.callFirst (headerStrippers model) ⟨r, [.whole data]⟩
  let run ← StripRun.callAll (shellStrippers model) run
  StripRun.callAll (if model ≠ .ti82 ∧ 4 ≤ run.now.len.toNat then [ionStripAt] else []) run

/-- The trailer of a TI-73 or TI-83 program is dropped, if there is one. -/
def dropTrailerAt (model : CalcModel) (r : Remaining UInt8) : Option (Remaining UInt8) := do
  if squishUsesTrailer model ∧ squishTrailer.length ≤ r.len.toNat then
    let last ← r.readN (r.rest squishTrailer.length) squishTrailer.length
    if last = squishTrailer then pure (r.shorten squishTrailer.length) else pure r
  else pure r

/-! ## conditions and searches -/

theorem some_andM (a : Bool) (y : Option Bool) :
    (some a <&&> y) = if a then y else some false := by
  cases a <;> rfl

@[simp] theorem some_andM_some (a b : Bool) : (some a <&&> some b) = some (a && b) := by
  cases a <;> rfl

@[simp] theorem some_orM_some (a b : Bool) : (some a <||> some b) = some (a || b) := by
  cases a <;> rfl

section Searches

variable {r : Remaining UInt8}

theorem hasPrefix_front (hr : r.Inside) (header : List UInt8) :
    r.hasPrefix 0 header = some (header.isPrefixOf r.bytes) := by
  rw [Remaining.hasPrefix_eq hr (Nat.zero_le _), List.drop_zero]

theorem memchr_nul (hr : r.Inside) {start : Nat} (hstart : start ≤ r.len.toNat) :
    r.memchr 0 start (r.rest start)
      = some ((memchrNul (r.bytes.drop start)).map (start + ·)) := by
  have hlen := Remaining.length_bytes hr
  rw [Remaining.memchr_eq 0 (by rw [Remaining.rest_eq hstart]; omega)]
  rfl

theorem memchrNul_lt {bs : List UInt8} {i : Nat} (h : memchrNul bs = some i) : i < bs.length :=
  (List.findIdx?_eq_some_iff_findIdx_eq.mp h).1

/-- A NUL that is found is among what is left. -/
theorem nul_lt (hr : r.Inside) {start i : Nat} (hstart : start ≤ r.len.toNat)
    (h : memchrNul (r.bytes.drop start) = some i) : start + i < r.len.toNat := by
  have hlt := memchrNul_lt h
  rw [List.length_drop, Remaining.length_bytes hr] at hlt
  omega

end Searches

/-! ## each stripper moves the front to where the list function cuts -/

/-- The stripper does to a pointer and a length what the function does to the list that is left. -/
inductive Agrees (strip : Stripper) (onList : List UInt8 → Option (List UInt8))
    (r : Remaining UInt8) : Prop
  | found {k : Nat} : k ≤ r.len.toNat → strip r = some (true, r.advance k) →
      onList r.bytes = some (r.bytes.drop k) → Agrees strip onList r
  | missed : strip r = some (false, r) → onList r.bytes = none → Agrees strip onList r

def Refines (strip : Stripper) (onList : List UInt8 → Option (List UInt8)) : Prop :=
  ∀ r : Remaining UInt8, r.Inside → Agrees strip onList r

theorem mallardStripAt_refines : Refines mallardStripAt mallardStrip := by
  intro r hr
  have hlen := Remaining.length_bytes hr
  by_cases hroom : 8 ≤ r.len.toNat
  case neg =>
    exact .missed (by simp [mallardStripAt, hroom]) (by simp [mallardStrip, hlen, hroom])
  have hprefix := hasPrefix_front hr squishedMallardMagic
  have hmemchr := memchr_nul hr hroom
  by_cases hheader : squishedMallardMagic.isPrefixOf r.bytes = true
  case neg =>
    exact .missed (by simp [mallardStripAt, hroom, hprefix, hheader])
      (by simp [mallardStrip, hheader])
  cases hnul : memchrNul (r.bytes.drop 8) with
  | none =>
      exact .missed (by simp [mallardStripAt, hroom, hprefix, hheader, hmemchr, hnul])
        (by simp [mallardStrip, hnul])
  | some i =>
      have hlt := nul_lt hr hroom hnul
      exact .found (k := 8 + i + 1) (by omega)
        (by simp [mallardStripAt, hroom, hprefix, hheader, hmemchr, hnul])
        (by simp [mallardStrip, hlen, hroom, hheader, hnul])

theorem prefixStripAt_refines (header : List UInt8) :
    Refines (prefixStripAt header) fun data =>
      if header.isPrefixOf data then some (data.drop header.length) else none := by
  intro r hr
  have hprefix := hasPrefix_front hr header
  by_cases hheader : header.isPrefixOf r.bytes = true
  · have hle := (List.isPrefixOf_iff_prefix.mp hheader).length_le
    rw [Remaining.length_bytes hr] at hle
    exact .found hle (by simp [prefixStripAt, hprefix, hheader]) (if_pos hheader)
  · exact .missed (by simp [prefixStripAt, hprefix, hheader]) (if_neg hheader)

theorem tseStripAt_refines : Refines tseStripAt tseStrip := by
  intro r hr
  have hlen := Remaining.length_bytes hr
  by_cases hroom : 8 ≤ r.len.toNat
  case neg =>
    exact .missed (by simp [tseStripAt, hroom]) (by simp [tseStrip, hlen, hroom])
  have hprefix := hasPrefix_front hr squishedTseMagic
  have hmemchr := memchr_nul hr (show 5 ≤ r.len.toNat by omega)
  by_cases hheader : squishedTseMagic.isPrefixOf r.bytes = true
  case neg =>
    exact .missed (by simp [tseStripAt, hroom, hprefix, hheader]) (by simp [tseStrip, hheader])
  cases hnul : memchrNul (r.bytes.drop 5) with
  | none =>
      exact .missed (by simp [tseStripAt, hroom, hprefix, hheader, hmemchr, hnul])
        (by simp [tseStrip, hnul])
  | some i =>
      by_cases hmemreq : 5 + i + 3 ≤ r.len.toNat
      · exact .found hmemreq
          (by simp [tseStripAt, hroom, hprefix, hheader, hmemchr, hnul, hmemreq])
          (by simp [tseStrip, hlen, hroom, hheader, hnul, hmemreq])
      · exact .missed (by simp [tseStripAt, hroom, hprefix, hheader, hmemchr, hnul, hmemreq])
          (by simp [tseStrip, hlen, hnul, hmemreq])

/-- A description that is searched for is found or not. -/
theorem descriptionStripAt_refines {start : Nat} {r : Remaining UInt8} (hr : r.Inside)
    (hstart : start ≤ r.len.toNat) :
    Agrees (descriptionStripAt start)
      (fun data => (memchrNul (data.drop start)).map fun i => data.drop (start + i + 1)) r := by
  have hmemchr := memchr_nul hr hstart
  cases hnul : memchrNul (r.bytes.drop start) with
  | none => exact .missed (by simp [descriptionStripAt, hmemchr, hnul]) (by simp [hnul])
  | some i =>
      have hlt := nul_lt hr hstart hnul
      exact .found (k := start + i + 1) (by omega) (by simp [descriptionStripAt, hmemchr, hnul])
        (by simp [hnul])

theorem Agrees.congr {strip strip' : Stripper} {onList onList' : List UInt8 → Option (List UInt8)}
    {r : Remaining UInt8} (h : Agrees strip' onList' r) (hstrip : strip r = strip' r)
    (hlist : onList r.bytes = onList' r.bytes) : Agrees strip onList r := by
  cases h with
  | found hk hfound hcut => exact .found hk (hstrip.trans hfound) (hlist.trans hcut)
  | missed hmissed hnone => exact .missed (hstrip.trans hmissed) (hlist.trans hnone)

/-- A condition on the room that is left and on the header. -/
theorem roomAndPrefix_eq {r : Remaining UInt8} (hr : r.Inside) (n : Nat) (header : List UInt8) :
    (pure (decide (n ≤ r.len.toNat)) <&&> r.hasPrefix 0 header) =
      some (decide (r.bytes.length ≥ n ∧ header.isPrefixOf r.bytes = true)) := by
  rw [hasPrefix_front hr, Remaining.length_bytes hr, Option.pure_def, some_andM_some,
    Bool.decide_and, Bool.decide_eq_true]

theorem ti83pStripShellAt_refines : Refines ti83pStripShellAt ti83pStripShell := by
  intro r hr
  have hlen := Remaining.length_bytes hr
  have hmirage := roomAndPrefix_eq hr (2 + squishedMirageIconlen + 2) squishedMirageMagic
  have hmodified := roomAndPrefix_eq hr (2 + squishedMirageIconlen + 2 + 2) squishedMirageModified
  by_cases hfirst : r.bytes.length ≥ 2 + squishedMirageIconlen + 2
      ∧ squishedMirageMagic.isPrefixOf r.bytes = true
  · refine (descriptionStripAt_refines hr
      (show 2 + squishedMirageIconlen ≤ r.len.toNat by omega)).congr ?_ ?_
    · rw [ti83pStripShellAt, hmirage, decide_eq_true hfirst]
      rfl
    · rw [ti83pStripShell, if_pos hfirst]
  by_cases hsecond : r.bytes.length ≥ 2 + squishedMirageIconlen + 2 + 2
      ∧ squishedMirageModified.isPrefixOf r.bytes = true
  · refine (descriptionStripAt_refines hr
      (show 2 + squishedMirageIconlen + 2 ≤ r.len.toNat by omega)).congr ?_ ?_
    · rw [ti83pStripShellAt, hmirage, hmodified, decide_eq_false hfirst, decide_eq_true hsecond]
      rfl
    · rw [ti83pStripShell, if_neg hfirst, if_pos hsecond]
  · refine (prefixStripAt_refines squishedIonModule r hr).congr ?_ ?_
    · rw [ti83pStripShellAt, hmirage, hmodified, decide_eq_false hfirst, decide_eq_false hsecond]
      rfl
    · rw [ti83pStripShell, if_neg hfirst, if_neg hsecond]
      rfl

theorem sosModuleStripAt_refines : Refines sosModuleStripAt sosModuleStrip :=
  prefixStripAt_refines squishedSosModule

theorem nostubStripTypeAt_eq {r : Remaining UInt8} (hr : r.Inside) :
    nostubStripTypeAt r = some (match nostubStrip r.bytes with
      | some (type, _) => (some type, r.advance 10)
      | none => (none, r)) := by
  have hlen := Remaining.length_bytes hr
  by_cases hroom : 10 ≤ r.len.toNat
  case neg => simp [nostubStripTypeAt, nostubStrip, hlen, hroom]
  have hprefix := hasPrefix_front hr squishedNostubPrefix
  have hread : ∀ i, i < 10 → r.read i = some (r.bytes.getD i 0) :=
    fun i hi => Remaining.read_eq_getD (by omega) 0
  simp only [nostubStripTypeAt, ↓reduceIte, hprefix, Remaining.isAt, isDecimalAt, hread,
    Option.map_some, some_orM_some, some_andM_some, Nat.reduceLT, Option.bind_eq_bind,
    Option.bind_some, Bool.and_eq_true, Bool.or_eq_true, decide_eq_true_eq, nostubStrip, hlen,
    ge_iff_le, hroom, true_and]
  split <;> rfl

theorem nostubStrip_rest {data rest : List UInt8} {type : UInt8}
    (h : nostubStrip data = some (type, rest)) : rest = data.drop 10 := by
  unfold nostubStrip at h
  split at h
  · cases h
    rfl
  · cases h

theorem nostubStripAt_refines :
    Refines nostubStripAt fun data => (nostubStrip data).map Prod.snd := by
  intro r hr
  have htype := nostubStripTypeAt_eq hr
  cases hnostub : nostubStrip r.bytes with
  | none =>
      rw [hnostub] at htype
      exact .missed (by simp [nostubStripAt, htype]) (by simp [hnostub])
  | some result =>
      obtain ⟨type, rest⟩ := result
      rw [hnostub] at htype
      have hlen := Remaining.length_bytes hr
      have hten := nostubStrip_length hnostub
      have hrest : rest = r.bytes.drop 10 := nostubStrip_rest hnostub
      exact .found (k := 10) (by omega) (by simp [nostubStripAt, htype]) (by simp [hnostub, hrest])

theorem ti82StripMarkersAt_refines (markers : List (List UInt8))
    (hthree : ∀ marker ∈ markers, marker.length = 3) :
    Refines (ti82StripMarkersAt markers) fun data =>
      if markers.any fun marker => marker.isPrefixOf data then
        match memchrNul (data.drop 3) with
        | some i => some (data.drop (3 + i + 1))
        | none => some (data.drop 3)
      else none := by
  intro r hr
  induction markers with
  | nil => exact .missed rfl rfl
  | cons marker markers ih =>
      have hprefix := hasPrefix_front hr marker
      by_cases hheader : marker.isPrefixOf r.bytes = true
      case neg =>
        refine (ih fun m hm => hthree m (List.mem_cons_of_mem _ hm)).congr ?_ ?_
        · simp [ti82StripMarkersAt, hprefix, hheader]
        · simp [hheader]
      have hle := (List.isPrefixOf_iff_prefix.mp hheader).length_le
      rw [Remaining.length_bytes hr, hthree marker List.mem_cons_self] at hle
      have hnext := Remaining.inside_advance hr hle
      have hrest : (r.advance 3).rest 0 = (r.advance 3).len.toNat := Remaining.rest_eq (Nat.zero_le _)
      have hmemchr := memchr_nul hnext (Nat.zero_le _)
      rw [hrest, List.drop_zero, Remaining.bytes_advance hle] at hmemchr
      cases hnul : memchrNul (r.bytes.drop 3) with
      | none =>
          exact .found hle (by simp [ti82StripMarkersAt, hprefix, hheader, hmemchr, hnul])
            (by simp [hheader, hnul])
      | some i =>
          have hlt := nul_lt hr hle hnul
          refine .found (k := 3 + i + 1) (by omega) ?_ (by simp [hheader, hnul])
          simp [ti82StripMarkersAt, hprefix, hheader, hmemchr, hnul, Remaining.advance_advance,
            Nat.add_assoc]

theorem ti82StripMarkerAndNameAt_refines :
    Refines ti82StripMarkerAndNameAt ti82StripMarkerAndName :=
  ti82StripMarkersAt_refines _ (by decide)

/-- A header in three parts, which are compared one after the other. -/
theorem isPrefixOf_append (a b data : List UInt8) :
    (a ++ b).isPrefixOf data = (a.isPrefixOf data && b.isPrefixOf (data.drop a.length)) := by
  induction a generalizing data with
  | nil => rfl
  | cons x a ih =>
      cases data with
      | nil => rfl
      | cons y data =>
          rw [List.cons_append, List.isPrefixOf_cons_cons, List.isPrefixOf_cons_cons, ih, Bool.and_assoc]
          rfl

theorem threeParts_eq {r : Remaining UInt8} (hr : r.Inside) (header name tail : List UInt8) :
    (r.hasPrefix 0 header <&&> r.hasPrefix header.length name
      <&&> r.hasPrefix (header.length + name.length) tail) =
        some ((header ++ name ++ tail).isPrefixOf r.bytes) := by
  rw [isPrefixOf_append, isPrefixOf_append, List.length_append, hasPrefix_front hr, some_andM]
  by_cases hheader : header.isPrefixOf r.bytes = true
  case neg => simp [hheader]
  have hheaderLen := (List.isPrefixOf_iff_prefix.mp hheader).length_le
  rw [if_pos hheader, Remaining.hasPrefix_eq hr hheaderLen, some_andM, hheader, Bool.true_and]
  by_cases hname : name.isPrefixOf (r.bytes.drop header.length) = true
  case neg => simp [hname]
  have hnameLen := (List.isPrefixOf_iff_prefix.mp hname).length_le
  rw [List.length_drop] at hnameLen
  rw [if_pos hname, hname, Bool.true_and, Remaining.hasPrefix_eq hr (by omega)]

theorem ti83xStripShellsAt_refines (header : List UInt8) (shells : List (List UInt8 × List UInt8)) :
    Refines (ti83xStripShellsAt header shells) fun data =>
      ((shells.map fun shell => header ++ shell.1 ++ shell.2).find? fun header =>
        header.isPrefixOf data).map fun header => data.drop header.length := by
  intro r hr
  induction shells with
  | nil => exact .missed rfl rfl
  | cons shell shells ih =>
      obtain ⟨name, tail⟩ := shell
      have hparts := threeParts_eq hr header name tail
      by_cases hheader : (header ++ name ++ tail).isPrefixOf r.bytes = true
      · have hle := (List.isPrefixOf_iff_prefix.mp hheader).length_le
        rw [Remaining.length_bytes hr, List.length_append, List.length_append] at hle
        refine .found hle ?_ ?_
        · rw [ti83xStripShellsAt, hparts, hheader]
          rfl
        · simp only [List.map_cons, List.find?_cons, hheader, Option.map_some, List.length_append]
      · refine ih.congr ?_ ?_
        · rw [ti83xStripShellsAt, hparts, Bool.eq_false_iff.mpr hheader]
          rfl
        · simp only [List.map_cons, List.find?_cons, hheader]

theorem ti83xStripShellAt_refines (model : CalcModel) :
    Refines (ti83xStripShellAt model) (ti83xStripShell model) :=
  ti83xStripShellsAt_refines (ti83xPrefix model) ti83xShells

/-! ### Ion -/

theorem skipIonMarkerAt_eq {r : Remaining UInt8} (hr : r.Inside) :
    ∃ k, k ≤ r.len.toNat ∧ skipIonMarkerAt r = some (r.advance k)
      ∧ skipIonMarker r.bytes = r.bytes.drop k := by
  have hlen := Remaining.length_bytes hr
  by_cases hroom : 6 ≤ r.len.toNat
  case neg =>
    refine ⟨0, Nat.zero_le _, ?_, ?_⟩
    · rw [skipIonMarkerAt, if_neg hroom, Remaining.advance_zero]
      rfl
    · rw [skipIonMarker, if_neg (by omega), List.drop_zero]
  have hat : ∀ i a, i < 6 → r.isAt i a = some (decide (r.bytes.getD i 0 = a)) :=
    fun i a hi => Remaining.isAt_eq (by omega) 0 a
  by_cases hmarker : r.bytes.getD 0 0 = 0xBB ∧ (r.bytes.getD 2 0 = 0xC9 ∨ r.bytes.getD 2 0 = 0xAF)
      ∧ r.bytes.getD 3 0 = 0x30
  · refine ⟨2, by omega, ?_, ?_⟩
    · simp only [skipIonMarkerAt, hroom, ↓reduceIte, hat, Nat.reduceLT, some_orM_some,
        some_andM_some, Option.bind_eq_bind, Option.bind_some, Bool.and_eq_true, Bool.or_eq_true,
        decide_eq_true_eq, hmarker]
      rfl
    · rw [skipIonMarker, if_pos ⟨by omega, hmarker⟩]
  · refine ⟨0, Nat.zero_le _, ?_, ?_⟩
    · simp only [skipIonMarkerAt, hroom, ↓reduceIte, hat, Nat.reduceLT, some_orM_some,
        some_andM_some, Option.bind_eq_bind, Option.bind_some, Bool.and_eq_true, Bool.or_eq_true,
        decide_eq_true_eq, hmarker, Remaining.advance_zero]
      rfl
    · rw [skipIonMarker, if_neg fun h => hmarker h.2, List.drop_zero]

/-- The header itself, behind the marker. -/
theorem ionHeaderAt_eq {ip : Remaining UInt8} (hip : ip.Inside) (hroom : 4 ≤ ip.len.toNat) :
    ((ip.isAt 0 0xC9 <||> ip.isAt 0 0xAF) <&&> ip.isAt 1 0x30) =
      some (decide ((ip.bytes.getD 0 0 = 0xC9 ∨ ip.bytes.getD 0 0 = 0xAF)
        ∧ ip.bytes.getD 1 0 = 0x30)) := by
  have hlen := Remaining.length_bytes hip
  have hat : ∀ i a, i < 4 → ip.isAt i a = some (decide (ip.bytes.getD i 0 = a)) :=
    fun i a hi => Remaining.isAt_eq (by omega) 0 a
  simp only [hat, Nat.reduceLT, some_orM_some, some_andM_some, Bool.decide_and, Bool.decide_or]

theorem ionStripAt_refines : Refines ionStripAt ionStrip := by
  intro r hr
  obtain ⟨k, hk, hmarker, hskip⟩ := skipIonMarkerAt_eq hr
  have hip := Remaining.inside_advance hr hk
  have hbytes : skipIonMarker r.bytes = (r.advance k).bytes := by
    rw [hskip, Remaining.bytes_advance hk]
  have hlen := Remaining.length_bytes hip
  have hiplen : (r.advance k).len.toNat = r.len.toNat - k := Remaining.toNat_sub_ofNat hk
  by_cases hroom : 4 ≤ (r.advance k).len.toNat
  case neg =>
    exact .missed (by simp [ionStripAt, hmarker, hroom]) (by simp [ionStrip, hbytes, hlen, hroom])
  have hcond := ionHeaderAt_eq hip hroom
  have hmemchr := memchr_nul hip (show 3 ≤ (r.advance k).len.toNat by omega)
  have hoffset : (r.advance k).read 2 = some ((r.advance k).bytes.getD 2 0) :=
    Remaining.read_eq_getD (by omega) 0
  by_cases hheader : ((r.advance k).bytes.getD 0 0 = 0xC9 ∨ (r.advance k).bytes.getD 0 0 = 0xAF)
      ∧ (r.advance k).bytes.getD 1 0 = 0x30
  case neg =>
    refine .missed ?_ ?_
    · simp only [ionStripAt, hmarker, hroom, ↓reduceIte, hcond, hheader, Option.bind_eq_bind,
        Option.bind_some, decide_false, Bool.false_eq_true, Option.pure_def]
    · rw [ionStrip, hbytes]
      exact if_neg fun h => hheader h.2
  have hlist : ionStrip r.bytes = match memchrNul ((r.advance k).bytes.drop 3) with
      | some i => if 3 + i < 3 + ((r.advance k).bytes.getD 2 0).toNat then
          some ((r.advance k).bytes.drop (3 + i + 1)) else none
      | none => none := by
    rw [ionStrip, hbytes]
    exact if_pos ⟨by omega, hheader⟩
  have hstrip : ionStripAt r = match memchrNul ((r.advance k).bytes.drop 3) with
      | some i => if 3 + i < 3 + ((r.advance k).bytes.getD 2 0).toNat then
          some (true, (r.advance k).advance (3 + i + 1)) else some (false, r)
      | none => some (false, r) := by
    simp only [ionStripAt, hmarker, hroom, ↓reduceIte, hcond, hheader, Option.bind_eq_bind,
      Option.bind_some, hmemchr, hoffset, Option.pure_def]
    cases memchrNul ((r.advance k).bytes.drop 3) <;> rfl
  cases hnul : memchrNul ((r.advance k).bytes.drop 3) with
  | none =>
      rw [hnul] at hlist hstrip
      exact .missed hstrip hlist
  | some i =>
      have hlt := nul_lt hip (by omega) hnul
      rw [hnul] at hlist hstrip
      dsimp only at hlist hstrip
      by_cases hcover : 3 + i < 3 + ((r.advance k).bytes.getD 2 0).toNat
      · rw [if_pos hcover] at hlist hstrip
        rw [Remaining.advance_advance] at hstrip
        rw [Remaining.bytes_advance hk, List.drop_drop] at hlist
        exact .found (by omega) hstrip hlist
      · rw [if_neg hcover] at hlist hstrip
        exact .missed hstrip hlist

/-! ### ASHELL83 and Venus -/

theorem venusDescriptionAt_eq {r : Remaining UInt8} (hr : r.Inside) :
    ∃ k, k ≤ r.len.toNat ∧ venusDescriptionAt r = some (r.advance k)
      ∧ venusDescription r.bytes = r.bytes.drop k := by
  have hlen := Remaining.length_bytes hr
  have hkeep : some r = some (r.advance 0) := by rw [Remaining.advance_zero]
  by_cases hroom : 3 ≤ r.len.toNat
  case neg =>
    refine ⟨0, Nat.zero_le _, ?_, ?_⟩
    · rw [venusDescriptionAt, if_neg hroom]
      exact hkeep
    · rw [venusDescription, if_neg (by omega), List.drop_zero]
  have hfirst : r.isAt 0 0x30 = some (decide (r.bytes.getD 0 0 = 0x30)) :=
    Remaining.isAt_eq (by omega) 0 _
  by_cases hoffset : r.bytes.getD 0 0 = 0x30
  case neg =>
    refine ⟨0, Nat.zero_le _, ?_, ?_⟩
    · rw [venusDescriptionAt, if_pos hroom, hfirst, decide_eq_false hoffset]
      exact hkeep
    · rw [venusDescription, if_neg fun h => hoffset h.2, List.drop_zero]
  have hmemchr := memchr_nul hr (show 2 ≤ r.len.toNat by omega)
  have hread : r.read 1 = some (r.bytes.getD 1 0) := Remaining.read_eq_getD (by omega) 0
  have hlist : venusDescription r.bytes = match memchrNul (r.bytes.drop 2) with
      | some i => if 2 + i < 2 + (r.bytes.getD 1 0).toNat then r.bytes.drop (2 + i + 1)
          else r.bytes
      | none => r.bytes := by
    exact if_pos ⟨by omega, hoffset⟩
  have hstrip : venusDescriptionAt r = match memchrNul (r.bytes.drop 2) with
      | some i => if 2 + i < 2 + (r.bytes.getD 1 0).toNat then some (r.advance (2 + i + 1))
          else some r
      | none => some r := by
    simp only [venusDescriptionAt, hroom, ↓reduceIte, hfirst, hoffset, Option.bind_eq_bind,
      Option.bind_some, decide_true, hmemchr, hread, Option.pure_def]
    cases memchrNul (r.bytes.drop 2) <;> rfl
  cases hnul : memchrNul (r.bytes.drop 2) with
  | none =>
      rw [hnul] at hlist hstrip
      exact ⟨0, Nat.zero_le _, hstrip.trans hkeep, hlist⟩
  | some i =>
      have hlt := nul_lt hr (by omega) hnul
      rw [hnul] at hlist hstrip
      dsimp only at hlist hstrip
      by_cases hcover : 2 + i < 2 + (r.bytes.getD 1 0).toNat
      · rw [if_pos hcover] at hlist hstrip
        exact ⟨_, by omega, hstrip, hlist⟩
      · rw [if_neg hcover] at hlist hstrip
        exact ⟨0, Nat.zero_le _, hstrip.trans hkeep, hlist⟩

/-- What a function leaves is what a stripper leaves, inside of a buffer of the same length. -/
structure Leaves (r r' : Remaining UInt8) (left : List UInt8) : Prop where
  inside : r'.Inside
  length : r'.buffer.length = r.buffer.length
  bytes : r'.bytes = left

theorem leaves_advance {r : Remaining UInt8} (hr : r.Inside) {k : Nat} (hk : k ≤ r.len.toNat) :
    Leaves r (r.advance k) (r.bytes.drop k) :=
  ⟨Remaining.inside_advance hr hk, rfl, Remaining.bytes_advance hk⟩

theorem leaves_self {r : Remaining UInt8} (hr : r.Inside) : Leaves r r r.bytes := ⟨hr, rfl, rfl⟩

theorem cutTitleAt_leaves {r : Remaining UInt8} (hr : r.Inside) (titleoff : Nat) :
    ∃ r', cutTitleAt r titleoff = some r' ∧ Leaves r r' (cutTitle r.bytes titleoff) := by
  have hlen := Remaining.length_bytes hr
  by_cases htitle : titleoff < r.len.toNat
  case neg =>
    refine ⟨r, ?_, ?_⟩
    · rw [cutTitleAt, if_neg htitle]
      rfl
    · rw [cutTitle, if_neg (by omega)]
      exact leaves_self hr
  have hmemchr := memchr_nul hr htitle.le
  cases hnul : memchrNul (r.bytes.drop titleoff) with
  | none =>
      refine ⟨r, ?_, ?_⟩
      · simp [cutTitleAt, htitle, hmemchr, hnul]
      · rw [cutTitle, if_pos (by omega), hnul]
        exact leaves_self hr
  | some i =>
      have hlt := nul_lt hr htitle.le hnul
      have hrest : r.rest (titleoff + i + 1) = r.len.toNat - (titleoff + i + 1) :=
        Remaining.rest_eq (by omega)
      have hmoved : r.readN (titleoff + i + 1) (r.rest (titleoff + i + 1))
          = some (r.bytes.drop (titleoff + i + 1)) := by
        rw [Remaining.readN_eq (by omega), List.take_of_length_le]
        rw [List.length_drop]
        omega
      have hmovedLen : (r.bytes.drop (titleoff + i + 1)).length
          = r.len.toNat - (titleoff + i + 1) := by
        rw [List.length_drop, hlen]
      obtain ⟨r', hwrite, hptr, hlen', hbuffer, hbytes⟩ :=
        Remaining.exists_write hr (r.bytes.drop (titleoff + i + 1))
          (show titleoff + _ ≤ r.len.toNat by omega)
      have hr' : r'.Inside := by
        unfold Remaining.Inside at hr ⊢
        rw [hptr, hlen', hbuffer]
        exact hr
      have hshort : titleoff + i + 1 - titleoff ≤ r'.len.toNat := by
        rw [hlen']
        omega
      refine ⟨r'.shorten (titleoff + i + 1 - titleoff), ?_, ?_⟩
      · simp [cutTitleAt, htitle, hmemchr, hnul, hmoved, hwrite]
      · refine ⟨Remaining.inside_shorten hr' hshort, hbuffer, ?_⟩
        rw [Remaining.bytes_shorten hshort, hbytes, cutTitle, if_pos (by omega), hnul, hlen']
        apply List.take_left'
        rw [List.length_append, List.length_take, hmovedLen]
        omega

theorem toNat_ashellTitleoff (titleptr codeoff : Nat) (hptr : titleptr < 2 ^ 16)
    (hcode : codeoff < 2 ^ 16) :
    (ashellTitleoff (UInt32.ofNat titleptr) (UInt32.ofNat codeoff)).toNat =
      if titleptr ≥ 0x9327 + 0x48 then
        (titleptr + 2 ^ 32 - 0x9327 - 0x48 - 2 - codeoff) % 2 ^ 32
      else 0 := by
  have hptr32 : (UInt32.ofNat titleptr).toNat = titleptr :=
    UInt32.toNat_ofNat_of_lt' (lt_trans hptr (by decide))
  have hcode32 : (UInt32.ofNat codeoff).toNat = codeoff :=
    UInt32.toNat_ofNat_of_lt' (lt_trans hcode (by decide))
  have hle : (0x9327 + 0x48 : UInt32) ≤ UInt32.ofNat titleptr ↔ titleptr ≥ 0x9327 + 0x48 := by
    rw [UInt32.le_iff_toNat_le, hptr32]
    rfl
  unfold ashellTitleoff
  by_cases h : titleptr ≥ 0x9327 + 0x48
  · rw [if_pos (hle.mpr h), if_pos h]
    simp only [UInt32.toNat_sub, hptr32, hcode32, UInt32.reduceToNat]
    omega
  · rw [if_neg (mt hle.mp h), if_neg h]
    rfl

/-- A stripper and a function that find a header in the same data, and leave the same. -/
def LeavesAs (strip : Stripper) (onList : List UInt8 → Option (List UInt8)) : Prop :=
  ∀ r : Remaining UInt8, r.Inside → ∃ r',
    strip r = some ((onList r.bytes).isSome, r') ∧ Leaves r r' (orKeep onList r.bytes)

theorem Refines.leavesAs {strip : Stripper} {onList : List UInt8 → Option (List UInt8)}
    (h : Refines strip onList) : LeavesAs strip onList := by
  intro r hr
  cases h r hr with
  | found hk hfound hcut =>
      rw [orKeep_some hcut, hcut]
      exact ⟨_, hfound, leaves_advance hr hk⟩
  | missed hmissed hnone =>
      rw [orKeep_none hnone, hnone]
      exact ⟨r, hmissed, leaves_self hr⟩

theorem ashellStripAt_leavesAs {r : Remaining UInt8} (hr : r.Inside) (hroom : 7 ≤ r.len.toNat) :
    ∃ r', ashellStripAt r = some ((ashellStrip r.bytes).isSome, r')
      ∧ Leaves r r' (orKeep ashellStrip r.bytes) := by
  have hlen := Remaining.length_bytes hr
  have hread : ∀ i, i < 7 → r.read i = some (r.bytes.getD i 0) :=
    fun i hi => Remaining.read_eq_getD (by omega) 0
  have hjump := (r.bytes.getD 2 0).toNat_lt
  have hptr : getLE [r.bytes.getD 5 0, r.bytes.getD 6 0] < 2 ^ 16 :=
    lt_of_lt_of_eq (getLE_lt _) (by norm_num)
  have hcode : (3 + (r.bytes.getD 2 0).toUInt32 : UInt32)
      = UInt32.ofNat (3 + (r.bytes.getD 2 0).toNat) := by
    rw [UInt32.ofNat_add]
    congr 1
    exact UInt32.toNat_inj.mp (by simp)
  have hcodeNat : (3 + (r.bytes.getD 2 0).toUInt32 : UInt32).toNat
      = 3 + (r.bytes.getD 2 0).toNat := by
    have hsmall : 3 + (r.bytes.getD 2 0).toNat < 2 ^ 16 := by omega
    rw [hcode]
    exact UInt32.toNat_ofNat_of_lt' (lt_trans hsmall (by decide))
  have htitleoff := toNat_ashellTitleoff _ (3 + (r.bytes.getD 2 0).toNat) hptr (by omega)
  by_cases hover : 3 + (r.bytes.getD 2 0).toNat > r.len.toNat
  · have hnone : ashellStrip r.bytes = none := by
      rw [ashellStrip, if_pos (by omega)]
    refine ⟨r, ?_, ?_⟩
    · rw [hnone]
      simp only [ashellStripAt, hread, Nat.reduceLT, Option.bind_eq_bind, Option.bind_some]
      exact if_pos (UInt32.lt_iff_toNat_lt.mpr (by rw [hcodeNat]; exact hover))
    · rw [orKeep_none hnone]
      exact leaves_self hr
  · have hle : 3 + (r.bytes.getD 2 0).toNat ≤ r.len.toNat := by omega
    have hnext := leaves_advance hr hle
    obtain ⟨r', hcut, hleaves⟩ := cutTitleAt_leaves hnext.inside
      (ashellTitleoff (UInt32.ofNat (getLE [r.bytes.getD 5 0, r.bytes.getD 6 0]))
        (UInt32.ofNat (3 + (r.bytes.getD 2 0).toNat))).toNat
    have hsome : ashellStrip r.bytes = some r'.bytes := by
      rw [ashellStrip, if_neg (by omega), hleaves.bytes, hnext.bytes, htitleoff]
    refine ⟨r', ?_, ?_⟩
    · rw [hsome]
      simp only [ashellStripAt, hread, Nat.reduceLT, Option.bind_eq_bind, Option.bind_some]
      rw [if_neg fun h => hover (by rw [← hcodeNat]; exact UInt32.lt_iff_toNat_lt.mp h), hcodeNat,
        hcode, hcut]
      rfl
    · rw [orKeep_some hsome]
      exact ⟨hleaves.inside, hleaves.length, rfl⟩

theorem orElseAt_refines {first second : Stripper} {onFirst onSecond : List UInt8 → Option (List UInt8)}
    (hfirst : Refines first onFirst) (hsecond : Refines second onSecond) :
    Refines (orElseAt first second) fun data => match onFirst data with
      | some rest => some rest
      | none => onSecond data := by
  intro r hr
  cases hfirst r hr with
  | found hk hfound hcut =>
      refine .found hk ?_ (by rw [hcut])
      rw [orElseAt, hfound]
      rfl
  | missed hmissed hnone =>
      refine (hsecond r hr).congr ?_ (by rw [hnone])
      rw [orElseAt, hmissed]
      rfl

/-- The first condition of `ti83_strip_shell`. -/
theorem ashellHeaderAt_eq {r : Remaining UInt8} (hr : r.Inside) :
    (pure (decide (7 ≤ r.len.toNat)) <&&> r.isAt 0 0x00 <&&> r.isAt 1 0x18) =
      some (decide (r.bytes.length ≥ 7 ∧ r.bytes.getD 0 0 = 0x00 ∧ r.bytes.getD 1 0 = 0x18)) := by
  have hlen := Remaining.length_bytes hr
  rw [Option.pure_def, some_andM, hlen]
  by_cases hroom : 7 ≤ r.len.toNat
  · have hat : ∀ i a, i < 7 → r.isAt i a = some (decide (r.bytes.getD i 0 = a)) :=
      fun i a hi => Remaining.isAt_eq (by omega) 0 a
    rw [if_pos (decide_eq_true hroom), hat 0 _ (by decide), hat 1 _ (by decide), some_andM_some,
      Bool.decide_and, Bool.decide_and, decide_eq_true (show r.len.toNat ≥ 7 from hroom),
      Bool.true_and]
  · simp [hroom]

theorem venusStripAt_refines {r : Remaining UInt8} (hr : r.Inside)
    (hmagic : squishedVenusMagic.isPrefixOf r.bytes = true) :
    ∃ k, k ≤ r.len.toNat
      ∧ venusDescriptionAt (r.advance squishedVenusMagic.length) = some (r.advance k)
      ∧ venusDescription (r.bytes.drop 7) = r.bytes.drop k := by
  have hle := (List.isPrefixOf_iff_prefix.mp hmagic).length_le
  rw [Remaining.length_bytes hr] at hle
  obtain ⟨k, hk, hstrip, hlist⟩ := venusDescriptionAt_eq (Remaining.inside_advance hr hle)
  have hlen' : (r.advance squishedVenusMagic.length).len.toNat
      = r.len.toNat - squishedVenusMagic.length := Remaining.toNat_sub_ofNat hle
  rw [Remaining.advance_advance] at hstrip
  rw [Remaining.bytes_advance hle, List.drop_drop] at hlist
  exact ⟨_, by omega, hstrip, hlist⟩

/-- The headers that `ti83_strip_shell` looks for last. -/
def ti83OtherStrip (data : List UInt8) : Option (List UInt8) :=
  match ti83xStripShell .ti83 data with
  | some rest => some rest
  | none => match if squishedIonModule.isPrefixOf data then some (data.drop 2) else none with
    | some rest => some rest
    | none => sosModuleStrip data

theorem ti83StripShell_eq {data : List UInt8}
    (hashell : ¬ (data.length ≥ 7 ∧ data.getD 0 0 = 0x00 ∧ data.getD 1 0 = 0x18))
    (hmagic : ¬ squishedVenusMagic.isPrefixOf data = true) :
    ti83StripShell data = ti83OtherStrip data := by
  rw [ti83StripShell, if_neg hashell, if_neg hmagic, ti83OtherStrip]
  cases ti83xStripShell .ti83 data with
  | some rest => rfl
  | none => cases squishedIonModule.isPrefixOf data <;> rfl

theorem ti83OtherStripAt_refines : Refines (orElseAt (ti83xStripShellAt .ti83)
    (orElseAt (prefixStripAt squishedIonModule) sosModuleStripAt)) ti83OtherStrip :=
  orElseAt_refines (ti83xStripShellAt_refines .ti83)
    (orElseAt_refines (prefixStripAt_refines squishedIonModule) sosModuleStripAt_refines)

theorem ti83StripShellAt_leavesAs : LeavesAs ti83StripShellAt ti83StripShell := by
  intro r hr
  have hashellAt := ashellHeaderAt_eq hr
  have hmagicAt := hasPrefix_front hr squishedVenusMagic
  by_cases hashell : r.bytes.length ≥ 7 ∧ r.bytes.getD 0 0 = 0x00 ∧ r.bytes.getD 1 0 = 0x18
  · have hlist : ti83StripShell r.bytes = ashellStrip r.bytes := by
      rw [ti83StripShell, if_pos hashell]
    rw [orKeep, hlist, ti83StripShellAt, hashellAt, decide_eq_true hashell]
    exact ashellStripAt_leavesAs hr (by rw [← Remaining.length_bytes hr]; exact hashell.1)
  by_cases hmagic : squishedVenusMagic.isPrefixOf r.bytes = true
  · obtain ⟨k, hk, hstrip, hdescription⟩ := venusStripAt_refines hr hmagic
    have hlist : ti83StripShell r.bytes = some (r.bytes.drop k) := by
      rw [ti83StripShell, if_neg hashell, if_pos hmagic, hdescription]
    refine ⟨r.advance k, ?_, ?_⟩
    · rw [hlist, ti83StripShellAt, hashellAt, decide_eq_false hashell, hmagicAt, hmagic]
      simp [hstrip]
    · rw [orKeep_some hlist]
      exact leaves_advance hr hk
  · rw [orKeep, ti83StripShell_eq hashell hmagic, ti83StripShellAt, hashellAt,
      decide_eq_false hashell, hmagicAt, Bool.eq_false_iff.mpr hmagic]
    exact ti83OtherStripAt_refines.leavesAs r hr

/-! ## strippers in a row -/

theorem skipLengthAt_leaves {r : Remaining UInt8} (hr : r.Inside) :
    ∃ r', skipLengthAt r = some r' ∧ Leaves r r' (skipLength r.bytes) := by
  have hlen := Remaining.length_bytes hr
  by_cases hroom : 2 ≤ r.len.toNat
  case neg =>
    refine ⟨r, ?_, ?_⟩
    · rw [skipLengthAt, if_neg hroom]
      rfl
    · rw [skipLength, if_neg (by omega)]
      exact leaves_self hr
  obtain ⟨low, high, rest, hbytes⟩ : ∃ low high rest, r.bytes = low :: high :: rest := by
    match hb : r.bytes with
    | [] => rw [hb] at hlen; simp at hlen; omega
    | [_] => rw [hb] at hlen; simp at hlen; omega
    | low :: high :: rest => exact ⟨low, high, rest, rfl⟩
  have hlow : r.read 0 = some low := by rw [Remaining.read_eq, hbytes]; rfl
  have hhigh : r.read 1 = some high := by rw [Remaining.read_eq, hbytes]; rfl
  have htwo : r.rest 2 = r.len.toNat - 2 := Remaining.rest_eq hroom
  have htake : r.bytes.take 2 = [low, high] := by rw [hbytes]; rfl
  by_cases hfield : getLE [low, high] = r.len.toNat - 2 ∨ getLE [low, high] = r.len.toNat
  · refine ⟨r.advance 2, ?_, ?_⟩
    · simp [skipLengthAt, hroom, hlow, hhigh, htwo, hfield]
    · rw [skipLength, htake, hlen, if_pos ⟨hroom, hfield⟩]
      exact leaves_advance hr hroom
  · refine ⟨r, ?_, ?_⟩
    · simp [skipLengthAt, hroom, hlow, hhigh, htwo, hfield]
    · rw [skipLength, htake, hlen, if_neg fun h => hfield h.2]
      exact leaves_self hr

/-- The functions in the place of the strippers: the first that finds a header. -/
def firstFound : List (List UInt8 → Option (List UInt8)) → List UInt8 → List UInt8
  | [], data => data
  | f :: fs, data => (f data).getD (firstFound fs data)

/-- All of the functions, one after the other. -/
def allFound (fs : List (List UInt8 → Option (List UInt8))) (data : List UInt8) : List UInt8 :=
  fs.foldl (fun data f => orKeep f data) data

section Runs

variable {strippers : List Stripper} {fs : List (List UInt8 → Option (List UInt8))}
  {run : StripRun}

theorem call_leaves {strip : Stripper} {f : List UInt8 → Option (List UInt8)}
    (h : LeavesAs strip f) (hnow : run.now.Inside) : ∃ r',
      run.call strip = some ((f run.now.bytes).isSome, ⟨r', run.states⟩)
        ∧ Leaves run.now r' (orKeep f run.now.bytes) := by
  obtain ⟨r', hstrip, hleaves⟩ := h run.now hnow
  refine ⟨r', ?_, hleaves⟩
  rw [StripRun.call, hstrip]
  rfl

/-- Strippers that are asked until one finds its header: what holds before any of them has found
one is kept by those that find nothing, and the one that finds its header is the last. -/
theorem callFirst_leaves {before after : Remaining UInt8 → Prop}
    (hinside : ∀ r, before r → r.Inside)
    (hmissed : ∀ r r', before r → Leaves r r' r.bytes → before r')
    (hstep : ∀ f ∈ fs, ∀ r r', before r → Leaves r r' (orKeep f r.bytes) → after r')
    (hs : List.Forall₂ LeavesAs strippers fs) (hnow : before run.now)
    (hrun : ∀ r ∈ run.states, after r) : ∃ run',
      StripRun.callFirst strippers run = some run' ∧ (∀ r ∈ run'.states, after r)
        ∧ run'.now.bytes = firstFound fs run.now.bytes := by
  induction hs generalizing run with
  | nil => exact ⟨run, rfl, hrun, rfl⟩
  | @cons strip f strippers fs hstrip _ ih =>
      obtain ⟨r', hcall, hleaves⟩ := call_leaves hstrip (hinside _ hnow)
      have hafter : ∀ r ∈ (⟨r', run.states⟩ : StripRun).states, after r := by
        intro r hr
        rcases List.mem_cons.mp hr with rfl | hr
        · exact hstep f List.mem_cons_self _ _ hnow hleaves
        · exact hrun r hr
      cases hf : f run.now.bytes with
      | some rest =>
          rw [hf] at hcall
          refine ⟨_, by rw [StripRun.callFirst, hcall]; rfl, hafter, ?_⟩
          rw [hleaves.bytes, firstFound, orKeep, hf]
          rfl
      | none =>
          rw [hf] at hcall
          rw [orKeep_none hf] at hleaves
          obtain ⟨run', hcalls, hstates, hbytes⟩ :=
            @ih ⟨r', run.states⟩ (fun g hg => hstep g (List.mem_cons_of_mem _ hg))
              (hmissed _ _ hnow hleaves) hafter
          refine ⟨run', ?_, hstates, ?_⟩
          · rw [StripRun.callFirst, hcall]
            exact hcalls
          · rw [hbytes, firstFound, hf]
            show firstFound fs r'.bytes = firstFound fs run.now.bytes
            rw [hleaves.bytes]

/-- Strippers that are all asked. -/
theorem callAll_leaves {P : Remaining UInt8 → Prop} (hinside : ∀ r, P r → r.Inside)
    (hstep : ∀ f ∈ fs, ∀ r r', P r → Leaves r r' (orKeep f r.bytes) → P r')
    (hs : List.Forall₂ LeavesAs strippers fs) (hrun : ∀ r ∈ run.states, P r) : ∃ run',
      StripRun.callAll strippers run = some run' ∧ (∀ r ∈ run'.states, P r)
        ∧ run'.now.bytes = allFound fs run.now.bytes := by
  induction hs generalizing run with
  | nil => exact ⟨run, rfl, hrun, rfl⟩
  | @cons strip f strippers fs hstrip _ ih =>
      have hnow : P run.now := hrun _ List.mem_cons_self
      obtain ⟨r', hcall, hleaves⟩ := call_leaves hstrip (hinside _ hnow)
      obtain ⟨run', hcalls, hstates, hbytes⟩ :=
        @ih ⟨r', run.states⟩ (fun g hg => hstep g (List.mem_cons_of_mem _ hg)) (by
          intro r hr
          rcases List.mem_cons.mp hr with rfl | hr
          · exact hstep f List.mem_cons_self _ _ hnow hleaves
          · exact hrun r hr)
      refine ⟨run', ?_, hstates, ?_⟩
      · rw [StripRun.callAll, hcall]
        exact hcalls
      · rw [hbytes, allFound, allFound, List.foldl_cons, ← hleaves.bytes]

end Runs

/-! ## unsquish -/

/-- A suffix of the data, or one from which a piece has been cut out, as the title of a TI-83
program is. -/
inductive LeftOf (model : CalcModel) (data : List UInt8) : List UInt8 → Prop
  | suffix {bs : List UInt8} : bs <:+ data → LeftOf model data bs
  | shortened {rest : List UInt8} {t u : Nat} : model = .ti83 → rest <:+ data → t ≤ u →
      LeftOf model data (rest.take t ++ rest.drop u)

theorem LeftOf.drop {model : CalcModel} {data bs : List UInt8} (h : LeftOf model data bs) (k : Nat) :
    LeftOf model data (bs.drop k) := by
  cases h with
  | suffix h => exact .suffix ((List.drop_suffix k bs).trans h)
  | @shortened rest t u hmodel h htu =>
      rw [List.drop_append, List.drop_drop, List.drop_take, List.length_take]
      by_cases hk : k ≤ min t rest.length
      · rw [Nat.sub_eq_zero_of_le hk, Nat.add_zero]
        have hsplit : rest.drop u = (rest.drop k).drop (u - k) := by
          rw [List.drop_drop]
          congr 1
          omega
        rw [hsplit]
        exact .shortened hmodel ((List.drop_suffix k rest).trans h) (by omega)
      · refine .suffix ?_
        have hfront : (rest.drop k).take (t - k) = [] := by
          by_cases htk : t ≤ k
          · rw [Nat.sub_eq_zero_of_le htk, List.take_zero]
          · rw [List.drop_eq_nil_of_le (by omega), List.take_nil]
        rw [hfront, List.nil_append]
        exact (List.drop_suffix _ rest).trans h

/-- A pointer and a length that describe what is left of the data. -/
structure Describes (model : CalcModel) (data : List UInt8) (r : Remaining UInt8) : Prop where
  inside : r.Inside
  length : r.buffer.length = data.length
  left : LeftOf model data r.bytes

/-- A stripper that only moves the front keeps what is left a piece of the data. -/
theorem Refines.describes {strip : Stripper} {f : List UInt8 → Option (List UInt8)}
    (h : Refines strip f) {model : CalcModel} {data : List UInt8} {r r' : Remaining UInt8}
    (hr : Describes model data r) (hleaves : Leaves r r' (orKeep f r.bytes)) :
    Describes model data r' := by
  refine ⟨hleaves.inside, hleaves.length.trans hr.length, ?_⟩
  rw [hleaves.bytes]
  cases h r hr.inside with
  | found _ _ hcut =>
      rw [orKeep_some hcut]
      exact hr.left.drop _
  | missed _ hnone =>
      rw [orKeep_none hnone]
      exact hr.left

theorem suffix_skipLength (data : List UInt8) : skipLength data <:+ data := by
  unfold skipLength
  dsimp only
  split
  · exact List.drop_suffix 2 data
  · exact List.suffix_refl data

theorem left_cutTitle {rest data : List UInt8} (h : rest <:+ data) (titleoff : Nat) :
    LeftOf .ti83 data (cutTitle rest titleoff) := by
  unfold cutTitle
  split
  · split
    · exact .shortened rfl h (by omega)
    · exact .suffix h
  · exact .suffix h

/-- Only the title of an ASHELL83 program is cut out of the middle. -/
theorem left_ti83StripShell {r : Remaining UInt8} (hr : r.Inside) {data : List UInt8}
    (h : r.bytes <:+ data) : LeftOf .ti83 data (orKeep ti83StripShell r.bytes) := by
  by_cases hashell : r.bytes.length ≥ 7 ∧ r.bytes.getD 0 0 = 0x00 ∧ r.bytes.getD 1 0 = 0x18
  · have hlist : ti83StripShell r.bytes = ashellStrip r.bytes := by
      rw [ti83StripShell, if_pos hashell]
    rw [orKeep, hlist, ashellStrip]
    split
    · exact .suffix h
    · have hrest : r.bytes.drop (3 + (r.bytes.getD 2 0).toNat) <:+ data :=
        (List.drop_suffix _ _).trans h
      exact left_cutTitle hrest _
  by_cases hmagic : squishedVenusMagic.isPrefixOf r.bytes = true
  · obtain ⟨k, _, _, hdescription⟩ := venusStripAt_refines hr hmagic
    have hlist : ti83StripShell r.bytes = some (r.bytes.drop k) := by
      rw [ti83StripShell, if_neg hashell, if_pos hmagic, hdescription]
    rw [orKeep_some hlist]
    exact .suffix ((List.drop_suffix k _).trans h)
  · rw [orKeep, ti83StripShell_eq hashell hmagic]
    cases ti83OtherStripAt_refines r hr with
    | @found k _ _ hcut =>
        rw [hcut]
        exact .suffix ((List.drop_suffix k _).trans h)
    | missed _ hnone =>
        rw [hnone]
        exact .suffix h

/-! ### the functions of each model -/

/-- The marker of a model, if it has one. -/
def prefixStrip (header data : List UInt8) : Option (List UInt8) :=
  if header.isPrefixOf data then some (data.drop header.length) else none

def headerFunctions (model : CalcModel) : List (List UInt8 → Option (List UInt8)) :=
  (if model = .ti82 then [ti82StripMarkerAndName]
    else if model = .ti83 then [ti83StripShell]
    else if model = .ti73 then [mallardStrip, fun data => (nostubStrip data).map Prod.snd]
    else []) ++ if squishedPrefix model = [] then [] else [prefixStrip (squishedPrefix model)]

def shellFunctions (model : CalcModel) : List (List UInt8 → Option (List UInt8)) :=
  if model ≠ .ti73 ∧ model ≠ .ti82 ∧ model ≠ .ti83 then
    [ti83xStripShell .ti83p, tseStrip, ti83pStripShell]
  else []

theorem firstFound_headerFunctions (model : CalcModel) (data : List UInt8) :
    firstFound (headerFunctions model) data = (stripHeader model data).1 := by
  have hlast : firstFound (if squishedPrefix model = [] then []
        else [prefixStrip (squishedPrefix model)]) data
      = if squishedPrefix model ≠ [] ∧ (squishedPrefix model).isPrefixOf data then
          data.drop (squishedPrefix model).length
        else data := by
    by_cases hnone : squishedPrefix model = []
    · simp [hnone, firstFound]
    · by_cases hprefix : (squishedPrefix model).isPrefixOf data = true
      · simp [hnone, firstFound, prefixStrip, hprefix]
      · simp [hnone, firstFound, prefixStrip, hprefix]
  unfold headerFunctions stripHeader
  dsimp only
  rw [← hlast]
  by_cases h82 : model = .ti82
  · rw [if_pos h82, if_pos h82]
    rfl
  rw [if_neg h82, if_neg h82]
  by_cases h83 : model = .ti83
  · rw [if_pos h83, if_pos h83]
    rfl
  rw [if_neg h83, if_neg h83]
  by_cases h73 : model = .ti73
  · rw [if_pos h73, if_pos h73, List.cons_append, firstFound, List.singleton_append, firstFound]
    cases mallardStrip data with
    | some rest => rfl
    | none => cases nostubStrip data <;> rfl
  · rw [if_neg h73, if_neg h73]
    rfl

theorem allFound_shellFunctions (model : CalcModel) (data : List UInt8) :
    allFound (shellFunctions model) data = stripTi83pShells model data := by
  unfold shellFunctions stripTi83pShells
  split <;> rfl

theorem refines_shellStrippers (model : CalcModel) :
    List.Forall₂ Refines (shellStrippers model) (shellFunctions model) := by
  unfold shellStrippers shellFunctions
  split
  · exact .cons (ti83xStripShellAt_refines .ti83p) (.cons tseStripAt_refines
      (.cons ti83pStripShellAt_refines .nil))
  · exact .nil

theorem refines_markerStrippers (model : CalcModel) :
    List.Forall₂ Refines
      (if squishedPrefix model = [] then [] else [prefixStripAt (squishedPrefix model)])
      (if squishedPrefix model = [] then [] else [prefixStrip (squishedPrefix model)]) := by
  split
  · exact .nil
  · exact .cons (prefixStripAt_refines _) .nil

/-- On every model but the TI-83 the header strippers only move the front. -/
theorem refines_headerStrippers {model : CalcModel} (h83 : model ≠ .ti83) :
    List.Forall₂ Refines (headerStrippers model) (headerFunctions model) := by
  unfold headerStrippers headerFunctions
  rw [if_neg h83, if_neg h83]
  refine List.rel_append ?_ (refines_markerStrippers model)
  by_cases h82 : model = .ti82
  · rw [if_pos h82, if_pos h82]
    exact .cons ti82StripMarkerAndNameAt_refines .nil
  rw [if_neg h82, if_neg h82]
  by_cases h73 : model = .ti73
  · rw [if_pos h73, if_pos h73]
    exact .cons mallardStripAt_refines (.cons nostubStripAt_refines .nil)
  · rw [if_neg h73, if_neg h73]
    exact .nil

theorem forall₂_leavesAs {strippers : List Stripper} {fs : List (List UInt8 → Option (List UInt8))}
    (h : List.Forall₂ Refines strippers fs) : List.Forall₂ LeavesAs strippers fs :=
  h.imp fun _ _ hrefines => hrefines.leavesAs

/-- Strippers that only move the front, of pieces of the data. -/
theorem describes_of_refines {strippers : List Stripper}
    {fs : List (List UInt8 → Option (List UInt8))} (h : List.Forall₂ Refines strippers fs)
    {model : CalcModel} {data : List UInt8} : ∀ f ∈ fs, ∀ r r', Describes model data r →
      Leaves r r' (orKeep f r.bytes) → Describes model data r' := by
  intro f hf r r' hr hleaves
  obtain ⟨strip, _, hrefines⟩ := (exists_of_forall₂ h).2 f hf
  exact hrefines.describes hr hleaves

/-- The headers of a model, one after the other until one is found. -/
theorem callFirst_headerStrippers (model : CalcModel) (data : List UInt8) {run : StripRun}
    (hsuffix : run.now.bytes <:+ data) (hrun : ∀ r ∈ run.states, Describes model data r) :
    ∃ run', StripRun.callFirst (headerStrippers model) run = some run'
      ∧ (∀ r ∈ run'.states, Describes model data r)
      ∧ run'.now.bytes = (stripHeader model run.now.bytes).1 := by
  have hnow := hrun run.now List.mem_cons_self
  by_cases h83 : model = .ti83
  · subst h83
    have hstrippers : headerStrippers .ti83 = [ti83StripShellAt] := rfl
    have hfunctions : headerFunctions .ti83 = [ti83StripShell] := rfl
    rw [← firstFound_headerFunctions, hstrippers, hfunctions]
    refine callFirst_leaves
      (fun r (h : Describes .ti83 data r ∧ r.bytes <:+ data) => h.1.inside) ?_ ?_ (.cons ti83StripShellAt_leavesAs .nil) ⟨hnow, hsuffix⟩ hrun
    · rintro r r' ⟨hr, hr'⟩ hleaves
      refine ⟨⟨hleaves.inside, hleaves.length.trans hr.length, ?_⟩, ?_⟩
      · rw [hleaves.bytes]
        exact hr.left
      · rw [hleaves.bytes]
        exact hr'
    · rintro f hf r r' ⟨hr, hr'⟩ hleaves
      obtain rfl := List.mem_singleton.mp hf
      refine ⟨hleaves.inside, hleaves.length.trans hr.length, ?_⟩
      rw [hleaves.bytes]
      exact left_ti83StripShell hr.inside hr'
  · have hstrippers := refines_headerStrippers h83
    rw [← firstFound_headerFunctions]
    refine callFirst_leaves (fun r (h : Describes model data r) => h.inside) ?_
      (describes_of_refines hstrippers) (forall₂_leavesAs hstrippers) hnow hrun
    intro r r' hr hleaves
    refine ⟨hleaves.inside, hleaves.length.trans hr.length, ?_⟩
    rw [hleaves.bytes]
    exact hr.left

theorem whole_describes (model : CalcModel) {data : List UInt8} (hlen : data.length < 2 ^ 32) :
    Describes model data (.whole data) ∧ (Remaining.whole data).bytes = data := by
  have hsize : (UInt32.ofNat data.length).toNat = data.length := UInt32.toNat_ofNat_of_lt' hlen
  have hbytes : (Remaining.whole data).bytes = data := by
    rw [Remaining.bytes, Remaining.whole, hsize, List.drop_zero, List.take_length]
  refine ⟨⟨?_, rfl, ?_⟩, hbytes⟩
  · rw [Remaining.Inside, Remaining.whole, hsize, Nat.zero_add]
  · rw [hbytes]
    exact .suffix (List.suffix_refl data)

/-- The strippers of `unsquish` leave what the functions over lists leave, and on the way every
pointer and length describe a piece of the data. -/
theorem exists_unsquishStrip (model : CalcModel) {data : List UInt8} (hlen : data.length < 2 ^ 32) :
    ∃ run, unsquishStrip model data = some run ∧ (∀ r ∈ run.states, Describes model data r)
      ∧ run.now.bytes = stripIon model (stripTi83pShells model
        (stripHeader model (skipLength data)).1) := by
  obtain ⟨hwhole, hbytes⟩ := whole_describes model hlen
  obtain ⟨r, hskip, hleaves⟩ := skipLengthAt_leaves hwhole.inside
  rw [hbytes] at hleaves
  have hr : Describes model data r := by
    refine ⟨hleaves.inside, hleaves.length.trans hwhole.length, ?_⟩
    rw [hleaves.bytes]
    exact .suffix (suffix_skipLength data)
  obtain ⟨run, hfirst, hstates, hheader⟩ := @callFirst_headerStrippers model data
    ⟨r, [.whole data]⟩ (by rw [hleaves.bytes]; exact suffix_skipLength data) (by
      intro r' hr'
      rcases List.mem_cons.mp hr' with rfl | hr'
      · exact hr
      · obtain rfl := List.mem_singleton.mp hr'
        exact hwhole)
  have hheader' : run.now.bytes = (stripHeader model (skipLength data)).1 := by
    rw [hheader, hleaves.bytes]
  have hshells := refines_shellStrippers model
  obtain ⟨run', hall, hstates', hshell⟩ := callAll_leaves (fun r h => h.inside)
    (describes_of_refines hshells) (forall₂_leavesAs hshells) hstates
  rw [allFound_shellFunctions, hheader'] at hshell
  have hlast := hstates' run'.now List.mem_cons_self
  have hroom := Remaining.length_bytes hlast.inside
  have hion : List.Forall₂ Refines
      (if model ≠ .ti82 ∧ 4 ≤ run'.now.len.toNat then [ionStripAt] else [])
      (if model ≠ .ti82 ∧ 4 ≤ run'.now.len.toNat then [ionStrip] else []) := by
    split
    · exact .cons ionStripAt_refines .nil
    · exact .nil
  obtain ⟨run'', hions, hstates'', hbytes''⟩ := callAll_leaves (fun r h => h.inside)
    (describes_of_refines hion) (forall₂_leavesAs hion) hstates'
  refine ⟨run'', ?_, hstates'', ?_⟩
  · simp only [unsquishStrip, hskip, Option.bind_eq_bind, Option.bind_some, hfirst, hall]
    exact hions
  · rw [hbytes'', ← hshell, stripIon, hroom]
    by_cases hcond : model ≠ .ti82 ∧ 4 ≤ run'.now.len.toNat
    · rw [if_pos hcond, if_pos hcond]
      rfl
    · rw [if_neg hcond, if_neg hcond]
      rfl

/-- **The header strippers of `unsquish`.**  No stripper reads or writes outside of what is left,
and each leaves a pointer and a length that describe a suffix of the data, or on a TI-83 a suffix
without its title. -/
theorem unsquishStrip_inside (model : CalcModel) (data : List UInt8)
    (hlen : data.length < 2 ^ 32) :
    ∃ run, unsquishStrip model data = some run ∧ ∀ r ∈ run.states, Describes model data r := by
  obtain ⟨run, hrun, hstates, -⟩ := exists_unsquishStrip model hlen
  exact ⟨run, hrun, hstates⟩

/-- An ASHELL83 program whose title is behind its code: the code is `0xC9`, the title `Hi`. -/
def ashellProgram : List UInt8 :=
  [0x0D, 0x00, 0x00, 0x18, 0x04, 0x00, 0x00, 0x79, 0x93, 0xC9, 0x48, 0x69, 0x00, 0xAA, 0xBB]

theorem unsquishStrip_inside_ashell :
    ∃ run, unsquishStrip .ti83 ashellProgram = some run
      ∧ ∀ r ∈ run.states, Describes .ti83 ashellProgram r :=
  unsquishStrip_inside .ti83 ashellProgram (by decide)

/-- The trailer is compared below the length as well. -/
theorem dropTrailerAt_leaves (model : CalcModel) {r : Remaining UInt8} (hr : r.Inside) :
    ∃ r', dropTrailerAt model r = some r' ∧ Leaves r r' (dropTrailer model r.bytes) := by
  have hlen := Remaining.length_bytes hr
  have hkeep : ¬ (squishUsesTrailer model ∧ squishTrailer.length ≤ r.len.toNat) →
      dropTrailer model r.bytes = r.bytes := by
    intro h
    rw [dropTrailer, if_neg]
    rw [Bool.and_eq_true, List.isSuffixOf_iff_suffix]
    rintro ⟨huses, hsuffix⟩
    exact h ⟨huses, hlen ▸ hsuffix.length_le⟩
  by_cases hroom : squishUsesTrailer model ∧ squishTrailer.length ≤ r.len.toNat
  case neg =>
    refine ⟨r, ?_, ?_⟩
    · rw [dropTrailerAt, if_neg hroom]
      rfl
    · rw [hkeep hroom]
      exact leaves_self hr
  have hrest : r.rest squishTrailer.length = r.len.toNat - squishTrailer.length :=
    Remaining.rest_eq hroom.2
  have hlast : r.readN (r.rest squishTrailer.length) squishTrailer.length
      = some (r.bytes.drop (r.len.toNat - squishTrailer.length)) := by
    rw [hrest, Remaining.readN_eq (by omega), List.take_of_length_le]
    rw [List.length_drop]
    omega
  have hiff : squishTrailer.isSuffixOf r.bytes = true ↔
      r.bytes.drop (r.len.toNat - squishTrailer.length) = squishTrailer := by
    rw [List.isSuffixOf_iff_suffix, List.suffix_iff_eq_drop, hlen]
    exact eq_comm
  by_cases htrailer : r.bytes.drop (r.len.toNat - squishTrailer.length) = squishTrailer
  · refine ⟨r.shorten squishTrailer.length, ?_, ?_⟩
    · rw [dropTrailerAt, if_pos hroom, hlast, Option.bind_eq_bind, Option.bind_some,
        if_pos htrailer]
      rfl
    · rw [dropTrailer, if_pos (by rw [Bool.and_eq_true]; exact ⟨hroom.1, hiff.mpr htrailer⟩), hlen]
      exact ⟨Remaining.inside_shorten hr hroom.2, rfl, Remaining.bytes_shorten hroom.2⟩
  · refine ⟨r, ?_, ?_⟩
    · rw [dropTrailerAt, if_pos hroom, hlast, Option.bind_eq_bind, Option.bind_some,
        if_neg htrailer]
      rfl
    · rw [dropTrailer, if_neg (by rw [Bool.and_eq_true]; exact fun h => htrailer (hiff.mp h.2))]
      exact leaves_self hr

/-- The code that `unsquish` converts is the one that the functions over lists find. -/
theorem unsquishStrip_dropTrailer (model : CalcModel) {data : List UInt8}
    (hlen : data.length < 2 ^ 32) : ∃ run r, unsquishStrip model data = some run
      ∧ dropTrailerAt model run.now = some r
      ∧ r.bytes = dropTrailer model (stripIon model (stripTi83pShells model
          (stripHeader model (skipLength data)).1)) := by
  obtain ⟨run, hrun, hstates, hbytes⟩ := exists_unsquishStrip model hlen
  have hnow := (hstates run.now List.mem_cons_self).inside
  obtain ⟨r, htrailer, hleaves⟩ := dropTrailerAt_leaves model hnow
  refine ⟨run, r, hrun, htrailer, ?_⟩
  rw [hleaves.bytes, hbytes]

example : (unsquishStrip .ti83 ashellProgram).map (fun run => run.now.bytes)
    = some [0xC9, 0xAA, 0xBB] := by decide

end Tilibs.Tifileutil
