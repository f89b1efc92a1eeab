import Mathlib
import Tilibs.Files.Regular8x
import Tilibs.Files.Regular9xRoundTrip
import Tilibs.Lib.Fallible

/-!
# Tilibs.Files.Regular8xPasses

The two passes over a TI-8x regular file, on any bytes that the reader accepts.  The first pass
goes from entry to entry by the second length word of each and by the layout as far as it is
known there, the second pass by the first length word and by the layout that the first pass ended
with.
-/

namespace Tilibs.Files

open Lib Conv

/-! ## what the bytes say -/

/-- The byte at a position. -/
def byteAt (bytes : List UInt8) (pos : Nat) : UInt8 := ((bytes.drop pos).take 1).headI

/-- The word at a position. -/
def wordAt (bytes : List UInt8) (pos : Nat) : Nat := getLE ((bytes.drop pos).take 2)

/-- The bytes of an entry before its data, with the word for the attribute or without, and with
a name that is padded or not. -/
def headerBytes (model : CalcModel) (attr padded : Bool) (nameLength : Nat) : Nat :=
  (if isTi8586 model then 8 + nameLength else 15)
    + (if model = .ti86 ∧ padded then 8 - nameLength else 0) + (if attr then 2 else 0)

/-- The header of an entry: whether a word 0x0D began this entry or one before, how its own first
word says that the name is padded, and the two length words. -/
structure EntryHead where
  pos : Nat
  ti83p : Bool
  padded86 : Bool
  nameLength : Nat
  size : Nat
  sizeAgain : Nat

/-- The header by what is known when the entry is reached; only names of eight bytes are followed
by an attribute. -/
def EntryHead.ownBytes (model : CalcModel) (h : EntryHead) : Nat :=
  headerBytes model (h.ti83p && !isTi8586 model) h.padded86 h.nameLength

/-- The header by what is known at the last entry. -/
def EntryHead.finalBytes (model : CalcModel) (h final : EntryHead) : Nat :=
  headerBytes model final.ti83p final.padded86 h.nameLength

/-- The header at a position. -/
def entryHead (model : CalcModel) (bytes : List UInt8) (ti83p : Bool) (pos : Nat) : EntryHead :=
  let tmp := wordAt bytes pos
  let own : EntryHead :=
    { pos
      ti83p := ti83p || tmp == 0x0D
      padded86 := !decide (tmp < 0x0C)
      nameLength := if isTi8586 model then (byteAt bytes (pos + 5)).toNat else 8
      size := wordAt bytes (pos + 2)
      sizeAgain := 0 }
  { own with sizeAgain := wordAt bytes (pos + own.ownBytes model - 2) }

theorem eight_le_ownBytes (model : CalcModel) (h : EntryHead) : 8 ≤ h.ownBytes model := by
  unfold EntryHead.ownBytes headerBytes
  split <;> omega

/-- The headers of the data section, where an entry is as long as its second length word says. -/
def entryHeads (model : CalcModel) (bytes : List UInt8) (last : Nat) (ti83p : Bool) (pos : Nat) :
    List EntryHead :=
  if pos ≥ last then []
  else
    let h := entryHead model bytes ti83p pos
    h :: entryHeads model bytes last h.ti83p (pos + h.ownBytes model + h.sizeAgain)
termination_by last - pos
decreasing_by
  have hown := eight_le_ownBytes model (entryHead model bytes ti83p pos)
  omega

/-- In every entry but the last, the two length words differ by no more than the two ways to lay
out its header do, and the last one ends in the data section. -/
def Chained (model : CalcModel) (last : Nat) (final : EntryHead) : List EntryHead → Prop
  | [] => True
  | [h] => h.pos + h.finalBytes model final + h.size ≤ last
  | h :: next :: rest =>
      h.finalBytes model final + h.size = h.ownBytes model + h.sizeAgain
        ∧ Chained model last final (next :: rest)

/-- The headers fit together, with the layout that the last of them leaves. -/
def HeadsAgree (model : CalcModel) (last : Nat) (hs : List EntryHead) : Prop :=
  ∀ final ∈ hs.getLast?, Chained model last final hs

/-! ## what the passes do -/

/-- Where the first pass starts its entries. -/
def countedStarts (model : CalcModel) (last : Nat) (layout : Layout8x) (f : InFile) : List Nat :=
  if f.pos ≥ last then []
  else
    match h : Proc.exec (skipEntry model layout) f with
    | (.error _, _) => []
    | (.ok layout', f') => f.pos :: countedStarts model last layout' f'
termination_by last - f.pos
decreasing_by
  have hlt := lt_of_exec_skipEntry h
  omega

/-- Where the second pass starts and ends its entries. -/
def parsedSpans (conv : Converters) (model modelDst : CalcModel) (fileSize : Nat)
    (layout : Layout8x) : Nat → InFile → List (Nat × Nat)
  | 0, _ => []
  | n + 1, f =>
      match Proc.exec (readEntry8x conv model modelDst fileSize layout) f with
      | (.error _, _) => []
      | (.ok _, f') => (f.pos, f'.pos) :: parsedSpans conv model modelDst fileSize layout n f'

/-- The model of a file. -/
def fileModel (bytes : List UInt8) : CalcModel := tifilesSignature2calctype (cstr (bytes.take 8))

/-- The end of the data section. -/
def sectionEnd (bytes : List UInt8) : Nat := 55 + wordAt bytes 53

/-- The passes find as many entries at the same offsets, and all of them in the data section. -/
def PassesAgree (conv : Converters) (modelDst : CalcModel) (bytes : List UInt8) : Prop :=
  ∃ n layout, countEntries (fileModel bytes) (sectionEnd bytes) ⟨false, 8, false⟩ ⟨bytes, 55⟩
      = .ok (n, layout)
    ∧ (parsedSpans conv (fileModel bytes) modelDst bytes.length layout n ⟨bytes, 55⟩).length = n
    ∧ (parsedSpans conv (fileModel bytes) modelDst bytes.length layout n ⟨bytes, 55⟩).map Prod.fst
      = countedStarts (fileModel bytes) (sectionEnd bytes) ⟨false, 8, false⟩ ⟨bytes, 55⟩
    ∧ ∀ span ∈ parsedSpans conv (fileModel bytes) modelDst bytes.length layout n ⟨bytes, 55⟩,
      span.2 ≤ sectionEnd bytes

/-! ## reading -/

theorem exec_freadBytes_ok {n : Nat} {f f' : InFile} {field : List UInt8}
    (h : Proc.exec (freadBytes n) f = (.ok field, f')) :
    field = (f.bytes.drop f.pos).take n ∧ f' = f.advance n :=
  (exec_fread_eq_ok_iff.mp h).2

theorem exec_freadNChars_ok {n : Nat} {f f' : InFile} {s : List UInt8}
    (h : Proc.exec (freadNChars n) f = (.ok s, f')) :
    s = cstr ((f.bytes.drop f.pos).take n) ∧ f' = f.advance n := by
  obtain ⟨field, t, hread, hpure⟩ := Proc.exec_bind_eq_ok_iff.mp h
  obtain ⟨rfl, rfl⟩ := exec_freadBytes_ok hread
  cases hpure
  exact ⟨rfl, rfl⟩

theorem exec_freadByte_ok {f f' : InFile} {b : UInt8}
    (h : Proc.exec freadByte f = (.ok b, f')) : b = byteAt f.bytes f.pos ∧ f' = f.advance 1 := by
  obtain ⟨field, t, hread, hpure⟩ := Proc.exec_bind_eq_ok_iff.mp h
  obtain ⟨rfl, rfl⟩ := exec_freadBytes_ok hread
  cases hpure
  exact ⟨rfl, rfl⟩

theorem exec_freadWord_ok {f f' : InFile} {w : Nat}
    (h : Proc.exec freadWord f = (.ok w, f')) : w = wordAt f.bytes f.pos ∧ f' = f.advance 2 := by
  obtain ⟨field, t, hread, hpure⟩ := Proc.exec_bind_eq_ok_iff.mp h
  obtain ⟨rfl, rfl⟩ := exec_freadBytes_ok hread
  cases hpure
  exact ⟨rfl, rfl⟩

theorem exec_freadLength_ok {fileSize : Nat} {f f' : InFile} {w : Nat}
    (h : Proc.exec (freadLength fileSize) f = (.ok w, f')) :
    w = wordAt f.bytes f.pos ∧ f' = f.advance 2 := by
  obtain ⟨length, t, hread, h⟩ := Proc.exec_bind_eq_ok_iff.mp h
  split at h
  · cases h
  · cases h
    exact exec_freadWord_ok hread

theorem exec_freadNameLength_ok {f f' : InFile} {b : UInt8}
    (h : Proc.exec freadNameLength f = (.ok b, f')) :
    b = byteAt f.bytes f.pos ∧ b.toNat ≤ 8 ∧ f' = f.advance 1 := by
  obtain ⟨length, t, hread, h⟩ := Proc.exec_bind_eq_ok_iff.mp h
  obtain ⟨rfl, rfl⟩ := exec_freadByte_ok hread
  split at h
  · cases h
  · rename_i hle
    cases h
    exact ⟨rfl, by simpa [UInt8.lt_iff_toNat_lt] using hle, rfl⟩

@[simp] theorem exec_fskip (n : Nat) (f : InFile) :
    Proc.exec (fskip n : FileReader Unit) f = (.ok (), f.advance n) := rfl

/-- What an entry of the first pass leaves. -/
structure Skipped (model : CalcModel) (h : EntryHead) (layout layout' : Layout8x) : Prop where
  ti83p : layout'.ti83p = h.ti83p
  padded86 : model = .ti86 → layout'.padded86 = h.padded86
  short : h.nameLength ≤ 8
  nameLength : isTi8586 model = false → layout'.nameLength = layout.nameLength

theorem exec_skipName_ok {model : CalcModel} {layout layout' : Layout8x} {ti83p : Bool}
    {bytes : List UInt8} {pos : Nat} {f' : InFile}
    (hlayout : layout.ti83p = (entryHead model bytes ti83p pos).ti83p)
    (h : Proc.exec (skipName model (wordAt bytes pos) layout) ⟨bytes, pos + 2⟩
      = (.ok layout', f')) :
    Skipped model (entryHead model bytes ti83p pos) layout layout'
      ∧ f' = ⟨bytes, pos + (entryHead model bytes ti83p pos).ownBytes model - 2⟩ := by
  unfold skipName at h
  split at h
  · rename_i h85
    subst h85
    rw [Proc.exec_bind_ok (exec_fskip 3 _)] at h
    obtain ⟨nameLength, t, hname, h⟩ := Proc.exec_bind_eq_ok_iff.mp h
    obtain ⟨rfl, hshort, rfl⟩ := exec_freadNameLength_ok hname
    cases h
    refine ⟨⟨hlayout, fun h => absurd h (by decide), hshort, fun h => absurd h (by decide)⟩, ?_⟩
    simp [EntryHead.ownBytes, headerBytes, entryHead, isTi8586, InFile.advance, Nat.add_assoc]
    omega
  · split at h
    · rename_i h86
      subst h86
      rw [Proc.exec_bind_ok (exec_fskip 3 _)] at h
      obtain ⟨nameLength, t, hname, h⟩ := Proc.exec_bind_eq_ok_iff.mp h
      obtain ⟨rfl, hshort, rfl⟩ := exec_freadNameLength_ok hname
      cases h
      refine ⟨⟨hlayout, fun _ => rfl, hshort, fun h => absurd h (by decide)⟩, ?_⟩
      simp [EntryHead.ownBytes, headerBytes, entryHead, isTi8586, InFile.advance, Nat.add_assoc]
      split_ifs <;> omega
    · rename_i h85 h86
      have hother : isTi8586 model = false := by simp [isTi8586, h85, h86]
      cases h
      refine ⟨⟨hlayout, fun h => absurd h h86, ?_, fun _ => rfl⟩, ?_⟩
      · simp [entryHead, hother]
      · rw [hlayout]
        simp [EntryHead.ownBytes, headerBytes, entryHead, hother, h86, InFile.advance]
        split <;> omega

/-- An entry of the first pass, in the words of its header. -/
theorem exec_skipEntry_ok {model : CalcModel} {layout layout' : Layout8x} {bytes : List UInt8}
    {pos : Nat} {f' : InFile}
    (h : Proc.exec (skipEntry model layout) ⟨bytes, pos⟩ = (.ok layout', f')) :
    Skipped model (entryHead model bytes layout.ti83p pos) layout layout'
      ∧ f' = ⟨bytes, pos + (entryHead model bytes layout.ti83p pos).ownBytes model
        + (entryHead model bytes layout.ti83p pos).sizeAgain⟩ := by
  unfold skipEntry at h
  obtain ⟨tmp, t, htmp, h⟩ := Proc.exec_bind_eq_ok_iff.mp h
  obtain ⟨rfl, rfl⟩ := exec_freadWord_ok htmp
  obtain ⟨next, t, hname, h⟩ := Proc.exec_bind_eq_ok_iff.mp h
  obtain ⟨⟨hti83p, hpadded, hshort, hlength⟩, rfl⟩ :=
    @exec_skipName_ok model _ next layout.ti83p bytes pos t rfl hname
  obtain ⟨size, t, hsize, h⟩ := Proc.exec_bind_eq_ok_iff.mp h
  obtain ⟨rfl, rfl⟩ := exec_freadWord_ok hsize
  cases h
  have hown := eight_le_ownBytes model (entryHead model bytes layout.ti83p pos)
  refine ⟨⟨hti83p, hpadded, hshort, hlength⟩, ?_⟩
  show InFile.mk bytes (_ - 2 + 2 + (entryHead model bytes layout.ti83p pos).sizeAgain) = _
  congr 1
  omega

/-- What the second pass knows of the layout, at the end of the first. -/
structure LayoutAt (model : CalcModel) (final : EntryHead) (layout : Layout8x) : Prop where
  ti83p : layout.ti83p = final.ti83p
  padded86 : model = .ti86 → layout.padded86 = final.padded86
  nameLength : isTi8586 model = false → layout.nameLength = 8

theorem exec_readNameLength_ok {model : CalcModel} {layout : Layout8x} {final : EntryHead}
    {bytes : List UInt8} {ti83p : Bool} {pos : Nat} {nameLength : UInt8} {f' : InFile}
    (hlayout : LayoutAt model final layout)
    (h : Proc.exec (readNameLength model layout) ⟨bytes, pos + 5⟩ = (.ok nameLength, f')) :
    nameLength.toNat = (entryHead model bytes ti83p pos).nameLength
      ∧ f' = ⟨bytes, pos + if isTi8586 model then 6 else 5⟩ := by
  unfold readNameLength at h
  show _ = (if isTi8586 model then (byteAt bytes (pos + 5)).toNat else 8) ∧ _
  cases h8586 : isTi8586 model with
  | true =>
      rw [h8586, if_pos rfl] at h
      obtain ⟨rfl, rfl⟩ := exec_freadByte_ok h
      exact ⟨rfl, rfl⟩
  | false =>
      rw [h8586] at h
      cases h
      rw [hlayout.nameLength h8586]
      exact ⟨rfl, rfl⟩

theorem exec_readAttr_ok {layout : Layout8x} {type : UInt8} {size : Nat}
    {attr : UInt8 × UInt8 × Nat} {f f' : InFile}
    (h : Proc.exec (readAttr layout type size) f = (.ok attr, f')) :
    f' = f.advance (if layout.ti83p then 2 else 0) := by
  unfold readAttr at h
  split at h
  · rename_i hattr
    obtain ⟨word, t, hword, h⟩ := Proc.exec_bind_eq_ok_iff.mp h
    obtain ⟨rfl, rfl⟩ := exec_freadWord_ok hword
    cases h
    rw [if_pos hattr]
  · rename_i hattr
    cases h
    rw [if_neg hattr]
    rfl

/-- An entry of the second pass, in the words of its header. -/
theorem exec_readEntry8x_ok {conv : Converters} {model modelDst : CalcModel} {fileSize : Nat}
    {layout : Layout8x} {final : EntryHead} {bytes : List UInt8} {ti83p : Bool} {pos : Nat}
    {entry : VarEntry × Nat} {f' : InFile} (hlayout : LayoutAt model final layout)
    (hshort : (entryHead model bytes ti83p pos).nameLength ≤ 8)
    (h : Proc.exec (readEntry8x conv model modelDst fileSize layout) ⟨bytes, pos⟩
      = (.ok entry, f')) :
    f' = ⟨bytes, pos + (entryHead model bytes ti83p pos).finalBytes model final
      + (entryHead model bytes ti83p pos).size⟩ := by
  unfold readEntry8x at h
  obtain ⟨packetLength, t, hpacket, h⟩ := Proc.exec_bind_eq_ok_iff.mp h
  obtain ⟨-, rfl⟩ := exec_freadLength_ok hpacket
  obtain ⟨size, t, hsize, h⟩ := Proc.exec_bind_eq_ok_iff.mp h
  obtain ⟨rfl, rfl⟩ := exec_freadLength_ok hsize
  obtain ⟨type, t, htype, h⟩ := Proc.exec_bind_eq_ok_iff.mp h
  obtain ⟨-, rfl⟩ := exec_freadByte_ok htype
  obtain ⟨nameLength, t, hlength, h⟩ := Proc.exec_bind_eq_ok_iff.mp h
  obtain ⟨hname, rfl⟩ := @exec_readNameLength_ok model layout final bytes ti83p pos nameLength t
    hlayout hlength
  obtain ⟨varname, t, hvarname, h⟩ := Proc.exec_bind_eq_ok_iff.mp h
  obtain ⟨-, rfl⟩ := exec_freadNChars_ok hvarname
  obtain ⟨padding, t, hpadding, h⟩ := Proc.exec_bind_eq_ok_iff.mp h
  obtain ⟨-, rfl⟩ := exec_freadBytes_ok hpadding
  obtain ⟨attr, t, hattr, h⟩ := Proc.exec_bind_eq_ok_iff.mp h
  have hattr := exec_readAttr_ok hattr
  subst hattr
  obtain ⟨word, t, hword, h⟩ := Proc.exec_bind_eq_ok_iff.mp h
  obtain ⟨-, rfl⟩ := exec_freadWord_ok hword
  obtain ⟨data, t, hdata, h⟩ := Proc.exec_bind_eq_ok_iff.mp h
  obtain ⟨-, rfl⟩ := exec_freadBytes_ok hdata
  cases h
  show InFile.mk bytes (pos + (if isTi8586 model then 6 else 5) + nameLength.toNat
    + (if model = .ti86 ∧ layout.padded86 then (2 ^ 32 + 8 - nameLength.toNat) % 2 ^ 32 else 0)
    + (if layout.ti83p then 2 else 0) + 2 + (entryHead model bytes ti83p pos).size) = _
  congr 2
  have hpad : (if model = .ti86 ∧ layout.padded86 then (2 ^ 32 + 8 - nameLength.toNat) % 2 ^ 32
      else 0) = if model = .ti86 ∧ final.padded86 then 8 - nameLength.toNat else 0 := by
    by_cases h86 : model = .ti86
    · rw [hlayout.padded86 h86]
      split
      · omega
      · rfl
    · rw [if_neg (fun h => h86 h.1), if_neg (fun h => h86 h.1)]
  unfold EntryHead.finalBytes headerBytes
  rw [hpad, hlayout.ti83p, ← hname]
  cases h8586 : isTi8586 model with
  | true => simp only [if_true]; omega
  | false =>
      have height : nameLength.toNat = 8 := by
        rw [hname]
        simp [entryHead, h8586]
      simp only [Bool.false_eq_true, if_false]
      omega

/-! ## the first pass -/

theorem entryHeads_of_lt {model : CalcModel} {bytes : List UInt8} {last pos : Nat} (ti83p : Bool)
    (h : pos < last) :
    entryHeads model bytes last ti83p pos = entryHead model bytes ti83p pos
      :: entryHeads model bytes last (entryHead model bytes ti83p pos).ti83p
        (pos + (entryHead model bytes ti83p pos).ownBytes model
          + (entryHead model bytes ti83p pos).sizeAgain) := by
  rw [entryHeads, if_neg (Nat.not_le.mpr h)]

theorem entryHeads_of_le {model : CalcModel} {bytes : List UInt8} {last pos : Nat} (ti83p : Bool)
    (h : last ≤ pos) : entryHeads model bytes last ti83p pos = [] := by
  rw [entryHeads, if_pos h]

/-- The first pass goes from header to header, and ends with the layout of the last. -/
structure CountedBy (model : CalcModel) (hs : List EntryHead) (layout : Layout8x) (n : Nat)
    (starts : List Nat) (final : Layout8x) : Prop where
  count : n = hs.length
  starts : starts = hs.map EntryHead.pos
  short : ∀ h ∈ hs, h.nameLength ≤ 8
  nameLength : isTi8586 model = false → final.nameLength = layout.nameLength
  same : hs = [] → final = layout
  flags : ∀ h ∈ hs.getLast?, final.ti83p = h.ti83p ∧ (model = .ti86 → final.padded86 = h.padded86)

theorem countEntries_of_lt {model : CalcModel} {last n : Nat} {layout final : Layout8x}
    {f : InFile} (hlt : f.pos < last)
    (h : countEntries model last layout f = .ok (n, final)) :
    ∃ next f' m, Proc.exec (skipEntry model layout) f = (.ok next, f')
      ∧ countEntries model last next f' = .ok (m, final) ∧ n = m + 1 := by
  rw [countEntries, if_neg (Nat.not_le.mpr hlt)] at h
  split at h
  · cases h
  · rename_i next f' hskip
    obtain ⟨⟨m, layout'⟩, hcount, hpair⟩ := map_eq_ok_iff.mp h
    cases hpair
    exact ⟨next, f', m, hskip, hcount, rfl⟩

theorem countedStarts_of_lt {model : CalcModel} {last : Nat} {layout next : Layout8x}
    {f f' : InFile} (hlt : f.pos < last)
    (h : Proc.exec (skipEntry model layout) f = (.ok next, f')) :
    countedStarts model last layout f = f.pos :: countedStarts model last next f' := by
  rw [countedStarts, if_neg (Nat.not_le.mpr hlt)]
  split
  · rename_i herr
    rw [h] at herr
    cases herr
  · rename_i hok
    rw [h] at hok
    cases hok
    rfl

/-- A first pass that returns, from the headers. -/
theorem countEntries_ok {model : CalcModel} {last pos n : Nat} {layout final : Layout8x}
    {bytes : List UInt8} (h : countEntries model last layout ⟨bytes, pos⟩ = .ok (n, final)) :
    CountedBy model (entryHeads model bytes last layout.ti83p pos) layout n
      (countedStarts model last layout ⟨bytes, pos⟩) final := by
  induction hleft : last - pos using Nat.strong_induction_on generalizing pos n layout with
  | _ d ih =>
      by_cases hend : last ≤ pos
      · rw [countEntries, if_pos hend] at h
        cases h
        rw [countedStarts, if_pos hend, entryHeads_of_le _ hend]
        exact ⟨rfl, rfl, nofun, fun _ => rfl, fun _ => rfl, nofun⟩
      · have hlt : pos < last := Nat.not_le.mp hend
        obtain ⟨next, f', m, hskip, hcount, rfl⟩ := countEntries_of_lt hlt h
        rw [countedStarts_of_lt hlt hskip, entryHeads_of_lt _ hlt]
        obtain ⟨⟨hti83p, hpadded, hshort, hlength⟩, rfl⟩ := exec_skipEntry_ok hskip
        have hown := eight_le_ownBytes model (entryHead model bytes layout.ti83p pos)
        have hrest := ih _ (by omega) hcount rfl
        rw [hti83p] at hrest
        constructor
        · rw [hrest.count, List.length_cons]
        · rw [hrest.starts, List.map_cons]
          rfl
        · intro h hmem
          cases hmem with
          | head => exact hshort
          | tail _ hmem => exact hrest.short h hmem
        · intro hneither
          rw [hrest.nameLength hneither, hlength hneither]
        · nofun
        · intro h hlast
          cases hheads : entryHeads model bytes last
              (entryHead model bytes layout.ti83p pos).ti83p
              (pos + (entryHead model bytes layout.ti83p pos).ownBytes model
                + (entryHead model bytes layout.ti83p pos).sizeAgain) with
          | nil =>
              rw [hheads] at hlast
              cases hlast
              rw [hrest.same hheads]
              exact ⟨hti83p, hpadded⟩
          | cons h' hs =>
              rw [hheads, List.getLast?_cons_cons] at hlast
              exact hrest.flags h (hheads ▸ hlast)

/-! ## the second pass -/

theorem readEntries8x_succ_ok {conv : Converters} {model modelDst : CalcModel} {fileSize n : Nat}
    {layout : Layout8x} {f f' : InFile} {read : List VarEntry × Nat}
    (h : Proc.exec (readEntries8x conv model modelDst fileSize layout (n + 1)) f
      = (.ok read, f')) :
    ∃ entry next rest, Proc.exec (readEntry8x conv model modelDst fileSize layout) f
        = (.ok entry, next)
      ∧ Proc.exec (readEntries8x conv model modelDst fileSize layout n) next = (.ok rest, f') := by
  rw [readEntries8x] at h
  obtain ⟨entry, next, hentry, h⟩ := Proc.exec_bind_eq_ok_iff.mp h
  obtain ⟨rest, t, hrest, h⟩ := Proc.exec_bind_eq_ok_iff.mp h
  cases h
  exact ⟨entry, next, rest, hentry, hrest⟩

theorem parsedSpans_succ {conv : Converters} {model modelDst : CalcModel} {fileSize : Nat}
    {layout : Layout8x} {f next : InFile} {entry : VarEntry × Nat} (n : Nat)
    (h : Proc.exec (readEntry8x conv model modelDst fileSize layout) f = (.ok entry, next)) :
    parsedSpans conv model modelDst fileSize layout (n + 1) f
      = (f.pos, next.pos) :: parsedSpans conv model modelDst fileSize layout n next := by
  rw [parsedSpans, h]

/-- A second pass that returns has read as many entries as it was told. -/
theorem length_parsedSpans {conv : Converters} {model modelDst : CalcModel} {fileSize n : Nat}
    {layout : Layout8x} {f f' : InFile} {read : List VarEntry × Nat}
    (h : Proc.exec (readEntries8x conv model modelDst fileSize layout n) f = (.ok read, f')) :
    (parsedSpans conv model modelDst fileSize layout n f).length = n := by
  induction n generalizing f read with
  | zero => rfl
  | succ n ih =>
      obtain ⟨entry, next, rest, hentry, hrest⟩ := readEntries8x_succ_ok h
      rw [parsedSpans_succ n hentry, List.length_cons, ih hrest]

/-- The second pass starts at the headers and stays in the data section just when the headers
fit together. -/
theorem parsedSpans_iff {conv : Converters} {model modelDst : CalcModel} {fileSize last pos : Nat}
    {layout : Layout8x} {final : EntryHead} {bytes : List UInt8} {ti83p : Bool} {f' : InFile}
    {read : List VarEntry × Nat} (hlayout : LayoutAt model final layout)
    (hshort : ∀ h ∈ entryHeads model bytes last ti83p pos, h.nameLength ≤ 8)
    (h : Proc.exec (readEntries8x conv model modelDst fileSize layout
      (entryHeads model bytes last ti83p pos).length) ⟨bytes, pos⟩ = (.ok read, f')) :
    ((parsedSpans conv model modelDst fileSize layout
        (entryHeads model bytes last ti83p pos).length ⟨bytes, pos⟩).map Prod.fst
        = (entryHeads model bytes last ti83p pos).map EntryHead.pos
      ∧ ∀ span ∈ parsedSpans conv model modelDst fileSize layout
        (entryHeads model bytes last ti83p pos).length ⟨bytes, pos⟩, span.2 ≤ last)
      ↔ Chained model last final (entryHeads model bytes last ti83p pos) := by
  induction hleft : last - pos using Nat.strong_induction_on generalizing pos ti83p read with
  | _ d ih =>
      by_cases hend : last ≤ pos
      · rw [entryHeads_of_le _ hend]
        simp [parsedSpans, Chained]
      · have hlt : pos < last := Nat.not_le.mp hend
        have hheads := @entryHeads_of_lt model bytes last pos ti83p hlt
        have hown := eight_le_ownBytes model (entryHead model bytes ti83p pos)
        generalize hhead : entryHead model bytes ti83p pos = head at *
        rw [hheads] at h hshort ⊢
        obtain ⟨entry, next, rest, hentry, hrest⟩ := readEntries8x_succ_ok h
        have hnext := @exec_readEntry8x_ok conv model modelDst fileSize layout final bytes ti83p
          pos entry next hlayout (by rw [hhead]; exact hshort head List.mem_cons_self) hentry
        rw [hhead] at hnext
        rw [List.length_cons, parsedSpans_succ _ hentry]
        have hpos : head.pos = pos := by rw [← hhead]; rfl
        cases htail : entryHeads model bytes last head.ti83p
            (pos + head.ownBytes model + head.sizeAgain) with
        | nil =>
            subst hnext
            simp [parsedSpans, Chained, hpos]
        | cons h' hs =>
            have hlt' : pos + head.ownBytes model + head.sizeAgain < last := by
              rw [← Nat.not_le]
              intro hle
              rw [entryHeads_of_le _ hle] at htail
              cases htail
            have hpos' : h'.pos = pos + head.ownBytes model + head.sizeAgain := by
              rw [entryHeads_of_lt _ hlt'] at htail
              cases htail
              rfl
            rw [htail] at hrest hshort
            have hstart : ∃ stop spans, parsedSpans conv model modelDst fileSize layout
                (h' :: hs).length next = (next.pos, stop) :: spans := by
              obtain ⟨entry', next', rest', hentry', -⟩ := readEntries8x_succ_ok hrest
              exact ⟨next'.pos, _, parsedSpans_succ _ hentry'⟩
            by_cases hmeet : head.finalBytes model final + head.size
                = head.ownBytes model + head.sizeAgain
            · have hsame : next = ⟨bytes, pos + head.ownBytes model + head.sizeAgain⟩ := by
                rw [hnext]
                congr 1
                omega
              subst hsame
              have htailiff := ih (last - (pos + head.ownBytes model + head.sizeAgain)) (by omega)
                (fun h hmem => hshort h (by rw [htail] at hmem; exact List.mem_cons_of_mem _ hmem))
                (by rw [htail]; exact hrest) rfl
              rw [htail] at htailiff
              show _ ↔ _ ∧ Chained model last final (h' :: hs)
              rw [← htailiff]
              simp only [List.map_cons, List.cons.injEq, List.forall_mem_cons]
              constructor
              · rintro ⟨⟨-, hstarts⟩, -, hends⟩
                exact ⟨hmeet, hstarts, hends⟩
              · rintro ⟨-, hstarts, hends⟩
                exact ⟨⟨hpos.symm, hstarts⟩, by show _ ≤ last; omega, hends⟩
            · constructor
              · rintro ⟨hstarts, -⟩
                obtain ⟨stop, spans, hspans⟩ := hstart
                rw [hspans] at hstarts
                simp only [List.map_cons, List.cons.injEq] at hstarts
                have hmiss : next.pos = h'.pos := hstarts.2.1
                rw [hnext, hpos'] at hmiss
                dsimp only at hmiss
                omega
              · rintro ⟨hmeet', -⟩
                exact absurd hmeet' hmeet

/-! ## the file -/

/-- The passes of a file that is read. -/
theorem exists_of_ti8xFileReadRegular {conv : Converters} {filename bytes : List UInt8}
    {content read : FileContent}
    (h : ti8xFileReadRegular conv filename bytes content = .ok read) :
    ∃ n layout entries f', countEntries (fileModel bytes) (sectionEnd bytes) ⟨false, 8, false⟩
        ⟨bytes, 55⟩ = .ok (n, layout)
      ∧ Proc.exec (readEntries8x conv (fileModel bytes) read.modelDst bytes.length layout n)
        ⟨bytes, 55⟩ = (.ok entries, f')
      ∧ read.numEntries = UInt32.ofNat n
      ∧ read.entries = some (entries.1.map some ++ [none]) := by
  unfold ti8xFileReadRegular at h
  rw [check_eq_ok_iff, check_eq_ok_iff] at h
  obtain ⟨-, -, h⟩ := h
  cases hbody : Proc.exec (readRegular8xBody conv bytes.length content) ⟨bytes, 0⟩ with
  | mk result f' =>
      rw [hbody] at h
      dsimp only at h
      subst h
      unfold readRegular8xBody at hbody
      obtain ⟨signature, t, hsignature, hbody⟩ := Proc.exec_bind_eq_ok_iff.mp hbody
      obtain ⟨rfl, rfl⟩ := exec_freadNChars_ok hsignature
      have hmodel : tifilesSignature2calctype (cstr ((bytes.drop 0).take 8)) = fileModel bytes := rfl
      dsimp only at hbody
      rw [hmodel] at hbody
      by_cases hnone : fileModel bytes = .none
      · rw [if_pos hnone] at hbody
        cases hbody
      · rw [if_neg hnone, Proc.exec_bind_ok (exec_fskip 3 _)] at hbody
        obtain ⟨comment, t, hcomment, hbody⟩ := Proc.exec_bind_eq_ok_iff.mp hbody
        obtain ⟨-, rfl⟩ := exec_freadBytes_ok hcomment
        obtain ⟨dataSize, t, hsize, hbody⟩ := Proc.exec_bind_eq_ok_iff.mp hbody
        obtain ⟨rfl, rfl⟩ := exec_freadLength_ok hsize
        obtain ⟨offset, t, hoffset, hbody⟩ := Proc.exec_bind_eq_ok_iff.mp hbody
        cases hoffset
        obtain ⟨file, t, hfile, hbody⟩ := Proc.exec_bind_eq_ok_iff.mp hbody
        cases hfile
        obtain ⟨⟨n, layout⟩, t, hpair, hbody⟩ := Proc.exec_bind_eq_ok_iff.mp hbody
        rw [Proc.exec_ofExcept] at hpair
        obtain ⟨hcount, rfl⟩ := Prod.mk.inj hpair
        obtain ⟨_, t, hseek, hbody⟩ := Proc.exec_bind_eq_ok_iff.mp hbody
        cases hseek
        obtain ⟨⟨entries, sum⟩, t, hentries, hbody⟩ := Proc.exec_bind_eq_ok_iff.mp hbody
        obtain ⟨stored, u, hstored, hbody⟩ := Proc.exec_bind_eq_ok_iff.mp hbody
        cases hbody
        exact ⟨n, layout, (entries, sum), t, hcount, hentries, rfl, rfl⟩

/-- On a file that is accepted the passes agree when the headers fit together, and only then. -/
theorem ti8xFileReadRegular_passes_iff (conv : Converters) {filename bytes : List UInt8}
    {content read : FileContent}
    (h : ti8xFileReadRegular conv filename bytes content = .ok read) :
    PassesAgree conv read.modelDst bytes
      ↔ HeadsAgree (fileModel bytes) (sectionEnd bytes)
        (entryHeads (fileModel bytes) bytes (sectionEnd bytes) false 55) := by
  obtain ⟨n, layout, entries, f', hcount, hentries, -, -⟩ := exists_of_ti8xFileReadRegular h
  obtain ⟨rfl, hstarts, hshort, hlength, -, hflags⟩ := countEntries_ok hcount
  have hcounted := length_parsedSpans hentries
  have hagree : PassesAgree conv read.modelDst bytes ↔
      ((parsedSpans conv (fileModel bytes) read.modelDst bytes.length layout
        (entryHeads (fileModel bytes) bytes (sectionEnd bytes) false 55).length
          ⟨bytes, 55⟩).map Prod.fst
        = (entryHeads (fileModel bytes) bytes (sectionEnd bytes) false 55).map EntryHead.pos
      ∧ ∀ span ∈ parsedSpans conv (fileModel bytes) read.modelDst bytes.length layout
        (entryHeads (fileModel bytes) bytes (sectionEnd bytes) false 55).length ⟨bytes, 55⟩,
        span.2 ≤ sectionEnd bytes) := by
    constructor
    · rintro ⟨n, layout', hcount', -, hsame, hends⟩
      cases hcount.symm.trans hcount'
      exact ⟨hsame.trans hstarts, hends⟩
    · rintro ⟨hsame, hends⟩
      exact ⟨_, _, hcount, hcounted, hsame.trans hstarts.symm, hends⟩
  rw [hagree]
  unfold HeadsAgree
  cases hlast : (entryHeads (fileModel bytes) bytes (sectionEnd bytes) false 55).getLast? with
  | none =>
      rw [List.getLast?_eq_none_iff.mp hlast]
      simp [parsedSpans]
  | some final =>
      obtain ⟨hti83p, hpadded⟩ := hflags final hlast
      rw [parsedSpans_iff ⟨hti83p, hpadded, hlength⟩ hshort hentries]
      constructor
      · rintro hchained final' ⟨⟩
        exact hchained
      · exact fun hchained => hchained final rfl

/-- A file of the TI-83+ with one entry, whose first length word is `size` and whose second is
zero, then the bytes of another header, all zero, and what follows the data section. -/
def twoLengths (size : UInt8) : List UInt8 :=
  ascii "**TI83F*" ++ [0x1A, 0x0A, 0] ++ List.replicate 42 0 ++ fwriteWord 34
    ++ (fwriteWord 0x0D ++ [size, 0, 5] ++ padRight 8 0 (ascii "A") ++ fwriteWord 0 ++ fwriteWord 0)
    ++ List.replicate 17 0 ++ List.replicate 19 0

/-- A content that nothing was read into. -/
def emptyContent : FileContent :=
  { model := .none
    defaultFolder := .empty
    comment := .zeros 43
    numEntries := 0
    entries := none
    checksum := 0
    modelDst := .none
    storedChecksum := 0 }

/-- The file is read, whatever its first length word says. -/
def readTwoLengths (size : UInt8) : Option FileContent :=
  (ti8xFileReadRegular serialConverters (ascii "A.8Xp") (twoLengths size) emptyContent).toOption

theorem readTwoLengths_ok {size : UInt8} (h : (readTwoLengths size).map FileContent.modelDst
      = some .ti83p) :
    ∃ read, ti8xFileReadRegular serialConverters (ascii "A.8Xp") (twoLengths size) emptyContent
      = .ok read ∧ read.modelDst = .ti83p := by
  unfold readTwoLengths at h
  cases hread : ti8xFileReadRegular serialConverters (ascii "A.8Xp") (twoLengths size)
      emptyContent with
  | error err => simp [hread, Except.toOption] at h
  | ok read => exact ⟨read, rfl, by simpa [hread, Except.toOption] using h⟩

theorem ti8xFileReadRegular_passes_twoLengths :
    ∃ read, ti8xFileReadRegular serialConverters (ascii "A.8Xp") (twoLengths 0) emptyContent
        = .ok read
      ∧ (PassesAgree serialConverters read.modelDst (twoLengths 0)
        ↔ HeadsAgree (fileModel (twoLengths 0)) (sectionEnd (twoLengths 0))
          (entryHeads (fileModel (twoLengths 0)) (twoLengths 0) (sectionEnd (twoLengths 0))
            false 55)) := by
  obtain ⟨read, hread, -⟩ := @readTwoLengths_ok 0 (by decide +kernel)
  exact ⟨read, hread, ti8xFileReadRegular_passes_iff serialConverters hread⟩

/-- With 17 as the first length, the second pass takes what the first counted as an entry for
data, and reads its second entry after the data section. -/
theorem not_passesAgree_twoLengths :
    ¬∀ (conv : Converters) (filename bytes : List UInt8) (content read : FileContent),
      ti8xFileReadRegular conv filename bytes content = .ok read →
        PassesAgree conv read.modelDst bytes := by
  intro hall
  obtain ⟨read, hread, hmodel⟩ := @readTwoLengths_ok 17 (by decide +kernel)
  have hagree := hall serialConverters _ _ _ read hread
  rw [hmodel] at hagree
  obtain ⟨n, layout, hcount, -, hstarts, -⟩ := hagree
  have hfound : ((countEntries (fileModel (twoLengths 17)) (sectionEnd (twoLengths 17))
      ⟨false, 8, false⟩ ⟨twoLengths 17, 55⟩).toOption.map fun c =>
        (c.1, c.2.ti83p, c.2.nameLength, c.2.padded86)) = some (2, true, 8, false) := by
    decide +kernel
  rw [hcount] at hfound
  cases layout
  cases hfound
  exact absurd hstarts (by decide +kernel)

end Tilibs.Files
