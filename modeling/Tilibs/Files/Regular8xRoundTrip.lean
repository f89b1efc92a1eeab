import Mathlib
import Tilibs.Files.Regular8x
import Tilibs.Files.Regular9xRoundTrip
import Tilibs.Lib.Fallible

/-!
# Tilibs.Files.Regular8xRoundTrip

A TI-8x regular file is read back entry by entry: what the first pass learns from the first
words is how the writer laid the entries out.
-/

namespace Tilibs.Files

open Lib Conv
open Dbus (tifilesChecksum)

/-! ## the entries in the file -/

/-- The name in an entry, once it was converted. -/
def storedName (model : CalcModel) (raw : List UInt8) : List UInt8 :=
  if model = .ti85 then fwriteByte (UInt8.ofNat raw.length) ++ raw
  else if model = .ti86 then fwriteByte (UInt8.ofNat raw.length) ++ padRight 8 0x20 raw
  else padRight 8 0 raw

/-- The word for the attribute and the version, where there is one. -/
def storedAttr (model : CalcModel) (e : VarEntry) : List UInt8 :=
  if isTi83p model then fwriteWord (attrWord e) else []

/-- An entry in the file, once its name was converted. -/
def storedEntry (model : CalcModel) (raw : List UInt8) (e : VarEntry) : List UInt8 :=
  fwriteWord (packetLength8x model e) ++ (fwriteWord e.size.toNat ++ (fwriteByte e.type
    ++ (storedName model raw ++ (storedAttr model e ++ (fwriteWord e.size.toNat ++ e.bytes)))))

/-- A name that the layout has room for; on the TI-85 the lengths are those of the name before
the conversion. -/
structure NameFits (model : CalcModel) (raw : List UInt8) (e : VarEntry) : Prop where
  length : raw.length ≤ 8
  noNul : ∀ b ∈ raw, b ≠ 0
  ti85 : model = .ti85 → e.name.chars.length = raw.length

theorem toNat_nameLength {raw : List UInt8} (h : raw.length ≤ 8) :
    (UInt8.ofNat raw.length).toNat = raw.length :=
  UInt8.toNat_ofNat_of_lt' (Nat.lt_of_le_of_lt h (by decide))

theorem nameField8x_eq {model : CalcModel} {raw : List UInt8} (h : raw.length ≤ 8) :
    nameField8x model raw = .ok (storedName model raw) := by
  have hpad : padRight raw.length 0 raw = raw := by simp [padRight]
  unfold nameField8x storedName fwriteNChars fwriteNChars2
  simp only [toNat_nameLength h, Nat.lt_irrefl, Nat.not_lt.mpr h, if_false, Except.map, hpad]
  split_ifs <;> rfl

theorem writeEntry8x_eq {conv : Converters} {content : FileContent} {e : VarEntry}
    (h : (varnameToFile conv content.modelDst e).length ≤ 8) :
    writeEntry8x conv content e
      = .ok (storedEntry content.model (varnameToFile conv content.modelDst e) e) := by
  unfold writeEntry8x storedEntry storedAttr
  rw [nameField8x_eq h]
  simp [bind, Except.bind, pure, Except.pure]

theorem length_storedName (model : CalcModel) {raw : List UInt8} (h : raw.length ≤ 8) :
    (storedName model raw).length
      = if model = .ti85 then 1 + raw.length else if model = .ti86 then 9 else 8 := by
  unfold storedName
  split_ifs
  · simp [Nat.add_comm]
  · rw [List.length_append, length_padRight h]
    rfl
  · exact length_padRight h

theorem length_bytes_of_sized {e : VarEntry} (h : e.Sized) : e.bytes.length = e.size.toNat := by
  unfold VarEntry.bytes
  rw [List.length_take, h, Nat.min_self]

/-- An entry takes the bytes that were counted for it. -/
theorem length_storedEntry {model : CalcModel} {raw : List UInt8} {e : VarEntry}
    (hmodel : tifilesCalcIsTi8x model = true) (hname : NameFits model raw e) (hsized : e.Sized) :
    (storedEntry model raw e).length = entryLength8x model e := by
  have hlen := length_storedName model hname.length
  have hbytes := length_bytes_of_sized hsized
  have h85 := hname.ti85
  unfold storedEntry storedAttr
  simp only [List.length_append, length_fwriteWord, length_fwriteByte, hlen, hbytes]
  unfold entryLength8x
  revert h85
  cases model <;> simp [isTi83p] <;> first | omega | exact absurd hmodel (by decide)

/-! ## the first pass -/

/-- Two models with the same layout of names. -/
structure Alike (m model : CalcModel) : Prop where
  ti85 : m = .ti85 ↔ model = .ti85
  ti86 : m = .ti86 ↔ model = .ti86

/-- What the first pass knows before an entry of a file for the model. -/
structure LayoutBefore (model : CalcModel) (layout : Layout8x) : Prop where
  ti83p : layout.ti83p = true → isTi83p model = true
  nameLength : isTi8586 model = false → layout.nameLength = 8

/-- What it knows after one. -/
structure LayoutOf (model : CalcModel) (layout : Layout8x) : Prop extends
    LayoutBefore model layout where
  flag : isTi83p model = true → layout.ti83p = true
  padded86 : model = .ti86 → layout.padded86 = true

/-- The word that begins an entry tells the TI-83+ family from the others. -/
theorem packetLength8x_eq_iff {model : CalcModel} {raw : List UInt8} {e : VarEntry}
    (hname : NameFits model raw e) : packetLength8x model e = 0x0D ↔ isTi83p model = true := by
  have hlen := hname.length
  have h85 := hname.ti85
  unfold packetLength8x
  split_ifs with h85' h86 h83p
  · subst h85'
    have heq := h85 rfl
    exact iff_of_false (by omega) (by decide)
  · subst h86
    exact iff_of_false (by decide) (by decide)
  · exact iff_of_true rfl h83p
  · exact iff_of_false (by decide) h83p

theorem packetLength8x_lt {model : CalcModel} {raw : List UInt8} {e : VarEntry}
    (hname : NameFits model raw e) : packetLength8x model e < 16 := by
  have hlen := hname.length
  have h85 := hname.ti85
  unfold packetLength8x
  split_ifs with h85' h86 h83p
  · have heq := h85 h85'
    omega
  all_goals decide

theorem consumes_freadNameLength {raw : List UInt8} (h : raw.length ≤ 8) :
    Consumes freadNameLength (fwriteByte (UInt8.ofNat raw.length)) (UInt8.ofNat raw.length) := by
  have hle : ¬UInt8.ofNat raw.length > 8 := by
    rw [gt_iff_lt, UInt8.lt_iff_toNat_lt, toNat_nameLength h]
    exact Nat.not_lt.mpr h
  unfold freadNameLength
  refine (consumes_freadByte _).bind_pure ?_
  rw [if_neg hle]
  exact Consumes.pure _

/-- The first pass skips a name by the rule by which it was written. -/
theorem consumes_skipName {m model : CalcModel} {raw : List UInt8} {e : VarEntry}
    {layout : Layout8x} (halike : Alike m model) (hname : NameFits model raw e)
    (hflag : layout.ti83p = isTi83p model)
    (hlen : isTi8586 model = false → layout.nameLength = 8) :
    ∃ layout', LayoutOf model layout' ∧ Consumes (skipName m (packetLength8x model e) layout)
      (fwriteWord e.size.toNat ++ (fwriteByte e.type ++ (storedName model raw
        ++ storedAttr model e))) layout' := by
  have hskip3 : Consumes (fskip 3 : FileReader Unit)
      (fwriteWord e.size.toNat ++ fwriteByte e.type) () := Consumes.fskip (by simp)
  unfold skipName storedName storedAttr
  rw [← List.append_assoc]
  by_cases h85 : model = .ti85
  · subst h85
    rw [if_pos (halike.ti85.mpr rfl), if_pos rfl, if_neg (by decide), List.append_nil]
    have hend : Consumes (fskip raw.length : FileReader Unit) raw () := Consumes.fskip rfl
    refine ⟨{ layout with nameLength := UInt8.ofNat raw.length },
      ⟨⟨fun h => hflag ▸ h, nofun⟩, fun h => hflag.trans h, nofun⟩, hskip3.bind ?_⟩
    refine (consumes_freadNameLength hname.length).bind ?_
    rw [toNat_nameLength hname.length]
    exact hend.bind_pure (Consumes.pure _)
  · rw [if_neg fun h => h85 (halike.ti85.mp h), if_neg h85]
    by_cases h86 : model = .ti86
    · subst h86
      rw [if_pos (halike.ti86.mpr rfl), if_pos rfl, if_neg (by decide), List.append_nil]
      refine ⟨⟨layout.ti83p, UInt8.ofNat raw.length, true⟩,
        ⟨⟨fun h => hflag ▸ h, nofun⟩, fun h => hflag.trans h, fun _ => rfl⟩, hskip3.bind ?_⟩
      refine (consumes_freadNameLength hname.length).bind ?_
      rw [toNat_nameLength hname.length]
      have hname' : Consumes (fskip raw.length : FileReader Unit) raw () := Consumes.fskip rfl
      refine hname'.bind ?_
      exact (Consumes.fskip (by simp [packetLength8x])).bind_pure (Consumes.pure _)
    · rw [if_neg fun h => h86 (halike.ti86.mp h), if_neg h86]
      have h8586 : isTi8586 model = false := by simp [isTi8586, h85, h86]
      refine ⟨layout, ⟨⟨fun h => hflag ▸ h, hlen⟩, fun h => hflag.trans h, fun h => absurd h h86⟩,
        ?_⟩
      refine (Consumes.fskip ?_).bind_pure (Consumes.pure _)
      simp only [List.length_append, length_fwriteWord, length_fwriteByte,
        length_padRight hname.length, hflag]
      split_ifs <;> simp

/-- The first pass goes from one entry to the next. -/
theorem consumes_skipEntry {m model : CalcModel} {raw : List UInt8} {e : VarEntry}
    {layout : Layout8x} (halike : Alike m model) (hname : NameFits model raw e)
    (hsize : e.size.toNat < 2 ^ 16) (hsized : e.Sized) (hlayout : LayoutBefore model layout) :
    ∃ layout', LayoutOf model layout'
      ∧ Consumes (skipEntry m layout) (storedEntry model raw e) layout' := by
  have hflag : (layout.ti83p || packetLength8x model e == 0x0D) = isTi83p model := by
    have hword := packetLength8x_eq_iff hname
    have hbefore := hlayout.ti83p
    rw [Bool.eq_iff_iff, Bool.or_eq_true, beq_iff_eq, hword]
    tauto
  have hpacket := packetLength8x_lt hname
  obtain ⟨layout', hof, hskip⟩ := @consumes_skipName m model raw e
    { layout with ti83p := layout.ti83p || packetLength8x model e == 0x0D } halike hname hflag
    hlayout.nameLength
  refine ⟨layout', hof, ?_⟩
  have hentry : storedEntry model raw e = fwriteWord (packetLength8x model e)
      ++ ((fwriteWord e.size.toNat ++ (fwriteByte e.type ++ (storedName model raw
        ++ storedAttr model e))) ++ (fwriteWord e.size.toNat ++ e.bytes)) := by
    simp [storedEntry]
  rw [hentry]
  refine (consumes_freadWord (by omega)).bind (hskip.bind ?_)
  refine (consumes_freadWord hsize).bind ?_
  exact (Consumes.fskip (length_bytes_of_sized hsized)).bind_pure (Consumes.pure _)

/-- The entries that a list of entries and raw names is stored as. -/
def storedEntries (model : CalcModel) (raw : VarEntry → List UInt8) (es : List VarEntry) :
    List UInt8 :=
  es.flatMap fun e => storedEntry model (raw e) e

/-- What the writer relies on for each entry. -/
structure Storable8x (model : CalcModel) (raw : VarEntry → List UInt8) (es : List VarEntry) :
    Prop where
  name : ∀ e ∈ es, NameFits model (raw e) e
  size : ∀ e ∈ es, e.size.toNat < 2 ^ 16
  sized : ∀ e ∈ es, e.Sized

theorem Storable8x.tail {model : CalcModel} {raw : VarEntry → List UInt8} {e : VarEntry}
    {es : List VarEntry} (h : Storable8x model raw (e :: es)) : Storable8x model raw es where
  name := fun e' he => h.name e' (List.mem_cons_of_mem e he)
  size := fun e' he => h.size e' (List.mem_cons_of_mem e he)
  sized := fun e' he => h.sized e' (List.mem_cons_of_mem e he)

/-- The first pass counts the entries, and learns how they are laid out if there are any. -/
theorem countEntries_stored {m model : CalcModel} {raw : VarEntry → List UInt8}
    {es : List VarEntry} (halike : Alike m model) (hstorable : Storable8x model raw es)
    {layout : Layout8x} (hlayout : LayoutBefore model layout) {f : InFile} {tail : List UInt8}
    (hrest : f.rest = storedEntries model raw es ++ tail) {last : Nat}
    (hlast : last = f.pos + (storedEntries model raw es).length) :
    ∃ layout', countEntries m last layout f = .ok (es.length, layout')
      ∧ (es = [] → layout' = layout) ∧ (es ≠ [] → LayoutOf model layout') := by
  induction es generalizing layout f with
  | nil =>
      refine ⟨layout, ?_, fun _ => rfl, fun h => absurd rfl h⟩
      rw [countEntries, if_pos (by simp [hlast, storedEntries])]
      rfl
  | cons e es ih =>
      obtain ⟨next, hnext, hskip⟩ := consumes_skipEntry halike
        (hstorable.name e List.mem_cons_self) (hstorable.size e List.mem_cons_self)
        (hstorable.sized e List.mem_cons_self) hlayout
      have hcons : storedEntries model raw (e :: es)
          = storedEntry model (raw e) e ++ storedEntries model raw es := List.flatMap_cons
      rw [hcons, List.append_assoc] at hrest
      rw [hcons, List.length_append] at hlast
      have hexec := hskip f _ hrest
      have hpos := lt_of_exec_skipEntry hexec
      have hadvance : (f.advance (storedEntry model (raw e) e).length).pos
          = f.pos + (storedEntry model (raw e) e).length := rfl
      obtain ⟨layout', hcount, hsame, hof⟩ := ih hstorable.tail hnext.toLayoutBefore
        (InFile.rest_advance_append hrest rfl) (by omega)
      refine ⟨layout', ?_, nofun, fun _ => ?_⟩
      · rw [countEntries, if_neg (by omega)]
        split
        · rename_i herr
          rw [hexec] at herr
          cases herr
        · rename_i hok
          rw [hexec] at hok
          cases hok
          rw [hcount]
          rfl
      · by_cases hes : es = []
        · rw [hsame hes]
          exact hnext
        · exact hof hes

/-! ## the second pass -/

/-- What comes back of the attribute and the version: the word says whether the variable is
archived, and one value of it is read as older versions of the library meant it. -/
def attrBack (e : VarEntry) : UInt8 × UInt8 :=
  if e.attr = attrbArchived then
    (attrbArchived, picVersion e.type e.size.toNat e.version)
  else if e.version = 0x80 then (attrbArchived, picVersion e.type e.size.toNat 0)
  else (0, picVersion e.type e.size.toNat e.version)

/-- The words that are written, and what is read from them. -/
theorem attrOfWord_table : ∀ n < 256,
    attrOfWord (0x8000 + n) = (attrbArchived, UInt8.ofNat n)
      ∧ attrOfWord n = if n = 0x80 then (attrbArchived, 0) else (0, UInt8.ofNat n) := by
  decide +kernel

theorem attrOfWord_attrWord (e : VarEntry) :
    ((attrOfWord (attrWord e)).1, picVersion e.type e.size.toNat (attrOfWord (attrWord e)).2)
      = attrBack e := by
  obtain ⟨harchived, hplain⟩ := attrOfWord_table e.version.toNat e.version.toNat_lt
  rw [UInt8.ofNat_toNat] at harchived hplain
  have hversion : e.version.toNat = 0x80 ↔ e.version = 0x80 := by
    rw [← UInt8.toNat_inj]
    rfl
  unfold attrWord attrBack
  split_ifs with harch h80
  · rw [harchived]
  · rw [Nat.zero_add, hplain, if_pos (hversion.mpr h80)]
  · rw [Nat.zero_add, hplain, if_neg fun h => h80 (hversion.mp h)]

theorem attrWord_lt (e : VarEntry) : attrWord e < 2 ^ 16 := by
  have hlt := e.version.toNat_lt
  unfold attrWord
  split <;> omega

/-- The entry that is read. -/
def readBack8x (conv : Converters) (modelDst model : CalcModel) (raw : VarEntry → List UInt8)
    (e : VarEntry) : VarEntry where
  folder := .empty
  name := nameFromFile conv modelDst (raw e) e.type .empty
  type := e.type
  attr := if isTi83p model then (attrBack e).1 else 0
  version := if isTi83p model then (attrBack e).2 else 0
  size := e.size
  data := some e.bytes

/-- The padding that the reader expects behind a name. -/
def paddingLength (m : CalcModel) (layout : Layout8x) (nameLength : UInt8) : Nat :=
  if m = .ti86 ∧ layout.padded86 then (2 ^ 32 + 8 - nameLength.toNat) % 2 ^ 32 else 0

/-- A name is its length, where there is one, its characters, and what they are padded with. -/
theorem consumes_readName {m model : CalcModel} {raw : List UInt8} {e : VarEntry}
    {layout : Layout8x} (halike : Alike m model) (hname : NameFits model raw e)
    (hlayout : LayoutOf model layout) :
    ∃ nameLength lenField nameField padField,
      storedName model raw = lenField ++ (nameField ++ padField)
      ∧ Consumes (readNameLength m layout) lenField nameLength
      ∧ Consumes (freadNChars nameLength.toNat) nameField raw
      ∧ padField.length = paddingLength m layout nameLength := by
  have hlen := toNat_nameLength hname.length
  have h85 : m = .ti85 ↔ model = .ti85 := halike.ti85
  have h86 : m = .ti86 ↔ model = .ti86 := halike.ti86
  have hself : Consumes (freadNChars raw.length) raw raw := by
    have hread := consumes_fwriteNChars (Nat.le_refl raw.length) hname.noNul
    rwa [show padRight raw.length 0 raw = raw by simp [padRight]] at hread
  unfold readNameLength paddingLength storedName
  by_cases hm85 : model = .ti85
  · have hm : isTi8586 m = true := by simp [isTi8586, h85.mpr hm85]
    refine ⟨UInt8.ofNat raw.length, _, raw, [], by rw [if_pos hm85, List.append_nil], ?_, ?_, ?_⟩
    · rw [if_pos hm]
      exact consumes_freadByte _
    · rwa [hlen]
    · rw [if_neg fun hand => by simp [hm85] at h86; exact h86 hand.1]
      rfl
  · rw [if_neg hm85]
    by_cases hm86 : model = .ti86
    · have hm : isTi8586 m = true := by simp [isTi8586, h86.mpr hm86]
      refine ⟨UInt8.ofNat raw.length, _, raw, List.replicate (8 - raw.length) 0x20,
        by rw [if_pos hm86]; rfl, ?_, ?_, ?_⟩
      · rw [if_pos hm]
        exact consumes_freadByte _
      · rwa [hlen]
      · have hle := hname.length
        rw [if_pos ⟨h86.mpr hm86, hlayout.padded86 hm86⟩, List.length_replicate, hlen]
        omega
    · have hm : ¬isTi8586 m = true := by simp [isTi8586, h85, h86, hm85, hm86]
      have hn : layout.nameLength = 8 := hlayout.nameLength (by simp [isTi8586, hm85, hm86])
      refine ⟨8, [], padRight 8 0 raw, [], by rw [if_neg hm86]; simp, ?_, ?_, ?_⟩
      · rw [if_neg hm, hn]
        exact Consumes.pure _
      · exact consumes_fwriteNChars hname.length hname.noNul
      · rw [if_neg fun hand => hm86 (h86.mp hand.1)]
        rfl

/-- So are the attribute and the version, where there are any. -/
theorem consumes_readAttr {model : CalcModel} {e : VarEntry} {layout : Layout8x}
    (hlayout : LayoutOf model layout) :
    ∃ sum, Consumes (readAttr layout e.type e.size.toNat) (storedAttr model e)
      (if isTi83p model then (attrBack e).1 else 0,
        if isTi83p model then (attrBack e).2 else 0, sum) := by
  unfold readAttr storedAttr
  by_cases h83p : isTi83p model = true
  · simp only [h83p, hlayout.flag h83p, if_true, ← attrOfWord_attrWord]
    exact ⟨_, (consumes_freadWord (attrWord_lt e)).bind_pure (Consumes.pure _)⟩
  · have hflag : ¬layout.ti83p = true := fun h => h83p (hlayout.ti83p h)
    simp only [h83p, hflag]
    exact ⟨0, Consumes.pure _⟩

/-- An entry is read as it was written. -/
theorem consumes_readEntry8x {conv : Converters} {m model modelDst : CalcModel}
    {raw : VarEntry → List UInt8} {e : VarEntry} {layout : Layout8x} {fileSize : Nat}
    (halike : Alike m model) (hname : NameFits model (raw e) e) (hsize : e.size.toNat < 2 ^ 16)
    (hsized : e.Sized) (hlayout : LayoutOf model layout) (hfile : 16 ≤ fileSize)
    (hfit : e.size.toNat ≤ fileSize) :
    ∃ sum, Consumes (readEntry8x conv m modelDst fileSize layout) (storedEntry model (raw e) e)
      (readBack8x conv modelDst model raw e, sum) := by
  have hpacket := packetLength8x_lt hname
  obtain ⟨nameLength, lenField, nameField, padField, hstored, hlen, hchars, hpad⟩ :=
    consumes_readName halike hname hlayout
  obtain ⟨attrSum, hattr⟩ := consumes_readAttr (e := e) hlayout
  unfold readEntry8x storedEntry
  rw [hstored]
  simp only [List.append_assoc]
  constructor
  refine (consumes_freadLength (by omega) (by omega)).bind ?_
  refine (consumes_freadLength hsize hfit).bind ?_
  refine (consumes_freadByte e.type).bind ?_
  refine hlen.bind ?_
  refine hchars.bind ?_
  refine (consumes_freadBytes hpad).bind ?_
  refine hattr.bind ?_
  refine (consumes_freadWord hsize).bind ?_
  refine (consumes_freadBytes (length_bytes_of_sized hsized)).bind_pure ?_
  dsimp only
  rw [UInt32.ofNat_toNat]
  exact Consumes.pure _

/-- The entries are read as they were written. -/
theorem consumes_readEntries8x {conv : Converters} {m model modelDst : CalcModel}
    {raw : VarEntry → List UInt8} {es : List VarEntry} {layout : Layout8x} {fileSize : Nat}
    (halike : Alike m model) (hstorable : Storable8x model raw es)
    (hlayout : es ≠ [] → LayoutOf model layout) (hfile : es ≠ [] → 16 ≤ fileSize)
    (hfit : ∀ e ∈ es, e.size.toNat ≤ fileSize) :
    ∃ sum, Consumes (readEntries8x conv m modelDst fileSize layout es.length)
      (storedEntries model raw es) (es.map (readBack8x conv modelDst model raw), sum) := by
  induction es with
  | nil => exact ⟨0, Consumes.pure _⟩
  | cons e es ih =>
      have hof := hlayout (List.cons_ne_nil e es)
      have hlarge := hfile (List.cons_ne_nil e es)
      obtain ⟨sum, hentry⟩ := @consumes_readEntry8x conv m model modelDst raw e layout fileSize
        halike (hstorable.name e List.mem_cons_self) (hstorable.size e List.mem_cons_self)
        (hstorable.sized e List.mem_cons_self) hof hlarge (hfit e List.mem_cons_self)
      obtain ⟨rest, hrest⟩ := ih hstorable.tail (fun _ => hof) (fun _ => hlarge)
        fun e' he => hfit e' (List.mem_cons_of_mem e he)
      exact ⟨sum + rest, hentry.bind (hrest.bind_pure (Consumes.pure _))⟩

/-! ## the file -/

/-- The signature of a model is read as one with the same layout of names. -/
theorem alike_signature {model : CalcModel} {sig : List UInt8}
    (h8x : tifilesCalcIsTi8x model = true) (hsome : tifilesCalctype2signature model = some sig) :
    Alike (tifilesSignature2calctype sig) model := by
  have hboth : (tifilesSignature2calctype sig = .ti85 ↔ model = .ti85)
      ∧ (tifilesSignature2calctype sig = .ti86 ↔ model = .ti86) := by
    cases model <;> first
      | exact absurd h8x (by decide)
      | (cases hsome; decide)
  exact ⟨hboth.1, hboth.2⟩

/-- The slots that the loop over the entries finds. -/
theorem take_of_firstEntries {n : Nat} {slots : List (Option VarEntry)} {es : List VarEntry}
    (h : firstEntries n slots = some es) : slots.take n = es.map some ∧ es.length = n := by
  induction n generalizing slots es with
  | zero =>
      cases h
      exact ⟨rfl, rfl⟩
  | succ n ih =>
      cases slots with
      | nil => cases h
      | cons slot slots =>
          cases slot with
          | none => cases h
          | some e =>
              rw [firstEntries, Option.map_eq_some_iff] at h
              obtain ⟨rest, hrest, rfl⟩ := h
              obtain ⟨htake, hlen⟩ := ih hrest
              simp [htake, hlen]

theorem dataLength8x_eq {content : FileContent} {es : List VarEntry}
    (hes : content.entryList = some es) :
    dataLength8x content = (es.map (entryLength8x content.model)).sum % 2 ^ 32 := by
  unfold dataLength8x
  rw [(take_of_firstEntries hes).1]
  simp

/-- The entries take the bytes that the header says. -/
theorem length_storedEntries {model : CalcModel} {raw : VarEntry → List UInt8} {es : List VarEntry}
    (hmodel : tifilesCalcIsTi8x model = true) (hstorable : Storable8x model raw es) :
    (storedEntries model raw es).length = (es.map (entryLength8x model)).sum := by
  induction es with
  | nil => rfl
  | cons e es ih =>
      have hentry := length_storedEntry hmodel (hstorable.name e List.mem_cons_self)
        (hstorable.sized e List.mem_cons_self)
      have hrest := ih hstorable.tail
      unfold storedEntries at hrest ⊢
      rw [List.flatMap_cons, List.length_append, hentry, hrest, List.map_cons, List.sum_cons]

/-- An entry is at most as long as all of them. -/
theorem size_le_sum {model : CalcModel} {es : List VarEntry} {e : VarEntry}
    (hmodel : tifilesCalcIsTi8x model = true) (he : e ∈ es) :
    e.size.toNat ≤ (es.map (entryLength8x model)).sum := by
  have hentry : e.size.toNat ≤ entryLength8x model e := by
    unfold entryLength8x
    cases model <;> first
      | exact absurd hmodel (by decide)
      | (simp [isTi83p]; try omega)
  exact hentry.trans (List.single_le_sum (fun _ _ => Nat.zero_le _) _ (List.mem_map_of_mem he))

/-- The bytes of a file, from the converted names. -/
def file8x (conv : Converters) (content : FileContent) (es : List VarEntry) (sig : List UInt8) :
    List UInt8 :=
  sig ++ (fsignature content.model ++ (content.comment.val.take 42
    ++ (fwriteWord (dataLength8x content)
      ++ (storedEntries content.model (varnameToFile conv content.modelDst) es
        ++ fwriteWord (sum8x conv content es)))))

/-- The writer puts the entries one after the other. -/
theorem writeEntries8x_eq {conv : Converters} {content : FileContent} {es : List VarEntry}
    {sig : List UInt8} (hsome : tifilesCalctype2signature content.model = some sig)
    (hsig : IsSignature sig)
    (hnames : ∀ e ∈ es, (varnameToFile conv content.modelDst e).length ≤ 8) :
    writeEntries8x conv content es = .ok (file8x conv content es sig) := by
  have hentries : es.mapM (writeEntry8x conv content) = .ok (es.map fun e =>
      storedEntry content.model (varnameToFile conv content.modelDst e) e) := by
    clear hsome hsig
    induction es with
    | nil => rfl
    | cons e es ih =>
        have hrest := ih fun e' he => hnames e' (List.mem_cons_of_mem e he)
        rw [mapM_cons_eq_ok_iff]
        exact ⟨_, _, writeEntry8x_eq (hnames e List.mem_cons_self), hrest, rfl⟩
  have hfits : fwriteNChars 8 sig = .ok sig := by
    have hpad : padRight 8 0 sig = sig := by simp [padRight, hsig.1]
    unfold fwriteNChars
    rw [if_neg (Nat.not_lt.mpr hsig.1.le), hpad]
  unfold writeEntries8x file8x storedEntries
  rw [hsome]
  dsimp only
  rw [hfits, hentries, List.flatMap_def]
  simp [bind, Except.bind, pure, Except.pure]

/-- The header of a file, up to the first entry. -/
theorem length_header8x {sig : List UInt8} (hsig : sig.length = 8) (model : CalcModel)
    (comment : Buf 43) (n : Nat) :
    (sig ++ (fsignature model ++ (comment.val.take 42 ++ fwriteWord n))).length = 55 := by
  have hcomment : (comment.val.take 42).length = 42 := by
    rw [List.length_take, comment.property]
    decide
  have hfsig : (fsignature model).length = 3 := by
    unfold fsignature
    split <;> rfl
  simp [hsig, hcomment, hfsig]

/-- The body of the reader, on the bytes of a file. -/
theorem exec_readRegular8xBody {conv : Converters} {content old : FileContent}
    {es : List VarEntry} {sig : List UInt8} {fileSize : Nat} (hsig : IsSignature sig)
    (halike : Alike (tifilesSignature2calctype sig) content.model)
    (hstorable : Storable8x content.model (varnameToFile conv content.modelDst) es)
    (hlen : (storedEntries content.model (varnameToFile conv content.modelDst) es).length
      = dataLength8x content)
    (hword : dataLength8x content < 2 ^ 16) (hfile : 16 + dataLength8x content ≤ fileSize)
    (hfit : ∀ e ∈ es, e.size.toNat ≤ fileSize) :
    ∃ read, (Proc.exec (readRegular8xBody conv fileSize old)
        ⟨file8x conv content es sig, 0⟩).1 = .ok read
      ∧ read.entries = some ((es.map (readBack8x conv read.modelDst content.model
          (varnameToFile conv content.modelDst))).map some ++ [none])
      ∧ read.numEntries = UInt32.ofNat es.length := by
  generalize hf : (⟨file8x conv content es sig, 0⟩ : InFile) = f
  have hrest : f.rest = sig ++ (fsignature content.model ++ (content.comment.val.take 42
      ++ (fwriteWord (dataLength8x content)
        ++ (storedEntries content.model (varnameToFile conv content.modelDst) es
          ++ fwriteWord (sum8x conv content es))))) := by
    rw [← hf]
    rfl
  have hcomment : (content.comment.val.take 42).length = 42 := by
    rw [List.length_take, content.comment.property]
    decide
  have hfsig : (fsignature content.model).length = 3 := by
    unfold fsignature
    split <;> rfl
  have hpad : padRight 8 0 sig = sig := by simp [padRight, hsig.1]
  have hreadSig := consumes_fwriteNChars hsig.1.le hsig.2.1
  rw [hpad] at hreadSig
  have h1 := InFile.rest_advance_append hrest hsig.1
  have h2 := InFile.rest_advance_append h1 hfsig
  have h3 := InFile.rest_advance_append h2 hcomment
  have h4 := InFile.rest_advance_append h3 (length_fwriteWord _)
  -- the first pass starts where the second one does
  have hbefore : LayoutBefore content.model ⟨false, 8, false⟩ :=
    ⟨fun h => absurd h (by decide), fun _ => rfl⟩
  generalize hg : (((f.advance 8).advance 3).advance 42).advance 2 = g at h4
  obtain ⟨layout, hcount, -, hof⟩ := countEntries_stored halike hstorable hbefore h4
    (congrArg (g.pos + ·) hlen.symm)
  obtain ⟨sum, hentries⟩ := @consumes_readEntries8x conv _ _
    (if old.modelDst = .none then tifilesSignature2calctype sig else old.modelDst) _ _ _ fileSize
    halike hstorable hof (fun _ => by omega) hfit
  have h5 := InFile.rest_advance_append h4 rfl
  have hsum : sum8x conv content es < 2 ^ 16 := Nat.mod_lt _ (by decide)
  have hlast := consumes_freadWord hsum
  have hseek : Proc.exec (fseek g.pos : FileReader Unit) g = (.ok (), g) := rfl
  have htell : Proc.exec (ftell : FileReader Nat) g = (.ok g.pos, g) := rfl
  have hend : (g.advance (storedEntries content.model (varnameToFile conv content.modelDst)
      es).length).rest = fwriteWord (sum8x conv content es) ++ [] := by
    rw [h5, List.append_nil]
  unfold readRegular8xBody
  rw [hreadSig.exec_bind hrest, hsig.1, if_neg hsig.2.2.2]
  dsimp only
  rw [(Consumes.fskip hfsig).exec_bind h1, hfsig,
    (consumes_freadBytes hcomment).exec_bind h2, hcomment,
    (consumes_freadLength hword (by omega)).exec_bind h3, length_fwriteWord, hg,
    Proc.exec_bind_ok htell, Proc.exec_bind_ok (Proc.exec_get g), hcount,
    Proc.exec_bind_ok (Proc.exec_ofExcept _ g)]
  dsimp only
  rw [Proc.exec_bind_ok hseek, hentries.exec_bind h4]
  dsimp only
  rw [hlast.exec_bind hend]
  exact ⟨_, rfl, rfl, rfl⟩

/-- A file that was written from entries with names of at most eight characters, and that the
reader takes for a regular file, is read back entry by entry. -/
theorem ti8xFileReadRegular_written (conv : Converters) {content old written : FileContent}
    {es : List VarEntry} {filename bytes : List UInt8}
    (h8x : tifilesCalcIsTi8x content.model = true) (hes : content.entryList = some es)
    (hnames : ∀ e ∈ es, (varnameToFile conv content.modelDst e).length ≤ 8)
    (h85 : content.model = .ti85 →
      ∀ e ∈ es, e.name.chars.length = (varnameToFile conv content.modelDst e).length)
    (hsized : ∀ e ∈ es, e.Sized)
    (htotal : (es.map (entryLength8x content.model)).sum < 2 ^ 32)
    (hwrite : ti8xFileWriteRegular conv content = .ok (some (bytes, written)))
    (hregular : tifilesFileIsRegular filename bytes = true) :
    ∃ read, ti8xFileReadRegular conv filename bytes old = .ok read
      ∧ read.numEntries = content.numEntries
      ∧ read.entryList = some (es.map (readBack8x conv read.modelDst content.model
          (varnameToFile conv content.modelDst))) := by
  obtain ⟨sig, hsome, hsig, -⟩ := signature_ti8x h8x
  have hsum := dataLength8x_eq hes
  rw [Nat.mod_eq_of_lt htotal] at hsum
  have hstorable : dataLength8x content < 2 ^ 16 →
      Storable8x content.model (varnameToFile conv content.modelDst) es := by
    intro hlt
    refine ⟨fun e he => ⟨hnames e he, (VarName.ofChars _).noNul, fun hm => h85 hm e he⟩,
      fun e he => ?_, hsized⟩
    have hle := size_le_sum h8x he
    omega
  have hcount := (take_of_firstEntries hes).2
  unfold ti8xFileWriteRegular at hwrite
  split at hwrite
  · cases hwrite
  · split at hwrite
    · cases hwrite
    · rename_i hlt
      rw [hes] at hwrite
      dsimp only at hwrite
      rw [writeEntries8x_eq hsome hsig hnames] at hwrite
      cases hwrite
      have hstored := hstorable (by omega)
      have hlen := length_storedEntries h8x hstored
      have hbytes : (file8x conv content es sig).length = 57 + dataLength8x content := by
        have hheader := length_header8x hsig.1 content.model content.comment (dataLength8x content)
        unfold file8x
        simp only [List.length_append, length_fwriteWord, hlen] at hheader ⊢
        omega
      obtain ⟨read, hread, hentries, hnum⟩ := @exec_readRegular8xBody conv content old es sig
        (file8x conv content es sig).length hsig (alike_signature h8x hsome) hstored
        (hlen.trans hsum.symm) (by omega) (by omega) fun e he => by
          have hle := size_le_sum h8x he
          omega
      refine ⟨read, ?_, ?_, ?_⟩
      · unfold ti8xFileReadRegular
        rw [hregular, if_neg (by decide), if_neg (by omega)]
        exact hread
      · rw [hnum, hcount, UInt32.ofNat_toNat]
      · have hmap := firstEntries_map_some (es.map (readBack8x conv read.modelDst content.model
          (varnameToFile conv content.modelDst))) [none]
        rw [List.length_map, hcount] at hmap
        unfold FileContent.entryList
        rw [hnum, hcount, UInt32.ofNat_toNat, hentries]
        exact hmap

/-- A content for the TI-83+ with its entries. -/
def sample8x (comment : String) (es : List VarEntry) : FileContent :=
  { sampleContent comment es with model := .ti83p, modelDst := .ti83p }

/-- The file of the content, and the content with its checksum. -/
def written8x (comment : String) (es : List VarEntry) : List UInt8 × FileContent :=
  ((ti8xFileWriteRegular serialConverters (sample8x comment es)).toOption.join).getD
    ([], sample8x comment es)

/-- An archived program, and a list that is not archived. -/
def sampleEntries8x : List VarEntry :=
  [{ sampleEntry "" "A" 5 3 with version := 1 }, sampleEntry "" "L" 1 0]

theorem ti8xFileReadRegular_written_group :
    ∃ read, ti8xFileReadRegular serialConverters (ascii "a.8Xg")
        (written8x "" sampleEntries8x).1 (sample8x "" []) = .ok read
      ∧ read.entryList = some sampleEntries8x := by
  obtain ⟨read, hread, -, hentries⟩ := @ti8xFileReadRegular_written serialConverters
    (sample8x "" sampleEntries8x) (sample8x "" []) (written8x "" sampleEntries8x).2
    sampleEntries8x (ascii "a.8Xg") (written8x "" sampleEntries8x).1 rfl (by decide)
    (by decide) nofun (by unfold VarEntry.Sized; decide) (by decide)
    (by decide) (by decide)
  refine ⟨read, hread, ?_⟩
  have hfound : (ti8xFileReadRegular serialConverters (ascii "a.8Xg")
      (written8x "" sampleEntries8x).1 (sample8x "" [])).toOption.map FileContent.modelDst
        = some .ti83p := by
    decide +kernel
  rw [hread] at hfound
  rw [hentries, Option.some.inj hfound]
  decide

/-- Every content of a TI-8x model comes back entry by entry, with the property `keeps` of what
is read and what was written. -/
def EntriesKeep8x (keeps : CalcModel → VarEntry → VarEntry → Prop) : Prop :=
  ∀ (conv : Converters) (content old written : FileContent) (es : List VarEntry)
    (filename bytes : List UInt8), tifilesCalcIsTi8x content.model = true →
    content.entryList = some es →
    (∀ e ∈ es, (varnameToFile conv content.modelDst e).length ≤ 8) → (∀ e ∈ es, e.Sized) →
    ti8xFileWriteRegular conv content = .ok (some (bytes, written)) →
    ∃ read out, ti8xFileReadRegular conv filename bytes old = .ok read
      ∧ read.entryList = some out ∧ List.Forall₂ (keeps content.model) out es

/-- What is found in the file of a content for the TI-83+. -/
def readSample8x (comment : String) (es : List VarEntry) : Option (List VarEntry) :=
  (ti8xFileReadRegular serialConverters (ascii "A.8Xp") (written8x comment es).1
    (sample8x "" [])).toOption.bind FileContent.entryList

theorem EntriesKeep8x.sample {keeps : CalcModel → VarEntry → VarEntry → Prop}
    (h : EntriesKeep8x keeps) {comment : String} {es : List VarEntry}
    (hes : (sample8x comment es).entryList = some es) (hnames : ∀ e ∈ es, e.name.chars.length ≤ 8)
    (hsized : ∀ e ∈ es, e.Sized)
    (hwrite : ti8xFileWriteRegular serialConverters (sample8x comment es)
      = .ok (some (written8x comment es))) :
    ∃ out, readSample8x comment es = some out ∧ List.Forall₂ (keeps .ti83p) out es := by
  have hnames' : ∀ e ∈ es, (varnameToFile serialConverters .ti83p e).length ≤ 8 := by
    intro e he
    have hname : varnameToFile serialConverters .ti83p e = e.name.chars :=
      congrArg CStr.chars (VarName.ofChars_chars e.name)
    rw [hname]
    exact hnames e he
  obtain ⟨read, out, hread, hout, hkeeps⟩ := h serialConverters (sample8x comment es)
    (sample8x "" []) (written8x comment es).2 es (ascii "A.8Xp") (written8x comment es).1 rfl hes
    hnames' hsized hwrite
  refine ⟨out, ?_, hkeeps⟩
  rw [readSample8x, hread]
  exact hout

/-- What the format does not store: an attribute other than archived, a version that older
versions of the library meant as the attribute, and a file whose comment makes it look like an
operating system. -/
theorem not_entriesKeep8x :
    ¬EntriesKeep8x (fun model read e => isTi83p model → read.attr = e.attr)
      ∧ ¬EntriesKeep8x (fun model read e => isTi83p model → read.version = e.version)
      ∧ ¬EntriesKeep8x fun _ _ _ => True := by
  refine ⟨fun h => ?_, fun h => ?_, fun h => ?_⟩
  · obtain ⟨out, hread, hkeeps⟩ := @EntriesKeep8x.sample _ h "" [sampleEntry "" "A" 5 1]
      (by decide) (by decide) (by unfold VarEntry.Sized; decide)
      (by decide)
    have hout : readSample8x "" [sampleEntry "" "A" 5 1] = some [sampleEntry "" "A" 5 0] := by
      decide +kernel
    cases Option.some.inj (hout.symm.trans hread)
    exact absurd ((List.forall₂_cons.1 hkeeps).1 rfl) (by decide)
  · obtain ⟨out, hread, hkeeps⟩ := @EntriesKeep8x.sample _ h ""
      [{ sampleEntry "" "A" 5 0 with version := 0x80 }] (by decide) (by decide)
      (by unfold VarEntry.Sized; decide) (by decide)
    have hout : readSample8x "" [{ sampleEntry "" "A" 5 0 with version := 0x80 }]
        = some [sampleEntry "" "A" 5 3] := by
      decide +kernel
    cases Option.some.inj (hout.symm.trans hread)
    exact absurd ((List.forall₂_cons.1 hkeeps).1 rfl) (by decide)
  · obtain ⟨out, hread, -⟩ := @EntriesKeep8x.sample _ h
      "the TI-84+ Advanced Mathematics Software" [sampleEntry "" "A" 5 0] (by decide)
      (by decide) (by unfold VarEntry.Sized; decide) (by decide)
    have hout : readSample8x "the TI-84+ Advanced Mathematics Software" [sampleEntry "" "A" 5 0]
        = none := by
      decide
    cases hout.symm.trans hread

end Tilibs.Files
