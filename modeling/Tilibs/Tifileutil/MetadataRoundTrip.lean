import Tilibs.Tifileutil.MetadataText

/-!
# Tilibs.Tifileutil.MetadataRoundTrip

When the metadata of a file come back from the text that is printed.  The keys are the code's own,
and most values are words and numbers; what a file may hold freely are its comment and its names
(`MetadataContent.OneLine`).
-/

namespace Tilibs.Tifileutil

open Lib Files Conv

/-- The comment and the names that are printed do not end a line, and the names of members have
room in the buffer for a line. -/
def OneLine : MetadataContent → Prop
  | .regular content => lineFeed ∉ cstr content.comment.val
      ∧ ∀ es, content.entryList = some es →
        ∀ ve ∈ es, lineFeed ∉ ve.name.chars ∧ lineFeed ∉ ve.folder.chars
  | .backup content => lineFeed ∉ cstr content.comment.val
  | .flash content => lineFeed ∉ content.name.chars
  | .tigroup content =>
      (∀ i te, (content.val.varEntries ++ content.val.appEntries)[i]? = some te →
        lineFeed ∉ cstr te.filename
          ∧ (decimal (i + 1)).length + (cstr te.filename).length + 22 < lineCap)
      ∧ (∀ te ∈ content.val.varEntries, ∀ ve, te.firstEntry = some ve → lineFeed ∉ ve.name.chars)
      ∧ ∀ te ∈ content.val.appEntries, ∀ flash, te.flashLink = some flash →
        lineFeed ∉ flash.name.chars

theorem oneLine_regular_iff (content : FileContent) :
    (lineFeed ∉ cstr content.comment.val
        ∧ ∀ ve ∈ content.entryList.getD [], lineFeed ∉ ve.name.chars ∧ lineFeed ∉ ve.folder.chars)
      ↔ OneLine (.regular content) := by
  refine and_congr_right' ⟨fun h es hes => ?_, fun h => ?_⟩
  · rw [hes] at h
    exact h
  · cases hes : content.entryList with
    | none => exact fun _ hve => by cases hve
    | some es => exact h es hes

theorem oneLine_tigroup_iff (content : CountedTigroup) :
    ((∀ te ∈ (content.val.varEntries ++ content.val.appEntries).zipIdx,
          lineFeed ∉ cstr te.1.filename
            ∧ (decimal (te.2 + 1)).length + (cstr te.1.filename).length + 22 < lineCap)
        ∧ (∀ te ∈ content.val.varEntries, ∀ ve ∈ te.firstEntry.toList, lineFeed ∉ ve.name.chars)
        ∧ ∀ te ∈ content.val.appEntries, ∀ flash ∈ te.flashLink.toList,
          lineFeed ∉ flash.name.chars)
      ↔ OneLine (.tigroup content) := by
  refine and_congr ⟨fun h i te hte => ?_, ?_⟩ (and_congr ?_ ?_)
  · exact h (te, i) (List.mem_zipIdx_iff_getElem?.mpr hte)
  · rintro h ⟨te, i⟩ hte
    exact h i te (List.mem_zipIdx_iff_getElem?.mp hte)
  · simp only [Option.mem_toList]
  · simp only [Option.mem_toList]

instance : DecidablePred OneLine
  | .regular content => decidable_of_iff _ (oneLine_regular_iff content)
  | .backup content => inferInstanceAs (Decidable (lineFeed ∉ cstr content.comment.val))
  | .flash content => inferInstanceAs (Decidable (lineFeed ∉ content.name.chars))
  | .tigroup content => decidable_of_iff _ (oneLine_tigroup_iff content)

/-! ## keys -/

/-- The keys that are written out, in their order. -/
def fileNames : List String :=
  ["metadata.version", "file.class", "file.model", "file.magic", "file.name", "file.comment",
    "file.checksum.computed", "file.checksum.stored", "file.entries"] ++ ["file.warnings"]

/-- The names of the fields of an entry, in their order. -/
def entryNames : List String :=
  ["filename", "class", "name", "folder", "type", "type.name", "type.ext", "size", "version",
    "attr.archived", "attr.locked"]

section Keys

variable {n m : Nat} {name name' : String}

theorem isKey_fileNames : ∀ name ∈ fileNames, isKey (ascii name) = true := by decide

theorem nodup_fileNames : (fileNames.map ascii).Nodup := by decide

theorem nodup_entryNames : (entryNames.map ascii).Nodup := by decide

theorem entryNames_chars : ∀ name ∈ entryNames,
    isKey (ascii name) = true ∧ (ascii name).length ≤ 13 := by decide

/-- The digits of a number as characters. -/
theorem digit_toNat {n : Nat} {d : Char} (hd : d ∈ Nat.toDigits 10 n) :
    0x30 ≤ d.toNat ∧ d.toNat ≤ 0x39 := by
  have hdigit := Nat.isDigit_of_mem_toDigits (by decide) (by decide) hd
  rw [Char.isDigit, Bool.and_eq_true, decide_eq_true_iff, decide_eq_true_iff] at hdigit
  exact ⟨UInt32.le_iff_toNat_le.mp hdigit.1, UInt32.le_iff_toNat_le.mp hdigit.2⟩

/-- What a number is made of. -/
theorem decimal_chars (n : Nat) : ∀ c ∈ decimal n, 0x30 ≤ c ∧ c ≤ 0x39 := by
  intro c hc
  obtain ⟨d, hd, rfl⟩ := List.mem_map.mp hc
  obtain ⟨hlow, hhigh⟩ := digit_toNat hd
  rw [UInt8.le_iff_toNat_le, UInt8.le_iff_toNat_le, UInt8.toNat_ofNat', Nat.mod_eq_of_lt (by omega)]
  exact ⟨hlow, hhigh⟩

theorem length_decimal_le {k : Nat} (hk : 0 < k) (h : n < 10 ^ k) : (decimal n).length ≤ k := by
  unfold decimal
  rw [List.length_map]
  exact (Nat.length_toDigits_le_iff (by decide) hk).mpr h

theorem decimal_injective : Function.Injective decimal := by
  have hback : ∀ n, (decimal n).map (fun b => Char.ofNat b.toNat) = Nat.toDigits 10 n := by
    intro n
    unfold decimal
    rw [List.map_map]
    refine (List.map_congr_left fun d hd => ?_).trans (List.map_id _)
    have hhigh := (digit_toNat hd).2
    rw [Function.comp_apply, UInt8.toNat_ofNat', Nat.mod_eq_of_lt (by omega), Char.ofNat_toNat]
    rfl
  intro n m h
  rw [← Nat.ofDigitChars_ten_toDigits (n := n), ← hback, h, hback, Nat.ofDigitChars_ten_toDigits]

theorem isKey_entryKey (hn : n < 10 ^ 10) (hname : name ∈ entryNames) :
    isKey (entryKey n name) = true := by
  obtain ⟨hchars, hlength⟩ := entryNames_chars name hname
  rw [isKey_iff]
  constructor
  · intro c hc
    unfold entryKey at hc
    rcases List.mem_append.mp hc with hc | hc
    · rcases List.mem_append.mp hc with hc | hc
      · rcases List.mem_append.mp hc with hc | hc
        · exact (isKey_iff.mp (show isKey (ascii "entry[") = true by decide)).1 c hc
        · have hrange := decimal_chars n c hc
          refine ⟨?_, ?_, ?_⟩
          all_goals
            rintro rfl
            exact absurd hrange (by decide)
      · exact (isKey_iff.mp (show isKey (ascii "].") = true by decide)).1 c hc
    · exact (isKey_iff.mp hchars).1 c hc
  · have hdecimal := length_decimal_le (by decide) hn
    have hopen : (ascii "entry[").length = 6 := by decide
    have hclose : (ascii "].").length = 2 := by decide
    unfold entryKey
    rw [List.length_append, List.length_append, List.length_append, hopen, hclose]
    omega

/-- Keys of entries are different for different numbers. -/
theorem entryKey_number (h : entryKey n name = entryKey m name') : n = m := by
  have hdigits : ∀ k, ∀ c ∈ decimal k, decide (c ≠ 0x5D) = true := by
    intro k c hc
    refine decide_eq_true ?_
    rintro rfl
    exact absurd (decimal_chars k _ hc) (by decide)
  have hkey : ∀ k (field : String),
      ((entryKey k field).drop 6).takeWhile (· ≠ 0x5D) = decimal k := by
    intro k field
    have hdrop : (entryKey k field).drop 6 = decimal k ++ (ascii "]." ++ ascii field) := by
      unfold entryKey
      rw [List.append_assoc, List.append_assoc]
      exact List.drop_left' (by decide)
    rw [hdrop, List.takeWhile_append_of_pos (hdigits k)]
    exact List.append_nil _
  refine decimal_injective ?_
  rw [← hkey n name, h, hkey]

theorem entryKey_name (h : entryKey n name = entryKey n name') : ascii name = ascii name' :=
  List.append_cancel_left h

/-- The first character of a key. -/
theorem head_entryKey (n : Nat) (name : String) : (entryKey n name).head? = some 0x65 := rfl

theorem head_fileNames : ∀ name ∈ fileNames, (ascii name).head? ≠ some 0x65 := by decide

end Keys

/-! ## values -/

/-- A value of the code's own. -/
def IsPlain (value : List UInt8) : Prop := 0 ∉ value ∧ lineFeed ∉ value ∧ value.length ≤ 32

instance (value : List UInt8) : Decidable (IsPlain value) :=
  inferInstanceAs (Decidable (_ ∧ _ ∧ _))

section Values

variable {value : List UInt8}

theorem plain_of_isTame (h : isTame value = true) : IsPlain value := by
  rw [isTame, Bool.and_eq_true, decide_eq_true_iff, List.all_eq_true] at h
  obtain ⟨hlength, hchars⟩ := h
  refine ⟨fun hc => ?_, fun hc => ?_, hlength⟩
  · exact absurd (hchars _ hc) (by decide)
  · exact absurd (hchars _ hc) (by decide)

theorem plain_decimal {n : Nat} (h : n < 10 ^ 32) : IsPlain (decimal n) := by
  have hlength : (decimal n).length ≤ 32 := length_decimal_le (Nat.succ_pos 31) h
  refine ⟨fun hc => ?_, fun hc => ?_, hlength⟩
  · exact absurd (decimal_chars n _ hc) (by decide)
  · exact absurd (decimal_chars n _ hc) (by decide)

theorem upperHexDigit_ge {n : UInt16} (h : n ≤ 15) : 0x30 ≤ upperHexDigit n := by
  have hall : ∀ k : Fin 16, 0x30 ≤ upperHexDigit (UInt16.ofNat k.val) := by decide
  have hlt : n.toNat < 16 := Nat.lt_succ_of_le (UInt16.le_iff_toNat_le.mp h)
  have hdigit := hall ⟨n.toNat, hlt⟩
  rwa [UInt16.ofNat_toNat] at hdigit

theorem plain_hexWord (n : UInt16) : IsPlain (hexWord n) := by
  have hmask : ∀ m : UInt16, m &&& 0xF ≤ 15 := fun m => by
    rw [UInt16.le_iff_toNat_le, UInt16.toNat_and]
    exact Nat.and_le_right
  have htop : n >>> 12 ≤ 15 := by
    have hn := n.toNat_lt
    rw [UInt16.le_iff_toNat_le, UInt16.toNat_shiftRight]
    show n.toNat >>> 12 ≤ 15
    rw [Nat.shiftRight_eq_div_pow]
    omega
  have hchars : ∀ c ∈ hexWord n, 0x30 ≤ c := by
    intro c hc
    rcases List.mem_append.mp hc with hc | hc
    · have hopen : (ascii "0x").all (fun c => decide (0x30 ≤ c)) = true := by decide
      exact of_decide_eq_true (List.all_eq_true.mp hopen c hc)
    · obtain ⟨d, hd, rfl⟩ := List.mem_map.mp hc
      refine upperHexDigit_ge ?_
      simp only [List.mem_cons, List.not_mem_nil, or_false] at hd
      rcases hd with rfl | rfl | rfl | rfl
      · exact htop
      · exact hmask _
      · exact hmask _
      · exact hmask _
  refine ⟨fun hc => ?_, fun hc => ?_, ?_⟩
  · exact absurd (hchars _ hc) (by decide)
  · exact absurd (hchars _ hc) (by decide)
  · have hopen : (ascii "0x").length = 2 := by decide
    rw [hexWord, List.length_append, hopen]
    exact (by decide : 6 ≤ 32)

theorem nul_notMem_cstr (s : List UInt8) : 0 ∉ cstr s := by
  intro h
  have hne := List.mem_takeWhile_imp h
  simp at hne

theorem length_cstr_le (s : List UInt8) : (cstr s).length ≤ s.length :=
  (List.takeWhile_sublist _).length_le

theorem nul_notMem_name (name : VarName) : 0 ∉ name.chars := fun h => name.noNul 0 h rfl

/-- Signatures do not end a line. -/
theorem lineFeed_notMem_signature (h : tifilesSignature2calctype value ≠ .none) :
    lineFeed ∉ value := by
  intro hfeed
  have hother : ∀ sig : List UInt8, lineFeed ∉ sig.map asciiTolower → sameNoCase value sig = false := by
    intro sig hsig
    refine beq_eq_false_iff_ne.mpr fun heq => hsig ?_
    rw [← heq]
    exact List.mem_map_of_mem (f := asciiTolower) hfeed
  refine h ?_
  unfold tifilesSignature2calctype
  simp (disch := decide) only [hother, Bool.false_eq_true, if_false]

end Values

/-! ## the pairs of a file -/

/-- The fields of a file. -/
def contentFields (magic : List UInt8) : MetadataContent → List (String × List UInt8)
  | .regular content =>
      [("file.class", if content.numEntries = 1 then ascii "single" else ascii "group"),
        ("file.model", tifilesModelToString content.model),
        ("file.magic", magic),
        ("file.comment", cstr content.comment.val),
        ("file.checksum.computed", hexWord content.checksum),
        ("file.checksum.stored", hexWord content.storedChecksum),
        ("file.entries", decimal content.numEntries.toNat)]
  | .backup content =>
      [("file.class", ascii "backup"),
        ("file.model", tifilesModelToString content.model),
        ("file.magic", magic),
        ("file.comment", cstr content.comment.val),
        ("file.checksum.computed", hexWord content.checksum),
        ("file.checksum.stored", hexWord content.storedChecksum),
        ("file.entries", ascii "1")]
  | .flash content =>
      [("file.class", ascii "flash"),
        ("file.model", tifilesModelToString content.model),
        ("file.magic", magic),
        ("file.name", content.name.chars),
        ("file.entries", ascii "1")]
  | .tigroup content =>
      [("file.class", ascii "tigroup"),
        ("file.model", tifilesModelToString content.val.model),
        ("file.magic", magic),
        ("file.comment", []),
        ("file.entries", decimal (content.val.varEntries.length + content.val.appEntries.length))]

/-- The fields of its entries. -/
def contentEntries : MetadataContent → List (List (String × List UInt8))
  | .regular content => (content.entryList.getD []).map (regularFields content.model)
  | .backup _ => []
  | .flash _ => []
  | .tigroup content => content.val.varEntries.map (memberFields content.val.model)
      ++ content.val.appEntries.map appFields

/-- The pairs are those of the file, and of its entries. -/
theorem fill_eq_some {content : MetadataContent} {magic : List UInt8} {pairs : List MetadataPair}
    (h : content.fill magic = some pairs) :
    pairs = metadataAdd (contentFields magic content) ++ entryPairs (contentEntries content) := by
  cases content with
  | regular content =>
      obtain ⟨es, hes, rfl⟩ := Option.map_eq_some_iff.mp h
      rw [contentEntries, hes]
      rfl
  | backup content =>
      obtain rfl := Option.some.inj h
      exact (List.append_nil _).symm
  | flash content =>
      obtain rfl := Option.some.inj h
      exact (List.append_nil _).symm
  | tigroup content =>
      unfold MetadataContent.fill metadataFillTigroup at h
      dsimp only at h
      split at h
      · exact (Option.some.inj h).symm
      · cases h

section Fields

/-- The keys of files with a comment and checksums, of flash files, and of tigroups. -/
theorem contentFields_names (magic : List UInt8) (content : MetadataContent) :
    ("metadata.version" :: (contentFields magic content).map Prod.fst ++ ["file.warnings"]).Sublist
      fileNames := by
  have hchecked : ["metadata.version", "file.class", "file.model", "file.magic", "file.comment",
      "file.checksum.computed", "file.checksum.stored", "file.entries",
      "file.warnings"].Sublist fileNames := by decide
  have hflash : ["metadata.version", "file.class", "file.model", "file.magic", "file.name",
      "file.entries", "file.warnings"].Sublist fileNames := by decide
  have htigroup : ["metadata.version", "file.class", "file.model", "file.magic", "file.comment",
      "file.entries", "file.warnings"].Sublist fileNames := by decide
  cases content with
  | regular content => exact hchecked
  | backup content => exact hchecked
  | flash content => exact hflash
  | tigroup content => exact htigroup

variable {fields : List (String × List UInt8)}

/-- What the fields of an entry are like. -/
structure EntryFields (fields : List (String × List UInt8)) : Prop where
  names : (fields.map Prod.fst).Sublist entryNames
  texts : ∀ field ∈ fields, 0 ∉ field.2

theorem typeFields_plain (model : CalcModel) (ve : VarEntry) :
    ∀ field ∈ typeFields model ve, IsPlain field.2 := by
  have htype : ve.type.toNat < 10 ^ 32 := ve.type.toNat_lt.trans (by decide)
  have hsize : ve.size.toNat < 10 ^ 32 := ve.size.toNat_lt.trans (by decide)
  have hversion : ve.version.toNat < 10 ^ 32 := ve.version.toNat_lt.trans (by decide)
  have hbit : ∀ p : Prop, ∀ _ : Decidable p, (if p then 1 else 0) < 10 ^ 32 := by
    intro p _
    split <;> decide
  intro field hfield
  simp only [typeFields, List.mem_cons, List.not_mem_nil, or_false] at hfield
  rcases hfield with rfl | rfl | rfl | rfl | rfl | rfl | rfl
  · exact plain_decimal htype
  · exact plain_of_isTame (isTame_tifilesVartype2string model ve.type)
  · exact plain_of_isTame (isTame_tifilesVartype2fext model ve.type)
  · exact plain_decimal hsize
  · exact plain_decimal hversion
  · exact plain_decimal (hbit _ _)
  · exact plain_decimal (hbit _ _)

theorem entryFields_regular (model : CalcModel) (ve : VarEntry) :
    EntryFields (regularFields model ve) where
  names := show ["name", "folder", "type", "type.name", "type.ext", "size", "version",
    "attr.archived", "attr.locked"].Sublist entryNames by decide
  texts := by
    intro field hfield
    rcases List.mem_cons.mp hfield with rfl | hfield
    · exact nul_notMem_name ve.name
    · rcases List.mem_cons.mp hfield with rfl | hfield
      · exact nul_notMem_name ve.folder
      · exact (typeFields_plain model ve field hfield).1

theorem entryFields_member (model : CalcModel) (te : TigMember FileContent FlashChain) :
    EntryFields (memberFields model te) := by
  unfold memberFields
  cases te.firstEntry with
  | none =>
      refine ⟨show ["filename", "class"].Sublist entryNames by decide, fun field hfield => ?_⟩
      rcases List.mem_cons.mp hfield with rfl | hfield
      · exact nul_notMem_cstr te.filename
      · obtain rfl := List.mem_singleton.mp hfield
        exact (by decide : 0 ∉ ascii "regular")
  | some ve =>
      refine ⟨show ["filename", "class", "name", "type", "type.name", "type.ext", "size", "version",
        "attr.archived", "attr.locked"].Sublist entryNames by decide, fun field hfield => ?_⟩
      rcases List.mem_cons.mp hfield with rfl | hfield
      · exact nul_notMem_cstr te.filename
      · rcases List.mem_cons.mp hfield with rfl | hfield
        · exact (by decide : 0 ∉ ascii "regular")
        · rcases List.mem_cons.mp hfield with rfl | hfield
          · exact nul_notMem_name ve.name
          · exact (typeFields_plain model ve field hfield).1

theorem entryFields_app (te : TigMember FileContent FlashChain) :
    EntryFields (appFields te) := by
  unfold appFields
  cases te.flashLink with
  | none =>
      refine ⟨show ["filename", "class"].Sublist entryNames by decide, fun field hfield => ?_⟩
      rcases List.mem_cons.mp hfield with rfl | hfield
      · exact nul_notMem_cstr te.filename
      · obtain rfl := List.mem_singleton.mp hfield
        exact (by decide : 0 ∉ ascii "flash")
  | some flash =>
      refine ⟨show ["filename", "class", "name", "size"].Sublist entryNames by decide,
        fun field hfield => ?_⟩
      simp only [List.mem_cons, List.not_mem_nil, or_false] at hfield
      rcases hfield with rfl | rfl | rfl | rfl
      · exact nul_notMem_cstr te.filename
      · exact (by decide : 0 ∉ ascii "flash")
      · exact nul_notMem_name flash.name
      · exact (plain_decimal (flash.dataLength.toNat_lt.trans (by decide))).1

end Fields

section Content

variable {content : MetadataContent} {magic : List UInt8}

theorem length_firstEntries {n : Nat} {slots : List (Option VarEntry)} {es : List VarEntry}
    (h : firstEntries n slots = some es) : es.length = n := by
  induction n generalizing slots es with
  | zero =>
      cases h
      rfl
  | succ n ih =>
      cases slots with
      | nil => cases h
      | cons slot slots =>
          cases slot with
          | none => cases h
          | some e =>
              obtain ⟨rest, hrest, rfl⟩ := Option.map_eq_some_iff.mp h
              exact congrArg (· + 1) (ih hrest)

/-- The entries are counted with 32 bits. -/
theorem length_contentEntries (content : MetadataContent) :
    (contentEntries content).length < 2 ^ 32 := by
  cases content with
  | regular content =>
      unfold contentEntries
      rw [List.length_map]
      cases hes : content.entryList with
      | none => exact Nat.two_pow_pos 32
      | some es =>
          rw [Option.getD_some, length_firstEntries hes]
          exact content.numEntries.toNat_lt
  | backup content => exact Nat.two_pow_pos 32
  | flash content => exact Nat.two_pow_pos 32
  | tigroup content =>
      unfold contentEntries
      rw [List.length_append, List.length_map, List.length_map]
      exact content.property

theorem entryFields_of_mem {fields : List (String × List UInt8)}
    (h : fields ∈ contentEntries content) : EntryFields fields := by
  cases content with
  | regular content =>
      obtain ⟨ve, -, rfl⟩ := List.mem_map.mp h
      exact entryFields_regular content.model ve
  | backup content => cases h
  | flash content => cases h
  | tigroup content =>
      rcases List.mem_append.mp h with h | h
      · obtain ⟨te, -, rfl⟩ := List.mem_map.mp h
        exact entryFields_member content.val.model te
      · obtain ⟨te, -, rfl⟩ := List.mem_map.mp h
        exact entryFields_app te

/-- The value of a file that is not the code's own. -/
def freeText : MetadataContent → List UInt8
  | .regular content => cstr content.comment.val
  | .backup content => cstr content.comment.val
  | .flash content => content.name.chars
  | .tigroup _ => []

theorem freeText_mem (magic : List UInt8) (content : MetadataContent) :
    ∃ name, (name, freeText content) ∈ contentFields magic content := by
  cases content with
  | regular content => exact ⟨"file.comment", by simp [contentFields, freeText]⟩
  | backup content => exact ⟨"file.comment", by simp [contentFields, freeText]⟩
  | flash content => exact ⟨"file.name", by simp [contentFields, freeText]⟩
  | tigroup content => exact ⟨"file.comment", by simp [contentFields, freeText]⟩

theorem nul_notMem_freeText (content : MetadataContent) : 0 ∉ freeText content := by
  cases content with
  | regular content => exact nul_notMem_cstr _
  | backup content => exact nul_notMem_cstr _
  | flash content => exact nul_notMem_name content.name
  | tigroup content => exact List.not_mem_nil

theorem length_freeText (content : MetadataContent) : (freeText content).length ≤ 1024 := by
  cases content with
  | regular content =>
      have hcstr := length_cstr_le content.comment.val
      rw [content.comment.property] at hcstr
      exact hcstr.trans (by decide)
  | backup content =>
      have hcstr := length_cstr_le content.comment.val
      rw [content.comment.property] at hcstr
      exact hcstr.trans (by decide)
  | flash content => exact content.name.fits.le
  | tigroup content => exact Nat.zero_le _

/-- All other values are plain. -/
theorem contentFields_plain (hmagic : IsPlain magic) :
    ∀ field ∈ contentFields magic content, IsPlain field.2 ∨ field.2 = freeText content := by
  intro field hfield
  cases content with
  | regular content =>
      simp only [contentFields, List.mem_cons, List.not_mem_nil, or_false] at hfield
      rcases hfield with rfl | rfl | rfl | rfl | rfl | rfl | rfl
      · left
        dsimp only
        split <;> decide
      · exact .inl (plain_of_isTame (isTame_tifilesModelToString content.model))
      · exact .inl hmagic
      · exact .inr rfl
      · exact .inl (plain_hexWord content.checksum)
      · exact .inl (plain_hexWord content.storedChecksum)
      · exact .inl (plain_decimal (content.numEntries.toNat_lt.trans (by decide)))
  | backup content =>
      simp only [contentFields, List.mem_cons, List.not_mem_nil, or_false] at hfield
      rcases hfield with rfl | rfl | rfl | rfl | rfl | rfl | rfl
      · exact .inl (by decide)
      · exact .inl (plain_of_isTame (isTame_tifilesModelToString content.model))
      · exact .inl hmagic
      · exact .inr rfl
      · exact .inl (plain_hexWord content.checksum)
      · exact .inl (plain_hexWord content.storedChecksum)
      · exact .inl (by decide)
  | flash content =>
      simp only [contentFields, List.mem_cons, List.not_mem_nil, or_false] at hfield
      rcases hfield with rfl | rfl | rfl | rfl | rfl
      · exact .inl (by decide)
      · exact .inl (plain_of_isTame (isTame_tifilesModelToString content.model))
      · exact .inl hmagic
      · exact .inr rfl
      · exact .inl (by decide)
  | tigroup content =>
      simp only [contentFields, List.mem_cons, List.not_mem_nil, or_false] at hfield
      rcases hfield with rfl | rfl | rfl | rfl | rfl
      · exact .inl (by decide)
      · exact .inl (plain_of_isTame (isTame_tifilesModelToString content.val.model))
      · exact .inl hmagic
      · exact .inr rfl
      · exact .inl (plain_decimal (content.property.trans (by decide)))

end Content

/-! ## what is printed can be read -/

section Pairs

variable {content : MetadataContent} {magic : List UInt8} {badChecksum mismatch : Bool}

theorem mem_entryPairs {entries : List (List (String × List UInt8))} {pair : MetadataPair} :
    pair ∈ entryPairs entries ↔ ∃ i fields, entries[i]? = some fields
      ∧ ∃ field ∈ fields, (entryKey (i + 1) field.1, field.2) = pair := by
  unfold entryPairs
  rw [List.mem_flatMap]
  constructor
  · rintro ⟨⟨fields, i⟩, hentry, hpair⟩
    exact ⟨i, fields, List.mem_zipIdx_iff_getElem?.mp hentry, List.mem_map.mp hpair⟩
  · rintro ⟨i, fields, hentry, hpair⟩
    exact ⟨(fields, i), List.mem_zipIdx_iff_getElem?.mpr hentry, List.mem_map.mpr hpair⟩

/-- The number of an entry is short. -/
theorem number_lt {i : Nat} {fields : List (String × List UInt8)}
    (h : (contentEntries content)[i]? = some fields) : i + 1 < 10 ^ 10 := by
  have hi := (List.getElem?_eq_some_iff.mp h).1
  have hlength := length_contentEntries content
  omega

theorem isKey_entry {i : Nat} {fields : List (String × List UInt8)}
    (h : (contentEntries content)[i]? = some fields) {field : String × List UInt8}
    (hfield : field ∈ fields) : isKey (entryKey (i + 1) field.1) = true := by
  have hnames := (entryFields_of_mem (List.mem_of_getElem? h)).names
  exact isKey_entryKey (number_lt h) (hnames.subset (List.mem_map_of_mem hfield))

theorem isKey_contentFields {field : String × List UInt8}
    (hfield : field ∈ contentFields magic content) : isKey (ascii field.1) = true := by
  refine isKey_fileNames _ ((contentFields_names magic content).subset ?_)
  exact List.mem_append_left _ (List.mem_cons_of_mem _ (List.mem_map_of_mem hfield))

/-- The pairs of the warnings. -/
def warnings (badChecksum mismatch : Bool) : List MetadataPair :=
  warningPairs (warningText badChecksum mismatch)

theorem warnings_plain : ∀ pair ∈ warnings badChecksum mismatch,
    isKey pair.1 = true ∧ IsPlain pair.2 := by
  cases badChecksum <;> cases mismatch <;> decide

theorem warnings_keys : ((warnings badChecksum mismatch).map Prod.fst).Sublist
    [ascii "file.warnings"] := by
  cases badChecksum <;> cases mismatch <;> decide

/-- The keys of entries are all different. -/
theorem nodup_entryPairs (content : MetadataContent) :
    ((entryPairs (contentEntries content)).map Prod.fst).Nodup := by
  unfold entryPairs
  rw [List.map_flatMap, List.nodup_flatMap]
  constructor
  · rintro ⟨fields, i⟩ hentry
    have hshape := entryFields_of_mem (List.mem_of_getElem? (List.mem_zipIdx_iff_getElem?.mp hentry))
    have hnames := (hshape.names.map ascii).nodup nodup_entryNames
    rw [List.map_map, List.Nodup, List.pairwise_map] at hnames ⊢
    exact hnames.imp fun hne heq => hne (entryKey_name heq)
  · refine List.pairwise_iff_getElem.mpr fun i j hi hj hlt => ?_
    rw [List.getElem_zipIdx, List.getElem_zipIdx]
    intro key hkey hkey'
    dsimp only at hkey hkey'
    rw [List.map_map] at hkey hkey'
    obtain ⟨field, -, rfl⟩ := List.mem_map.mp hkey
    obtain ⟨field', -, heq⟩ := List.mem_map.mp hkey'
    have hnumber := entryKey_number heq
    omega

/-- The pairs of a file, with its warnings. -/
def contentPairs (magic : List UInt8) (content : MetadataContent) (badChecksum mismatch : Bool) :
    List MetadataPair :=
  metadataVersion :: ((metadataAdd (contentFields magic content)
    ++ entryPairs (contentEntries content)) ++ warnings badChecksum mismatch)

theorem nodup_contentPairs :
    ((contentPairs magic content badChecksum mismatch).map Prod.fst).Nodup := by
  have hperm : ((contentPairs magic content badChecksum mismatch).map Prod.fst).Perm
      ((metadataVersion.1 :: ((metadataAdd (contentFields magic content)).map Prod.fst
          ++ (warnings badChecksum mismatch).map Prod.fst))
        ++ (entryPairs (contentEntries content)).map Prod.fst) := by
    unfold contentPairs
    rw [List.map_cons, List.map_append, List.map_append, List.cons_append]
    refine List.Perm.cons _ ?_
    rw [List.append_assoc, List.append_assoc]
    exact List.Perm.append_left _ List.perm_append_comm
  have hsub : (metadataVersion.1 :: ((metadataAdd (contentFields magic content)).map Prod.fst
      ++ (warnings badChecksum mismatch).map Prod.fst)).Sublist (fileNames.map ascii) := by
    refine List.Sublist.trans ?_ ((contentFields_names magic content).map ascii)
    rw [List.cons_append, List.map_cons, List.map_append, List.map_map, metadataAdd, List.map_map]
    refine List.Sublist.cons_cons _ (List.Sublist.append (List.Sublist.refl _) ?_)
    exact warnings_keys
  rw [hperm.nodup_iff]
  refine List.nodup_append.mpr ⟨hsub.nodup nodup_fileNames, nodup_entryPairs content, ?_⟩
  intro key hfile key' hentry heq
  obtain ⟨name, hname, rfl⟩ := List.mem_map.mp (hsub.subset hfile)
  obtain ⟨pair, hpair, rfl⟩ := List.mem_map.mp hentry
  obtain ⟨i, fields, -, field, -, rfl⟩ := mem_entryPairs.mp hpair
  exact head_fileNames name hname (heq ▸ head_entryKey (i + 1) field.1)

/-- What is known of each pair of a file. -/
theorem forall_contentPairs {P : MetadataPair → Prop} :
    (∀ pair ∈ contentPairs magic content badChecksum mismatch, P pair) ↔
      P metadataVersion ∧ (∀ field ∈ contentFields magic content, P (ascii field.1, field.2))
        ∧ (∀ i fields, (contentEntries content)[i]? = some fields →
          ∀ field ∈ fields, P (entryKey (i + 1) field.1, field.2))
        ∧ ∀ pair ∈ warnings badChecksum mismatch, P pair := by
  unfold contentPairs metadataAdd
  rw [List.forall_mem_cons, List.forall_mem_append, List.forall_mem_append, List.forall_mem_map,
    and_assoc]
  refine and_congr_right' (and_congr_right' (and_congr_left' ?_))
  constructor
  · intro h i fields hentry field hfield
    exact h _ (mem_entryPairs.mpr ⟨i, fields, hentry, field, hfield, rfl⟩)
  · intro h pair hpair
    obtain ⟨i, fields, hentry, field, hfield, rfl⟩ := mem_entryPairs.mp hpair
    exact h i fields hentry field hfield

theorem printable_contentPairs (hmagic : IsPlain magic) :
    Printable (contentPairs magic content badChecksum mismatch) where
  keys := forall_contentPairs.mpr ⟨by decide, fun _ hfield => isKey_contentFields hfield,
    fun _ _ hentry _ hfield => isKey_entry hentry hfield, fun pair hpair =>
      (warnings_plain pair hpair).1⟩
  texts := by
    refine forall_contentPairs.mpr ⟨by decide, fun field hfield => ?_,
      fun i fields hentry => (entryFields_of_mem (List.mem_of_getElem? hentry)).texts,
      fun pair hpair => (warnings_plain pair hpair).2.1⟩
    rcases contentFields_plain hmagic field hfield with hplain | hfree
    · exact hplain.1
    · dsimp only
      rw [hfree]
      exact nul_notMem_freeText content
  version := ⟨_, rfl⟩
  distinct := nodup_contentPairs

/-! ## when it comes back -/

theorem fits_of_plain {key value : List UInt8} (hkey : isKey key = true) (hvalue : IsPlain value) :
    FitsPair (key, value) :=
  (fitsPair_short hkey (hvalue.2.2.trans (by decide))).mpr hvalue.2.1

theorem contentFields_fit_iff (hmagic : IsPlain magic) :
    (∀ field ∈ contentFields magic content, FitsPair (ascii field.1, field.2))
      ↔ lineFeed ∉ freeText content := by
  constructor
  · intro h
    obtain ⟨name, hmem⟩ := freeText_mem magic content
    exact (fitsPair_short (isKey_contentFields hmem) (length_freeText content)).mp (h _ hmem)
  · intro h field hfield
    have hkey := isKey_contentFields hfield
    rcases contentFields_plain hmagic field hfield with hplain | hfree
    · exact fits_of_plain hkey hplain
    · rw [hfree]
      exact (fitsPair_short hkey (length_freeText content)).mpr h

theorem typeFields_fit {model : CalcModel} {ve : VarEntry} {n : Nat} (hn : n < 10 ^ 10) :
    ∀ field ∈ typeFields model ve, FitsPair (entryKey n field.1, field.2) := by
  intro field hfield
  refine fits_of_plain (isKey_entryKey hn ?_) (typeFields_plain model ve field hfield)
  have hnames : ((typeFields model ve).map Prod.fst).Sublist entryNames :=
    show ["type", "type.name", "type.ext", "size", "version", "attr.archived",
      "attr.locked"].Sublist entryNames by decide
  exact hnames.subset (List.mem_map_of_mem hfield)

/-- A name always has room. -/
theorem varName_fits_iff {n : Nat} (hn : n < 10 ^ 10) {field : String}
    (hfield : field ∈ entryNames) (name : VarName) :
    FitsPair (entryKey n field, name.chars) ↔ lineFeed ∉ name.chars :=
  fitsPair_short (isKey_entryKey hn hfield) name.fits.le

theorem regularFields_fit_iff {model : CalcModel} {ve : VarEntry} {n : Nat} (hn : n < 10 ^ 10) :
    (∀ field ∈ regularFields model ve, FitsPair (entryKey n field.1, field.2))
      ↔ lineFeed ∉ ve.name.chars ∧ lineFeed ∉ ve.folder.chars := by
  have hname := varName_fits_iff hn (by decide : "name" ∈ entryNames) ve.name
  have hfolder := varName_fits_iff hn (by decide : "folder" ∈ entryNames) ve.folder
  unfold regularFields
  rw [List.forall_mem_cons, List.forall_mem_cons, hname, hfolder]
  exact and_congr_right' (and_iff_left (typeFields_fit hn))

/-- The name of a member has room. -/
theorem filename_fits_iff {n : Nat} (hn : n < 10 ^ 10) (filename : List UInt8) :
    FitsPair (entryKey n "filename", cstr filename)
      ↔ lineFeed ∉ cstr filename
        ∧ (decimal n).length + (cstr filename).length + 22 < lineCap := by
  have hlength : (entryKey n "filename").length = (decimal n).length + 16 := by
    have hopen : (ascii "entry[").length = 6 := by decide
    have hclose : (ascii "].").length = 2 := by decide
    have hname : (ascii "filename").length = 8 := by decide
    unfold entryKey
    rw [List.length_append, List.length_append, List.length_append, hopen, hclose, hname]
    omega
  rw [fitsPair_iff (isKey_entryKey hn (by decide)), hlength]
  refine and_congr_right' ?_
  omega

theorem memberFields_fit_iff {model : CalcModel} {te : TigMember FileContent FlashChain} {n : Nat}
    (hn : n < 10 ^ 10) :
    (∀ field ∈ memberFields model te, FitsPair (entryKey n field.1, field.2))
      ↔ (lineFeed ∉ cstr te.filename
          ∧ (decimal n).length + (cstr te.filename).length + 22 < lineCap)
        ∧ ∀ ve, te.firstEntry = some ve → lineFeed ∉ ve.name.chars := by
  have hclass : FitsPair (entryKey n "class", ascii "regular") :=
    fits_of_plain (isKey_entryKey hn (by decide)) (by decide)
  unfold memberFields
  rw [List.forall_mem_cons, List.forall_mem_cons, filename_fits_iff hn]
  refine and_congr_right' ((and_iff_right hclass).trans ?_)
  cases te.firstEntry with
  | none =>
      constructor
      · rintro - ve hve
        cases hve
      · rintro - field hfield
        cases hfield
  | some ve =>
      dsimp only
      rw [List.forall_mem_cons, varName_fits_iff hn (by decide : "name" ∈ entryNames) ve.name]
      constructor
      · rintro ⟨hname, -⟩ ve' hve
        obtain rfl := Option.some.inj hve
        exact hname
      · exact fun h => ⟨h ve rfl, typeFields_fit hn⟩

theorem appFields_fit_iff {te : TigMember FileContent FlashChain} {n : Nat} (hn : n < 10 ^ 10) :
    (∀ field ∈ appFields te, FitsPair (entryKey n field.1, field.2))
      ↔ (lineFeed ∉ cstr te.filename
          ∧ (decimal n).length + (cstr te.filename).length + 22 < lineCap)
        ∧ ∀ flash, te.flashLink = some flash → lineFeed ∉ flash.name.chars := by
  have hclass : FitsPair (entryKey n "class", ascii "flash") :=
    fits_of_plain (isKey_entryKey hn (by decide)) (by decide)
  unfold appFields
  rw [List.forall_mem_cons, List.forall_mem_cons, filename_fits_iff hn]
  refine and_congr_right' ((and_iff_right hclass).trans ?_)
  cases te.flashLink with
  | none =>
      constructor
      · rintro - flash hflash
        cases hflash
      · rintro - field hfield
        cases hfield
  | some flash =>
      have hsize : FitsPair (entryKey n "size", decimal flash.dataLength.toNat) :=
        fits_of_plain (isKey_entryKey hn (by decide))
          (plain_decimal (flash.dataLength.toNat_lt.trans (by decide)))
      dsimp only
      rw [List.forall_mem_cons, List.forall_mem_singleton,
        varName_fits_iff hn (by decide : "name" ∈ entryNames) flash.name]
      constructor
      · rintro ⟨hname, -⟩ flash' hflash
        obtain rfl := Option.some.inj hflash
        exact hname
      · exact fun h => ⟨h flash rfl, hsize⟩

theorem forall_getElem?_append {α : Type} {l l' : List α} {P : Nat → α → Prop} :
    (∀ i a, (l ++ l')[i]? = some a → P i a)
      ↔ (∀ i a, l[i]? = some a → P i a) ∧ ∀ i a, l'[i]? = some a → P (l.length + i) a := by
  constructor
  · refine fun h => ⟨fun i a ha => h i a ?_, fun i a ha => h _ a ?_⟩
    · exact (List.getElem?_append_left (List.getElem?_eq_some_iff.mp ha).1).trans ha
    · rw [List.getElem?_append_right (Nat.le_add_right _ _), Nat.add_sub_cancel_left]
      exact ha
  · rintro ⟨hleft, hright⟩ i a ha
    by_cases hi : i < l.length
    · rw [List.getElem?_append_left hi] at ha
      exact hleft i a ha
    · rw [List.getElem?_append_right (not_lt.mp hi)] at ha
      have hside := hright _ a ha
      rwa [Nat.add_sub_cancel' (not_lt.mp hi)] at hside

/-- Members with variables are numbered before those with a flash content. -/
theorem tigroup_fit_iff (content : CountedTigroup) :
    (∀ i fields, (contentEntries (.tigroup content))[i]? = some fields →
      ∀ field ∈ fields, FitsPair (entryKey (i + 1) field.1, field.2))
      ↔ OneLine (.tigroup content) := by
  obtain ⟨⟨model, vars, apps⟩, hcount⟩ := content
  have hvars : ∀ i te, vars[i]? = some te →
      ((∀ field ∈ memberFields model te, FitsPair (entryKey (i + 1) field.1, field.2))
        ↔ (lineFeed ∉ cstr te.filename
            ∧ (decimal (i + 1)).length + (cstr te.filename).length + 22 < lineCap)
          ∧ ∀ ve, te.firstEntry = some ve → lineFeed ∉ ve.name.chars) := by
    intro i te hte
    have hi := (List.getElem?_eq_some_iff.mp hte).1
    dsimp only at hcount
    exact memberFields_fit_iff (by omega)
  have happs : ∀ i te, apps[i]? = some te →
      ((∀ field ∈ appFields te, FitsPair (entryKey (vars.length + i + 1) field.1, field.2))
        ↔ (lineFeed ∉ cstr te.filename
            ∧ (decimal (vars.length + i + 1)).length + (cstr te.filename).length + 22 < lineCap)
          ∧ ∀ flash, te.flashLink = some flash → lineFeed ∉ flash.name.chars) := by
    intro i te hte
    have hi := (List.getElem?_eq_some_iff.mp hte).1
    dsimp only at hcount
    exact appFields_fit_iff (by omega)
  unfold contentEntries OneLine
  dsimp only
  rw [forall_getElem?_append, forall_getElem?_append]
  simp only [List.getElem?_map, Option.map_eq_some_iff]
  constructor
  · rintro ⟨hleft, hright⟩
    refine ⟨⟨fun i te hte => ?_, fun i te hte => ?_⟩, fun te hte => ?_, fun te hte => ?_⟩
    · exact ((hvars i te hte).mp (hleft i _ ⟨te, hte, rfl⟩)).1
    · rw [List.length_map] at hright
      exact ((happs i te hte).mp (hright i _ ⟨te, hte, rfl⟩)).1
    · obtain ⟨i, hi⟩ := List.getElem?_of_mem hte
      exact ((hvars i te hi).mp (hleft i _ ⟨te, hi, rfl⟩)).2
    · obtain ⟨i, hi⟩ := List.getElem?_of_mem hte
      rw [List.length_map] at hright
      exact ((happs i te hi).mp (hright i _ ⟨te, hi, rfl⟩)).2
  · rintro ⟨⟨hleft, hright⟩, hnames, hflash⟩
    refine ⟨?_, ?_⟩
    · rintro i fields ⟨te, hte, rfl⟩
      exact (hvars i te hte).mpr ⟨hleft i te hte, hnames te (List.mem_of_getElem? hte)⟩
    · rintro i fields ⟨te, hte, rfl⟩
      rw [List.length_map]
      exact (happs i te hte).mpr ⟨hright i te hte, hflash te (List.mem_of_getElem? hte)⟩

/-- The entries of a content fit when its names do. -/
theorem contentEntries_fit_iff (hlines : lineFeed ∉ freeText content) :
    (∀ i fields, (contentEntries content)[i]? = some fields →
      ∀ field ∈ fields, FitsPair (entryKey (i + 1) field.1, field.2)) ↔ OneLine content := by
  cases content with
  | regular content =>
      constructor
      · refine fun h => ⟨hlines, fun es hes ve hve => ?_⟩
        obtain ⟨i, hi⟩ := List.getElem?_of_mem hve
        have hentry : (contentEntries (.regular content))[i]?
            = some (regularFields content.model ve) := by
          simp [contentEntries, hes, hi]
        exact (regularFields_fit_iff (number_lt hentry)).mp (h i _ hentry)
      · rintro ⟨-, h⟩ i fields hentry
        have hn := number_lt hentry
        simp only [contentEntries, List.getElem?_map, Option.map_eq_some_iff] at hentry
        obtain ⟨ve, hve, rfl⟩ := hentry
        cases hes : content.entryList with
        | none =>
            rw [hes] at hve
            cases hve
        | some es =>
            rw [hes] at hve
            exact (regularFields_fit_iff hn).mpr (h es hes ve (List.mem_of_getElem? hve))
  | backup content => exact ⟨fun _ => hlines, fun _ i fields hentry => by cases hentry⟩
  | flash content => exact ⟨fun _ => hlines, fun _ i fields hentry => by cases hentry⟩
  | tigroup content => exact tigroup_fit_iff content

theorem oneLine_freeText (h : OneLine content) : lineFeed ∉ freeText content := by
  cases content with
  | regular content => exact h.1
  | backup content => exact h
  | flash content => exact h
  | tigroup content => exact List.not_mem_nil

theorem roundTrips_contentPairs_iff (hmagic : IsPlain magic) :
    RoundTrips (contentPairs magic content badChecksum mismatch) ↔ OneLine content := by
  rw [roundTrips_iff (printable_contentPairs hmagic), forall_contentPairs,
    contentFields_fit_iff hmagic]
  constructor
  · rintro ⟨-, hlines, hentries, -⟩
    exact (contentEntries_fit_iff hlines).mp hentries
  · intro h
    have hlines := oneLine_freeText h
    exact ⟨fits_of_plain (by decide) (by decide), hlines, (contentEntries_fit_iff hlines).mpr h,
      fun pair hpair => fits_of_plain (warnings_plain pair hpair).1 (warnings_plain pair hpair).2⟩

end Pairs

section File

variable {lib : MetadataLib} {filename bytes magic : List UInt8} {model : CalcModel}
  {content : MetadataContent} {pairs : List MetadataPair}

theorem plain_of_readMagic (hmagic : metadataReadMagic bytes = some magic)
    (h : magic = zipMagic ∨ magic = tiflMagic ∨ tifilesSignature2calctype magic ≠ .none) :
    IsPlain magic := by
  rcases h with rfl | rfl | hmodel
  · decide
  · decide
  · refine ⟨?_, lineFeed_notMem_signature hmodel, ?_⟩
    all_goals
      unfold metadataReadMagic at hmagic
      split at hmagic
      · cases hmagic
      · split at hmagic
        · cases hmagic
          decide
        · split at hmagic
          · cases hmagic
          · obtain rfl := Option.some.inj hmagic
            first
              | exact nul_notMem_cstr _
              | exact (length_cstr_le _).trans ((List.length_take_le 8 _).trans (by decide))

/-- The magic of a file that is read is a word. -/
theorem plain_of_readContent (h : lib.readContent filename bytes = some (magic, model, content)) :
    IsPlain magic := by
  obtain ⟨found, hmagic, h⟩ := Option.bind_eq_some_iff.mp h
  dsimp only at h
  split at h
  · next hzip =>
    obtain ⟨_, -, hpair⟩ := Option.map_eq_some_iff.mp h
    cases hpair
    exact plain_of_readMagic hmagic (.inl hzip)
  · split at h
    · next htifl =>
      obtain ⟨_, -, hpair⟩ := Option.map_eq_some_iff.mp h
      cases hpair
      exact plain_of_readMagic hmagic (.inr (.inl htifl))
    · split at h
      · cases h
      · next hmodel =>
        have hword := plain_of_readMagic hmagic (.inr (.inr hmodel))
        -- the offset of the type byte depends on the family, what is read on the byte
        split at h <;> split at h
        all_goals
          obtain ⟨_, -, hpair⟩ := Option.map_eq_some_iff.mp h
          cases hpair
          exact hword

/-- The metadata of a file come back from the text exactly if its comment and its names do not end
a line, and the names of members have room. -/
theorem metadata_roundTrips_iff
    (hread : lib.readContent filename bytes = some (magic, model, content))
    (hpairs : tifilesFileGetMetadata lib filename bytes = some pairs) :
    RoundTrips pairs ↔ OneLine content := by
  unfold tifilesFileGetMetadata at hpairs
  rw [hread, Option.bind_some] at hpairs
  obtain ⟨found, hfill, rfl⟩ := Option.map_eq_some_iff.mp hpairs
  rw [fill_eq_some hfill]
  exact roundTrips_contentPairs_iff (plain_of_readContent hread)

/-- A library that reads the regular files of a TI-83+. -/
def ti83pLib : MetadataLib where
  formats := ti83pFormats
  ti9xReadBackup := fun _ _ _ => .error .badCalc
  openArchive := fun _ => none

/-- A number without a comment. -/
theorem metadata_roundTrips_iff_sample :
    ∃ pairs, tifilesFileGetMetadata ti83pLib (ascii "A.8xn") numberFile83 = some pairs
      ∧ RoundTrips pairs := by
  have hone : (ti83pLib.readContent (ascii "A.8xn") numberFile83).any
      (fun found => decide (OneLine found.2.2)) = true := by decide +kernel
  have hsome : (tifilesFileGetMetadata ti83pLib (ascii "A.8xn") numberFile83).isSome = true := by
    decide +kernel
  obtain ⟨pairs, hpairs⟩ := Option.isSome_iff_exists.mp hsome
  obtain ⟨⟨magic, model, content⟩, hread, hcontent⟩ := (Option.any_eq_true _ _).mp hone
  exact ⟨pairs, hpairs, (metadata_roundTrips_iff hread hpairs).mpr (of_decide_eq_true hcontent)⟩

/-- The number with a comment that begins with a line feed. -/
def commentedFile83 : List UInt8 := numberFile83.set 11 lineFeed

/-- The metadata of every file that is read come back. -/
def AllMetadataRoundTrip : Prop :=
  ∀ (lib : MetadataLib) (filename bytes : List UInt8) (pairs : List MetadataPair),
    tifilesFileGetMetadata lib filename bytes = some pairs → RoundTrips pairs

theorem not_allMetadataRoundTrip : ¬AllMetadataRoundTrip := by
  intro hall
  -- the comment is printed on two lines
  have hlines : (tifilesFileGetMetadata ti83pLib (ascii "A.8xn") commentedFile83).any
      (fun pairs => (applyLines (gatherText pairs)).length != pairs.length) = true := by
    decide +kernel
  obtain ⟨pairs, hpairs, hne⟩ := (Option.any_eq_true _ _).mp hlines
  have hlength := congrArg List.length (hall _ _ _ _ hpairs).1
  rw [List.length_map, List.length_map] at hlength
  exact absurd hlength (bne_iff_ne.mp hne)

end File

end Tilibs.Tifileutil
