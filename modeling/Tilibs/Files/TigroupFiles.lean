import Tilibs.Files.FlashDup
import Tilibs.Files.Grouped
import Tilibs.Files.Regular8x
import Tilibs.Files.TigroupAdd

/-!
# Tilibs.Files.TigroupFiles

Files that are put into a tigroup, `tifiles_tigroup_files` of `tigroup.cc`.  The function counts
the regular and the flash files of a list, and then reads as many files from the front of the
list, whatever they are.

The readers of the formats are parameters, and so is `tifiles_build_filename`.
-/

namespace Tilibs.Files

open Lib

/-! ## contents of a tigroup -/

/-- The errors of the library, and what the function must not do. -/
inductive TigFilesErr
  | lib (e : TigErr)
  | nullPointer
  | outOfBounds
  deriving DecidableEq

abbrev TigProc := Alloc TigFilesErr

/-- The fault of a copy. -/
def TigFilesErr.ofDup : DupFault → TigFilesErr
  | .nullPointer => .nullPointer
  | .outOfBounds => .outOfBounds

/-- `tifiles_flash_type`; -1 as a byte where there is none. -/
def tifilesFlashType : CalcModel → UInt8
  | .ti73 | .ti83p | .ti84p | .ti84pc | .ti84pUsb | .ti84pcUsb | .ti83pceUsb | .ti84pceUsb
  | .ti89 | .ti89t | .ti89tUsb | .ti92p | .v200 => 0x24
  | _ => 0xFF

/-- `tifiles_content_dup_regular`; NULL where an entry is. -/
def tifilesContentDupRegular (content : FileContent) : Except TigFilesErr (Option FileContent) :=
  if content.numEntries + 1 = 0 then .ok none
  else
    match content.entries with
    | none =>
        if content.numEntries = 0 then .ok (some { content with entries := some [none] })
        else .error .nullPointer
    | some slots =>
        if slots.length < content.numEntries.toNat then .error .outOfBounds
        else
          let copies := (slots.take content.numEntries.toNat).map dupSlot
          if none ∈ copies then .ok none
          else .ok (some { content with entries := some (copies ++ [none]) })

section Contents

-- `tifiles_build_filename`, of a folder, a name and a type
variable (buildFilename : CalcModel → List UInt8 → List UInt8 → UInt8 → List UInt8)

/-- The member of a regular content; its name is that of the first entry. -/
def regularMember (model : CalcModel) (content : FileContent) :
    Except TigFilesErr (TigMember FileContent FlashChain) :=
  match content.entries with
  | none => .error .nullPointer
  | some [] => .error .outOfBounds
  | some (none :: _) => .error .nullPointer
  | some (some e :: _) =>
      (tifilesContentDupRegular content).map fun dup => {
        filename := buildFilename model e.folder.chars e.name.chars e.type
        type := .group
        content := dup.map Sum.inl }

/-- The member of a flash content, if one of the chain is an application of the model. -/
def flashMember (model : CalcModel) (chain : FlashChain) :
    TigProc (Option (TigMember FileContent FlashChain)) :=
  match chain.find? fun c => c.val.dataType = tifilesFlashType model with
  | none => pure none
  | some ptr => do
      let dup ← ExceptT.adapt TigFilesErr.ofDup (tifilesContentDupFlash chain)
      return some {
        filename := buildFilename model [] ptr.val.name.chars ptr.val.dataType
        type := if ptr.val.dataType = ti83pAppl then .app else .flash
        content := some (.inr dup) }

/-- The model of the tigroup; a regular content is more precise than a flash content. -/
def contentsModel (src1 : List FileContent) (src2 : List FlashChain) : CalcModel :=
  match src1, src2 with
  | content :: _, _ => content.model
  | [], (c :: _) :: _ => c.val.model
  | [], _ => .none

/-- `tifiles_tigroup_contents` -/
def tifilesTigroupContents (src1 : List FileContent) (src2 : List FlashChain) :
    TigProc (Tigroup FileContent FlashChain) := do
  let model := contentsModel src1 src2
  let vars ← Proc.ofExcept (src1.mapM (regularMember buildFilename model))
  let apps ← src2.mapM (flashMember buildFilename model)
  return (vars ++ apps.filterMap id).foldl Tigroup.addTe (tigroupCreate model)

/-! ## files of a list -/

/-- What a file is read as. -/
def SourceFile.kind (f : SourceFile) : ContentKind :=
  if tifilesFileIsRegular f.path f.bytes then .regular
  else if tifilesFileIsFlash f.path f.bytes then .flash
  else .none

/-- A file that is counted. -/
def SourceFile.recognised (f : SourceFile) : Bool := f.kind ≠ .none

variable (lib : TigFormats FileContent FlashChain)

/-- The second loop, over so many files: regular contents and flash contents. -/
def readSources (model : CalcModel) :
    List SourceFile → Except TigErr (List FileContent × List FlashChain)
  | [] => .ok ([], [])
  | f :: fs =>
      match f.kind with
      | .regular => do
          let content ← lib.fileReadRegular f.path f.bytes model
          let (src1, src2) ← readSources model fs
          return (content :: src1, src2)
      | .flash => do
          let chain ← lib.fileReadFlash f.path f.bytes model
          let (src1, src2) ← readSources model fs
          return (src1, chain :: src2)
      | .none => readSources model fs

/-- The model that the contents are created for: that of the first file. -/
def sourcesModel (files : List SourceFile) : CalcModel :=
  (files.head?.map fun f => tifilesFileGetModel f.path).getD .none

/-- `tifiles_tigroup_files`: the tigroup, and the archive that is written. -/
def tifilesTigroupFiles (files : List SourceFile) :
    TigProc (Tigroup FileContent FlashChain × Archive) := do
  let count := files.countP SourceFile.recognised
  let (src1, src2) ← Proc.ofExcept
    ((readSources lib (sourcesModel files) (files.take count)).mapError TigFilesErr.lib)
  let content ← tifilesTigroupContents buildFilename src1 src2
  let archive ← Proc.ofExcept ((lib.fileWriteTigroup content).mapError TigFilesErr.lib)
  return (content, archive)

end Contents

/-! ## what is in the tigroup -/

/-- The files of a kind. -/
def ofKind (kind : ContentKind) (files : List SourceFile) : List SourceFile :=
  files.filter fun f => f.kind = kind

/-- Every regular and every flash file of the list has its member, with a copy of its content. -/
structure TigComplete (lib : TigFormats FileContent FlashChain) (files : List SourceFile)
    (content : Tigroup FileContent FlashChain) : Prop where
  regular : List.Forall₂ (fun f te => ∃ c dup,
      lib.fileReadRegular f.path f.bytes (sourcesModel files) = .ok c
        ∧ tifilesContentDupRegular c = .ok dup ∧ te.content = dup.map Sum.inl)
    (ofKind .regular files) content.varEntries
  flash : List.Forall₂ (fun f te => ∃ chain dup next next',
      lib.fileReadFlash f.path f.bytes (sourcesModel files) = .ok chain
        ∧ Proc.exec (tifilesContentDupFlash chain) next = (.ok dup, next')
        ∧ te.content = some (.inr dup))
    (ofKind .flash files) content.appEntries

/-- No unrecognised file stands before a recognised one. -/
def RecognisedFirst (files : List SourceFile) : Prop :=
  files.Pairwise fun f g => g.recognised = true → f.recognised = true

/-- The model of the tigroup when all files of the list are read. -/
def allModel (lib : TigFormats FileContent FlashChain) (files : List SourceFile) : CalcModel :=
  match readSources lib (sourcesModel files) (files.filter SourceFile.recognised) with
  | .ok (src1, src2) => contentsModel src1 src2
  | .error _ => .none

/-- Every flash file has an application of the model. -/
def AppsOfModel (lib : TigFormats FileContent FlashChain) (files : List SourceFile) : Prop :=
  ∀ f ∈ ofKind .flash files, ∀ chain,
    lib.fileReadFlash f.path f.bytes (sourcesModel files) = .ok chain →
    ∃ c ∈ chain, c.val.dataType = tifilesFlashType (allModel lib files)

/-! ## the front of the list -/

theorem take_countP_of_recognisedFirst {files : List SourceFile} (h : RecognisedFirst files) :
    files.take (files.countP SourceFile.recognised) = files.filter SourceFile.recognised := by
  unfold RecognisedFirst at h
  induction files with
  | nil => rfl
  | cons f files ih =>
      obtain ⟨hf, hfiles⟩ := List.pairwise_cons.mp h
      by_cases hrec : f.recognised = true
      · rw [List.countP_cons_of_pos hrec, List.take_succ_cons, ih hfiles,
          List.filter_cons_of_pos hrec]
      · have hnone : ∀ g ∈ files, ¬g.recognised = true := fun g hg hgrec => hrec (hf g hg hgrec)
        rw [List.countP_cons_of_neg hrec, List.filter_cons_of_neg hrec,
          List.countP_eq_zero.mpr hnone, List.filter_eq_nil_iff.mpr hnone, List.take_zero]

/-- When as many recognised files are in front as there are, they are all in front. -/
theorem recognisedFirst_of_countP {files : List SourceFile}
    (h : (files.take (files.countP SourceFile.recognised)).countP SourceFile.recognised
      = files.countP SourceFile.recognised) : RecognisedFirst files := by
  have hall : ∀ f ∈ files.take (files.countP SourceFile.recognised), f.recognised = true := by
    rw [← List.countP_eq_length, h, List.length_take]
    have hle := List.countP_le_length (p := SourceFile.recognised) (l := files)
    omega
  have hnone : ∀ f ∈ files.drop (files.countP SourceFile.recognised), ¬f.recognised = true := by
    rw [← List.countP_eq_zero]
    have hsplit := @List.countP_append _ SourceFile.recognised
      (files.take (files.countP SourceFile.recognised))
      (files.drop (files.countP SourceFile.recognised))
    rw [List.take_append_drop, h] at hsplit
    omega
  unfold RecognisedFirst
  rw [← List.take_append_drop (files.countP SourceFile.recognised) files, List.pairwise_append]
  refine ⟨?_, ?_, fun f hf g _ _ => hall f hf⟩
  · exact List.pairwise_of_forall_mem_list fun f hf g _ _ => hall f hf
  · exact List.pairwise_of_forall_mem_list fun f _ g hg hgrec => absurd hgrec (hnone g hg)

theorem ofKind_filter_recognised {kind : ContentKind} (hkind : kind ≠ .none)
    (files : List SourceFile) : ofKind kind (files.filter SourceFile.recognised)
      = ofKind kind files := by
  unfold ofKind
  rw [List.filter_filter]
  apply List.filter_congr
  intro f _
  unfold SourceFile.recognised
  by_cases h : f.kind = kind
  · simp [h, hkind]
  · simp [h]

theorem countP_recognised (files : List SourceFile) : files.countP SourceFile.recognised
    = (ofKind .regular files).length + (ofKind .flash files).length := by
  unfold ofKind
  rw [← List.countP_eq_length_filter, ← List.countP_eq_length_filter]
  induction files with
  | nil => rfl
  | cons f files ih =>
      rw [List.countP_cons, List.countP_cons, List.countP_cons, ih]
      unfold SourceFile.recognised
      cases f.kind with
      | none => simp
      | regular => simp; omega
      | flash => simp; omega

/-! ## reading -/

/-- The files that were read, in their order. -/
theorem readSources_ok {lib : TigFormats FileContent FlashChain} {model : CalcModel}
    {files : List SourceFile} {src1 : List FileContent} {src2 : List FlashChain}
    (h : readSources lib model files = .ok (src1, src2)) :
    List.Forall₂ (fun f c => lib.fileReadRegular f.path f.bytes model = .ok c)
        (ofKind .regular files) src1
      ∧ List.Forall₂ (fun f c => lib.fileReadFlash f.path f.bytes model = .ok c)
        (ofKind .flash files) src2 := by
  unfold ofKind
  induction files generalizing src1 src2 with
  | nil =>
      cases h
      exact ⟨.nil, .nil⟩
  | cons f files ih =>
      unfold readSources at h
      cases hkind : f.kind with
      | none =>
          rw [hkind] at h
          rw [List.filter_cons_of_neg (by simp [hkind]), List.filter_cons_of_neg (by simp [hkind])]
          exact ih h
      | regular =>
          rw [hkind] at h
          obtain ⟨content, hcontent, h⟩ := bind_eq_ok_iff.mp h
          obtain ⟨⟨src1, src2⟩, hrest, h⟩ := bind_eq_ok_iff.mp h
          cases h
          rw [List.filter_cons_of_pos (by simp [hkind]), List.filter_cons_of_neg (by simp [hkind])]
          exact ⟨.cons hcontent (ih hrest).1, (ih hrest).2⟩
      | flash =>
          rw [hkind] at h
          obtain ⟨chain, hchain, h⟩ := bind_eq_ok_iff.mp h
          obtain ⟨⟨src1, src2⟩, hrest, h⟩ := bind_eq_ok_iff.mp h
          cases h
          rw [List.filter_cons_of_neg (by simp [hkind]), List.filter_cons_of_pos (by simp [hkind])]
          exact ⟨(ih hrest).1, .cons hchain (ih hrest).2⟩

section Contents

variable {buildFilename : CalcModel → List UInt8 → List UInt8 → UInt8 → List UInt8}

theorem regularMember_ok {model : CalcModel} {content : FileContent}
    {te : TigMember FileContent FlashChain}
    (h : regularMember buildFilename model content = .ok te) :
    te.type.kind = .regular
      ∧ ∃ dup, tifilesContentDupRegular content = .ok dup ∧ te.content = dup.map Sum.inl := by
  unfold regularMember at h
  split at h
  · cases h
  · cases h
  · cases h
  · obtain ⟨dup, hdup, rfl⟩ := map_eq_ok_iff.mp h
    have hkind : FileClass.group.kind = .regular := by decide
    exact ⟨hkind, dup, hdup, rfl⟩

theorem exec_adapt {α : Type} (p : Dup α) (s : Nat) :
    Proc.exec (ExceptT.adapt TigFilesErr.ofDup p) s
      = ((Proc.exec p s).1.mapError TigFilesErr.ofDup, (Proc.exec p s).2) := rfl

/-- The member of a flash content that has an application of the model. -/
theorem exec_flashMember_ok {model : CalcModel} {chain : FlashChain} {s t : Nat}
    {te? : Option (TigMember FileContent FlashChain)}
    (h : Proc.exec (flashMember buildFilename model chain) s = (.ok te?, t)) :
    (te?.isSome ↔ ∃ c ∈ chain, c.val.dataType = tifilesFlashType model) ∧
      ∀ te ∈ te?, te.type.kind = .flash ∧ ∃ dup next next',
        Proc.exec (tifilesContentDupFlash chain) next = (.ok dup, next')
          ∧ te.content = some (.inr dup) := by
  unfold flashMember at h
  rcases hfind : chain.find? fun c => c.val.dataType = tifilesFlashType model with _ | ptr
  · rw [hfind] at h
    dsimp only at h
    rw [Proc.exec_pure] at h
    obtain ⟨hte, -⟩ := Prod.mk.inj h
    obtain rfl := Except.ok.inj hte
    constructor
    · constructor
      · intro hsome
        cases hsome
      · rintro ⟨c, hc, htype⟩
        exact absurd (decide_eq_true htype) (List.find?_eq_none.mp hfind c hc)
    · intro te hte
      cases hte
  · rw [hfind] at h
    dsimp only at h
    obtain ⟨dup, u, hdup, h⟩ := Proc.exec_bind_eq_ok_iff.mp h
    rw [Proc.exec_pure] at h
    obtain ⟨hte, -⟩ := Prod.mk.inj h
    obtain rfl := Except.ok.inj hte
    have happ : FileClass.app.kind = .flash := by decide
    have hflash : FileClass.flash.kind = .flash := by decide
    have htype := List.find?_some hfind
    refine ⟨⟨fun _ => ⟨ptr, List.mem_of_find?_eq_some hfind, of_decide_eq_true htype⟩,
      fun _ => rfl⟩, ?_⟩
    rintro te hmem
    obtain rfl := Option.some.inj hmem
    refine ⟨?_, dup, s, u, ?_, rfl⟩
    · dsimp only
      split
      · exact happ
      · exact hflash
    · rw [exec_adapt] at hdup
      rcases hcopy : Proc.exec (tifilesContentDupFlash chain) s with ⟨e | found, v⟩
      · rw [hcopy] at hdup
        cases hdup
      · rw [hcopy] at hdup
        cases hdup
        rfl

theorem foldl_addTe {vars apps : List (TigMember FileContent FlashChain)}
    (hvars : ∀ te ∈ vars, te.type.kind = .regular) (happs : ∀ te ∈ apps, te.type.kind = .flash)
    (content : Tigroup FileContent FlashChain) :
    ((vars ++ apps).foldl Tigroup.addTe content).varEntries = content.varEntries ++ vars
      ∧ ((vars ++ apps).foldl Tigroup.addTe content).appEntries = content.appEntries ++ apps := by
  induction vars generalizing content with
  | nil =>
      induction apps generalizing content with
      | nil => simp
      | cons te apps ih =>
          obtain ⟨hte, happs⟩ := List.forall_mem_cons.mp happs
          obtain ⟨hv, ha⟩ := ih happs (content.addTe te)
          rw [List.nil_append] at hv ha ⊢
          rw [List.foldl_cons, hv, ha, Tigroup.addTe_flash hte]
          simp
  | cons te vars ih =>
      obtain ⟨hte, hvars⟩ := List.forall_mem_cons.mp hvars
      obtain ⟨hv, ha⟩ := ih hvars (content.addTe te)
      rw [List.cons_append, List.foldl_cons, hv, ha, Tigroup.addTe_regular hte]
      simp

/-- The members of a tigroup: one for each regular content, and one for each flash content that has
an application of the model. -/
theorem exec_tifilesTigroupContents_ok {src1 : List FileContent} {src2 : List FlashChain}
    {content : Tigroup FileContent FlashChain} {s t : Nat}
    (h : Proc.exec (tifilesTigroupContents buildFilename src1 src2) s = (.ok content, t)) :
    List.Forall₂ (fun c te => ∃ dup, tifilesContentDupRegular c = .ok dup
        ∧ te.content = dup.map Sum.inl) src1 content.varEntries
      ∧ ∃ apps, content.appEntries = apps.filterMap id
        ∧ List.Forall₂ (fun chain te? =>
          (te?.isSome ↔ ∃ c ∈ chain, c.val.dataType = tifilesFlashType (contentsModel src1 src2)) ∧
          ∀ te ∈ te?, ∃ dup next next',
            Proc.exec (tifilesContentDupFlash chain) next = (.ok dup, next')
              ∧ te.content = some (.inr dup)) src2 apps := by
  unfold tifilesTigroupContents at h
  obtain ⟨vars, u, hvars, h⟩ := Proc.exec_bind_eq_ok_iff.mp h
  obtain ⟨apps, v, happs, h⟩ := Proc.exec_bind_eq_ok_iff.mp h
  rw [Proc.exec_ofExcept] at hvars
  obtain ⟨hvars, -⟩ := Prod.mk.inj hvars
  cases h
  have hallVars : List.Forall₂ (fun c te => te.type.kind = ContentKind.regular ∧ ∃ dup,
      tifilesContentDupRegular c = .ok dup ∧ te.content = dup.map Sum.inl) src1 vars := by
    exact (forall₂_of_mapM_eq_ok hvars).imp fun c te h => regularMember_ok h
  have hallApps := (forall₂_of_exec_mapM happs).imp fun chain te? ⟨s, t, hrun⟩ =>
    exec_flashMember_ok hrun
  have hfold := @foldl_addTe vars (apps.filterMap id)
    (fun te hte => by
      obtain ⟨c, -, hkind, -⟩ := (exists_of_forall₂ hallVars).2 te hte
      exact hkind)
    (fun te hte => by
      obtain ⟨te?, hmem, hsome⟩ := List.mem_filterMap.mp hte
      obtain ⟨chain, -, -, hmember⟩ := (exists_of_forall₂ hallApps).2 te? hmem
      exact (hmember te hsome).1)
    (tigroupCreate (contentsModel src1 src2))
  refine ⟨?_, apps, hfold.2.trans (List.nil_append _), ?_⟩
  · rw [hfold.1]
    exact hallVars.imp fun c te h => h.2
  · exact hallApps.imp fun chain te? h => ⟨h.1, fun te hte => (h.2 te hte).2⟩

theorem eq_map_some_of_isSome {α : Type} {l : List (Option α)} (h : ∀ x ∈ l, x.isSome) :
    l = (l.filterMap id).map some := by
  induction l with
  | nil => rfl
  | cons x l ih =>
      obtain ⟨hx, hl⟩ := List.forall_mem_cons.mp h
      obtain ⟨a, rfl⟩ := Option.isSome_iff_exists.mp hx
      rw [List.filterMap_cons_some (by rfl), List.map_cons, ← ih hl]

/-- Every regular and every flash file of the list is in the tigroup exactly when no unrecognised
file stands before a recognised one, and every flash file has an application of the model. -/
theorem tifilesTigroupFiles_complete_iff {lib : TigFormats FileContent FlashChain}
    {files : List SourceFile} {content : Tigroup FileContent FlashChain} {archive : Archive}
    {next next' : Nat} (hrun : Proc.exec (tifilesTigroupFiles buildFilename lib files) next
      = (.ok (content, archive), next')) :
    TigComplete lib files content ↔ RecognisedFirst files ∧ AppsOfModel lib files := by
  unfold tifilesTigroupFiles at hrun
  obtain ⟨⟨src1, src2⟩, u, hread, hrun⟩ := Proc.exec_bind_eq_ok_iff.mp hrun
  obtain ⟨group, v, hcontents, hrun⟩ := Proc.exec_bind_eq_ok_iff.mp hrun
  obtain ⟨written, w, -, hrun⟩ := Proc.exec_bind_eq_ok_iff.mp hrun
  rw [Proc.exec_pure] at hrun
  cases hrun
  have hsources : readSources lib (sourcesModel files)
      (files.take (files.countP SourceFile.recognised)) = .ok (src1, src2) := by
    rw [Proc.exec_ofExcept] at hread
    obtain ⟨hread, -⟩ := Prod.mk.inj hread
    cases hcase : readSources lib (sourcesModel files)
        (files.take (files.countP SourceFile.recognised)) with
    | error e =>
        rw [hcase] at hread
        cases hread
    | ok found =>
        rw [hcase] at hread
        exact congrArg Except.ok (Except.ok.inj hread)
  obtain ⟨hregular, hflash⟩ := readSources_ok hsources
  obtain ⟨hvars, apps, happEntries, happs⟩ := exec_tifilesTigroupContents_ok hcontents
  have hmodel (hfirst : RecognisedFirst files) : contentsModel src1 src2 = allModel lib files := by
    unfold allModel
    rw [← take_countP_of_recognisedFirst hfirst, hsources]
  constructor
  · rintro ⟨hallRegular, hallFlash⟩
    have hlengths := hallFlash.length_eq
    rw [happEntries] at hlengths
    have hle := List.length_filterMap_le id apps
    have hfirst : RecognisedFirst files := by
      apply recognisedFirst_of_countP
      have htake := countP_recognised (files.take (files.countP SourceFile.recognised))
      have hsub := (List.take_sublist (files.countP SourceFile.recognised) files).countP_le
        (p := SourceFile.recognised)
      have hall := countP_recognised files
      rw [hallRegular.length_eq, ← hvars.length_eq, ← hregular.length_eq] at hall
      have hsrc2 := hflash.length_eq
      have hlen := happs.length_eq
      omega
    refine ⟨hfirst, ?_⟩
    intro f hf chain hchain
    have hfiles : ofKind .flash (files.take (files.countP SourceFile.recognised))
        = ofKind .flash files := by
      rw [take_countP_of_recognisedFirst hfirst, ofKind_filter_recognised (by decide)]
    rw [hfiles] at hflash
    have hsome : ∀ te? ∈ apps, (id te?).isSome := by
      rw [← List.filterMap_length_eq_length]
      have hlen := happs.length_eq
      have hsrc2 := hflash.length_eq
      omega
    obtain ⟨chain', hmem, hread⟩ := (exists_of_forall₂ hflash).1 f hf
    obtain rfl := Except.ok.inj (hread.symm.trans hchain)
    obtain ⟨te?, hte, hiff, -⟩ := (exists_of_forall₂ happs).1 chain' hmem
    rw [← hmodel hfirst]
    exact hiff.mp (hsome te? hte)
  · rintro ⟨hfirst, hall⟩
    rw [take_countP_of_recognisedFirst hfirst, ofKind_filter_recognised (by decide)] at hregular
    rw [take_countP_of_recognisedFirst hfirst, ofKind_filter_recognised (by decide)] at hflash
    have hsome : ∀ te? ∈ apps, te?.isSome := by
      intro te? hte
      obtain ⟨chain, hchain, hiff, -⟩ := (exists_of_forall₂ happs).2 te? hte
      obtain ⟨f, hf, hread⟩ := (exists_of_forall₂ hflash).2 chain hchain
      rw [hiff, hmodel hfirst]
      exact hall f hf chain hread
    rw [eq_map_some_of_isSome hsome, ← happEntries, List.forall₂_map_right_iff] at happs
    constructor
    · exact (forall₂_comp hregular hvars).imp fun f te ⟨c, hc, dup, hdup, hte⟩ =>
        ⟨c, dup, hc, hdup, hte⟩
    · exact (forall₂_comp hflash happs).imp fun f te ⟨chain, hchain, _, hmember⟩ => by
        obtain ⟨dup, next, next', hdup, hte⟩ := hmember te rfl
        exact ⟨chain, dup, next, next', hchain, hdup, hte⟩

end Contents

/-! ## a number, an application and a note -/

/-- A file with the number A of a TI-83+. -/
def numberFile83 : List UInt8 :=
  ascii "**TI83F*" ++ [0x1A, 0x0A, 0] ++ List.replicate 42 0 ++ [26, 0]
    ++ [0x0D, 0, 9, 0, 0] ++ [0x41, 0, 0, 0, 0, 0, 0, 0] ++ [0, 0] ++ [9, 0]
    ++ [0, 0x80, 0x10, 0, 0, 0, 0, 0, 0] ++ [0xF0, 0]

/-- An application of a TI-83+ without a page. -/
def appFile : List UInt8 :=
  ascii "**TIFL**" ++ [1, 0, 0, 0] ++ [1, 1, 0x20, 1] ++ [8] ++ List.replicate 8 0
    ++ List.replicate 23 0 ++ [0x73, 0x24] ++ List.replicate 24 0 ++ [13, 0, 0, 0]
    ++ ascii ":00000001FF" ++ [0x0D, 0x0A]

theorem dotless_tmp : 0x2E ∉ ascii "/tmp/tigA1B2C3" := by decide

/-- The readers of the TI-83+; the flash file is the application. -/
def ti83pFormats : TigFormats FileContent FlashChain where
  tmp := ascii "/tmp/tigA1B2C3"
  dotless := dotless_tmp
  utf8Filenames := true
  evoReadRegular := fun _ _ _ => .error .badCalc
  ti8xReadRegular := fun path bytes model =>
    (ti8xFileReadRegular serialConverters path bytes
      { zeroContent with model, modelDst := model }).mapError fun _ => .file 0
  ti9xReadRegular := fun _ _ _ => .error .badCalc
  tnspReadRegular := fun _ _ _ => .error .badCalc
  evoReadFlash := fun _ _ _ => .error .badCalc
  ti8xReadFlash := fun _ bytes _ => if bytes = appFile then .ok [linkAt 0 []] else .error (.file 0)
  ti9xReadFlash := fun _ _ _ => .error .badCalc
  tnspReadFlash := fun _ _ _ => .error .badCalc
  writeRegular := fun _ => .ok numberFile83
  writeFlash := fun _ => .ok appFile

/-- A name without its type. -/
def plainFilename (_ : CalcModel) (_ name : List UInt8) (_ : UInt8) : List UInt8 := name

def number83Source : SourceFile := ⟨ascii "A.8xn", numberFile83, by decide⟩

def appSource : SourceFile := ⟨ascii "app.8xk", appFile, by decide⟩

def noteSource : SourceFile := ⟨ascii "notes.txt", ascii "notes", by decide⟩

/-- The tigroup of some files, when there is one. -/
def ti83pTigroup (files : List SourceFile) : Option (Tigroup FileContent FlashChain) :=
  ((Proc.exec (tifilesTigroupFiles plainFilename ti83pFormats files) 2).1.toOption).map Prod.fst

theorem exec_of_ti83pTigroup {files : List SourceFile} {content : Tigroup FileContent FlashChain}
    (h : ti83pTigroup files = some content) : ∃ archive next',
      Proc.exec (tifilesTigroupFiles plainFilename ti83pFormats files) 2
        = (.ok (content, archive), next') := by
  unfold ti83pTigroup at h
  rcases hrun : Proc.exec (tifilesTigroupFiles plainFilename ti83pFormats files) 2 with
    ⟨e | ⟨found, archive⟩, next'⟩
  · rw [hrun] at h
    cases h
  · rw [hrun] at h
    obtain rfl := Option.some.inj h
    exact ⟨archive, next', rfl⟩

/-- The note is the last file of the list. -/
theorem tifilesTigroupFiles_complete_iff_last :
    ∃ content archive next', Proc.exec (tifilesTigroupFiles plainFilename ti83pFormats
        [number83Source, appSource, noteSource]) 2 = (.ok (content, archive), next')
      ∧ TigComplete ti83pFormats [number83Source, appSource, noteSource] content := by
  obtain ⟨content, hcontent⟩ := Option.isSome_iff_exists.mp
    (show (ti83pTigroup [number83Source, appSource, noteSource]).isSome by decide +kernel)
  obtain ⟨archive, next', hrun⟩ := exec_of_ti83pTigroup hcontent
  refine ⟨content, archive, next', hrun,
    (tifilesTigroupFiles_complete_iff hrun).mpr ⟨?_, ?_⟩⟩
  · show List.Pairwise _ _
    decide
  · intro f hf chain hchain
    have hflash : ofKind .flash [number83Source, appSource, noteSource] = [appSource] := by
      decide
    rw [hflash] at hf
    obtain rfl := List.mem_singleton.mp hf
    have hread : ti83pFormats.fileReadFlash appSource.path appSource.bytes
        (sourcesModel [number83Source, appSource, noteSource]) = .ok [linkAt 0 []] := by
      decide
    obtain rfl := Except.ok.inj (hread.symm.trans hchain)
    exact ⟨linkAt 0 [], List.mem_cons_self, by decide +kernel⟩

/-- The note is the first file of the list, and the application is left out. -/
theorem not_tigComplete_of_note_first :
    ¬∀ (lib : TigFormats FileContent FlashChain)
        (buildFilename : CalcModel → List UInt8 → List UInt8 → UInt8 → List UInt8)
        (files : List SourceFile) (content : Tigroup FileContent FlashChain) (archive : Archive)
        (next next' : Nat),
      Proc.exec (tifilesTigroupFiles buildFilename lib files) next
        = (.ok (content, archive), next') → TigComplete lib files content := by
  intro hall
  obtain ⟨content, hcontent⟩ := Option.isSome_iff_exists.mp
    (show (ti83pTigroup [noteSource, number83Source, appSource]).isSome by decide +kernel)
  obtain ⟨archive, next', hrun⟩ := exec_of_ti83pTigroup hcontent
  have hcomplete := (hall _ _ _ _ _ _ _ hrun).flash.length_eq
  have happs : (ti83pTigroup [noteSource, number83Source, appSource]).map
      (fun content => content.appEntries.length) = some 0 := by decide +kernel
  rw [hcontent] at happs
  have hflash : (ofKind .flash [noteSource, number83Source, appSource]).length = 1 := by
    decide
  have hnone : content.appEntries.length = 0 := Option.some.inj happs
  rw [hflash, hnone] at hcomplete
  cases hcomplete

end Tilibs.Files
