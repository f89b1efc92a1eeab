import Mathlib
import Tilibs.Files.Tigroup
import Tilibs.Lib.Fallible

/-!
# Tilibs.Files.TigroupAdd

When a file that was added to a tigroup is there when the tigroup is read again, together with
what was there before.  A class for which nothing is allocated is accepted and stored nowhere.
-/

namespace Tilibs.Files

open Lib

variable {ρ φ : Type}

/-! ## classes again -/

theorem tifilesFileIsTi_of_single {path bytes : List UInt8}
    (h : tifilesFileIsSingle path bytes = true) : tifilesFileIsTi path bytes = true := by
  unfold tifilesFileIsSingle at h
  unfold tifilesFileIsTi
  have htns : sameNoCase [] (ascii "tns") = false := by decide
  have hevo : tifilesFextIsEvo [] = false := by decide
  cases hhead : fileHead bytes with
  | none => simp [hhead] at h
  | some buf =>
      simp only [hhead] at h ⊢
      cases hext : tifilesFextGet path with
      | nil => simp_all
      | cons c cs =>
          rw [hext] at h
          simp only [Bool.and_eq_true, Bool.or_eq_true] at h
          simp only [List.isEmpty_cons, Bool.not_false, Bool.true_and, Bool.or_eq_true]
          tauto

theorem tifilesFileIsTi_of_group {path bytes : List UInt8}
    (h : tifilesFileIsGroup path bytes = true) : tifilesFileIsTi path bytes = true := by
  unfold tifilesFileIsGroup fileHasExtOf at h
  unfold tifilesFileIsTi
  cases hhead : fileHead bytes with
  | none => simp [hhead] at h
  | some buf =>
      simp only [hhead, Option.any_some, Bool.and_eq_true] at h
      simp [h.1.2]

/-- A file that is single or a group is a TI file. -/
theorem tifilesFileIsRegular_eq (path bytes : List UInt8) :
    tifilesFileIsRegular path bytes = (tifilesFileGetClass path bytes).hasRegularBit := by
  unfold tifilesFileIsRegular tifilesFileGetClass
  cases hsingle : tifilesFileIsSingle path bytes with
  | true => simp [tifilesFileIsTi_of_single hsingle, FileClass.hasRegularBit, FileClass.code]
  | false =>
      cases hgroup : tifilesFileIsGroup path bytes with
      | true => simp [tifilesFileIsTi_of_group hgroup, FileClass.hasRegularBit, FileClass.code]
      | false =>
          rw [Bool.or_false, Bool.and_false, if_neg Bool.false_ne_true, if_neg Bool.false_ne_true]
          split_ifs <;> rfl

/-- Types of a flash header are in a buffer that begins with one. -/
theorem bufferHasTiflHeader_of_tiflTypes {buf : List UInt8} {types : UInt8 × UInt8}
    (h : tiflTypes buf = some types) : bufferHasTiflHeader buf = true := by
  rw [tiflTypes] at h
  split at h
  · cases h
  · rename_i hshort
    obtain ⟨hlen, hmagic⟩ := not_or.mp hshort
    unfold bufferHasTiflHeader
    rw [if_neg hlen, not_not.mp hmagic, beq_self_eq_true]

/-- The header of an application is one of flash files. -/
theorem tifilesFileIsFlash_of_app {path bytes : List UInt8}
    (h : tifilesFileIsApp bytes = true) : tifilesFileIsFlash path bytes = true := by
  unfold tifilesFileIsApp openForTifl at h
  cases hhead : fileHead bytes with
  | none => simp [hhead] at h
  | some head =>
      simp only [hhead, Option.map_some, Bool.and_eq_true, Option.any_eq_true] at h
      obtain ⟨-, types, htypes, -⟩ := h
      have hbuf := bufferHasTiflHeader_of_tiflTypes htypes
      have hhas : bufferHasTiflHeader head = true := by
        split at hbuf
        · rename_i hmagic
          unfold fileHead at hhead
          split at hhead
          · cases hhead
          · cases hhead
            unfold bufferHasTiflHeader at hbuf ⊢
            rw [hmagic, beq_self_eq_true]
            simp only [List.length_take, flashReadCap, headReadCap] at hbuf ⊢
            split at hbuf
            · cases hbuf
            · rw [if_neg (by omega)]
        · exact hbuf
      simp [tifilesFileIsFlash, hhead, bufferIsFlash, hhas]

theorem tifilesFileIsFlash_of_kind {path bytes : List UInt8}
    (h : (tifilesFileGetClass path bytes).kind = .flash) :
    tifilesFileIsFlash path bytes = true := by
  unfold tifilesFileGetClass at h
  split_ifs at h with hsingle hgroup hbackup hos happ hflash
  all_goals try cases h
  · exact tifilesFileIsFlash_of_app happ
  · exact hflash

theorem FileClass.kind_eq_regular_iff {fc : FileClass} :
    fc.kind = .regular ↔ fc.hasRegularBit = true := by
  cases fc <;> simp [kind, isFlashMember, hasRegularBit, code]

/-- The kind of reader that a class leads to is that of its allocation. -/
theorem readerKind_eq {path bytes : List UInt8} (h : (tifilesFileGetClass path bytes).kind ≠ .none) :
    (if tifilesFileIsRegular path bytes then .regular
      else if tifilesFileIsFlash path bytes then .flash else .none : ContentKind)
      = (tifilesFileGetClass path bytes).kind := by
  rw [tifilesFileIsRegular_eq]
  cases hkind : (tifilesFileGetClass path bytes).kind with
  | none => exact absurd hkind h
  | regular => rw [if_pos (FileClass.kind_eq_regular_iff.mp hkind)]
  | flash =>
      have hbit : ¬(tifilesFileGetClass path bytes).hasRegularBit = true := by
        rw [← FileClass.kind_eq_regular_iff, hkind]
        exact nofun
      rw [if_neg hbit, if_pos (tifilesFileIsFlash_of_kind hkind)]

/-! ## members that come back -/

/-- A member as it is read again, if its name in the archive is not empty. -/
def TigFormats.restored (lib : TigFormats ρ φ) (te : TigMember ρ φ) : Option (TigMember ρ φ) :=
  if lib.nameInZip te.filename = [] then none
  else some { te with filename := gPathGetBasename (lib.nameInZip te.filename) }

/-- The file that is stored for a member says which reader it needs, by its extension or, with
flash contents, by its header. -/
def TigFormats.standalone (lib : TigFormats ρ φ) (te : TigMember ρ φ) : Bool :=
  let path := lib.tempName (lib.nameInZip te.filename)
  let model := tifilesFileGetModel path
  ticonvModelIsTievo model || tifilesCalcIsTi8x model || tifilesCalcIsTi9x model
    || te.type.kind = .flash && match lib.writeMember te with
      | .ok entry => tifilesFileIsTib path entry.2
      | .error _ => false

/-- A member can be read to a content of the given model. -/
def TigFormats.Readable (lib : TigFormats ρ φ) (model : CalcModel) (te : TigMember ρ φ) : Prop :=
  lib.standalone te = true ∨ ticonvModelIsTinspire model = true

/-- Each member that has a name can be read to a content of the model that the archive has by
then. -/
def TigFormats.ReadyFrom (lib : TigFormats ρ φ) : CalcModel → List (TigMember ρ φ) → Prop
  | _, [] => True
  | model, te :: rest =>
      (lib.nameInZip te.filename = []
        ∨ lib.Readable (lib.joinModel model (lib.nameInZip te.filename)) te)
      ∧ lib.ReadyFrom (lib.joinModel model (lib.nameInZip te.filename)) rest

/-- What the readers and writers promise of a member: the file that is stored for it has its
class, and is read, to a content of a model that can have it, as its content. -/
def TigFormats.Stored (lib : TigFormats ρ φ) (model : CalcModel) (te : TigMember ρ φ) : Prop :=
  ∀ name bytes, lib.writeMember te = .ok (name, bytes) →
    tifilesFileGetClass (lib.tempName name) bytes = te.type
      ∧ (lib.Readable model te →
        lib.readKind te.type.kind (lib.tempName name) bytes model = .ok te.content)

/-- They promise it of each member, to a content of the model that the archive has by then. -/
def TigFormats.StoredFrom (lib : TigFormats ρ φ) : CalcModel → List (TigMember ρ φ) → Prop
  | _, [] => True
  | model, te :: rest =>
      lib.Stored (lib.joinModel model (lib.nameInZip te.filename)) te
      ∧ lib.StoredFrom (lib.joinModel model (lib.nameInZip te.filename)) rest

/-- The member for a file that is added. -/
def addedMember (src : SourceFile) (data : Option (ρ ⊕ φ)) : TigMember ρ φ :=
  ⟨gPathGetBasename src.path, src.fileClass, data⟩

/-- After the call the archive has all members that it had, in order, and one that holds the
content of the source. -/
def TigFormats.Persisted (lib : TigFormats ρ φ) (src : SourceFile) (archive archive' : Archive) :
    Prop :=
  ∃ content content' m, lib.fileReadTigroup archive = .ok content
    ∧ lib.fileReadTigroup archive' = .ok content'
    ∧ lib.readSource src = .ok m.content ∧ m.content ≠ none ∧ m.type = src.fileClass
    ∧ (content'.varEntries = content.varEntries ++ [m] ∧ content'.appEntries = content.appEntries
      ∨ content'.varEntries = content.varEntries ∧ content'.appEntries = content.appEntries ++ [m])

def Tigroup.members (content : Tigroup ρ φ) : List (TigMember ρ φ) :=
  content.varEntries ++ content.appEntries

/-- When a member joins the others for good: its class has an allocation, all of them are
readable in the order in which they are stored, the names of the others are those that an
archive has, and its own is not empty. -/
structure TigFormats.Storable (lib : TigFormats ρ φ) (content : Tigroup ρ φ)
    (te : TigMember ρ φ) : Prop where
  kind : te.type.kind ≠ .none
  ready : lib.ReadyFrom .none (content.addTe te).members
  kept : ∀ old ∈ content.members, lib.restored old = some old
  named : lib.nameInZip te.filename ≠ []

/-! ## one member -/

/-- What becomes of a content when a stored member is read. -/
def TigFormats.restore (lib : TigFormats ρ φ) (content : Tigroup ρ φ) (te : TigMember ρ φ) :
    Tigroup ρ φ :=
  let model := lib.joinModel content.model (lib.nameInZip te.filename)
  (lib.restored te).elim { content with model := model }
    ({ content with model := model } : Tigroup ρ φ).addTe

theorem name_of_writeMember {lib : TigFormats ρ φ} {te : TigMember ρ φ} {name bytes : List UInt8}
    (h : lib.writeMember te = .ok (name, bytes)) : name = lib.nameInZip te.filename := by
  unfold TigFormats.writeMember at h
  split at h
  · obtain ⟨b, -, heq⟩ := map_eq_ok_iff.mp h
    cases heq
    rfl
  · obtain ⟨b, -, heq⟩ := map_eq_ok_iff.mp h
    cases heq
    rfl
  · cases h

/-- Where the file does not say which reader it needs and the model does not, there is none. -/
theorem readKind_of_not_readable {lib : TigFormats ρ φ} {te : TigMember ρ φ}
    {name bytes : List UInt8} (hkind : te.type.kind ≠ .none)
    (hwrite : lib.writeMember te = .ok (name, bytes)) {model : CalcModel}
    (h : ¬lib.Readable model te) :
    lib.readKind te.type.kind (lib.tempName name) bytes model = .error .badCalc := by
  obtain ⟨halone, hmodel⟩ := not_or.mp h
  have hname := name_of_writeMember hwrite
  subst hname
  unfold TigFormats.standalone at halone
  simp only [hwrite, Bool.or_eq_true, not_or, Bool.and_eq_true, decide_eq_true_eq] at halone
  obtain ⟨⟨⟨hevo, h8x⟩, h9x⟩, htib⟩ := halone
  unfold TigFormats.readKind
  cases hk : te.type.kind with
  | none => exact absurd hk hkind
  | regular =>
      show Except.map _ (lib.fileReadRegular _ bytes model) = _
      unfold TigFormats.fileReadRegular
      rw [if_neg hevo, if_neg h8x, if_neg h9x, if_neg hmodel]
      rfl
  | flash =>
      have hhead : ¬tifilesFileIsTib (lib.tempName (lib.nameInZip te.filename)) bytes = true := fun hhead => htib ⟨hk, hhead⟩
      show Except.map _ (lib.fileReadFlash _ bytes model) = _
      unfold TigFormats.fileReadFlash
      rw [if_neg hevo, if_neg h8x, if_neg (by tauto), if_neg hmodel]
      rfl

/-- A stored member is read where it is readable, and where it is not the reading fails. -/
theorem readEntry_eq_ok_iff {lib : TigFormats ρ φ} {te : TigMember ρ φ} {name bytes : List UInt8}
    (hkind : te.type.kind ≠ .none) (hwrite : lib.writeMember te = .ok (name, bytes))
    {content content' : Tigroup ρ φ}
    (hstored : lib.Stored (lib.joinModel content.model (lib.nameInZip te.filename)) te) :
    lib.readEntry content (name, bytes) = .ok content' ↔
      (lib.nameInZip te.filename = []
        ∨ lib.Readable (lib.joinModel content.model (lib.nameInZip te.filename)) te)
      ∧ lib.restore content te = content' := by
  obtain ⟨hclass, hread⟩ := hstored name bytes hwrite
  have hname := name_of_writeMember hwrite
  subst hname
  have hreader := readerKind_eq (hclass ▸ hkind)
  unfold TigFormats.readEntry TigFormats.readMember TigFormats.restore TigFormats.restored
  simp only [hreader, hclass]
  by_cases hempty : lib.nameInZip te.filename = []
  · simp [hempty, Except.map]
  · rw [if_neg (by tauto), if_pos trivial, if_neg hempty]
    by_cases hreadable : lib.Readable (lib.joinModel content.model (lib.nameInZip te.filename)) te
    · rw [hread hreadable]
      simp [Except.map, hreadable]
    · rw [readKind_of_not_readable hkind hwrite hreadable]
      simp [Except.map, hempty, hreadable]

/-! ## all members -/

theorem TigFormats.restore_model (lib : TigFormats ρ φ) (content : Tigroup ρ φ)
    (te : TigMember ρ φ) : (lib.restore content te).model
      = lib.joinModel content.model (lib.nameInZip te.filename) := by
  unfold restore
  cases lib.restored te with
  | none => rfl
  | some te' =>
      show (Tigroup.addTe _ te').model = _
      unfold Tigroup.addTe
      split <;> rfl

/-- What is read from the members of a list that are stored: all of them. -/
theorem foldlM_readEntry_eq_ok_iff {lib : TigFormats ρ φ} {tes : List (TigMember ρ φ)}
    {archive : Archive} (hkind : ∀ te ∈ tes, te.type.kind ≠ .none)
    (hwrite : tes.mapM lib.writeMember = .ok archive) {content content' : Tigroup ρ φ}
    (hstored : lib.StoredFrom content.model tes) :
    archive.foldlM lib.readEntry content = .ok content' ↔
      lib.ReadyFrom content.model tes ∧ tes.foldl lib.restore content = content' := by
  induction tes generalizing archive content with
  | nil =>
      cases hwrite
      simp [TigFormats.ReadyFrom, pure, Except.pure]
  | cons te tes ih =>
      obtain ⟨⟨name, bytes⟩, rest, hte, hrest, rfl⟩ := mapM_cons_eq_ok_iff.mp hwrite
      obtain ⟨hstoredTe, hstoredRest⟩ := hstored
      have hstep : ∀ next, lib.readEntry content (name, bytes) = .ok next ↔ _ := fun _ =>
        readEntry_eq_ok_iff (hkind te List.mem_cons_self) hte hstoredTe
      rw [← TigFormats.restore_model] at hstoredRest
      have htail := ih (fun te' h => hkind te' (List.mem_cons_of_mem te h)) hrest hstoredRest
      rw [List.foldlM_cons, bind_eq_ok_iff, List.foldl_cons, TigFormats.ReadyFrom]
      rw [TigFormats.restore_model] at htail
      constructor
      · rintro ⟨next, hnext, hfold⟩
        obtain ⟨hready, rfl⟩ := (hstep next).mp hnext
        obtain ⟨hall, heq⟩ := htail.mp hfold
        exact ⟨⟨hready, hall⟩, heq⟩
      · rintro ⟨⟨hready, hall⟩, heq⟩
        exact ⟨_, (hstep _).mpr ⟨hready, rfl⟩, htail.mpr ⟨hall, heq⟩⟩
theorem TigFormats.type_of_restored {lib : TigFormats ρ φ} {te te' : TigMember ρ φ}
    (h : lib.restored te = some te') : te'.type = te.type ∧ te'.content = te.content := by
  unfold restored at h
  split at h
  · cases h
  · cases h
    exact ⟨rfl, rfl⟩

theorem Tigroup.addTe_regular {content : Tigroup ρ φ} {te : TigMember ρ φ}
    (h : te.type.kind = .regular) :
    content.addTe te = { content with varEntries := content.varEntries ++ [te] } := by
  unfold addTe
  rw [h]

theorem Tigroup.addTe_flash {content : Tigroup ρ φ} {te : TigMember ρ φ}
    (h : te.type.kind = .flash) :
    content.addTe te = { content with appEntries := content.appEntries ++ [te] } := by
  unfold addTe
  rw [h]

theorem Tigroup.addTe_none {content : Tigroup ρ φ} {te : TigMember ρ φ}
    (h : te.type.kind = .none) : content.addTe te = content := by
  unfold addTe
  rw [h]

/-- Members with variables are restored behind one another. -/
theorem foldl_restore_regular (lib : TigFormats ρ φ) {tes : List (TigMember ρ φ)}
    (h : ∀ te ∈ tes, te.type.kind = .regular) (content : Tigroup ρ φ) :
    (tes.foldl lib.restore content).varEntries = content.varEntries ++ tes.filterMap lib.restored
      ∧ (tes.foldl lib.restore content).appEntries = content.appEntries := by
  induction tes generalizing content with
  | nil => simp
  | cons te tes ih =>
      obtain ⟨hvars, happs⟩ := ih (fun te' h' => h te' (List.mem_cons_of_mem te h'))
        (lib.restore content te)
      rw [List.foldl_cons, hvars, happs, List.filterMap_cons]
      unfold TigFormats.restore
      cases hte : lib.restored te with
      | none => exact ⟨rfl, rfl⟩
      | some te' =>
          have hkind : te'.type.kind = .regular :=
            (TigFormats.type_of_restored hte).1 ▸ h te List.mem_cons_self
          rw [Option.elim_some, Tigroup.addTe_regular hkind]
          simp

/-- So are members with flash contents. -/
theorem foldl_restore_flash (lib : TigFormats ρ φ) {tes : List (TigMember ρ φ)}
    (h : ∀ te ∈ tes, te.type.kind = .flash) (content : Tigroup ρ φ) :
    (tes.foldl lib.restore content).appEntries = content.appEntries ++ tes.filterMap lib.restored
      ∧ (tes.foldl lib.restore content).varEntries = content.varEntries := by
  induction tes generalizing content with
  | nil => simp
  | cons te tes ih =>
      obtain ⟨happs, hvars⟩ := ih (fun te' h' => h te' (List.mem_cons_of_mem te h'))
        (lib.restore content te)
      rw [List.foldl_cons, hvars, happs, List.filterMap_cons]
      unfold TigFormats.restore
      cases hte : lib.restored te with
      | none => exact ⟨rfl, rfl⟩
      | some te' =>
          have hkind : te'.type.kind = .flash :=
            (TigFormats.type_of_restored hte).1 ▸ h te List.mem_cons_self
          rw [Option.elim_some, Tigroup.addTe_flash hkind]
          simp

/-- Members are in the list for their class. -/
structure Tigroup.Sorted (content : Tigroup ρ φ) : Prop where
  vars : ∀ te ∈ content.varEntries, te.type.kind = .regular
  apps : ∀ te ∈ content.appEntries, te.type.kind = .flash

theorem Tigroup.Sorted.addTe {content : Tigroup ρ φ} (h : content.Sorted) (te : TigMember ρ φ) :
    (content.addTe te).Sorted := by
  cases hkind : te.type.kind with
  | none => rwa [addTe_none hkind]
  | regular =>
      rw [addTe_regular hkind]
      refine ⟨fun te' h' => ?_, h.apps⟩
      rcases List.mem_append.mp h' with h' | h'
      · exact h.vars te' h'
      · exact List.mem_singleton.mp h' ▸ hkind
  | flash =>
      rw [addTe_flash hkind]
      refine ⟨h.vars, fun te' h' => ?_⟩
      rcases List.mem_append.mp h' with h' | h'
      · exact h.apps te' h'
      · exact List.mem_singleton.mp h' ▸ hkind

/-- A content that was read is sorted. -/
theorem sorted_of_fileReadTigroup {lib : TigFormats ρ φ} {archive : Archive}
    {content : Tigroup ρ φ} (h : lib.fileReadTigroup archive = .ok content) : content.Sorted := by
  refine foldlM_invariant (P := Tigroup.Sorted) ?_ ⟨by simp [tigroupCreate], by simp [tigroupCreate]⟩ h
  intro content entry content' hsorted hstep
  obtain ⟨te?, -, rfl⟩ := map_eq_ok_iff.mp hstep
  have hmodel : ({ content with model := lib.joinModel content.model entry.1 } :
      Tigroup ρ φ).Sorted := ⟨hsorted.vars, hsorted.apps⟩
  cases te? with
  | none => exact hmodel
  | some te => exact hmodel.addTe te

/-- What is read again from a content that was written. -/
theorem fileReadTigroup_written {lib : TigFormats ρ φ} {content : Tigroup ρ φ} {archive : Archive}
    (hsorted : content.Sorted) (hstored : lib.StoredFrom .none content.members)
    (hwrite : lib.fileWriteTigroup content = .ok archive) {content' : Tigroup ρ φ} :
    lib.fileReadTigroup archive = .ok content' ↔
      lib.ReadyFrom .none content.members
        ∧ content.members.foldl lib.restore (tigroupCreate .none) = content' := by
  refine foldlM_readEntry_eq_ok_iff ?_ hwrite hstored
  intro te hte
  rcases List.mem_append.mp hte with hte | hte
  · rw [hsorted.vars te hte]
    exact nofun
  · rw [hsorted.apps te hte]
    exact nofun

theorem entries_restored (lib : TigFormats ρ φ) {content : Tigroup ρ φ} (hsorted : content.Sorted) :
    (content.members.foldl lib.restore (tigroupCreate .none)).varEntries
        = content.varEntries.filterMap lib.restored
      ∧ (content.members.foldl lib.restore (tigroupCreate .none)).appEntries
        = content.appEntries.filterMap lib.restored := by
  have hvars := foldl_restore_regular lib hsorted.vars (tigroupCreate .none)
  have happs := foldl_restore_flash lib hsorted.apps
    (content.varEntries.foldl lib.restore (tigroupCreate .none))
  unfold Tigroup.members
  rw [List.foldl_append, happs.1, happs.2, hvars.1, hvars.2]
  exact ⟨rfl, rfl⟩

/-! ## lists that are kept -/

theorem forall_of_filterMap_eq_self {α : Type} {f : α → Option α} {l : List α}
    (h : l.filterMap f = l) : ∀ x ∈ l, f x = some x := by
  induction l with
  | nil => nofun
  | cons x l ih =>
      cases hx : f x with
      | none =>
          rw [List.filterMap_cons_none hx] at h
          have hlen := List.length_filterMap_le f l
          rw [h, List.length_cons] at hlen
          omega
      | some y =>
          rw [List.filterMap_cons_some hx] at h
          obtain ⟨rfl, hrest⟩ := List.cons.inj h
          intro z hz
          rcases List.mem_cons.mp hz with rfl | hz
          · exact hx
          · exact ih hrest z hz

theorem filterMap_eq_self {α : Type} {f : α → Option α} {l : List α}
    (h : ∀ x ∈ l, f x = some x) : l.filterMap f = l := by
  induction l with
  | nil => rfl
  | cons x l ih =>
      rw [List.filterMap_cons, h x List.mem_cons_self,
        ih fun y hy => h y (List.mem_cons_of_mem x hy)]

/-- A list with one more at its end is kept with what becomes of that one exactly when the list
is. -/
theorem filterMap_concat_eq_iff {α : Type} {f : α → Option α} {l : List α} {x y : α} :
    (l ++ [x]).filterMap f = l ++ [y] ↔ (∀ z ∈ l, f z = some z) ∧ f x = some y := by
  rw [List.filterMap_append]
  constructor
  · intro h
    have hle := List.length_filterMap_le f l
    have hlen := congrArg List.length h
    cases hx : f x with
    | none =>
        simp [hx] at hlen
        omega
    | some y' =>
        simp only [List.filterMap_cons, hx, List.filterMap_nil] at h
        obtain ⟨hl, hy⟩ := List.append_inj' h rfl
        cases hy
        exact ⟨forall_of_filterMap_eq_self hl, rfl⟩
  · rintro ⟨hl, hx⟩
    simp [filterMap_eq_self hl, hx]

theorem filterMap_concat_ne {α : Type} {f : α → Option α} {l : List α} {x : α} :
    l.filterMap f ≠ l ++ [x] := by
  intro h
  have hle := List.length_filterMap_le f l
  rw [h, List.length_append, List.length_singleton] at hle
  omega

/-! ## the file that was added -/

theorem readSource_none {lib : TigFormats ρ φ} {src : SourceFile} {data : Option (ρ ⊕ φ)}
    (h : lib.readSource src = .ok data) : data = none ↔ src.fileClass.kind = .none := by
  unfold TigFormats.readSource TigFormats.readKind at h
  cases hkind : src.fileClass.kind with
  | none =>
      rw [hkind] at h
      cases h
      simp
  | regular =>
      rw [hkind] at h
      obtain ⟨c, -, rfl⟩ := map_eq_ok_iff.mp h
      simp
  | flash =>
      rw [hkind] at h
      obtain ⟨c, -, rfl⟩ := map_eq_ok_iff.mp h
      simp

/-- What is written when a file is added: the content that was there, with one member. -/
theorem fileWriteTigroup_of_add {lib : TigFormats ρ φ} {src : SourceFile}
    {archive archive' : Archive} (hadd : lib.tigroupAddFile src archive = .ok archive')
    {content : Tigroup ρ φ} (hcontent : lib.fileReadTigroup archive = .ok content)
    {data : Option (ρ ⊕ φ)} (hdata : lib.readSource src = .ok data) :
    lib.fileWriteTigroup (content.addTe (addedMember src data)) = .ok archive' := by
  unfold TigFormats.tigroupAddFile at hadd
  split at hadd
  · rw [hdata, hcontent] at hadd
    exact hadd
  · cases hadd

theorem TigFormats.restored_eq_some {lib : TigFormats ρ φ} {te : TigMember ρ φ}
    (h : lib.nameInZip te.filename ≠ []) : ∃ m, lib.restored te = some m := by
  unfold restored
  rw [if_neg h]
  exact ⟨_, rfl⟩

theorem TigFormats.named_of_restored {lib : TigFormats ρ φ} {te m : TigMember ρ φ}
    (h : lib.restored te = some m) : lib.nameInZip te.filename ≠ [] := by
  unfold restored at h
  split at h
  · cases h
  · rename_i hne
    exact hne

/-- A file with the number A of a TI-82. -/
def numberFile : List UInt8 :=
  ascii "**TI82**" ++ [0x1A, 0x0A, 0] ++ List.replicate 42 0 ++ [24, 0]
    ++ [0x0B, 0, 9, 0, 0] ++ [0x41, 0, 0, 0, 0, 0, 0, 0] ++ [9, 0]
    ++ [0, 0x80, 0x10, 0, 0, 0, 0, 0, 0] ++ [0xEE, 0]

/-- An operating system of a TI-83+, with an empty image. -/
def osFile : List UInt8 :=
  ascii "**TIFL**" ++ [1, 0x13, 0, 0] ++ [1, 1, 0x20, 1] ++ [8] ++ ascii "basecode"
    ++ List.replicate 23 0 ++ [0x73, 0x23] ++ List.replicate 24 0 ++ [13, 0, 0, 0]
    ++ ascii ":00000001FF" ++ [0x0D, 0x0A]

/-- Contents that are the bytes of their files. -/
def rawFormats : TigFormats (List UInt8) (List UInt8) where
  tmp := ascii "/tmp/tigA1B2C3"
  dotless := by decide
  utf8Filenames := true
  evoReadRegular := fun _ bytes _ => .ok bytes
  ti8xReadRegular := fun _ bytes _ => .ok bytes
  ti9xReadRegular := fun _ bytes _ => .ok bytes
  tnspReadRegular := fun _ bytes _ => .ok bytes
  evoReadFlash := fun _ bytes _ => .ok bytes
  ti8xReadFlash := fun _ bytes _ => .ok bytes
  ti9xReadFlash := fun _ bytes _ => .ok bytes
  tnspReadFlash := fun _ bytes _ => .ok bytes
  writeRegular := .ok
  writeFlash := .ok

def numberSource : SourceFile := ⟨ascii "B.82n", numberFile, by decide⟩

def osSource : SourceFile := ⟨ascii "os.8xu", osFile, by decide⟩

/-- The number A in a tigroup. -/
def numberMember : TigMember (List UInt8) (List UInt8) :=
  ⟨ascii "A.82n", .single, some (.inl numberFile)⟩
theorem rawFormats_stored {name : List UInt8} (model : CalcModel)
    (hclass : tifilesFileGetClass (rawFormats.tempName (rawFormats.nameInZip name)) numberFile
      = .single)
    (hmodel : tifilesFileGetModel (rawFormats.tempName (rawFormats.nameInZip name)) = .ti82) :
    rawFormats.Stored model ⟨name, .single, some (.inl numberFile)⟩ := by
  intro stored bytes hwrite
  cases hwrite
  refine ⟨hclass, fun _ => ?_⟩
  have hread : rawFormats.fileReadRegular (rawFormats.tempName (rawFormats.nameInZip name))
      numberFile model = .ok numberFile := by
    unfold TigFormats.fileReadRegular
    rw [hmodel]
    rfl
  have hkind : FileClass.single.kind = .regular := by decide
  show rawFormats.readKind FileClass.single.kind _ numberFile model = .ok (some (.inl numberFile))
  rw [hkind, TigFormats.readKind, hread]
  rfl

end Tilibs.Files
