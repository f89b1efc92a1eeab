import Mathlib
import Tilibs.Tifileutil.Group

/-!
# Tilibs.Tifileutil.GroupComplete

What is lost when groups are built.  A classic group gets the first variable of each member
of a tigroup only; and the test for what a tigroup may hold takes the class of flash files,
which is neither that of systems nor that of applications.
-/

namespace Tilibs.Tifileutil

open Lib Files

variable {φ : Type}

/-! ## what the files hold -/

/-- The same variable, wherever its buffer is. -/
def SameVar (a b : VarEntry) : Prop :=
  a.folder = b.folder ∧ a.name = b.name ∧ a.type = b.type ∧ a.attr = b.attr
    ∧ a.version = b.version ∧ a.size = b.size ∧ a.data.getD [] = b.data.getD []

/-- A copy is the same variable. -/
theorem sameVar_tifilesVeDup {e : VarEntry} (h : (e.data.getD []).length = e.size.toNat) :
    SameVar e (tifilesVeDup e) := by
  refine ⟨rfl, rfl, rfl, rfl, rfl, rfl, ?_⟩
  show e.data.getD [] = padRight e.size.toNat 0 ((e.data.getD []).take e.size.toNat)
  unfold padRight
  rw [List.take_of_length_le h.le, h, Nat.sub_self]
  simp

/-- The members with variables of a tigroup that can be read. -/
def membersOf (lib : Tifiles φ) (f : SourceFile) : List (TigEntry φ) :=
  match lib.readTigroup f with
  | .ok tig => tig.varEntries
  | .error _ => []

/-- The variables of a file: those of all members of a tigroup, or all entries. -/
def varsOf (lib : Tifiles φ) (f : SourceFile) : List VarEntry :=
  if f.fileClass = .tigroup then (membersOf lib f).flatMap TigEntry.vars
  else
    match lib.readRegular f .none with
    | .ok regular => regular.entries
    | .error _ => []

/-- The variables of a file that join the group. -/
def joiningOf (lib : Tifiles φ) (f : SourceFile) : List VarEntry :=
  if f.fileClass = .tigroup then (membersOf lib f).flatMap fun te => te.vars.take 1
  else varsOf lib f

theorem sized_of_mem_varsOf {lib : Tifiles φ} {f : SourceFile} {e : VarEntry}
    (h : e ∈ varsOf lib f) : (e.data.getD []).length = e.size.toNat := by
  unfold varsOf at h
  split at h
  · obtain ⟨te, -, hte⟩ := List.mem_flatMap.mp h
    exact TigEntry.sized_of_mem_vars hte
  · split at h
    · rename_i regular _
      exact regular.sized e h
    · cases h

/-! ## what joins a classic group -/

theorem addVar_eq_ok {src : List UInt8} {label : VarEntry → List UInt8} {group group' : GroupBuilder}
    {ve : VarEntry} (h : addVar src label group ve = .ok group') :
    group'.entries = group.entries ++ [tifilesVeDup ve] := by
  unfold addVar at h
  rw [check_eq_ok_iff] at h
  rw [← Except.ok.inj h.2]

theorem joinModel_eq_ok {group group' : GroupBuilder} {model : CalcModel} {name : List UInt8}
    (h : joinModel group model name = .ok group') : group'.entries = group.entries := by
  unfold joinModel at h
  split at h
  · cases h
  split at h
  · rw [← Except.ok.inj h]
  split at h
  · rw [← Except.ok.inj h]
  · cases h

theorem reading_eq_ok {α : Type} {x : Except Nat α} {a : α} (h : reading x = .ok a) :
    x = .ok a := by
  cases x with
  | error e => cases h
  | ok b =>
      cases h
      rfl

theorem groupAddRegular_eq_ok {lib : Tifiles φ} {group group' : GroupBuilder} {f : SourceFile}
    (h : groupAddRegular lib group f = .ok group') :
    ∃ regular, lib.readRegular f .none = .ok regular
      ∧ group'.entries = group.entries ++ regular.entries.map tifilesVeDup := by
  unfold groupAddRegular at h
  obtain ⟨regular, hread, hrest⟩ := bind_eq_ok_iff.mp h
  obtain ⟨joined, hjoin, hadd⟩ := bind_eq_ok_iff.mp hrest
  have hentries := foldlM_eq_append GroupBuilder.entries
    (fun _ _ _ _ hstep => addVar_eq_ok hstep) hadd
  refine ⟨regular, reading_eq_ok hread, ?_⟩
  rw [hentries, joinModel_eq_ok hjoin, List.map_eq_flatMap]

theorem groupAddMember_eq_ok {f : SourceFile} {group group' : GroupBuilder} {te : TigEntry φ}
    (h : groupAddMember f group te = .ok group') :
    group'.entries = group.entries ++ (te.vars.take 1).map tifilesVeDup := by
  unfold groupAddMember at h
  unfold TigEntry.vars
  cases hdata : te.content with
  | empty =>
      rw [hdata] at h
      cases h
  | flash flash =>
      rw [hdata] at h
      cases h
  | regular regular =>
      rw [hdata] at h
      dsimp only at h ⊢
      cases hentries : regular.entries with
      | nil =>
          rw [hentries] at h
          cases h
      | cons ve ves =>
          rw [hentries] at h
          obtain ⟨joined, hjoin, hadd⟩ := bind_eq_ok_iff.mp h
          rw [addVar_eq_ok hadd, joinModel_eq_ok hjoin]
          rfl

theorem groupAddTigroup_eq_ok {lib : Tifiles φ} {group group' : GroupBuilder} {f : SourceFile}
    (h : groupAddTigroup lib group f = .ok group') :
    group'.entries = group.entries
      ++ ((membersOf lib f).flatMap fun te => te.vars.take 1).map tifilesVeDup := by
  unfold groupAddTigroup at h
  obtain ⟨tig, hread, hrest⟩ := bind_eq_ok_iff.mp h
  rw [check_eq_ok_iff] at hrest
  have hmembers : membersOf lib f = tig.varEntries := by
    unfold membersOf
    rw [reading_eq_ok hread]
  have hentries := foldlM_eq_append GroupBuilder.entries
    (fun _ _ _ _ hstep => groupAddMember_eq_ok hstep) hrest.2
  rw [hentries, hmembers, List.map_flatMap]

/-- What one file adds to the group. -/
theorem groupAddVarsOf_eq_ok {lib : Tifiles φ} {group group' : GroupBuilder} {f : SourceFile}
    (h : groupAddVarsOf lib group f = .ok group') :
    group'.entries = group.entries ++ (joiningOf lib f).map tifilesVeDup := by
  unfold groupAddVarsOf at h
  unfold joiningOf
  by_cases htig : f.fileClass = .tigroup
  · rw [if_pos htig] at h ⊢
    exact groupAddTigroup_eq_ok h
  · rw [if_neg htig] at h ⊢
    split at h
    · obtain ⟨regular, hread, hentries⟩ := groupAddRegular_eq_ok h
      rw [hentries]
      unfold varsOf
      rw [if_neg htig, hread]
    · cases h

/-- What the files add to the group. -/
theorem groupAddVars_eq_ok {lib : Tifiles φ} {files : List SourceFile} {group group' : GroupBuilder}
    (h : groupAddVars lib files group = .ok group') :
    group'.entries = group.entries ++ (files.flatMap (joiningOf lib)).map tifilesVeDup := by
  have hentries := foldlM_eq_append GroupBuilder.entries
    (fun f _ s s' hstep => groupAddVarsOf_eq_ok (f := f) hstep) h
  rw [hentries, List.map_flatMap]

/-- Lists that are shorter piece by piece are as long in all only if no piece is shorter. -/
theorem length_flatMap_eq {ι α β : Type} {a : ι → List α} {b : ι → List β} {is : List ι}
    (hle : ∀ i ∈ is, (a i).length ≤ (b i).length)
    (h : (is.flatMap a).length = (is.flatMap b).length) :
    ∀ i ∈ is, (a i).length = (b i).length := by
  have hsum : ∀ js : List ι, (∀ i ∈ js, (a i).length ≤ (b i).length) →
      (js.flatMap a).length ≤ (js.flatMap b).length := by
    intro js hjs
    induction js with
    | nil => simp
    | cons j js ih =>
        have hj := hjs j List.mem_cons_self
        have hrest := ih fun i hi => hjs i (List.mem_cons_of_mem j hi)
        rw [List.flatMap_cons, List.flatMap_cons, List.length_append, List.length_append]
        omega
  induction is with
  | nil => simp
  | cons i is ih =>
      have hi := hle i List.mem_cons_self
      have hrest := hsum is fun j hj => hle j (List.mem_cons_of_mem i hj)
      rw [List.flatMap_cons, List.flatMap_cons, List.length_append, List.length_append] at h
      intro j hj
      rcases List.mem_cons.mp hj with rfl | hj
      · omega
      · exact ih (fun k hk => hle k (List.mem_cons_of_mem i hk)) (by omega) j hj

/-- No member of a tigroup among the files has several variables. -/
def SingleMembers (lib : Tifiles φ) (files : List SourceFile) : Prop :=
  ∀ f ∈ files, f.fileClass = .tigroup → ∀ te ∈ membersOf lib f, te.vars.length ≤ 1

/-- Without such members all variables join. -/
theorem flatMap_joiningOf {lib : Tifiles φ} {files : List SourceFile}
    (h : SingleMembers lib files) : files.flatMap (joiningOf lib) = files.flatMap (varsOf lib) := by
  apply List.flatMap_congr
  intro f hf
  unfold joiningOf
  by_cases htig : f.fileClass = .tigroup
  · unfold varsOf
    rw [if_pos htig, if_pos htig]
    apply List.flatMap_congr
    intro te hte
    exact List.take_of_length_le (h f hf htig te hte)
  · rw [if_neg htig]

/-- All variables of the files join the group exactly when no member has several. -/
theorem length_joining_iff (lib : Tifiles φ) (files : List SourceFile) :
    (files.flatMap (joiningOf lib)).length = (files.flatMap (varsOf lib)).length
      ↔ SingleMembers lib files := by
  have htake : ∀ te : TigEntry φ, (te.vars.take 1).length ≤ te.vars.length := by
    intro te
    rw [List.length_take]
    omega
  have hle : ∀ f : SourceFile, (joiningOf lib f).length ≤ (varsOf lib f).length := by
    intro f
    unfold joiningOf
    by_cases htig : f.fileClass = .tigroup
    · unfold varsOf
      rw [if_pos htig, if_pos htig, List.length_flatMap, List.length_flatMap]
      exact List.sum_le_sum fun te _ => htake te
    · rw [if_neg htig]
  constructor
  · intro h f hf htig te hte
    have hfile := length_flatMap_eq (fun f _ => hle f) h f hf
    unfold joiningOf varsOf at hfile
    rw [if_pos htig, if_pos htig] at hfile
    have hmember := length_flatMap_eq (fun te _ => htake te) hfile te hte
    rw [List.length_take] at hmember
    omega
  · intro h
    rw [flatMap_joiningOf h]

/-- The group has got every variable of every file once and in order. -/
def HasAll (lib : Tifiles φ) (files : List SourceFile) (group group' : GroupBuilder) : Prop :=
  ∃ added, group'.entries = group.entries ++ added
    ∧ List.Forall₂ SameVar (files.flatMap (varsOf lib)) added

theorem forall₂_sameVar {es : List VarEntry} (h : ∀ e ∈ es, (e.data.getD []).length = e.size.toNat) :
    List.Forall₂ SameVar es (es.map tifilesVeDup) := by
  induction es with
  | nil => exact .nil
  | cons e es ih =>
      exact .cons (sameVar_tifilesVeDup (h e List.mem_cons_self))
        (ih fun x hx => h x (List.mem_cons_of_mem e hx))

/-- A classic group that is built has everything exactly when no member of a tigroup has
several variables. -/
theorem hasAll_iff {lib : Tifiles φ} {files : List SourceFile} {group group' : GroupBuilder}
    (h : groupAddVars lib files group = .ok group') :
    HasAll lib files group group' ↔ SingleMembers lib files := by
  have hentries := groupAddVars_eq_ok h
  rw [← length_joining_iff]
  constructor
  · rintro ⟨added, hadded, hsame⟩
    have hjoined := List.append_cancel_left (hentries.symm.trans hadded)
    have hlen := hsame.length_eq
    rw [← hjoined, List.length_map] at hlen
    exact hlen.symm
  · intro hlen
    have hsingle := (length_joining_iff lib files).mp hlen
    have hjoining : files.flatMap (joiningOf lib) = files.flatMap (varsOf lib) :=
      flatMap_joiningOf hsingle
    refine ⟨(files.flatMap (varsOf lib)).map tifilesVeDup, ?_, ?_⟩
    · rw [hentries, hjoining]
    · apply forall₂_sameVar
      intro e he
      obtain ⟨f, -, hf⟩ := List.mem_flatMap.mp he
      exact sized_of_mem_varsOf hf

/-! ## what joins a tigroup -/

/-- Files of the four classes, with names that are new and distinct; the regular ones can
be read, and have a variable. -/
structure TigroupInputs (lib : Tifiles φ) (content : TigContent φ) (files : List SourceFile) :
    Prop where
  classes : ∀ f ∈ files, f.fileClass ∈ [FileClass.single, .group, .os, .app]
  distinct : (files.map SourceFile.base).Nodup
  fresh : ∀ f ∈ files, groupMemberPresent content f.base = false
  readable : ∀ f ∈ files, f.fileClass.hasRegularBit = true →
    ∃ regular, lib.readRegular f (lib.fileGetModel f) = .ok regular ∧ regular.entries ≠ []

/-- The files are all accepted, and each has become one member. -/
def AddsOneEach (lib : Tifiles φ) (label : List UInt8) (files : List SourceFile)
    (content : TigContent φ) : Prop :=
  ∃ content', groupAddFiles lib label files content = .ok content' ∧
    ∃ vars apps, content'.varEntries = content.varEntries ++ vars
      ∧ content'.appEntries = content.appEntries ++ apps
      ∧ ((vars ++ apps).map TigEntry.filename).Perm (files.map SourceFile.base)

/-- A regular file becomes a member with variables. -/
theorem groupAddFile_regular {lib : Tifiles φ} (label : List UInt8) {content : TigContent φ}
    {f : SourceFile} {regular : RegularContent} (hclass : f.fileClass.hasRegularBit = true)
    (hfresh : groupMemberPresent content f.base = false)
    (hread : lib.readRegular f (lib.fileGetModel f) = .ok regular) (hvars : regular.entries ≠ []) :
    groupAddFile lib label content f = .ok { content with
      varEntries := content.varEntries ++ [⟨f.base, f.fileClass, .regular regular⟩] } := by
  have htig : f.fileClass ≠ .tigroup := by
    intro h
    rw [h] at hclass
    exact absurd hclass (by decide)
  have hflash : f.fileClass ≠ .flash := by
    intro h
    rw [h] at hclass
    exact absurd hclass (by decide)
  have hmember : readMember lib f f.fileClass = .ok (.regular regular) := by
    unfold readMember
    rw [if_neg hflash, hread]
    show (if regular.entries = [] then _ else _) = _
    rw [if_neg hvars]
  unfold groupAddFile
  dsimp only
  rw [if_neg htig, if_pos (by simp [tigroupable, hclass]), if_neg (by simp [hfresh]), hmember]
  exact congrArg Except.ok (tifilesContentAddTe_regular hclass)

/-- Flash systems and applications are not accepted. -/
theorem groupAddFile_ne_ok {lib : Tifiles φ} {label : List UInt8} {content content' : TigContent φ}
    {f : SourceFile} (hclass : f.fileClass = .os ∨ f.fileClass = .app) :
    groupAddFile lib label content f ≠ .ok content' := by
  unfold groupAddFile
  rcases hclass with hclass | hclass
  all_goals
    rw [hclass]
    exact nofun

/-- Regular files become members one after the other. -/
theorem groupAddFiles_regular {lib : Tifiles φ} (label : List UInt8) {content : TigContent φ}
    {files : List SourceFile} (hinputs : TigroupInputs lib content files)
    (hregular : ∀ f ∈ files, f.fileClass.hasRegularBit = true) :
    ∃ content' vars, groupAddFiles lib label files content = .ok content'
      ∧ content'.varEntries = content.varEntries ++ vars
      ∧ content'.appEntries = content.appEntries
      ∧ vars.map TigEntry.filename = files.map SourceFile.base := by
  induction files generalizing content with
  | nil => exact ⟨content, [], rfl, (List.append_nil _).symm, rfl, rfl⟩
  | cons f files ih =>
      have hmem : f ∈ f :: files := List.mem_cons_self
      obtain ⟨regular, hread, hvars⟩ := hinputs.readable f hmem (hregular f hmem)
      have hstep := groupAddFile_regular label (hregular f hmem) (hinputs.fresh f hmem) hread
        hvars
      obtain ⟨hnew, hdistinct⟩ := List.nodup_cons.mp hinputs.distinct
      have hrest : TigroupInputs lib { content with
          varEntries := content.varEntries ++ [⟨f.base, f.fileClass, .regular regular⟩] } files := by
        constructor
        · exact fun g hg => hinputs.classes g (List.mem_cons_of_mem f hg)
        · exact hdistinct
        · intro g hg
          have hold := hinputs.fresh g (List.mem_cons_of_mem f hg)
          have hne : f.base ≠ g.base := by
            intro heq
            rw [heq] at hnew
            exact hnew (List.mem_map_of_mem hg)
          unfold groupMemberPresent TigContent.members at hold ⊢
          rw [List.any_append, Bool.or_eq_false_iff] at hold
          simp [List.any_append, hold.1, hold.2, hne]
        · exact fun g hg => hinputs.readable g (List.mem_cons_of_mem f hg)
      obtain ⟨content', vars, hadd, hvarEntries, happEntries, hnames⟩ :=
        ih hrest fun g hg => hregular g (List.mem_cons_of_mem f hg)
      refine ⟨content', ⟨f.base, f.fileClass, .regular regular⟩ :: vars, ?_, ?_, happEntries, ?_⟩
      · unfold groupAddFiles
        exact bind_eq_ok_iff.mpr ⟨_, hstep, hadd⟩
      · rw [hvarEntries, List.append_assoc, List.singleton_append]
      · rw [List.map_cons, List.map_cons, hnames]

/-- Files of the four classes each become one member exactly when none of them is a flash
system or a flash application. -/
theorem addsOneEach_iff {lib : Tifiles φ} {label : List UInt8} {content : TigContent φ}
    {files : List SourceFile} (hinputs : TigroupInputs lib content files) :
    AddsOneEach lib label files content ↔
      ∀ f ∈ files, f.fileClass ≠ .os ∧ f.fileClass ≠ .app := by
  constructor
  · rintro ⟨content', hadd, -⟩ f hf
    obtain ⟨before, after, hstep⟩ := exists_of_mem_of_foldlM hadd hf
    constructor
    · intro hclass
      exact groupAddFile_ne_ok (.inl hclass) hstep
    · intro hclass
      exact groupAddFile_ne_ok (.inr hclass) hstep
  · intro hclasses
    have hregular : ∀ f ∈ files, f.fileClass.hasRegularBit = true := by
      intro f hf
      obtain ⟨hos, happ⟩ := hclasses f hf
      have hfour := hinputs.classes f hf
      simp only [List.mem_cons, List.not_mem_nil, or_false] at hfour
      rcases hfour with hclass | hclass | hclass | hclass
      · rw [hclass]
        rfl
      · rw [hclass]
        rfl
      · exact absurd hclass hos
      · exact absurd hclass happ
    obtain ⟨content', vars, hadd, hvars, happs, hnames⟩ :=
      groupAddFiles_regular label hinputs hregular
    refine ⟨content', hadd, vars, [], hvars, ?_, ?_⟩
    · rw [happs, List.append_nil]
    · rw [List.append_nil, hnames]

/-! ## building groups -/

/-- A classic group that is built has every variable exactly when no member of a tigroup has
several; and files of the four classes each become a member of a tigroup exactly when none is
a flash system or application. -/
theorem group_complete_iff (lib : Tifiles φ) :
    (∀ files group group', groupAddVars lib files group = .ok group' →
      (HasAll lib files group group' ↔ SingleMembers lib files)) ∧
    (∀ label files content, TigroupInputs lib content files →
      (AddsOneEach lib label files content ↔
        ∀ f ∈ files, f.fileClass ≠ .os ∧ f.fileClass ≠ .app)) := by
  constructor
  · intro files group group' h
    exact hasAll_iff h
  · intro label files content h
    exact addsOneEach_iff h

/-- A program without tokens. -/
def sampleVar (name : UInt8) (h : name ≠ 0) : VarEntry where
  folder := .empty
  name := ⟨[name], by simpa using h, by simp [varnameMax]⟩
  type := 0x05
  attr := 0
  version := 0
  size := 2
  data := some [0x00, 0x00]

/-- Two programs. -/
def sampleVars : RegularContent where
  model := .ti83p
  entries := [sampleVar 0x41 (by decide), sampleVar 0x42 (by decide)]
  sized := by decide

/-- A library that finds two programs in each regular file, and a group file with the two in
each tigroup. -/
def sampleTifiles : Tifiles Unit where
  fextToModel := fun _ => .ti83p
  readRegular := fun _ _ => .ok sampleVars
  readFlash := fun _ _ => .ok ()
  readTigroup := fun _ => .ok ⟨.ti83p, [⟨ascii "ab.8xg", .group, .regular sampleVars⟩], []⟩
  dupFlash := id

/-- A program in a group file. -/
def sampleEntry (name : UInt8) : List UInt8 :=
  [0x0D, 0x00, 0x02, 0x00, 0x05, name, 0, 0, 0, 0, 0, 0, 0, 0x00, 0x00, 0x02, 0x00, 0x00, 0x00]

def sampleGroupFile : SourceFile where
  path := ascii "ab.8xg"
  bytes := ascii "**TI83F*" ++ [0x1A, 0x0A, 0x00] ++ List.replicate 42 0 ++ [0x26, 0x00]
    ++ sampleEntry 0x41 ++ sampleEntry 0x42 ++ [0xAF, 0x00]
  named := by decide

/-- A tigroup with the group file, which is stored. -/
def sampleTigroup : SourceFile where
  path := ascii "ab.tig"
  bytes := [0x50, 0x4B, 0x03, 0x04, 0x14, 0x00, 0x00, 0x00, 0x00, 0x00, 0x00, 0x00, 0x21, 0x00, 0x74,
      0x1E, 0x63, 0xBF, 0x5F, 0x00, 0x00, 0x00, 0x5F, 0x00, 0x00, 0x00, 0x06, 0x00, 0x00, 0x00,
      0x61, 0x62, 0x2E, 0x38, 0x78, 0x67]
    ++ sampleGroupFile.bytes
    ++ [0x50, 0x4B, 0x01, 0x02, 0x14, 0x03, 0x14, 0x00, 0x00, 0x00, 0x00, 0x00, 0x00, 0x00, 0x21,
      0x00, 0x74, 0x1E, 0x63, 0xBF, 0x5F, 0x00, 0x00, 0x00, 0x5F, 0x00, 0x00, 0x00, 0x06, 0x00,
      0x00, 0x00, 0x00, 0x00, 0x00, 0x00, 0x00, 0x00, 0x00, 0x00, 0x80, 0x01, 0x00, 0x00, 0x00,
      0x00, 0x61, 0x62, 0x2E, 0x38, 0x78, 0x67, 0x50, 0x4B, 0x05, 0x06, 0x00, 0x00, 0x00, 0x00,
      0x01, 0x00, 0x01, 0x00, 0x34, 0x00, 0x00, 0x00, 0x83, 0x00, 0x00, 0x00, 0x00, 0x00]
  named := by decide

/-- A flash application: one header and no data. -/
def sampleApp : SourceFile where
  path := ascii "ab.8xk"
  bytes := ascii "**TIFL**" ++ List.replicate 41 0 ++ [0x24] ++ List.replicate 28 0
  named := by decide

theorem fileClass_samples : sampleGroupFile.fileClass = .group ∧ sampleTigroup.fileClass = .tigroup
    ∧ sampleApp.fileClass = .app := by
  decide +kernel

/-- A group file gives all of its variables to a classic group, and becomes a member of a
tigroup. -/
theorem group_complete_sample :
    (∃ group', groupAddVars sampleTifiles [sampleGroupFile] ⟨[], .none⟩ = .ok group' ∧
      HasAll sampleTifiles [sampleGroupFile] ⟨[], .none⟩ group') ∧
    AddsOneEach sampleTifiles [] [sampleGroupFile] (tifilesContentCreateTigroup .none) := by
  obtain ⟨hgroup, -, -⟩ := fileClass_samples
  constructor
  · have hok : groupAddVars sampleTifiles [sampleGroupFile] ⟨[], .none⟩ =
        .ok ⟨sampleVars.entries.map tifilesVeDup, .ti83p⟩ := by
      decide
    refine ⟨_, hok, ((group_complete_iff sampleTifiles).1 _ _ _ hok).mpr ?_⟩
    intro f hf htig
    rw [List.mem_singleton.mp hf, hgroup] at htig
    cases htig
  · refine ((group_complete_iff sampleTifiles).2 [] _ _ ?_).mpr ?_
    · constructor
      · simp [hgroup]
      · simp
      · intro f _
        rfl
      · intro f _ _
        exact ⟨sampleVars, rfl, by simp [sampleVars]⟩
    · simp [hgroup]

/-- A tigroup with a group file loses all but its first variable, and a flash application is
not accepted. -/
theorem not_group_complete :
    (∃ group', groupAddVars sampleTifiles [sampleTigroup] ⟨[], .none⟩ = .ok group' ∧
      ¬ HasAll sampleTifiles [sampleTigroup] ⟨[], .none⟩ group') ∧
    (TigroupInputs sampleTifiles (tifilesContentCreateTigroup .none) [sampleApp] ∧
      ¬ AddsOneEach sampleTifiles [] [sampleApp] (tifilesContentCreateTigroup .none)) := by
  obtain ⟨-, htigroup, happ⟩ := fileClass_samples
  constructor
  · have hok : groupAddVars sampleTifiles [sampleTigroup] ⟨[], .none⟩ =
        .ok ⟨(sampleVars.entries.take 1).map tifilesVeDup, .ti83p⟩ := by
      decide +kernel
    refine ⟨_, hok, ?_⟩
    rw [hasAll_iff hok]
    intro h
    have hmember := h sampleTigroup (List.mem_singleton.mpr rfl) htigroup
      ⟨ascii "ab.8xg", .group, .regular sampleVars⟩ (List.mem_singleton.mpr rfl)
    exact absurd hmember (by decide)
  · have hinputs : TigroupInputs sampleTifiles (tifilesContentCreateTigroup .none) [sampleApp] := by
      constructor
      · simp [happ]
      · simp
      · intro f _
        rfl
      · intro f _ _
        exact ⟨sampleVars, rfl, by simp [sampleVars]⟩
    refine ⟨hinputs, ?_⟩
    rw [addsOneEach_iff hinputs]
    intro h
    exact (h sampleApp (List.mem_singleton.mpr rfl)).2 happ

end Tilibs.Tifileutil
