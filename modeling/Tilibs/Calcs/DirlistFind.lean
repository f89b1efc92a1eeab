import Mathlib
import Tilibs.Calcs.Dirlist

/-!
# Tilibs.Calcs.DirlistFind

Finding what was added to a directory tree.

An addition compares names, and takes the empty folder for "main".  The search compares
types too, on some models, and takes the folder as it is.  And an addition that finds the
variable counts it once more.  So both go together on the models without folders only, and
there unless the tree has a variable of that name and another type.
-/

namespace Tilibs.Calcs

open Lib Files

/-- The models on which `ticalcs_dirlist_ve_exist` compares the types: a range of the
enumeration, and six more. -/
def comparesTypes (model : CalcModel) : Bool :=
  (CalcModel.ti73.ctorIdx ≤ model.ctorIdx && model.ctorIdx ≤ CalcModel.ti84p.ctorIdx)
    || model == .ti84pUsb || model == .ti83pceUsb || model == .ti84pceUsb || model == .ti82aUsb
    || model == .ti84ptUsb || model == .ti82aepUsb

/-- What `ticalcs_dirlist_ve_exist` points to: a variable, and the folder it is under. -/
structure FoundVar where
  parent : FolderNode
  ve : VarEntry

/-- The folder has a name, and not the one that is searched. -/
def FolderNode.skipped (node : FolderNode) (s : VarEntry) : Bool :=
  node.fe.any fun fe => fe.name ≠ s.folder

/-- The comparison of `ticalcs_dirlist_ve_exist`. -/
def sameVar (model : CalcModel) (s ve : VarEntry) : Bool :=
  ve.name = s.name && (!comparesTypes model || ve.type = s.type)

/-- `ticalcs_dirlist_ve_exist` -/
def ticalcsDirlistVeExist (tree : DirTree) (s : VarEntry) : Option FoundVar :=
  if tree.info.type ≠ .variables ∧ tree.info.type ≠ .applications then none
  else
    tree.folders.findSome? fun node =>
      if node.skipped s then none
      else (node.vars.find? (sameVar tree.info.model s)).map (⟨node, ·⟩)

/-- The folder that an entry belongs to: "main" for the empty name, and the pseudo-folder
on the models without folders. -/
def FolderNode.IsFolderOf (node : FolderNode) (model : CalcModel) (entry : VarEntry) : Prop :=
  node.fe.map (·.name)
    = if tifilesHasFolder model then some (lookupFolder model entry) else none

/-- The search finds the entry's name in the entry's folder, with its type where types count. -/
def FindsEntry (tree : DirTree) (entry : VarEntry) : Prop :=
  ∃ found, ticalcsDirlistVeExist tree entry = some found ∧ found.ve.name = entry.name
    ∧ found.parent.IsFolderOf tree.info.model entry
    ∧ (comparesTypes tree.info.model → found.ve.type = entry.type)

/-- An entry that is added is found, and a second addition changes nothing. -/
structure AddsOnce (tree : DirTree) (entry : VarEntry) : Prop where
  found : FindsEntry (ticalcsDirlistVeAdd tree entry) entry
  again : ticalcsDirlistVeAdd (ticalcsDirlistVeAdd tree entry) entry
    = ticalcsDirlistVeAdd tree entry

/-- Where types count, no variable of the tree has the entry's name and another type. -/
def TypesAgree (tree : DirTree) (entry : VarEntry) : Prop :=
  comparesTypes tree.info.model → ∀ node ∈ tree.folders, ∀ ve ∈ node.vars,
    ve.name = entry.name → ve.type = entry.type

/-! ## both kinds of trees -/

/-- The same folders in a tree of variables. -/
def DirTree.asVariables (tree : DirTree) : DirTree :=
  { tree with info := { tree.info with type := .variables } }

/-- What holds of every tree that additions and deletions lead to. -/
structure DirTree.Grown (tree : DirTree) : Prop where
  type : tree.info.type = .variables ∨ tree.info.type = .applications
  shaped : tree.asVariables.Shaped
  distinct : tree.asVariables.VarsDistinct

theorem DirTree.Grown.handled {tree : DirTree} (hg : tree.Grown) :
    ¬(tree.info.type ≠ .variables ∧ tree.info.type ≠ .applications) := by
  cases hg.type with
  | inl hvar => simp [hvar]
  | inr happ => simp [happ]

@[simp] theorem info_ticalcsDirlistVeAdd (tree : DirTree) (entry : VarEntry) :
    (ticalcsDirlistVeAdd tree entry).info = tree.info :=
  info_dirlistStep tree (.add entry)

/-- Additions do not tell the two kinds of trees apart. -/
theorem asVariables_add {tree : DirTree} (hg : tree.Grown) (entry : VarEntry) :
    (ticalcsDirlistVeAdd tree entry).asVariables = ticalcsDirlistVeAdd tree.asVariables entry := by
  have hvars : ¬(tree.asVariables.info.type ≠ .variables
      ∧ tree.asVariables.info.type ≠ .applications) := fun h => h.1 rfl
  unfold ticalcsDirlistVeAdd
  rw [if_neg hg.handled, if_neg hvars]
  by_cases hname : entry.name = .empty
  · simp only [if_pos hname]
    rfl
  · simp only [if_neg hname]
    unfold DirTree.asVariables
    dsimp only
    split
    · rename_i hparent
      rw [hparent]
    · rename_i hparent
      rw [hparent]

theorem grown_dirlistStep (tree : DirTree) (op : DirlistOp) (hg : tree.Grown) :
    (dirlistStep tree op).Grown := by
  have hshaped := fun op => shaped_dirlistStep tree.asVariables op hg.shaped
  have hdistinct := fun op => varsDistinct_dirlistStep tree.asVariables op hg.shaped hg.distinct
  have htype : (dirlistStep tree op).info.type = .variables
      ∨ (dirlistStep tree op).info.type = .applications := by
    rw [info_dirlistStep]
    exact hg.type
  cases op with
  | add entry =>
      have hsame := asVariables_add hg entry
      exact ⟨htype, hsame ▸ hshaped (.add entry), hsame ▸ hdistinct (.add entry)⟩
  | del entry =>
      cases hg.type with
      | inl hvar =>
          have hself : tree.asVariables = tree := by
            unfold DirTree.asVariables
            rw [← hvar]
          have hself' : (dirlistStep tree (.del entry)).asVariables
              = dirlistStep tree (.del entry) := by
            unfold DirTree.asVariables
            rw [info_dirlistStep, ← hvar, ← info_dirlistStep tree (.del entry)]
          have hs := hshaped (.del entry)
          have hd := hdistinct (.del entry)
          rw [hself, ← hself'] at hs hd
          exact ⟨htype, hs, hd⟩
      | inr happ =>
          have hnone : dirlistStep tree (.del entry) = tree := by
            unfold dirlistStep ticalcsDirlistVeDel
            simp [happ]
          rw [hnone]
          exact hg

theorem grown_dirlistInitTree (model : CalcModel) (type : NodeName) :
    (dirlistInitTree model type).Grown := by
  constructor
  · cases type <;> simp [dirlistInitTree]
  · exact shaped_dirlistInitTree model
  · intro node hnode
    cases hnode

/-- The tree after any additions and deletions. -/
theorem grown_foldl (model : CalcModel) (type : NodeName) (ops : List DirlistOp) :
    (ops.foldl dirlistStep (dirlistInitTree model type)).Grown := by
  induction ops using List.reverseRecOn with
  | nil => exact grown_dirlistInitTree model type
  | append_singleton ops op ih =>
      rw [List.foldl_append]
      exact grown_dirlistStep _ op ih

/-! ## what an addition leaves -/

/-- On a model without folders: the one node, with the variable in it. -/
theorem DirTree.Grown.add_pseudo {tree : DirTree} (hg : tree.Grown) {entry : VarEntry}
    (hne : entry.name ≠ .empty) (hf : tifilesHasFolder tree.info.model = false) :
    ∃ node : FolderNode, node.fe = none
      ∧ (tree.folders = [] ∧ node.vars = [] ∨ tree.folders = [node])
      ∧ (ticalcsDirlistVeAdd tree entry).folders = [node.addVar entry] := by
  obtain ⟨node, hnone, hold, hres⟩ := Calcs.add_pseudo hg.shaped entry hf
  rw [← asVariables_add hg, if_neg hne] at hres
  exact ⟨node, hnone, hold, hres⟩

/-- On a model with folders: a variable more, or a count more, or a folder more. -/
theorem DirTree.Grown.add_folder {tree : DirTree} (hg : tree.Grown) {entry : VarEntry}
    (hne : entry.name ≠ .empty) (hf : tifilesHasFolder tree.info.model = true) :
    (∃ pre node post, tree.folders = pre ++ node :: post
      ∧ node.fe.map (·.name) = some (lookupFolder tree.info.model entry)
      ∧ (ticalcsDirlistVeAdd tree entry).folders = pre ++ node.addVar entry :: post)
    ∨ (ticalcsDirlistVeAdd tree entry).folders
      = tree.folders ++ [⟨some (newFolder entry), [tifilesVeDup entry]⟩] := by
  cases add_cases hg.shaped entry hf with
  | inl hfound =>
      obtain ⟨pre, node, post, hsplit, hname, hres⟩ := hfound
      rw [← asVariables_add hg, if_neg hne] at hres
      exact Or.inl ⟨pre, node, post, hsplit, hname, hres⟩
  | inr hnew =>
      have hres := hnew.2
      rw [← asVariables_add hg, if_neg hne] at hres
      exact Or.inr hres

theorem DirTree.eq_of_fields {tree tree' : DirTree} (hinfo : tree.info = tree'.info)
    (hfolders : tree.folders = tree'.folders) : tree = tree' := by
  cases tree
  cases tree'
  cases hinfo
  cases hfolders
  rfl

theorem mem_addVar (node : FolderNode) (entry : VarEntry) :
    ∃ ve ∈ (node.addVar entry).vars, ve.name = entry.name
      ∧ (ve ∈ node.vars ∨ ve.type = entry.type) := by
  unfold FolderNode.addVar
  cases hv : node.hasVar entry.name with
  | true =>
      obtain ⟨ve, hmem, hname⟩ := List.any_eq_true.mp hv
      exact ⟨ve, hmem, of_decide_eq_true hname, Or.inl hmem⟩
  | false => exact ⟨tifilesVeDup entry, by simp, rfl, Or.inr rfl⟩

theorem mem_vars_addVar {node : FolderNode} (entry : VarEntry) {ve : VarEntry}
    (h : ve ∈ node.vars) : ve ∈ (node.addVar entry).vars := by
  unfold FolderNode.addVar
  split
  · exact h
  · exact List.mem_append_left _ h

theorem hasVar_addVar (node : FolderNode) (entry : VarEntry) :
    (node.addVar entry).hasVar entry.name = true := by
  obtain ⟨ve, hmem, hname, -⟩ := mem_addVar node entry
  exact List.any_eq_true.mpr ⟨ve, hmem, decide_eq_true hname⟩

/-- A folder with an entry never stays the same. -/
theorem addVar_ne {node : FolderNode} (entry : VarEntry) (hfe : node.fe.isSome) :
    node.addVar entry ≠ node := by
  obtain ⟨fe, hfe⟩ := Option.isSome_iff_exists.mp hfe
  unfold FolderNode.addVar
  split
  · intro heq
    have hsize := congrArg (fun node : FolderNode => node.fe.map (·.size)) heq
    simp [hfe] at hsize
  · intro heq
    have hlen := congrArg (fun node : FolderNode => node.vars.length) heq
    simp at hlen

/-- The pseudo-folder stays the same when it has the variable. -/
theorem addVar_eq {node : FolderNode} {entry : VarEntry} (hfe : node.fe = none)
    (hvar : node.hasVar entry.name = true) : node.addVar entry = node := by
  unfold FolderNode.addVar
  rw [if_pos hvar, hfe, Option.map_none, ← hfe]

/-! ## what the search finds -/

theorem ticalcsDirlistVeExist_eq_some {tree : DirTree} (hg : tree.Grown) {s : VarEntry}
    {found : FoundVar} (h : ticalcsDirlistVeExist tree s = some found) :
    found.parent ∈ tree.folders ∧ found.parent.skipped s = false
      ∧ found.ve ∈ found.parent.vars ∧ sameVar tree.info.model s found.ve = true := by
  unfold ticalcsDirlistVeExist at h
  rw [if_neg hg.handled] at h
  obtain ⟨node, hnode, hfound⟩ := List.exists_of_findSome?_eq_some h
  split at hfound
  · cases hfound
  · rename_i hskip
    obtain ⟨ve, hve, heq⟩ := Option.map_eq_some_iff.mp hfound
    cases heq
    exact ⟨hnode, Bool.eq_false_iff.mpr hskip, List.mem_of_find?_eq_some hve,
      List.find?_some hve⟩

theorem isSome_ticalcsDirlistVeExist {tree : DirTree} (hg : tree.Grown) {s : VarEntry}
    {node : FolderNode} {ve : VarEntry} (hnode : node ∈ tree.folders)
    (hskip : node.skipped s = false) (hve : ve ∈ node.vars)
    (hsame : sameVar tree.info.model s ve = true) : (ticalcsDirlistVeExist tree s).isSome := by
  unfold ticalcsDirlistVeExist
  rw [if_neg hg.handled, List.isSome_findSome?, List.any_eq_true]
  refine ⟨node, hnode, ?_⟩
  rw [hskip, if_neg Bool.false_ne_true, Option.isSome_map, List.find?_isSome]
  exact ⟨ve, hve, hsame⟩

theorem sameVar_iff {model : CalcModel} {s ve : VarEntry} : sameVar model s ve = true
    ↔ ve.name = s.name ∧ (comparesTypes model → ve.type = s.type) := by
  unfold sameVar
  cases comparesTypes model with
  | true => simp
  | false => simp

/-- A variable in a folder that is not skipped makes the search find one. -/
theorem exists_found {tree : DirTree} (hg : tree.Grown) {s : VarEntry} {node : FolderNode}
    {ve : VarEntry} (hnode : node ∈ tree.folders) (hskip : node.skipped s = false)
    (hve : ve ∈ node.vars) (hname : ve.name = s.name)
    (htype : comparesTypes tree.info.model → ve.type = s.type) :
    ∃ found, ticalcsDirlistVeExist tree s = some found ∧ found.parent ∈ tree.folders
      ∧ found.parent.skipped s = false ∧ found.ve.name = s.name
      ∧ (comparesTypes tree.info.model → found.ve.type = s.type) := by
  have hsome := isSome_ticalcsDirlistVeExist hg hnode hskip hve (sameVar_iff.mpr ⟨hname, htype⟩)
  obtain ⟨found, hexist⟩ := Option.isSome_iff_exists.mp hsome
  obtain ⟨hparent, hskipped, -, hsame⟩ := ticalcsDirlistVeExist_eq_some hg hexist
  exact ⟨found, hexist, hparent, hskipped, sameVar_iff.mp hsame⟩

/-! ## additions that are found -/

theorem comparesTypes_of_hasFolder {model : CalcModel} (h : tifilesHasFolder model = true) :
    comparesTypes model = false := by
  cases model <;> first | rfl | cases h

theorem lookupFolder_of_ne {model : CalcModel} {entry : VarEntry} (h : entry.folder ≠ .empty) :
    lookupFolder model entry = entry.folder := by
  unfold lookupFolder
  rw [if_neg (fun hempty => h hempty.1)]

section Model

variable {tree : DirTree} {entry : VarEntry}

/-- On a model without folders the types decide. -/
theorem finds_pseudo_iff (hg : tree.Grown) (hne : entry.name ≠ .empty)
    (hf : tifilesHasFolder tree.info.model = false) :
    FindsEntry (ticalcsDirlistVeAdd tree entry) entry ↔ TypesAgree tree entry := by
  obtain ⟨node, hnone, hold, hres⟩ := hg.add_pseudo hne hf
  have hnodup : (node.vars.map (·.name)).Nodup := by
    cases hold with
    | inl hnil => simp [hnil.2]
    | inr hone => exact hg.distinct node (hone ▸ List.mem_singleton_self node)
  have hvars : ∀ ve, (∃ node ∈ tree.folders, ve ∈ node.vars) ↔ ve ∈ node.vars := by
    intro ve
    cases hold with
    | inl hnil => simp [hnil.1, hnil.2]
    | inr hone => simp [hone]
  have hgrown : (ticalcsDirlistVeAdd tree entry).Grown := grown_dirlistStep tree (.add entry) hg
  have hnone' : (node.addVar entry).fe = none := by
    have hsome := isSome_eq_of_name (fe_addVar_name node entry)
    rw [hnone] at hsome
    exact Option.not_isSome_iff_eq_none.mp (Bool.eq_false_iff.mp hsome)
  have hskip : (node.addVar entry).skipped entry = false := by
    rw [FolderNode.skipped, hnone', Option.any_none]
  obtain ⟨mine, hmine, hname, htype⟩ := mem_addVar node entry
  constructor
  · intro hfinds hcompares this hthis ve hve hsame
    obtain ⟨found, hexist, hfname, -, hftype⟩ := hfinds
    obtain ⟨hparent, -, hfmem, -⟩ := ticalcsDirlistVeExist_eq_some hgrown hexist
    rw [hres, List.mem_singleton] at hparent
    rw [hparent] at hfmem
    -- the variable found has the name of `ve`, so it is `ve`
    have hmem : ve ∈ (node.addVar entry).vars :=
      mem_vars_addVar entry ((hvars ve).mp ⟨this, hthis, hve⟩)
    have heq : ve = found.ve :=
      List.inj_on_of_nodup_map (addVar_nodup entry hnodup) hmem hfmem (hsame.trans hfname.symm)
    rw [heq]
    exact hftype (by simpa using hcompares)
  · intro hagree
    have hmineType : comparesTypes tree.info.model → mine.type = entry.type := by
      intro hcompares
      cases htype with
      | inl hold =>
          obtain ⟨this, hthis, hve⟩ := (hvars mine).mpr hold
          exact hagree hcompares this hthis mine hve hname
      | inr hsame => exact hsame
    rw [← info_ticalcsDirlistVeAdd tree entry] at hmineType
    obtain ⟨found, hexist, hparent, -, hfname, hftype⟩ :=
      exists_found hgrown (by rw [hres]; simp) hskip hmine hname hmineType
    rw [hres, List.mem_singleton] at hparent
    refine ⟨found, hexist, hfname, ?_, hftype⟩
    unfold FolderNode.IsFolderOf
    rw [info_ticalcsDirlistVeAdd, hf, hparent, hnone', Option.map_none, if_neg Bool.false_ne_true]

/-- On a model with folders the folder decides: "main" is not searched for the empty one. -/
theorem finds_folder_iff (hg : tree.Grown) (hne : entry.name ≠ .empty)
    (hf : tifilesHasFolder tree.info.model = true) :
    FindsEntry (ticalcsDirlistVeAdd tree entry) entry ↔ entry.folder ≠ .empty := by
  have hgrown : (ticalcsDirlistVeAdd tree entry).Grown := grown_dirlistStep tree (.add entry) hg
  have hcompares := comparesTypes_of_hasFolder hf
  -- a folder that is not skipped has the entry's folder name
  have hfolder : ∀ node ∈ (ticalcsDirlistVeAdd tree entry).folders,
      (node.skipped entry = false ↔ node.fe.map (·.name) = some entry.folder) := by
    intro node hnode
    have hsome := hgrown.shaped.entries node hnode
    have hmodel : (ticalcsDirlistVeAdd tree entry).asVariables.info.model = tree.info.model := by
      unfold DirTree.asVariables
      dsimp only
      rw [info_ticalcsDirlistVeAdd]
    rw [hmodel, hf] at hsome
    obtain ⟨fe, hfe⟩ := Option.isSome_iff_exists.mp hsome
    simp [FolderNode.skipped, hfe]
  constructor
  · intro hfinds hempty
    obtain ⟨found, hexist, -, hin, -⟩ := hfinds
    obtain ⟨hparent, hskip, -, -⟩ := ticalcsDirlistVeExist_eq_some hgrown hexist
    have hname := (hfolder _ hparent).mp hskip
    unfold FolderNode.IsFolderOf at hin
    rw [info_ticalcsDirlistVeAdd, hf, if_pos rfl, hname, hempty] at hin
    have hmain : lookupFolder tree.info.model entry = mainFolder := by
      unfold lookupFolder
      rw [if_pos ⟨hempty, hf⟩]
    rw [hmain] at hin
    exact absurd (Option.some.inj hin) (by decide)
  · intro hfne
    have hlookup : lookupFolder tree.info.model entry = entry.folder := lookupFolder_of_ne hfne
    -- the folder that the entry went to
    have hwent : ∃ node ∈ (ticalcsDirlistVeAdd tree entry).folders,
        node.fe.map (·.name) = some entry.folder ∧ ∃ ve ∈ node.vars, ve.name = entry.name := by
      cases hg.add_folder hne hf with
      | inl hfound =>
          obtain ⟨pre, node, post, -, hname, hres⟩ := hfound
          obtain ⟨ve, hve, hvename, -⟩ := mem_addVar node entry
          refine ⟨node.addVar entry, by rw [hres]; simp, ?_, ve, hve, hvename⟩
          rw [fe_addVar_name, hname, hlookup]
      | inr hnew =>
          refine ⟨_, by rw [hnew]; exact List.mem_append_right _ (List.mem_singleton_self _), ?_,
            tifilesVeDup entry, List.mem_singleton_self _, rfl⟩
          simp [newFolder]
    obtain ⟨node, hnode, hname, ve, hve, hvename⟩ := hwent
    have htype : comparesTypes (ticalcsDirlistVeAdd tree entry).info.model → ve.type = entry.type := by
      rw [info_ticalcsDirlistVeAdd, hcompares]
      simp
    obtain ⟨found, hexist, hparent, hskip, hfname, hftype⟩ :=
      exists_found hgrown hnode ((hfolder node hnode).mpr hname) hve hvename htype
    refine ⟨found, hexist, hfname, ?_, hftype⟩
    unfold FolderNode.IsFolderOf
    rw [info_ticalcsDirlistVeAdd, hf, if_pos rfl, (hfolder _ hparent).mp hskip, hlookup]

/-- The second addition changes nothing on the models without folders, and only there. -/
theorem again_iff (hg : tree.Grown) (hne : entry.name ≠ .empty) :
    ticalcsDirlistVeAdd (ticalcsDirlistVeAdd tree entry) entry = ticalcsDirlistVeAdd tree entry
      ↔ tifilesHasFolder tree.info.model = false := by
  have hgrown : (ticalcsDirlistVeAdd tree entry).Grown := grown_dirlistStep tree (.add entry) hg
  have hinfo : (ticalcsDirlistVeAdd (ticalcsDirlistVeAdd tree entry) entry).info
      = (ticalcsDirlistVeAdd tree entry).info := info_ticalcsDirlistVeAdd _ entry
  cases hf : tifilesHasFolder tree.info.model with
  | false =>
      have hf' : tifilesHasFolder (ticalcsDirlistVeAdd tree entry).info.model = false := by
        rw [info_ticalcsDirlistVeAdd, hf]
      obtain ⟨node, -, -, hres⟩ := hg.add_pseudo hne hf
      obtain ⟨node', hnone, hold, hres'⟩ := hgrown.add_pseudo hne hf'
      have hnode : node' = node.addVar entry := by
        cases hold with
        | inl hnil => simp [hres] at hnil
        | inr hone => exact (List.singleton_inj.mp (hres.symm.trans hone)).symm
      have hhas : node'.hasVar entry.name = true := hnode ▸ hasVar_addVar node entry
      rw [addVar_eq hnone hhas, hnode, ← hres] at hres'
      refine iff_of_true ?_ rfl
      exact DirTree.eq_of_fields hinfo hres'
  | true =>
      have hf' : tifilesHasFolder (ticalcsDirlistVeAdd tree entry).info.model = true := by
        rw [info_ticalcsDirlistVeAdd, hf]
      refine iff_of_false (fun heq => ?_) (by decide)
      have hfolders := congrArg DirTree.folders heq
      cases hgrown.add_folder hne hf' with
      | inl hfound =>
          obtain ⟨pre, node, post, hsplit, hname, hres⟩ := hfound
          rw [hres, hsplit] at hfolders
          have hsame := (List.cons.inj (List.append_cancel_left hfolders)).1
          refine addVar_ne entry ?_ hsame
          have hsome := congrArg Option.isSome hname
          simpa using hsome
      | inr hnew =>
          rw [hnew] at hfolders
          have hlen := congrArg List.length hfolders
          simp at hlen

end Model

/-- Whatever was added and deleted before, an entry that is added is found and stays as it
is exactly on the models without folders, and there where the types agree. -/
theorem dirlist_addsOnce_iff (model : CalcModel) (type : NodeName) (ops : List DirlistOp)
    (entry : VarEntry) (hne : entry.name ≠ .empty) :
    AddsOnce (ops.foldl dirlistStep (dirlistInitTree model type)) entry
      ↔ tifilesHasFolder model = false
        ∧ TypesAgree (ops.foldl dirlistStep (dirlistInitTree model type)) entry := by
  have hg := grown_foldl model type ops
  have hmodel : (ops.foldl dirlistStep (dirlistInitTree model type)).info.model = model := by
    induction ops using List.reverseRecOn with
    | nil => rfl
    | append_singleton ops op ih =>
        rw [List.foldl_append, List.foldl_cons, List.foldl_nil, info_dirlistStep]
        exact ih (grown_foldl model type ops)
  constructor
  · intro hadds
    have hf := (again_iff hg hne).mp hadds.again
    exact ⟨hmodel ▸ hf, (finds_pseudo_iff hg hne hf).mp hadds.found⟩
  · rintro ⟨hf, hagree⟩
    have hf' := hf
    rw [← hmodel] at hf'
    exact ⟨(finds_pseudo_iff hg hne hf').mpr hagree, (again_iff hg hne).mpr hf'⟩

/-- A TI-83 Plus gets a variable twice, with the same type. -/
theorem dirlist_addsOnce_ti83p :
    mainFolder ≠ .empty ∧ AddsOnce (dirlistInitTree .ti83p .variables)
      { tifilesVeCreate with name := mainFolder } :=
  ⟨by decide, (dirlist_addsOnce_iff .ti83p .variables [] _ (by decide)).mpr
    ⟨rfl, fun _ node hnode => by cases hnode⟩⟩

/-- A TI-83 Plus has a variable of type 1; one of the same name and type 2 is not found when
it has been added. -/
theorem not_addsOnce_other_type :
    ¬∀ (model : CalcModel) (type : NodeName) (ops : List DirlistOp) (entry : VarEntry),
      entry.name ≠ .empty →
      AddsOnce (ops.foldl dirlistStep (dirlistInitTree model type)) entry := by
  intro h
  let first : VarEntry := { tifilesVeCreate with name := mainFolder, type := 1 }
  obtain ⟨found, hexist, -⟩ :=
    (h .ti83p .variables [.add first] { first with type := 2 } (by decide)).found
  have hnone : (ticalcsDirlistVeExist (ticalcsDirlistVeAdd ([.add first].foldl dirlistStep
      (dirlistInitTree .ti83p .variables)) { first with type := 2 })
      { first with type := 2 }).isNone = true := by
    decide
  rw [hexist] at hnone
  cases hnone

end Tilibs.Calcs
