import Mathlib
import Tilibs.CalcModel
import Tilibs.Lib.Run
import Tilibs.Files.VarEntry

/-!
# Tilibs.Calcs.Dirlist

The directory tree of `dirlist.cc`: a root with one node for each folder and,
under each folder, one node for each variable.  On the models without folders a
single pseudo-folder without entry holds every variable.

A run adds and deletes entries in any order.  The folder that a new variable goes
to is looked up under an alias, "main" for the empty name, but created under the
name the entry has; and the counter of a folder goes up when the variable was
there already.  The last section says in which runs the tree stays well formed
all the same.
-/

namespace Tilibs.Calcs

open Lib Files

/-! ## the tree -/

/-- `VAR_NODE_NAME` or `APP_NODE_NAME` -/
inductive NodeName
  | variables
  | applications
  deriving DecidableEq

/-- `TreeInfo` -/
structure TreeInfo where
  model : CalcModel
  type : NodeName

/-- A folder: its entry (NULL for the pseudo-folder) and the variables under it. -/
structure FolderNode where
  fe : Option VarEntry
  vars : List VarEntry

/-- A `GNode` tree with its `TreeInfo`. -/
structure DirTree where
  info : TreeInfo
  folders : List FolderNode

/-- `dirlist_init_tree` -/
def dirlistInitTree (model : CalcModel) (type : NodeName) : DirTree :=
  ⟨⟨model, type⟩, []⟩

/-- `TI89_DIR` -/
def ti89Dir : UInt8 := 0x1F

/-- The folder name "main". -/
def mainFolder : VarName where
  chars := [0x6D, 0x61, 0x69, 0x6E]
  noNul := by simp
  fits := by simp [varnameMax]

/-- The name under which both functions look an entry's folder up. -/
def lookupFolder (model : CalcModel) (entry : VarEntry) : VarName :=
  if entry.folder = .empty ∧ tifilesHasFolder model then mainFolder else entry.folder

/-- The locals `parent` (as an index), `fe` and `found`. -/
structure Scan where
  parent : Option Nat
  fe : Option VarEntry
  found : Bool

/-- The loop "Parse folders", from the node `i` on. -/
def parseFolders (folder : VarName) : List FolderNode → Nat → Scan → Scan
  | [], _, scan => scan
  | node :: nodes, i, _ =>
      match node.fe with
      | none => ⟨some i, none, false⟩
      | some fe =>
          if fe.name = folder then ⟨some i, some fe, true⟩
          else parseFolders folder nodes (i + 1) ⟨some i, some fe, false⟩

/-- The variable of a folder is there already. -/
def FolderNode.hasVar (node : FolderNode) (name : VarName) : Bool :=
  node.vars.any fun ve => ve.name = name

/-- The end of `ticalcs_dirlist_ve_add`: the counter moves when the variable was found. -/
def FolderNode.addVar (node : FolderNode) (entry : VarEntry) : FolderNode :=
  if node.hasVar entry.name then
    { node with fe := node.fe.map fun fe => { fe with size := fe.size + 1 } }
  else { node with vars := node.vars ++ [tifilesVeDup entry] }

/-- The end of `ticalcs_dirlist_ve_del`. -/
def FolderNode.delVar (node : FolderNode) (entry : VarEntry) : FolderNode :=
  if node.hasVar entry.name then
    { fe := node.fe.map fun fe => { fe with size := fe.size - 1 }
      vars := node.vars.eraseP fun ve => ve.name = entry.name }
  else node

/-- The entry of a folder that `ticalcs_dirlist_ve_add` creates: it has the folder
name of the variable, not the one the folder was looked up under. -/
def newFolder (entry : VarEntry) : VarEntry :=
  { tifilesVeCreate with
    name := entry.folder.strlcpy varnameMax (by decide)
    type := ti89Dir }

/-- `ticalcs_dirlist_ve_add` -/
def ticalcsDirlistVeAdd (tree : DirTree) (entry : VarEntry) : DirTree :=
  if tree.info.type ≠ .variables ∧ tree.info.type ≠ .applications then tree
  else
    let folder := lookupFolder tree.info.model entry
    let hasFolder := tifilesHasFolder tree.info.model
    -- an empty TI8x tree gets its pseudo-folder
    let nodes := if tree.folders.isEmpty && !hasFolder then [⟨none, []⟩] else tree.folders
    let scan := parseFolders folder nodes 0 ⟨none, none, false⟩
    let create := (!scan.found && scan.fe.isSome) || (nodes.isEmpty && hasFolder)
    let parent := if create then some nodes.length else scan.parent
    let nodes := if create then nodes ++ [⟨some (newFolder entry), []⟩] else nodes
    if entry.name = .empty then { tree with folders := nodes }
    else
      match parent with
      | none => { tree with folders := nodes }
      | some p => { tree with folders := nodes.modify p (·.addVar entry) }

/-- `ticalcs_dirlist_ve_del` -/
def ticalcsDirlistVeDel (tree : DirTree) (entry : VarEntry) : DirTree :=
  if tree.info.type ≠ .variables then tree
  else
    let folder := lookupFolder tree.info.model entry
    let scan := parseFolders folder tree.folders 0 ⟨none, none, false⟩
    if !scan.found && scan.fe.isSome then tree
    else
      match scan.parent with
      | none => tree
      | some p => { tree with folders := tree.folders.modify p (·.delVar entry) }

/-! ## runs -/

/-- A call on the tree. -/
inductive DirlistOp
  | add (entry : VarEntry)
  | del (entry : VarEntry)

/-- The tree after a call. -/
def dirlistStep (tree : DirTree) : DirlistOp → DirTree
  | .add entry => ticalcsDirlistVeAdd tree entry
  | .del entry => ticalcsDirlistVeDel tree entry

/-- The names of the folders, in order; the pseudo-folder has none. -/
def DirTree.names (tree : DirTree) : List (Option VarName) :=
  tree.folders.map fun node => node.fe.map (·.name)

/-- What a well-formed tree is: no two folders and no two variables of a folder
have one name, and on the models with folders the counters are right. -/
structure DirTree.WellFormed (tree : DirTree) : Prop where
  folders : tree.names.Nodup
  vars : ∀ node ∈ tree.folders, (node.vars.map (·.name)).Nodup
  sizes : tifilesHasFolder tree.info.model = true →
    ∀ node ∈ tree.folders, ∀ fe ∈ node.fe, fe.size.toNat = node.vars.length

/-- What holds of every variable tree from its creation on: the folders have entries
on the models with folders, and the others have at most the pseudo-folder. -/
structure DirTree.Shaped (tree : DirTree) : Prop where
  type : tree.info.type = .variables
  entries : ∀ node ∈ tree.folders, node.fe.isSome = tifilesHasFolder tree.info.model
  pseudo : tifilesHasFolder tree.info.model = false → tree.folders.length ≤ 1

theorem DirTree.Shaped.folders_cases {tree : DirTree} (hs : tree.Shaped)
    (hf : tifilesHasFolder tree.info.model = false) :
    tree.folders = [] ∨ ∃ vars, tree.folders = [⟨none, vars⟩] := by
  have hlen := hs.pseudo hf
  cases hfolders : tree.folders with
  | nil => exact .inl rfl
  | cons node nodes =>
      have hfe := hs.entries node (by simp [hfolders])
      rw [hf, Option.isSome_eq_false_iff, Option.isNone_iff_eq_none] at hfe
      have hnil : nodes = [] := by simpa [hfolders] using hlen
      exact .inr ⟨node.vars, by rw [hnil, ← hfe]⟩

/-! ### looking a folder up -/

/-- The loop stops at the first folder of that name, or passes them all. -/
theorem parseFolders_cases (folder : VarName) (nodes : List FolderNode) (i : Nat) (scan : Scan)
    (h : ∀ node ∈ nodes, node.fe.isSome) :
    (∃ pre node post fe, nodes = pre ++ node :: post ∧ node.fe = some fe ∧ fe.name = folder
      ∧ parseFolders folder nodes i scan = ⟨some (i + pre.length), some fe, true⟩)
    ∨ (∀ node ∈ nodes, node.fe.map (·.name) ≠ some folder)
      ∧ (nodes = [] ∨ (parseFolders folder nodes i scan).found = false
        ∧ (parseFolders folder nodes i scan).fe.isSome) := by
  induction nodes generalizing i scan with
  | nil => exact .inr ⟨nofun, .inl rfl⟩
  | cons node nodes ih =>
      obtain ⟨hnode, hnodes⟩ := List.forall_mem_cons.1 h
      obtain ⟨fe, hfe⟩ := Option.isSome_iff_exists.1 hnode
      by_cases hname : fe.name = folder
      · refine .inl ⟨[], node, nodes, fe, rfl, hfe, hname, ?_⟩
        simp [parseFolders, hfe, hname]
      · have hstep : parseFolders folder (node :: nodes) i scan
            = parseFolders folder nodes (i + 1) ⟨some i, some fe, false⟩ := by
          simp [parseFolders, hfe, hname]
        have hne : node.fe.map (·.name) ≠ some folder := by simpa [hfe] using hname
        rw [hstep]
        cases ih (i + 1) ⟨some i, some fe, false⟩ hnodes with
        | inl hfound =>
            obtain ⟨pre, node', post, fe', rfl, hfe', hname', hscan⟩ := hfound
            refine .inl ⟨node :: pre, node', post, fe', rfl, hfe', hname', ?_⟩
            rw [hscan, List.length_cons]
            congr 2
            omega
        | inr hpast =>
            refine .inr ⟨List.forall_mem_cons.2 ⟨hne, hpast.1⟩, .inr ?_⟩
            cases hpast.2 with
            | inl hnil => subst hnil; exact ⟨rfl, rfl⟩
            | inr hlast => exact hlast

@[simp] theorem parseFolders_pseudo (folder : VarName) (vars : List VarEntry)
    (nodes : List FolderNode) (i : Nat) (scan : Scan) :
    parseFolders folder (⟨none, vars⟩ :: nodes) i scan = ⟨some i, none, false⟩ := rfl

/-- Changing the node at the end of a prefix. -/
theorem modify_append (pre post : List FolderNode) (node : FolderNode)
    (f : FolderNode → FolderNode) :
    (pre ++ node :: post).modify pre.length f = pre ++ f node :: post := by
  induction pre with
  | nil => rfl
  | cons x pre ih => simp [ih]

@[simp] theorem info_dirlistStep (tree : DirTree) (op : DirlistOp) :
    (dirlistStep tree op).info = tree.info := by
  cases op with
  | add entry =>
      simp only [dirlistStep, ticalcsDirlistVeAdd]
      split
      · rfl
      · split
        · rfl
        · split <;> rfl
  | del entry =>
      simp only [dirlistStep, ticalcsDirlistVeDel]
      split
      · rfl
      · split
        · rfl
        · split <;> rfl

/-! ### what a call does -/

/-- `ticalcs_dirlist_ve_add` on a model with folders works on the folder it finds,
or on a new last one. -/
theorem add_cases {tree : DirTree} (hs : tree.Shaped) (entry : VarEntry)
    (hf : tifilesHasFolder tree.info.model = true) :
    (∃ pre node post, tree.folders = pre ++ node :: post
      ∧ node.fe.map (·.name) = some (lookupFolder tree.info.model entry)
      ∧ (ticalcsDirlistVeAdd tree entry).folders
        = if entry.name = .empty then tree.folders else pre ++ node.addVar entry :: post)
    ∨ some (lookupFolder tree.info.model entry) ∉ tree.names
      ∧ (ticalcsDirlistVeAdd tree entry).folders = tree.folders
        ++ [⟨some (newFolder entry), if entry.name = .empty then [] else [tifilesVeDup entry]⟩] := by
  have hnew : (⟨some (newFolder entry), []⟩ : FolderNode).addVar entry
      = ⟨some (newFolder entry), [tifilesVeDup entry]⟩ := rfl
  have htype : ¬(tree.info.type ≠ .variables ∧ tree.info.type ≠ .applications) := by
    simp [hs.type]
  unfold ticalcsDirlistVeAdd
  rw [if_neg htype]
  simp only [hf, Bool.not_true, Bool.and_false, Bool.false_eq_true, if_false, Bool.and_true]
  cases parseFolders_cases (lookupFolder tree.info.model entry) tree.folders 0
      ⟨none, none, false⟩ (fun node hnode => (hs.entries node hnode).trans hf) with
  | inl hfound =>
      obtain ⟨pre, node, post, fe, hsplit, hfe, hname, hscan⟩ := hfound
      have hne : tree.folders.isEmpty = false := by simp [hsplit]
      refine .inl ⟨pre, node, post, hsplit, by simp [hfe, hname], ?_⟩
      simp only [hscan, hne, Bool.not_true, Bool.false_and, Bool.or_false, Bool.false_eq_true,
        if_false, Nat.zero_add]
      split
      · rfl
      · rw [hsplit, modify_append]
  | inr hpast =>
      have hcreate : (!(parseFolders (lookupFolder tree.info.model entry) tree.folders 0
          ⟨none, none, false⟩).found
          && (parseFolders (lookupFolder tree.info.model entry) tree.folders 0
            ⟨none, none, false⟩).fe.isSome || tree.folders.isEmpty) = true := by
        cases hpast.2 with
        | inl hnil => simp [hnil]
        | inr hlast => simp [hlast.1, hlast.2]
      refine .inr ⟨by simpa [DirTree.names] using hpast.1, ?_⟩
      simp only [hcreate, if_true]
      split
      · rfl
      · rw [modify_append, hnew]

/-- On a model without folders it works on the pseudo-folder. -/
theorem add_pseudo {tree : DirTree} (hs : tree.Shaped) (entry : VarEntry)
    (hf : tifilesHasFolder tree.info.model = false) :
    ∃ node : FolderNode, node.fe = none ∧ (tree.folders = [] ∧ node.vars = [] ∨ tree.folders = [node])
      ∧ (ticalcsDirlistVeAdd tree entry).folders
        = [if entry.name = .empty then node else node.addVar entry] := by
  have htype : ¬(tree.info.type ≠ .variables ∧ tree.info.type ≠ .applications) := by
    simp [hs.type]
  unfold ticalcsDirlistVeAdd
  rw [if_neg htype]
  cases hs.folders_cases hf with
  | inl hnil =>
      refine ⟨⟨none, []⟩, rfl, .inl ⟨hnil, rfl⟩, ?_⟩
      simp only [hf, hnil, List.isEmpty_nil, Bool.not_false, Bool.and_true, if_true,
        parseFolders_pseudo]
      split <;> simp_all
  | inr hone =>
      obtain ⟨vars, hone⟩ := hone
      refine ⟨⟨none, vars⟩, rfl, .inr hone, ?_⟩
      simp only [hf, hone, List.isEmpty_cons, Bool.not_false, Bool.and_true, Bool.false_eq_true,
        if_false, parseFolders_pseudo]
      split <;> simp_all

/-- `ticalcs_dirlist_ve_del` changes nothing, or the variables of one folder. -/
theorem del_cases {tree : DirTree} (hs : tree.Shaped) (entry : VarEntry) :
    (ticalcsDirlistVeDel tree entry).folders = tree.folders
    ∨ ∃ pre node post, tree.folders = pre ++ node :: post
      ∧ (ticalcsDirlistVeDel tree entry).folders = pre ++ node.delVar entry :: post := by
  unfold ticalcsDirlistVeDel
  rw [if_neg (by simp [hs.type])]
  dsimp only
  cases hf : tifilesHasFolder tree.info.model with
  | true =>
      cases parseFolders_cases (lookupFolder tree.info.model entry) tree.folders 0
          ⟨none, none, false⟩ (fun node hnode => (hs.entries node hnode).trans hf) with
      | inl hfound =>
          obtain ⟨pre, node, post, fe, hsplit, hfe, hname, hscan⟩ := hfound
          refine .inr ⟨pre, node, post, hsplit, ?_⟩
          simp only [hscan, Bool.not_true, Bool.false_and, Bool.false_eq_true, if_false,
            Nat.zero_add]
          rw [hsplit, modify_append]
      | inr hpast =>
          cases hpast.2 with
          | inl hnil => left; simp [hnil, parseFolders]
          | inr hlast => left; simp [hlast.1, hlast.2]
  | false =>
      cases hs.folders_cases hf with
      | inl hnil => left; simp [hnil, parseFolders]
      | inr hone =>
          obtain ⟨vars, hone⟩ := hone
          exact .inr ⟨[], ⟨none, vars⟩, [], hone, by simp [hone]⟩

/-! ### what a call keeps -/

theorem fe_addVar_name (node : FolderNode) (entry : VarEntry) :
    (node.addVar entry).fe.map (·.name) = node.fe.map (·.name) := by
  unfold FolderNode.addVar
  split
  · simp [Function.comp_def]
  · rfl

theorem fe_delVar_name (node : FolderNode) (entry : VarEntry) :
    (node.delVar entry).fe.map (·.name) = node.fe.map (·.name) := by
  unfold FolderNode.delVar
  split
  · simp [Function.comp_def]
  · rfl

theorem isSome_eq_of_name {node node' : FolderNode}
    (h : node'.fe.map (·.name) = node.fe.map (·.name)) : node'.fe.isSome = node.fe.isSome := by
  simpa using congrArg Option.isSome h

theorem hasVar_eq_false {node : FolderNode} {name : VarName} :
    node.hasVar name = false ↔ name ∉ node.vars.map (·.name) := by
  simp [FolderNode.hasVar]

theorem addVar_nodup {node : FolderNode} (entry : VarEntry)
    (h : (node.vars.map (·.name)).Nodup) : ((node.addVar entry).vars.map (·.name)).Nodup := by
  unfold FolderNode.addVar
  cases hv : node.hasVar entry.name with
  | true => exact h
  | false =>
      have hnew := hasVar_eq_false.1 hv
      simp only [Bool.false_eq_true, if_false, List.map_append, List.map_cons, List.map_nil,
        tifilesVeDup_name]
      exact List.nodup_append_comm.1 (List.nodup_cons.2 ⟨hnew, h⟩)

theorem delVar_nodup {node : FolderNode} (entry : VarEntry)
    (h : (node.vars.map (·.name)).Nodup) : ((node.delVar entry).vars.map (·.name)).Nodup := by
  unfold FolderNode.delVar
  split
  · exact h.sublist ((List.eraseP_sublist).map _)
  · exact h

/-- The counter of a folder is the number of its variables. -/
def FolderNode.Counted (node : FolderNode) : Prop :=
  ∀ fe ∈ node.fe, fe.size.toNat = node.vars.length

theorem delVar_counted {node : FolderNode} (entry : VarEntry) (h : node.Counted) :
    (node.delVar entry).Counted := by
  unfold FolderNode.delVar
  cases hv : node.hasVar entry.name with
  | false => exact h
  | true =>
      obtain ⟨ve, hmem, hname⟩ := List.any_eq_true.1 hv
      have hlen := List.length_eraseP_of_mem (p := fun ve => ve.name = entry.name) hmem hname
      have hpos := List.length_pos_of_mem hmem
      simp only [if_true, FolderNode.Counted, Option.mem_def, Option.map_eq_some_iff]
      rintro _ ⟨fe, hfe, rfl⟩
      have hsize := h fe hfe
      rw [hlen, ← hsize]
      have hone : (1 : UInt32) ≤ fe.size := by
        rw [UInt32.le_iff_toNat_le, hsize]
        exact hpos
      exact UInt32.toNat_sub_of_le _ _ hone

/-- A variable moves the counter when it was there, and is counted when it was not. -/
theorem addVar_not_counted {node : FolderNode} {fe : VarEntry} (entry : VarEntry)
    (hfe : node.fe = some fe) (h : node.Counted) : ¬(node.addVar entry).Counted := by
  have hsize := h fe hfe
  unfold FolderNode.addVar
  cases hv : node.hasVar entry.name with
  | true =>
      intro hc
      have hnext := hc { fe with size := fe.size + 1 } (by simp [hfe])
      have hlt := fe.size.toNat_lt
      simp only [if_true, UInt32.toNat_add, UInt32.toNat_one] at hnext
      omega
  | false =>
      intro hc
      have hnext := hc fe (by simpa using hfe)
      simp only [Bool.false_eq_true, if_false, List.length_append, List.length_singleton] at hnext
      omega

/-! ### one call -/

/-- What holds of the nodes of a list holds after one of them is replaced. -/
theorem forall_mem_replace {P : FolderNode → Prop} {pre post : List FolderNode}
    {node node' : FolderNode} (h : ∀ n ∈ pre ++ node :: post, P n) (hnode : P node → P node') :
    ∀ n ∈ pre ++ node' :: post, P n := by
  simp only [List.forall_mem_append, List.forall_mem_cons] at h ⊢
  exact ⟨h.1, hnode h.2.1, h.2.2⟩

/-- A tree with one node replaced by one of the same name keeps its shape. -/
theorem DirTree.Shaped.replace {tree tree' : DirTree} {pre post : List FolderNode}
    {node node' : FolderNode} (hs : tree.Shaped) (hinfo : tree'.info = tree.info)
    (h : tree.folders = pre ++ node :: post) (h' : tree'.folders = pre ++ node' :: post)
    (hname : node'.fe.map (·.name) = node.fe.map (·.name)) : tree'.Shaped := by
  constructor
  · rw [hinfo, hs.type]
  · rw [hinfo, h']
    exact forall_mem_replace (h ▸ hs.entries) fun hnode =>
      (isSome_eq_of_name hname).trans hnode
  · rw [hinfo]
    have hlen := hs.pseudo
    simpa [h, h'] using hlen

theorem DirTree.Shaped.same {tree tree' : DirTree} (hs : tree.Shaped)
    (hinfo : tree'.info = tree.info) (h : tree'.folders = tree.folders) : tree'.Shaped :=
  ⟨by rw [hinfo, hs.type], by rw [hinfo, h]; exact hs.entries, by rw [hinfo, h]; exact hs.pseudo⟩

theorem shaped_add {tree : DirTree} (hs : tree.Shaped) (entry : VarEntry) :
    (ticalcsDirlistVeAdd tree entry).Shaped := by
  have hinfo : (ticalcsDirlistVeAdd tree entry).info = tree.info :=
    info_dirlistStep tree (.add entry)
  cases hf : tifilesHasFolder tree.info.model with
  | true =>
      cases add_cases hs entry hf with
      | inl hfound =>
          obtain ⟨pre, node, post, hsplit, -, hres⟩ := hfound
          split at hres
          · exact hs.same hinfo hres
          · exact hs.replace hinfo hsplit hres (fe_addVar_name node entry)
      | inr hnew =>
          constructor
          · rw [hinfo, hs.type]
          · rw [hinfo, hnew.2, List.forall_mem_append, List.forall_mem_singleton]
            exact ⟨hs.entries, hf.symm⟩
          · simp [hinfo, hf]
  | false =>
      obtain ⟨node, hnone, -, hres⟩ := add_pseudo hs entry hf
      constructor
      · rw [hinfo, hs.type]
      · rw [hinfo, hres, List.forall_mem_singleton, hf]
        split
        · simp [hnone]
        · rw [isSome_eq_of_name (fe_addVar_name node entry), hnone]
          rfl
      · simp [hres]

theorem shaped_del {tree : DirTree} (hs : tree.Shaped) (entry : VarEntry) :
    (ticalcsDirlistVeDel tree entry).Shaped := by
  have hinfo : (ticalcsDirlistVeDel tree entry).info = tree.info :=
    info_dirlistStep tree (.del entry)
  cases del_cases hs entry with
  | inl hsame => exact hs.same hinfo hsame
  | inr hdel =>
      obtain ⟨pre, node, post, hsplit, hres⟩ := hdel
      exact hs.replace hinfo hsplit hres (fe_delVar_name node entry)

/-- Every call keeps the shape of the tree. -/
theorem shaped_dirlistStep (tree : DirTree) (op : DirlistOp) (hs : tree.Shaped) :
    (dirlistStep tree op).Shaped := by
  cases op with
  | add entry => exact shaped_add hs entry
  | del entry => exact shaped_del hs entry

/-- No two variables of a folder have the same name. -/
def DirTree.VarsDistinct (tree : DirTree) : Prop :=
  ∀ node ∈ tree.folders, (node.vars.map (·.name)).Nodup

/-- Every call keeps the names of the variables distinct. -/
theorem varsDistinct_dirlistStep (tree : DirTree) (op : DirlistOp) (hs : tree.Shaped)
    (h : tree.VarsDistinct) : (dirlistStep tree op).VarsDistinct := by
  unfold DirTree.VarsDistinct at h ⊢
  cases op with
  | add entry =>
      rw [dirlistStep]
      cases hf : tifilesHasFolder tree.info.model with
      | true =>
          cases add_cases hs entry hf with
          | inl hfound =>
              obtain ⟨pre, node, post, hsplit, -, hres⟩ := hfound
              rw [hres]
              split
              · exact h
              · exact forall_mem_replace (hsplit ▸ h) (addVar_nodup entry)
          | inr hnew =>
              rw [hnew.2, List.forall_mem_append, List.forall_mem_singleton]
              refine ⟨h, ?_⟩
              dsimp only
              split <;> simp
      | false =>
          obtain ⟨node, -, hold, hres⟩ := add_pseudo hs entry hf
          have hnode : (node.vars.map (·.name)).Nodup := by
            cases hold with
            | inl hnil => simp [hnil.2]
            | inr hone => exact h node (by simp [hone])
          rw [hres, List.forall_mem_singleton]
          split
          · exact hnode
          · exact addVar_nodup entry hnode
  | del entry =>
      rw [dirlistStep]
      cases del_cases hs entry with
      | inl hsame => rw [hsame]; exact h
      | inr hdel =>
          obtain ⟨pre, node, post, hsplit, hres⟩ := hdel
          rw [hres]
          exact forall_mem_replace (hsplit ▸ h) (delVar_nodup entry)

/-- In which states a call keeps a well-formed tree well formed: on a model with
folders nothing but a folder may be added, and no second one with the empty name. -/
def DirlistOp.Keeps (tree : DirTree) : DirlistOp → Prop
  | .add entry =>
      tifilesHasFolder tree.info.model = false
        ∨ entry.name = .empty
          ∧ (entry.folder ≠ .empty ∨ some mainFolder ∈ tree.names ∨ some .empty ∉ tree.names)
  | .del _ => True

/-- No two folders with one name: what replaces a node keeps its name. -/
theorem names_replace {tree tree' : DirTree} {pre post : List FolderNode} {node node' : FolderNode}
    (h : tree.folders = pre ++ node :: post) (h' : tree'.folders = pre ++ node' :: post)
    (hname : node'.fe.map (·.name) = node.fe.map (·.name)) : tree'.names = tree.names := by
  simp [DirTree.names, h, h', hname]

theorem wellFormed_add_iff {tree : DirTree} (hs : tree.Shaped) (hw : tree.WellFormed)
    (entry : VarEntry) :
    (ticalcsDirlistVeAdd tree entry).WellFormed ↔ (DirlistOp.add entry).Keeps tree := by
  have hinfo : (ticalcsDirlistVeAdd tree entry).info = tree.info :=
    info_dirlistStep tree (.add entry)
  have hvars : (ticalcsDirlistVeAdd tree entry).VarsDistinct :=
    varsDistinct_dirlistStep tree (.add entry) hs hw.vars
  cases hf : tifilesHasFolder tree.info.model with
  | false =>
      simp only [DirlistOp.Keeps, hf, true_or, iff_true]
      obtain ⟨node, -, -, hres⟩ := add_pseudo hs entry hf
      exact ⟨by simp [DirTree.names, hres], hvars, by simp [hinfo, hf]⟩
  | true =>
      simp only [DirlistOp.Keeps, hf, Bool.true_eq_false, false_or]
      cases add_cases hs entry hf with
      | inl hfound =>
          obtain ⟨pre, node, post, hsplit, hname, hres⟩ := hfound
          have hmem : some (lookupFolder tree.info.model entry) ∈ tree.names := by
            rw [← hname, DirTree.names, hsplit]
            simp
          by_cases hempty : entry.name = .empty
          · rw [if_pos hempty] at hres
            have hmain : entry.folder ≠ .empty ∨ some mainFolder ∈ tree.names := by
              by_cases hfolder : entry.folder = .empty
              · right
                simpa [lookupFolder, hfolder, hf] using hmem
              · exact .inl hfolder
            refine iff_of_true ⟨?_, ?_, ?_⟩ ⟨hempty, hmain.imp_right .inl⟩
            · simpa [DirTree.names, hres] using hw.folders
            · exact hvars
            · rw [hinfo, hres]; exact hw.sizes
          · rw [if_neg hempty] at hres
            obtain ⟨fe, hfe⟩ : ∃ fe, node.fe = some fe := by
              cases h : node.fe with
              | none => simp [h] at hname
              | some fe => exact ⟨fe, rfl⟩
            refine iff_of_false (fun hwell => ?_) fun h => hempty h.1
            have hold : node.Counted := hw.sizes hf node (by simp [hsplit])
            exact addVar_not_counted entry hfe hold
              (hwell.sizes (hinfo ▸ hf) _ (by simp [hres]))
      | inr hnew =>
          have hnames : (ticalcsDirlistVeAdd tree entry).names
              = tree.names ++ [some entry.folder] := by
            simp [DirTree.names, hnew.2, newFolder]
          by_cases hempty : entry.name = .empty
          · have hiff : (ticalcsDirlistVeAdd tree entry).WellFormed
                ↔ some entry.folder ∉ tree.names := by
              refine ⟨fun hwell hmem => ?_, fun hfresh => ⟨?_, hvars, ?_⟩⟩
              · have hnodup := hwell.folders
                rw [hnames] at hnodup
                exact (List.nodup_append.1 hnodup).2.2 _ hmem _ (List.mem_singleton.2 rfl) rfl
              · rw [hnames]
                exact List.nodup_append_comm.1 (List.nodup_cons.2 ⟨hfresh, hw.folders⟩)
              · rw [hinfo, hnew.2]
                intro _
                rw [List.forall_mem_append, List.forall_mem_singleton]
                exact ⟨hw.sizes hf, by simp [hempty, newFolder, tifilesVeCreate]⟩
            rw [hiff]
            by_cases hfolder : entry.folder = .empty
            · have hmain : some mainFolder ∉ tree.names := by
                simpa [lookupFolder, hfolder, hf] using hnew.1
              simp [hempty, hfolder, hmain]
            · have hfresh : some entry.folder ∉ tree.names := by
                simpa [lookupFolder, hfolder] using hnew.1
              simp [hempty, hfolder, hfresh]
          · refine iff_of_false (fun hwell => ?_) fun h => hempty h.1
            have hcount := hwell.sizes (hinfo ▸ hf) _
              (hnew.2 ▸ List.mem_append_right _ (List.mem_singleton.2 rfl)) (newFolder entry) rfl
            simp [hempty, newFolder, tifilesVeCreate] at hcount

theorem wellFormed_del {tree : DirTree} (hs : tree.Shaped) (hw : tree.WellFormed)
    (entry : VarEntry) : (ticalcsDirlistVeDel tree entry).WellFormed := by
  have hinfo : (ticalcsDirlistVeDel tree entry).info = tree.info :=
    info_dirlistStep tree (.del entry)
  refine ⟨?_, varsDistinct_dirlistStep tree (.del entry) hs hw.vars, ?_⟩
  · cases del_cases hs entry with
    | inl hsame => simpa [DirTree.names, hsame] using hw.folders
    | inr hdel =>
        obtain ⟨pre, node, post, hsplit, hres⟩ := hdel
        rw [names_replace hsplit hres (fe_delVar_name node entry)]
        exact hw.folders
  · rw [hinfo]
    intro hf
    cases del_cases hs entry with
    | inl hsame => rw [hsame]; exact hw.sizes hf
    | inr hdel =>
        obtain ⟨pre, node, post, hsplit, hres⟩ := hdel
        rw [hres]
        exact forall_mem_replace (hsplit ▸ hw.sizes hf) (delVar_counted entry)

/-- From a well-formed tree a call leads to one exactly when its condition holds. -/
theorem wellFormed_dirlistStep_iff (tree : DirTree) (op : DirlistOp) (hs : tree.Shaped)
    (hw : tree.WellFormed) : (dirlistStep tree op).WellFormed ↔ op.Keeps tree := by
  cases op with
  | add entry => exact wellFormed_add_iff hs hw entry
  | del entry => exact iff_of_true (wellFormed_del hs hw entry) trivial

/-! ### every run -/

theorem shaped_dirlistInitTree (model : CalcModel) :
    (dirlistInitTree model .variables).Shaped :=
  ⟨rfl, nofun, fun _ => Nat.zero_le 1⟩

theorem wellFormed_dirlistInitTree (model : CalcModel) :
    (dirlistInitTree model .variables).WellFormed :=
  ⟨List.nodup_nil, nofun, fun _ => nofun⟩

/-- From a fresh variable tree, every tree that a run reaches is well formed
exactly when each of its calls meets its condition. -/
theorem dirlist_wellFormed_iff (model : CalcModel) (ops : List DirlistOp) :
    (∀ tree ∈ ops.scanl dirlistStep (dirlistInitTree model .variables), tree.WellFormed)
      ↔ ∀ p ∈ ops.zip (ops.scanl dirlistStep (dirlistInitTree model .variables)),
        p.1.Keeps p.2 :=
  forall_scanl_iff shaped_dirlistStep wellFormed_dirlistStep_iff
    (shaped_dirlistInitTree model) (wellFormed_dirlistInitTree model)

/-- A variable that a TI-89 does not have yet is not counted. -/
theorem not_wellFormed_new_var :
    ¬∀ (model : CalcModel) (ops : List DirlistOp),
      ∀ tree ∈ ops.scanl dirlistStep (dirlistInitTree model .variables), tree.WellFormed := by
  intro h
  let entry : VarEntry := { tifilesVeCreate with folder := mainFolder, name := mainFolder }
  have hwell := h .ti89 [.add entry] (dirlistStep (dirlistInitTree .ti89 .variables) (.add entry))
    (by simp)
  have hcount := hwell.sizes rfl ⟨some (newFolder entry), [tifilesVeDup entry]⟩
    (List.mem_singleton.2 rfl) (newFolder entry) rfl
  simp [newFolder, tifilesVeCreate] at hcount

/-- Whatever the calls, no two variables of a folder have the same name. -/
theorem dirlist_varsDistinct (model : CalcModel) (ops : List DirlistOp) :
    ∀ tree ∈ ops.scanl dirlistStep (dirlistInitTree model .variables), tree.VarsDistinct := by
  intro tree htree
  have hboth := forall_mem_scanl (fun tree => tree.Shaped ∧ tree.VarsDistinct)
    (fun tree op h => ⟨shaped_dirlistStep tree op h.1, varsDistinct_dirlistStep tree op h.1 h.2⟩)
    ⟨shaped_dirlistInitTree model, nofun⟩ tree htree
  exact hboth.2

end Tilibs.Calcs
