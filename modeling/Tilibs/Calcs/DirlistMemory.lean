import Mathlib
import Tilibs.Calcs.Dirlist

/-!
# Tilibs.Calcs.DirlistMemory

The memory that the variables and the applications of two directory trees take.

Both functions add the sizes up in two nested loops over numbered children.  The loop over
the applications takes the child with the number of the folder, not with its own number.
-/

namespace Tilibs.Calcs

open Lib Files

/-! ## loops over numbered children -/

/-- A loop that looks each element up by its number goes over the elements. -/
theorem foldlM_range'_getElem? {α σ : Type} (f : Nat → σ → α → Option σ) (full : List α) {l : List α}
    {k : Nat} (hfull : ∀ j, full[k + j]? = l[j]?) (s : σ) :
    (List.range' k l.length).foldlM (fun s i => full[i]?.bind (f i s)) s
      = (l.zipIdx k).foldlM (fun s p => f p.2 s p.1) s := by
  induction l generalizing k s with
  | nil => rfl
  | cons a l ih =>
      have hhead : full[k]? = some a := hfull 0
      have htail : ∀ j, full[k + 1 + j]? = l[j]? := by
        intro j
        rw [Nat.add_assoc, Nat.add_comm 1 j]
        exact hfull (j + 1)
      rw [List.length_cons, List.range'_succ, List.foldlM_cons, List.zipIdx_cons, List.foldlM_cons,
        hhead, Option.bind_some]
      congr 1
      funext s'
      exact ih htail s'

theorem foldlM_range_getElem? {α σ : Type} (f : Nat → σ → α → Option σ) (l : List α) (s : σ) :
    (List.range l.length).foldlM (fun s i => l[i]?.bind (f i s)) s
      = l.zipIdx.foldlM (fun s p => f p.2 s p.1) s := by
  rw [List.range_eq_range']
  exact foldlM_range'_getElem? f l (fun j => by rw [Nat.zero_add]) s

/-! ## the two functions -/

/-- `ATTRB_ARCHIVED` -/
def isArchived (ve : VarEntry) : Bool := ve.attr = 3

/-- The loop over the children of a folder: for the child number `j` it reads the child number
`child j`, and adds its size when it is one that counts.  Without that child a NULL pointer
is followed. -/
def addSizes (counts : VarEntry → Bool) (child : Nat → Nat) (parent : FolderNode)
    (mem : UInt32) : Option UInt32 :=
  (List.range parent.vars.length).foldlM
    (fun mem j => parent.vars[child j]?.bind fun ve =>
      some (if counts ve then mem + ve.size else mem)) mem

/-- The loop over the folders of a tree; the inner loop may use the folder's number. -/
def addFolders (counts : VarEntry → Bool) (child : Nat → Nat → Nat) (folders : List FolderNode)
    (mem : UInt32) : Option UInt32 :=
  (List.range folders.length).foldlM
    (fun mem i => folders[i]?.bind fun parent => addSizes counts (child i) parent mem) mem

/-- `ticalcs_dirlist_ram_used` -/
def ticalcsDirlistRamUsed (tree : DirTree) : Option Int32 :=
  if tree.info.type ≠ .variables then some 0
  else do
    let mem ← addFolders (fun ve => !isArchived ve) (fun _ j => j) tree.folders 0
    return mem.toInt32

/-- `ticalcs_dirlist_flash_used`; the child of an application folder is taken by `i`. -/
def ticalcsDirlistFlashUsed (vars apps : DirTree) : Option Int32 := do
  let mem ←
    if vars.info.type = .variables then addFolders isArchived (fun _ j => j) vars.folders 0
    else some 0
  let mem ←
    if apps.info.type = .applications then
      addFolders (fun _ => true) (fun i _ => i) apps.folders mem
    else some mem
  return mem.toInt32

/-! ## what is to be accounted for -/

/-- The size of some entries, as a number. -/
def totalSize (ves : List VarEntry) : Nat := (ves.map fun ve => ve.size.toNat).sum

/-- The variables or applications of a tree. -/
def DirTree.entries (tree : DirTree) : List VarEntry := tree.folders.flatMap (·.vars)

/-- Both functions read children that exist, the flash memory is what the archived variables
and the applications take, and the two together take every variable once. -/
def MemoryAccounted (vars apps : DirTree) : Prop :=
  ∃ ram flash, ticalcsDirlistRamUsed vars = some ram
    ∧ ticalcsDirlistFlashUsed vars apps = some flash
    ∧ flash.toUInt32.toNat
      = (totalSize (vars.entries.filter isArchived) + totalSize apps.entries) % 2 ^ 32
    ∧ (ram + flash).toUInt32.toNat = (totalSize vars.entries + totalSize apps.entries) % 2 ^ 32

/-- What the loop adds for the folder number `i` of the applications: the size of its child
number `i`, once for each child. -/
def slippedSize (parent : FolderNode) (i : Nat) : Nat :=
  parent.vars.length * totalSize parent.vars[i]?.toList

/-- The folder number `i` of the applications, when it is not empty, has a child number `i`;
and one such size for each application adds up to the sizes of all of them. -/
structure SizesAgree (apps : DirTree) : Prop where
  child : ∀ p ∈ apps.folders.zipIdx, p.1.vars ≠ [] → p.2 < p.1.vars.length
  size : (apps.folders.zipIdx.map fun p => slippedSize p.1 p.2).sum % 2 ^ 32
    = totalSize apps.entries % 2 ^ 32

/-! ## what the loops add -/

theorem totalSize_append (ves ves' : List VarEntry) :
    totalSize (ves ++ ves') = totalSize ves + totalSize ves' := by
  simp [totalSize]

theorem totalSize_cons (ve : VarEntry) (ves : List VarEntry) :
    totalSize (ve :: ves) = ve.size.toNat + totalSize ves := by
  simp [totalSize]

/-- What counts and what does not are all. -/
theorem totalSize_filter_add (counts : VarEntry → Bool) (ves : List VarEntry) :
    totalSize (ves.filter counts) + totalSize (ves.filter fun ve => !counts ve) = totalSize ves := by
  induction ves with
  | nil => rfl
  | cons ve ves ih =>
      cases hve : counts ve with
      | true =>
          simp only [List.filter_cons, hve, if_true, Bool.not_true, Bool.false_eq_true, if_false,
            totalSize_cons]
          omega
      | false =>
          simp only [List.filter_cons, hve, if_true, Bool.not_false, Bool.false_eq_true, if_false,
            totalSize_cons]
          omega

/-- Every child by its own number: the sizes of those that count. -/
theorem addSizes_own (counts : VarEntry → Bool) (parent : FolderNode) (mem : UInt32) :
    addSizes counts (fun j => j) parent mem
      = some (mem + UInt32.ofNat (totalSize (parent.vars.filter counts))) := by
  unfold addSizes
  rw [foldlM_range_getElem? fun _ mem ve => some (if counts ve then mem + ve.size else mem)]
  generalize parent.vars = ves
  generalize 0 = k
  induction ves generalizing k mem with
  | nil =>
      have hzero : mem + UInt32.ofNat (totalSize []) = mem := UInt32.add_zero mem
      rw [List.filter_nil, hzero]
      rfl
  | cons ve ves ih =>
      rw [List.zipIdx_cons, List.foldlM_cons]
      show (ves.zipIdx (k + 1)).foldlM _ (if counts ve then mem + ve.size else mem) = _
      rw [ih]
      congr 1
      cases hve : counts ve with
      | true =>
          rw [List.filter_cons_of_pos hve, totalSize_cons, UInt32.ofNat_add, UInt32.ofNat_toNat,
            if_pos rfl, UInt32.add_assoc]
      | false => rw [List.filter_cons_of_neg (by simp [hve]), if_neg Bool.false_ne_true]

theorem addFolders_own (counts : VarEntry → Bool) (folders : List FolderNode) (mem : UInt32) :
    addFolders counts (fun _ j => j) folders mem
      = some (mem + UInt32.ofNat (totalSize ((folders.flatMap (·.vars)).filter counts))) := by
  unfold addFolders
  rw [foldlM_range_getElem? fun _ mem parent => addSizes counts (fun j => j) parent mem]
  generalize 0 = k
  induction folders generalizing k mem with
  | nil =>
      have hzero : mem + UInt32.ofNat (totalSize []) = mem := UInt32.add_zero mem
      rw [List.flatMap_nil, List.filter_nil, hzero]
      rfl
  | cons parent folders ih =>
      rw [List.zipIdx_cons, List.foldlM_cons, addSizes_own]
      show (folders.zipIdx (k + 1)).foldlM _ _ = _
      rw [ih, List.flatMap_cons, List.filter_append, totalSize_append, UInt32.ofNat_add,
        UInt32.add_assoc]

/-- A child that exists, read once for each child of the folder. -/
theorem foldlM_same_child (ve : VarEntry) (n : Nat) (mem : UInt32) :
    (List.range n).foldlM (fun mem _ => (some ve).bind fun ve => some (mem + ve.size)) mem
      = some (mem + UInt32.ofNat (n * ve.size.toNat)) := by
  induction n with
  | zero =>
      have hzero : mem + UInt32.ofNat (0 * ve.size.toNat) = mem := by simp
      rw [hzero]
      rfl
  | succ n ih =>
      have hsucc : (n + 1) * ve.size.toNat = n * ve.size.toNat + ve.size.toNat := Nat.succ_mul n _
      rw [List.range_succ, List.foldlM_append, ih, hsucc, UInt32.ofNat_add, UInt32.ofNat_toNat,
        ← UInt32.add_assoc]
      rfl

/-- The loop over the applications of the folder number `i`. -/
theorem addSizes_slipped (parent : FolderNode) (i : Nat) (mem : UInt32) :
    addSizes (fun _ => true) (fun _ => i) parent mem
      = if parent.vars ≠ [] → i < parent.vars.length then
          some (mem + UInt32.ofNat (slippedSize parent i))
        else none := by
  unfold addSizes slippedSize
  simp only [if_true]
  by_cases hnil : parent.vars = []
  · have hzero : mem + UInt32.ofNat (0 * totalSize []) = mem := by simp
    rw [if_pos (fun hne => absurd hnil hne), hnil, List.getElem?_nil]
    exact (congrArg some hzero).symm
  · by_cases hlt : i < parent.vars.length
    · have hget : parent.vars[i]? = some parent.vars[i] := List.getElem?_eq_getElem hlt
      have hsize : totalSize (some parent.vars[i]).toList = parent.vars[i].size.toNat := by
        simp [totalSize]
      rw [if_pos (fun _ => hlt), hget, hsize]
      exact foldlM_same_child parent.vars[i] parent.vars.length mem
    · have hget : parent.vars[i]? = none := List.getElem?_eq_none (Nat.le_of_not_lt hlt)
      have hpos : parent.vars.length = parent.vars.length - 1 + 1 := by
        have hlen := List.length_pos_iff.mpr hnil
        omega
      rw [if_neg (fun h => hlt (h hnil)), hget, hpos, List.range_eq_range', List.range'_succ]
      rfl

/-- The loop over the folders of the applications. -/
theorem addFolders_slipped (folders : List FolderNode) (mem : UInt32) :
    addFolders (fun _ => true) (fun i _ => i) folders mem
      = if ∀ p ∈ folders.zipIdx, p.1.vars ≠ [] → p.2 < p.1.vars.length then
          some (mem + UInt32.ofNat (folders.zipIdx.map fun p => slippedSize p.1 p.2).sum)
        else none := by
  unfold addFolders
  rw [foldlM_range_getElem? fun i mem parent => addSizes (fun _ => true) (fun _ => i) parent mem]
  generalize 0 = k
  induction folders generalizing k mem with
  | nil =>
      have hzero : mem + UInt32.ofNat 0 = mem := UInt32.add_zero mem
      rw [if_pos (by simp)]
      exact (congrArg some hzero).symm
  | cons parent folders ih =>
      rw [List.zipIdx_cons, List.foldlM_cons, addSizes_slipped]
      by_cases hfirst : parent.vars ≠ [] → k < parent.vars.length
      · rw [if_pos hfirst]
        show (folders.zipIdx (k + 1)).foldlM _ _ = _
        rw [ih]
        by_cases hrest : ∀ p ∈ folders.zipIdx (k + 1), p.1.vars ≠ [] → p.2 < p.1.vars.length
        · rw [if_pos hrest, if_pos (List.forall_mem_cons.mpr ⟨hfirst, hrest⟩), List.map_cons,
            List.sum_cons, UInt32.ofNat_add, UInt32.add_assoc]
        · rw [if_neg hrest, if_neg (fun h => hrest (List.forall_mem_cons.mp h).2)]
      · rw [if_neg hfirst, if_neg (fun h => hfirst (List.forall_mem_cons.mp h).1)]
        rfl

/-! ## the accounts -/

theorem ofNat_add_toNat (m n : Nat) :
    (UInt32.ofNat m + UInt32.ofNat n).toNat = (m + n) % 2 ^ 32 := by
  rw [← UInt32.ofNat_add, UInt32.toNat_ofNat']

theorem toUInt32_add_toInt32 (m n : UInt32) : (m.toInt32 + n.toInt32).toUInt32 = m + n := by
  rw [Int32.toUInt32_add, UInt32.toUInt32_toInt32, UInt32.toUInt32_toInt32]

/-- The trees of the models without folders: the first application is counted for each. -/
theorem sizesAgree_pseudo_iff (model : CalcModel) (first : VarEntry) (more : List VarEntry) :
    SizesAgree ⟨⟨model, .applications⟩, [⟨none, first :: more⟩]⟩
      ↔ more.length * first.size.toNat ≡ totalSize more [MOD 2 ^ 32] := by
  have hsum : ([(⟨none, first :: more⟩ : FolderNode)].zipIdx.map fun p => slippedSize p.1 p.2).sum
      = first.size.toNat + more.length * first.size.toNat := by
    simp only [List.zipIdx_singleton, List.map_singleton, List.sum_singleton, slippedSize,
      List.length_cons, List.getElem?_cons_zero, Option.toList_some, totalSize_cons]
    show (more.length + 1) * (first.size.toNat + 0) = _
    ring
  have htotal : totalSize (DirTree.entries ⟨⟨model, .applications⟩, [⟨none, first :: more⟩]⟩)
      = first.size.toNat + totalSize more := by
    simp [DirTree.entries, totalSize_cons]
  constructor
  · intro hagree
    have hsize := hagree.size
    rw [hsum, htotal] at hsize
    exact Nat.ModEq.add_left_cancel' _ hsize
  · intro hsame
    constructor
    · simp
    · rw [hsum, htotal]
      exact hsame.add_left _

/-- The second of two folders with an application each: its child number 1 is read. -/
example : ticalcsDirlistFlashUsed ⟨⟨.ti89, .variables⟩, []⟩ ⟨⟨.ti89, .applications⟩,
    [⟨some tifilesVeCreate, [tifilesVeCreate]⟩, ⟨some tifilesVeCreate, [tifilesVeCreate]⟩]⟩
    = none := by decide

end Tilibs.Calcs
