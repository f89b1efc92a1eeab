import Tilibs.Files.Regular9xRoundTrip

/-!
# Tilibs.Files.TableOfEntries

The table of entries as `tifiles_create_table_of_entries` makes it from a content, with its list
of 32768 folder names and its NULL pointers.

The rows are a partition of the entries by their folders when the names are not cut, the list has
room for them, and the model is none of the TI-8x, where one folder without a name is counted.
-/

namespace Tilibs.Files

/-! ## the table -/

/-- What the function must not do: follow a NULL pointer, or write behind the list of folders. -/
inductive TableFault
  | nullPointer
  | outOfBounds
  deriving DecidableEq

/-- The places of `folder_list`; a NULL stands behind the last name. -/
def folderSlots : Nat := 32768

/-- A turn of the loop that collects the folders. -/
def collectFolder (folders : List (List UInt8)) (e : VarEntry) :
    Except TableFault (List (List UInt8)) :=
  if folders.contains e.folder.chars then .ok folders
  else if folders.length + 1 < folderSlots then .ok (folders ++ [e.folder.chars.take 256])
  else .error .outOfBounds

/-- A row; the folder that is only counted has no name to compare with. -/
def fillRow (es : List VarEntry) : Option (List UInt8) → Except TableFault (List Nat)
  | none => if es.isEmpty then .ok [] else .error .nullPointer
  | some folder => .ok (tableRow es folder)

/-- `tifiles_create_table_of_entries` and its `nfolders` -/
def createTableOfEntries (content : FileContent) :
    Except TableFault (List (List Nat) × Nat) :=
  match content.entries with
  | none => .ok ([], 0)
  | some _ =>
      match content.entryList with
      | none => .error .nullPointer
      | some es => do
          let folders ← es.foldlM collectFolder []
          let names := folders.map some ++ if tifilesCalcIsTi8x content.model then [none] else []
          let table ← names.mapM (fillRow es)
          return (table, names.length)

/-- A content that has as many entries as it says; without an array there are none. -/
def FileContent.HasEntries (content : FileContent) (es : List VarEntry) : Prop :=
  match content.entries with
  | none => es = []
  | some _ => content.entryList = some es

/-- The folder of the entry at an index. -/
def folderAt (es : List VarEntry) (i : Nat) : Option (List UInt8) :=
  es[i]?.map fun e => e.folder.chars

/-- Every index is in one row, and a row has the indexes of one folder. -/
structure IsPartition (es : List VarEntry) (table : List (List Nat)) : Prop where
  once : table.flatten.Perm (List.range es.length)
  sameFolder : ∀ row ∈ table, ∀ i ∈ row, ∀ j ∈ row, folderAt es i = folderAt es j
  otherFolder : table.Pairwise fun row row' => ∀ i ∈ row, ∀ j ∈ row', folderAt es i ≠ folderAt es j
  increasing : ∀ row ∈ table, row.Pairwise (· < ·)

/-! ## the rows -/

theorem mem_tableRow {es : List VarEntry} {folder : List UInt8} {i : Nat} :
    i ∈ tableRow es folder ↔ folderAt es i = some folder := by
  unfold tableRow folderAt
  rw [List.mem_map, Option.map_eq_some_iff]
  constructor
  · rintro ⟨p, hp, rfl⟩
    obtain ⟨hmem, hfolder⟩ := List.mem_filter.mp hp
    exact ⟨p.1, List.mem_zipIdx_iff_getElem?.1 hmem, of_decide_eq_true hfolder⟩
  · rintro ⟨e, he, hfolder⟩
    exact ⟨(e, i), List.mem_filter.mpr ⟨List.mem_zipIdx_iff_getElem?.2 he,
      decide_eq_true hfolder⟩, rfl⟩

theorem pairwise_tableRow (es : List VarEntry) (folder : List UInt8) :
    (tableRow es folder).Pairwise (· < ·) := by
  unfold tableRow
  have hrange : (es.zipIdx.map Prod.snd).Pairwise (· < ·) := by
    rw [List.zipIdx_map_snd]
    exact List.pairwise_lt_range'
  exact hrange.sublist (List.filter_sublist.map Prod.snd)

theorem mem_addFolder {folders : List (List UInt8)} {e : VarEntry} {f : List UInt8}
    (h : f ∈ addFolder folders e) : f ∈ folders ∨ f.length ≤ 256 := by
  unfold addFolder at h
  split at h
  · exact Or.inl h
  · rcases List.mem_append.mp h with h | h
    · exact Or.inl h
    · right
      obtain rfl := List.mem_singleton.mp h
      exact List.length_take_le 256 _

/-- The names of the list are cut. -/
theorem length_of_mem_folderList {es : List VarEntry} {f : List UInt8} (h : f ∈ folderList es) :
    f.length ≤ 256 := by
  have hfold : ∀ (es : List VarEntry) (folders : List (List UInt8)),
      (∀ f ∈ folders, f.length ≤ 256) → ∀ f ∈ es.foldl addFolder folders, f.length ≤ 256 := by
    intro es
    induction es with
    | nil => exact fun _ hfolders => hfolders
    | cons e es ih =>
        intro folders hfolders
        apply ih
        intro f hf
        rcases mem_addFolder hf with hf | hf
        · exact hfolders f hf
        · exact hf
  exact hfold es [] nofun f h

theorem length_le_foldl_addFolder (es : List VarEntry) (folders : List (List UInt8)) :
    folders.length ≤ (es.foldl addFolder folders).length := by
  induction es generalizing folders with
  | nil => exact le_rfl
  | cons e es ih =>
      have hstep : folders.length ≤ (addFolder folders e).length := by
        unfold addFolder
        split
        · exact le_rfl
        · rw [List.length_append]
          exact Nat.le_add_right _ _
      exact hstep.trans (ih _)

/-- The loop collects the folders as long as they fit. -/
theorem foldlM_collectFolder (es : List VarEntry) {folders : List (List UInt8)}
    (h : folders.length < folderSlots) :
    es.foldlM collectFolder folders =
      if (es.foldl addFolder folders).length < folderSlots then .ok (es.foldl addFolder folders)
      else .error .outOfBounds := by
  induction es generalizing folders with
  | nil => exact (if_pos h).symm
  | cons e es ih =>
      rw [List.foldlM_cons, List.foldl_cons]
      by_cases hmem : e.folder.chars ∈ folders
      · have hsame : addFolder folders e = folders := if_pos hmem
        have hstep : collectFolder folders e = .ok folders :=
          if_pos (List.contains_iff_mem.mpr hmem)
        rw [hsame, hstep]
        exact ih h
      · have hnew : addFolder folders e = folders ++ [e.folder.chars.take 256] := if_neg hmem
        have hlength : (folders ++ [e.folder.chars.take 256]).length = folders.length + 1 :=
          List.length_append
        have hnot : ¬folders.contains e.folder.chars = true := fun h =>
          hmem (List.contains_iff_mem.mp h)
        by_cases hfits : folders.length + 1 < folderSlots
        · have hstep : collectFolder folders e = .ok (folders ++ [e.folder.chars.take 256]) := by
            rw [collectFolder, if_neg hnot, if_pos hfits]
          rw [hnew, hstep]
          exact ih (by rw [hlength]; exact hfits)
        · have hstep : collectFolder folders e = .error .outOfBounds := by
            rw [collectFolder, if_neg hnot, if_neg hfits]
          have hmore := length_le_foldl_addFolder es (folders ++ [e.folder.chars.take 256])
          rw [hnew, hstep, if_neg (by omega)]
          rfl

theorem mapM_fillRow (es : List VarEntry) (folders : List (List UInt8)) :
    (folders.map some).mapM (fillRow es) = .ok (folders.map (tableRow es)) := by
  induction folders with
  | nil => rfl
  | cons folder folders ih =>
      rw [List.map_cons, List.mapM_cons, ih]
      rfl

/-- What the function returns for the entries of a content. -/
theorem createTableOfEntries_eq {content : FileContent} {es : List VarEntry}
    (hentries : content.entries.isSome) (hlist : content.entryList = some es) :
    createTableOfEntries content =
      if (folderList es).length < folderSlots then
        if tifilesCalcIsTi8x content.model then
          if es.isEmpty then .ok ([[]], 1) else .error .nullPointer
        else .ok ((folderList es).map (tableRow es), (folderList es).length)
      else .error .outOfBounds := by
  obtain ⟨slots, hslots⟩ := Option.isSome_iff_exists.mp hentries
  unfold createTableOfEntries
  rw [hslots, hlist]
  dsimp only
  rw [foldlM_collectFolder es (by decide)]
  change (if (folderList es).length < folderSlots then Except.ok (folderList es)
    else Except.error TableFault.outOfBounds) >>= _ = _
  by_cases hfits : (folderList es).length < folderSlots
  · rw [if_pos hfits, if_pos hfits]
    by_cases h8x : tifilesCalcIsTi8x content.model = true
    · rw [if_pos h8x, if_pos h8x]
      show ((folderList es).map some ++ [none]).mapM (fillRow es) >>= _ = _
      rw [List.mapM_append, mapM_fillRow]
      cases es with
      | nil => rfl
      | cons e es => rfl
    · rw [if_neg h8x, if_neg h8x]
      show ((folderList es).map some ++ []).mapM (fillRow es) >>= _ = _
      rw [List.append_nil, mapM_fillRow]
      show Except.ok (_, ((folderList es).map some).length) = _
      rw [List.length_map]
  · rw [if_neg hfits, if_neg hfits]
    rfl

/-- With room for the folders it is the table that the TI-9x writer uses. -/
theorem createTableOfEntries_eq_writer {content : FileContent} {es : List VarEntry}
    (hentries : content.entries.isSome) (hlist : content.entryList = some es)
    (hfits : (folderList es).length < folderSlots) {table : List (List Nat) × Nat} :
    createTableOfEntries content = .ok table ↔
      tifilesCreateTableOfEntries content.model es = .ok table := by
  rw [createTableOfEntries_eq hentries hlist, if_pos hfits]
  unfold tifilesCreateTableOfEntries
  dsimp only
  have hok (found : List (List Nat) × Nat) : (Except.ok found : Except TableFault _) = .ok table ↔
      (Except.ok found : Except TifilesErr _) = .ok table := by
    rw [Except.ok.injEq, Except.ok.injEq]
  split
  · split
    · exact hok _
    · exact ⟨nofun, nofun⟩
  · exact hok _

/-! ## the partition -/

section Partition

variable {es : List VarEntry}

/-- The number of folders. -/
theorem length_folderList (hshort : ∀ e ∈ es, e.folder.chars.length ≤ 256) :
    (folderList es).length = (es.map fun e => e.folder.chars).dedup.length := by
  apply List.Perm.length_eq
  rw [List.perm_ext_iff_of_nodup (folderList_nodup hshort) (List.nodup_dedup _)]
  intro f
  rw [mem_folderList hshort, List.mem_dedup, List.mem_map]

theorem isPartition_tableRow (hshort : ∀ e ∈ es, e.folder.chars.length ≤ 256) :
    IsPartition es ((folderList es).map (tableRow es)) := by
  have hother : ((folderList es).map (tableRow es)).Pairwise fun row row' =>
      ∀ i ∈ row, ∀ j ∈ row', folderAt es i ≠ folderAt es j := by
    rw [List.pairwise_map]
    apply (folderList_nodup hshort).imp
    intro f f' hne i hi j hj hsame
    rw [mem_tableRow.mp hi, mem_tableRow.mp hj] at hsame
    exact hne (Option.some.inj hsame)
  have hincreasing : ∀ row ∈ (folderList es).map (tableRow es), row.Pairwise (· < ·) := by
    intro row hrow
    obtain ⟨folder, -, rfl⟩ := List.mem_map.mp hrow
    exact pairwise_tableRow es folder
  constructor
  · have hnodup : ((folderList es).map (tableRow es)).flatten.Nodup := by
      rw [List.nodup_flatten]
      constructor
      · intro row hrow
        exact (hincreasing row hrow).imp ne_of_lt
      · apply hother.imp
        intro row row' hrows i hi hi'
        exact hrows i hi i hi' rfl
    rw [List.perm_ext_iff_of_nodup hnodup List.nodup_range]
    intro i
    rw [List.mem_flatten, List.mem_range]
    constructor
    · rintro ⟨row, hrow, hi⟩
      obtain ⟨folder, -, rfl⟩ := List.mem_map.mp hrow
      obtain ⟨e, he, -⟩ := Option.map_eq_some_iff.mp (mem_tableRow.mp hi)
      exact (List.getElem?_eq_some_iff.mp he).1
    · intro hi
      refine ⟨tableRow es es[i].folder.chars, List.mem_map_of_mem ?_, ?_⟩
      · exact (mem_folderList hshort _).2 ⟨es[i], List.getElem_mem hi, rfl⟩
      · rw [mem_tableRow, folderAt, List.getElem?_eq_getElem hi]
        rfl
  · intro row hrow i hi j hj
    obtain ⟨folder, -, rfl⟩ := List.mem_map.mp hrow
    rw [mem_tableRow.mp hi, mem_tableRow.mp hj]
  · exact hother
  · exact hincreasing

/-- An entry whose folder has a long name is in no row. -/
theorem short_of_isPartition (h : IsPartition es ((folderList es).map (tableRow es))) :
    ∀ e ∈ es, e.folder.chars.length ≤ 256 := by
  intro e he
  obtain ⟨i, hi, rfl⟩ := List.mem_iff_getElem.mp he
  have hmem : i ∈ ((folderList es).map (tableRow es)).flatten :=
    h.once.mem_iff.mpr (List.mem_range.mpr hi)
  obtain ⟨row, hrow, hirow⟩ := List.mem_flatten.mp hmem
  obtain ⟨folder, hfolder, rfl⟩ := List.mem_map.mp hrow
  have hat := mem_tableRow.mp hirow
  rw [folderAt, List.getElem?_eq_getElem hi] at hat
  obtain rfl := Option.some.inj hat
  exact length_of_mem_folderList hfolder

/-- The table is a partition exactly when the model is none of the TI-8x or there is no entry,
no folder has more than 256 characters, and there are fewer than 32768 folders. -/
theorem createTableOfEntries_partition_iff {content : FileContent}
    (hentries : content.HasEntries es) :
    (∃ table n, createTableOfEntries content = .ok (table, n) ∧ IsPartition es table) ↔
      (tifilesCalcIsTi8x content.model = true → es = [])
        ∧ (∀ e ∈ es, e.folder.chars.length ≤ 256)
        ∧ (es.map fun e => e.folder.chars).dedup.length < folderSlots := by
  have hnone : IsPartition [] [] := ⟨List.Perm.refl _, nofun, List.Pairwise.nil, nofun⟩
  have hempty : IsPartition [] [[]] := by
    constructor
    · exact List.Perm.refl _
    · simp
    · simp
    · simp
  unfold FileContent.HasEntries at hentries
  split at hentries
  · next hslots =>
    subst hentries
    constructor
    · exact fun _ => ⟨fun _ => rfl, nofun, by decide⟩
    · refine fun _ => ⟨[], 0, ?_, hnone⟩
      unfold createTableOfEntries
      rw [hslots]
  · next slots hslots =>
    rw [createTableOfEntries_eq (by rw [hslots]; rfl) hentries]
    constructor
    · rintro ⟨table, n, htable, hpartition⟩
      split at htable
      · next hfits =>
        split at htable
        · split at htable
          · next hnil =>
            obtain rfl := List.isEmpty_iff.mp hnil
            exact ⟨fun _ => rfl, nofun, by decide⟩
          · cases htable
        · next h8x =>
          cases htable
          have hshort := short_of_isPartition hpartition
          exact ⟨fun h => absurd h h8x, hshort, by rw [← length_folderList hshort]; exact hfits⟩
      · cases htable
    · rintro ⟨h8x, hshort, hfits⟩
      rw [← length_folderList hshort] at hfits
      rw [if_pos hfits]
      by_cases h : tifilesCalcIsTi8x content.model = true
      · obtain rfl := h8x h
        rw [if_pos h]
        exact ⟨[[]], 1, rfl, hempty⟩
      · rw [if_neg h]
        exact ⟨_, _, rfl, isPartition_tableRow hshort⟩

end Partition

/-! ## contents -/

/-- A content of entries in one row after the other. -/
def contentOf (model : CalcModel) (es : List VarEntry) : FileContent where
  model := model
  defaultFolder := .empty
  comment := ⟨List.replicate 43 0, rfl⟩
  numEntries := UInt32.ofNat es.length
  entries := some (es.map some ++ [none])
  checksum := 0
  modelDst := model
  storedChecksum := 0

/-- Two folders, whose entries alternate. -/
def alternatingEntries : List VarEntry :=
  [[0x61], [0x62], [0x61]].map fun folder =>
    { tifilesVeCreate with folder := VarName.ofChars folder }

theorem createTableOfEntries_partition_iff_alternating :
    ∃ table n, createTableOfEntries (contentOf .ti89 alternatingEntries) = .ok (table, n)
      ∧ IsPartition alternatingEntries table :=
  (createTableOfEntries_partition_iff (show FileContent.HasEntries
    (contentOf .ti89 alternatingEntries) alternatingEntries from rfl)).mpr ⟨by decide, by decide, by decide⟩

/-- An entry whose folder has a name of 257 characters. -/
def longFolderEntry : VarEntry :=
  { tifilesVeCreate with folder := VarName.ofChars (List.replicate 257 0x61) }

/-- Its row is empty; and on a TI-83 the function follows a NULL pointer. -/
theorem not_partition_of_long_folder :
    createTableOfEntries (contentOf .ti89 [longFolderEntry]) = .ok ([[]], 1)
      ∧ ¬IsPartition [longFolderEntry] [[]]
      ∧ createTableOfEntries (contentOf .ti83 [tifilesVeCreate]) = .error .nullPointer := by
  refine ⟨by decide +kernel, ?_, by decide +kernel⟩
  intro h
  exact absurd h.once.length_eq (by decide)

end Tilibs.Files
