import Tilibs.Files.TableOfEntries

/-!
# Tilibs.Files.Grouped

Contents that are put into a group and taken out of it again (`grouped.cc`).

A group has the fields of the first content and copies of the entries of all; each entry of a
group becomes a content of its own, with the fields of the group.
-/

namespace Tilibs.Files

open Lib
open Dbus (tifilesChecksum)

/-- The error codes of `tifiles_group_contents` and `tifiles_ungroup_content`, and what they must
not do: follow a NULL pointer, or leave an array. -/
inductive GroupErr
  | badCalc
  | malloc
  | nullPointer
  | outOfBounds
  deriving DecidableEq

/-- `tifiles_ve_dup` of what is in a slot. -/
def dupSlot (slot : Option VarEntry) : Option VarEntry := slot.map tifilesVeDup

/-- A content of zeros. -/
def zeroContent : FileContent where
  model := .none
  defaultFolder := .empty
  comment := .zeros 43
  numEntries := 0
  entries := none
  checksum := 0
  modelDst := .none
  storedChecksum := 0

/-- The inner loop: copies of the entries of a content. -/
def dupEntries (content : FileContent) : Except GroupErr (List (Option VarEntry)) :=
  let slots := content.entries.getD []
  if slots.length < content.numEntries.toNat then .error .outOfBounds
  else .ok ((slots.take content.numEntries.toNat).map dupSlot)

/-- `tifiles_group_contents`; the number of entries is counted with 32 bits, and one more slot
is allocated. -/
def tifilesGroupContents (contents : List FileContent) : Except GroupErr FileContent :=
  if contents.any fun content => ticonvModelIsTinspire content.model then .error .badCalc
  else
    let numEntries := (contents.map FileContent.numEntries).sum
    if numEntries + 1 = 0 then .error .malloc
    else do
      let slots ← contents.mapM dupEntries
      if slots.flatten.length > numEntries.toNat + 1 then throw .outOfBounds
      else
        return {
          contents.headD zeroContent with
          numEntries
          entries := some
            (slots.flatten ++ List.replicate (numEntries.toNat + 1 - slots.flatten.length) none) }

/-- A turn of the loop of `tifiles_ungroup_content`.  The checksum of an entry begins with the
first 15 bytes of its folder. -/
def ungroupEntry (content : FileContent) (slot : Option VarEntry) : Except GroupErr FileContent :=
  match dupSlot slot with
  | none => .error .nullPointer
  | some e =>
      .ok {
        content with
        numEntries := 1
        entries := some [some e, none]
        checksum := content.checksum
          + UInt16.ofNat (tifilesChecksum (padRight 15 0 (e.folder.chars.take 15)))
          + UInt16.ofNat (tifilesChecksum (e.data.getD [])) }

/-- `tifiles_ungroup_content` -/
def tifilesUngroupContent (content : FileContent) : Except GroupErr (List FileContent) :=
  if ticonvModelIsTinspire content.model then .error .badCalc
  else if content.numEntries + 1 = 0 then .error .malloc
  else
    let slots := content.entries.getD []
    if slots.length < content.numEntries.toNat then .error .outOfBounds
    else (slots.take content.numEntries.toNat).mapM (ungroupEntry content)

/-! ## grouping -/

/-- An entry with the bytes of its buffer. -/
def VarEntry.copy (e : VarEntry) : VarEntry := { e with data := some (e.data.getD []) }

theorem tifilesVeDup_of_sized {e : VarEntry} (h : e.Sized) : tifilesVeDup e = e.copy := by
  unfold VarEntry.Sized at h
  unfold tifilesVeDup VarEntry.copy padRight
  rw [List.take_of_length_le h.le, h, Nat.sub_self, List.replicate_zero, List.append_nil]

theorem tifilesVeDup_copy {e : VarEntry} (h : e.Sized) : tifilesVeDup e.copy = e.copy :=
  tifilesVeDup_of_sized (show e.copy.Sized from h)

/-- The entries of a content are in its first slots. -/
theorem firstEntries_eq_some {n : Nat} {slots : List (Option VarEntry)} {es : List VarEntry}
    (h : firstEntries n slots = some es) : es.length = n ∧ es.map some <+: slots := by
  induction n generalizing slots es with
  | zero =>
      cases h
      exact ⟨rfl, List.nil_prefix⟩
  | succ n ih =>
      cases slots with
      | nil => cases h
      | cons slot slots =>
          cases slot with
          | none => cases h
          | some e =>
              obtain ⟨rest, hrest, rfl⟩ := Option.map_eq_some_iff.mp h
              obtain ⟨hlength, hprefix⟩ := ih hrest
              exact ⟨congrArg Nat.succ hlength, List.cons_prefix_cons.mpr ⟨rfl, hprefix⟩⟩

theorem dupEntries_eq {content : FileContent} {es : List VarEntry}
    (hentries : content.entryList = some es) :
    dupEntries content = .ok (es.map fun e => some (tifilesVeDup e)) := by
  obtain ⟨hlength, rest, hslots⟩ := firstEntries_eq_some hentries
  unfold dupEntries
  dsimp only
  rw [← hslots, ← hlength, if_neg (by rw [List.length_append, List.length_map]; omega),
    List.take_left' (List.length_map some), List.map_map]
  rfl

theorem dupEntries_ok {content : FileContent} {es : List VarEntry}
    (hentries : content.entryList = some es) (hsized : ∀ e ∈ es, e.Sized) :
    dupEntries content = .ok (es.map fun e => some e.copy) := by
  rw [dupEntries_eq hentries]
  apply congrArg Except.ok
  apply List.map_congr_left
  intro e he
  exact congrArg some (tifilesVeDup_of_sized (hsized e he))

section Group

variable {contents : List FileContent} {entries : List (List VarEntry)}

theorem mapM_dupEntries
    (hentries : List.Forall₂ (fun content es => content.entryList = some es) contents entries)
    (hsized : ∀ e ∈ entries.flatten, e.Sized) :
    contents.mapM dupEntries = .ok (entries.map fun es => es.map fun e => some e.copy) := by
  induction hentries with
  | nil => rfl
  | cons hcontent hrest ih =>
      rw [List.flatten_cons, List.forall_mem_append] at hsized
      rw [List.mapM_cons, dupEntries_ok hcontent hsized.1, ih hsized.2]
      rfl

theorem sum_numEntries
    (hentries : List.Forall₂ (fun content es => content.entryList = some es) contents entries)
    (hcount : entries.flatten.length < 2 ^ 32) :
    ((contents.map FileContent.numEntries).sum).toNat = entries.flatten.length := by
  induction hentries with
  | nil => rfl
  | cons hcontent hrest ih =>
      rw [List.flatten_cons, List.length_append] at hcount ⊢
      obtain ⟨hlength, -⟩ := firstEntries_eq_some hcontent
      rw [List.map_cons, List.sum_cons, UInt32.toNat_add, ih (by omega), hlength,
        Nat.mod_eq_of_lt (by omega)]

/-- A group has copies of all entries, in their order. -/
theorem tifilesGroupContents_ok (hnspire : ∀ content ∈ contents,
      ticonvModelIsTinspire content.model = false)
    (hentries : List.Forall₂ (fun content es => content.entryList = some es) contents entries)
    (hsized : ∀ e ∈ entries.flatten, e.Sized) (hcount : entries.flatten.length + 1 < 2 ^ 32) :
    ∃ group, tifilesGroupContents contents = .ok group
      ∧ group.model = (contents.headD zeroContent).model
      ∧ group.numEntries.toNat = entries.flatten.length
      ∧ group.entries = some (entries.flatten.map (fun e => some e.copy) ++ [none]) := by
  have hsum := sum_numEntries hentries (by omega)
  have hslots : (entries.map fun es => es.map fun e => some e.copy).flatten
      = entries.flatten.map fun e => some e.copy := by
    rw [List.map_flatten]
  have hmore : (contents.map FileContent.numEntries).sum + 1 ≠ 0 := by
    intro hzero
    have hnat := congrArg UInt32.toNat hzero
    rw [UInt32.toNat_add, hsum] at hnat
    change (entries.flatten.length + 1) % 2 ^ 32 = 0 at hnat
    omega
  unfold tifilesGroupContents
  rw [if_neg (by simpa using hnspire)]
  dsimp only
  rw [if_neg hmore, mapM_dupEntries hentries hsized]
  have hroom : ¬(entries.map fun es => es.map fun e => some e.copy).flatten.length
      > (contents.map FileContent.numEntries).sum.toNat + 1 := by
    rw [hslots, List.length_map, hsum]
    omega
  refine ⟨_, if_neg hroom, rfl, hsum, ?_⟩
  rw [hslots, List.length_map, hsum, Nat.add_sub_cancel_left]
  rfl

/-! ## ungrouping -/

/-- A content of one entry. -/
structure IsSingle (model : CalcModel) (e : VarEntry) (content : FileContent) : Prop where
  model : content.model = model
  numEntries : content.numEntries = 1
  entries : content.entries = some [some e.copy, none]

theorem mapM_ungroupEntry {group : FileContent} {es : List VarEntry} (hsized : ∀ e ∈ es, e.Sized) :
    ∃ singles, (es.map fun e => some e.copy).mapM (ungroupEntry group) = .ok singles
      ∧ List.Forall₂ (IsSingle group.model) es singles := by
  induction es with
  | nil => exact ⟨[], rfl, .nil⟩
  | cons e es ih =>
      obtain ⟨he, hes⟩ := List.forall_mem_cons.mp hsized
      obtain ⟨singles, hsingles, hall⟩ := ih hes
      have hdup : dupSlot (some e.copy) = some e.copy := congrArg some (tifilesVeDup_copy he)
      have hstep : ∃ single, ungroupEntry group (some e.copy) = .ok single
          ∧ IsSingle group.model e single := by
        unfold ungroupEntry
        rw [hdup]
        exact ⟨_, rfl, rfl, rfl, rfl⟩
      obtain ⟨single, hsingle, his⟩ := hstep
      refine ⟨single :: singles, ?_, .cons his hall⟩
      rw [List.map_cons, List.mapM_cons, hsingle, hsingles]
      rfl

/-- The entries of a group come out one by one, as they were before they were grouped. -/
theorem tifilesUngroupContent_group {model : CalcModel} (hne : contents ≠ [])
    (hmodel : ∀ content ∈ contents, content.model = model)
    (hnspire : ticonvModelIsTinspire model = false)
    (hentries : List.Forall₂ (fun content es => content.entryList = some es) contents entries)
    (hsized : ∀ e ∈ entries.flatten, e.Sized) (hcount : entries.flatten.length + 1 < 2 ^ 32) :
    ∃ group singles, tifilesGroupContents contents = .ok group
      ∧ tifilesUngroupContent group = .ok singles
      ∧ List.Forall₂ (IsSingle model) entries.flatten singles := by
  obtain ⟨group, hgroup, hgroupModel, hnum, hslots⟩ := tifilesGroupContents_ok
    (fun content hmem => by rw [hmodel content hmem]; exact hnspire) hentries hsized hcount
  have hhead : group.model = model := by
    obtain ⟨content, rest, rfl⟩ := List.exists_cons_of_ne_nil hne
    rw [hgroupModel]
    exact hmodel content List.mem_cons_self
  obtain ⟨singles, hsingles, hall⟩ := mapM_ungroupEntry hsized
  refine ⟨group, singles, hgroup, ?_, hhead ▸ hall⟩
  have hmore : group.numEntries + 1 ≠ 0 := by
    intro hzero
    have hnat := congrArg UInt32.toNat hzero
    rw [UInt32.toNat_add, hnum] at hnat
    change (entries.flatten.length + 1) % 2 ^ 32 = 0 at hnat
    omega
  unfold tifilesUngroupContent
  rw [hhead, hnspire, if_neg Bool.false_ne_true, if_neg hmore]
  dsimp only
  rw [hslots, hnum, Option.getD_some, if_neg (by rw [List.length_append, List.length_map]; omega),
    List.take_left' (List.length_map _)]
  exact hsingles

end Group

/-- Two contents, the first of two entries. -/
theorem tifilesUngroupContent_group_alternating :
    ∃ group singles, tifilesGroupContents [contentOf .ti89 (alternatingEntries.take 2),
          contentOf .ti89 (alternatingEntries.drop 2)] = .ok group
      ∧ tifilesUngroupContent group = .ok singles
      ∧ List.Forall₂ (IsSingle .ti89)
        [alternatingEntries.take 2, alternatingEntries.drop 2].flatten singles :=
  tifilesUngroupContent_group (List.cons_ne_nil _ _) (by simp [contentOf]) rfl
    (.cons rfl (.cons rfl .nil))
    (by unfold VarEntry.Sized; decide) (by decide)

/-- The contents of a TI-Nspire are not grouped. -/
theorem tifilesGroupContents_nspire :
    tifilesGroupContents [contentOf .nspire alternatingEntries] = .error .badCalc := by
  decide

end Tilibs.Files
