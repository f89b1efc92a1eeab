import Tilibs.Files.Grouped
import Tilibs.Files.Regular8xPasses
import Tilibs.Lib.PtrArray

/-!
# Tilibs.Files.EntryTable

The table of entries of a content, and the functions that make one and change one
(`grouped.cc`, `files8x.cc`, `files9x.cc`).

`tifiles.h` says what a table has to be: as many entries as are counted, and a NULL
behind them (`FileContent.TableOk`).  The reader of the TI-9x files gives the last slot
back, so that no content it reads has such a table (`not_tableOk_of_read9x`), and one that
deletes an entry of it reads behind the array.
-/

namespace Tilibs.Files

open Lib Conv

/-! ## adding and deleting -/

/-- `tifiles_ve_resize_array`; a size of zero bytes gives NULL. -/
def tifilesVeResizeArray (array : Option (List (Option VarEntry))) (nelts : UInt32) :
    Option (List (Option VarEntry)) :=
  if nelts + 1 = 0 then none
  else some ((resizeSlots (nelts + 1).toNat (array.getD [])).set nelts.toNat none)

/-- `tifiles_content_add_entry`, with the value it returns. -/
def tifilesContentAddEntry (content : FileContent) (ve : Option VarEntry) :
    Except GroupErr (Int32 × FileContent) :=
  match tifilesVeResizeArray content.entries (content.numEntries + 1) with
  | none => .error .nullPointer
  | some slots =>
      if slots.length ≤ content.numEntries.toNat then .error .outOfBounds
      else
        let content := {
          content with
          entries := some (slots.set content.numEntries.toNat ve)
          numEntries := content.numEntries + 1 }
        .ok (content.numEntries.toInt32, content)

/-- The two names are the same. -/
def sameName (e ve : VarEntry) : Bool :=
  e.folder.chars = ve.folder.chars ∧ e.name.chars = ve.name.chars

/-- The search of `tifiles_content_del_entry` over so many slots. -/
def findEntry (ve : VarEntry) : Nat → List (Option VarEntry) → Except GroupErr (Option Nat)
  | 0, _ => .ok none
  | _ + 1, [] => .error .outOfBounds
  | _ + 1, none :: _ => .error .nullPointer
  | n + 1, some e :: slots =>
      if sameName e ve then .ok (some 0)
      else (findEntry ve n slots).map fun found => found.map (· + 1)

/-- `tifiles_content_del_entry`, with the value it returns. -/
def tifilesContentDelEntry (content : FileContent) (ve : Option VarEntry) :
    Except GroupErr (Int32 × FileContent) :=
  match ve with
  | none => .ok (content.numEntries.toInt32, content)
  | some ve => do
      let slots := content.entries.getD []
      let num := content.numEntries.toNat
      match ← findEntry ve num slots with
      | none => .ok (-1, content)
      | some i =>
          -- the slot behind the entries is moved, too
          if slots.length ≤ num then .error .outOfBounds
          else
            let shifted := (shiftSlots (num - i) i slots).set num none
            let content := {
              content with
              entries := tifilesVeResizeArray (some shifted) (content.numEntries - 1)
              numEntries := content.numEntries - 1 }
            .ok (content.numEntries.toInt32, content)

/-! ## tables -/

/-- The number of entries is exact, and a NULL stands behind them in the last slot. -/
def FileContent.TableOk (content : FileContent) : Prop :=
  ∃ es, content.entries = some (terminated es) ∧ content.numEntries.toNat = es.length

/-- As a content is created: no array, and no entry counted. -/
def FileContent.Blank (content : FileContent) : Prop :=
  content.entries = none ∧ content.numEntries = 0

section Tables

variable {content : FileContent}

theorem toNat_succ_of_lt {n : UInt32} {k : Nat} (h : n.toNat + k < 2 ^ 32) (hk : k < 2 ^ 32) :
    (n + UInt32.ofNat k).toNat = n.toNat + k := by
  rw [UInt32.toNat_add, UInt32.toNat_ofNat_of_lt' hk, Nat.mod_eq_of_lt h]

/-- An array with room for one more entry. -/
theorem tifilesVeResizeArray_succ {array : Option (List (Option VarEntry))} {n : UInt32}
    (h : n.toNat + 2 < 2 ^ 32) :
    tifilesVeResizeArray array (n + 1)
      = some ((resizeSlots (n.toNat + 2) (array.getD [])).set (n.toNat + 1) none) := by
  have hone : (n + 1).toNat = n.toNat + 1 := toNat_succ_of_lt (k := 1) (by omega) (by decide)
  have htwo : (n + 1 + 1).toNat = n.toNat + 2 := by
    rw [UInt32.add_assoc]
    exact toNat_succ_of_lt (k := 2) h (by decide)
  have hne : n + 1 + 1 ≠ 0 := by
    intro hzero
    rw [hzero] at htwo
    cases htwo
  rw [tifilesVeResizeArray, if_neg hne, hone, htwo]

/-- An entry that is added to a table, or as the first one. -/
theorem tableOk_addEntry (htable : content.Blank ∨ content.TableOk) (e : VarEntry)
    (hroom : content.numEntries.toNat + 2 < 2 ^ 32) :
    ∃ ret added, tifilesContentAddEntry content (some e) = .ok (ret, added) ∧ added.TableOk := by
  have hresize := @tifilesVeResizeArray_succ content.entries _ hroom
  have hsucc : (content.numEntries + 1).toNat = content.numEntries.toNat + 1 :=
    toNat_succ_of_lt (k := 1) (by omega) (by decide)
  obtain ⟨es, hlen, hslots⟩ : ∃ es : List VarEntry, content.numEntries.toNat = es.length ∧
      ((resizeSlots (es.length + 2) (content.entries.getD [])).set (es.length + 1) none).set
        es.length (some e) = terminated (es ++ [e]) := by
    cases htable with
    | inl hblank =>
        refine ⟨[], by rw [hblank.2]; rfl, ?_⟩
        rw [hblank.1]
        rfl
    | inr htable =>
        obtain ⟨es, hentries, hlen⟩ := htable
        refine ⟨es, hlen, ?_⟩
        rw [hentries]
        exact terminated_push e
  have hfits : ¬((resizeSlots (content.numEntries.toNat + 2) (content.entries.getD [])).set
      (content.numEntries.toNat + 1) none).length ≤ content.numEntries.toNat := by
    rw [List.length_set, resizeSlots, List.length_append, List.length_take, List.length_replicate]
    omega
  unfold tifilesContentAddEntry
  rw [hresize]
  dsimp only
  rw [if_neg hfits]
  refine ⟨_, _, rfl, es ++ [e], ?_, ?_⟩
  · dsimp only
    rw [hlen, hslots]
  · dsimp only
    rw [hsucc, hlen, List.length_append, List.length_singleton]

theorem findEntry_terminated (ve : VarEntry) (es : List VarEntry) (slots : List (Option VarEntry)) :
    ∃ found, findEntry ve es.length (es.map some ++ slots) = .ok found ∧
      ∀ i ∈ found, i < es.length := by
  induction es with
  | nil => exact ⟨none, rfl, by simp⟩
  | cons e es ih =>
      obtain ⟨found, hfound, hlt⟩ := ih
      rw [List.map_cons, List.cons_append, List.length_cons, findEntry, hfound]
      split
      · exact ⟨some 0, rfl, by simp⟩
      · refine ⟨found.map (· + 1), rfl, ?_⟩
        intro i hi
        obtain ⟨j, hj, rfl⟩ := Option.map_eq_some_iff.mp hi
        exact Nat.succ_lt_succ (hlt j hj)

/-- What a delete leaves of a table. -/
theorem tableOk_delEntry (htable : content.TableOk) (ve : Option VarEntry) :
    ∃ ret left, tifilesContentDelEntry content ve = .ok (ret, left) ∧ left.TableOk := by
  cases ve with
  | none => exact ⟨_, _, rfl, htable⟩
  | some ve =>
      obtain ⟨es, hentries, hlen⟩ := htable
      obtain ⟨found, hfound, hlt⟩ := findEntry_terminated ve es [none]
      unfold tifilesContentDelEntry
      dsimp only
      rw [hentries, hlen, Option.getD_some]
      rw [show findEntry ve es.length (terminated es) = .ok found from hfound]
      cases found with
      | none => exact ⟨_, _, rfl, es, hentries, hlen⟩
      | some i =>
          have hi : i < es.length := hlt i rfl
          have hroom : ¬(terminated es).length ≤ es.length := by
            rw [length_terminated]
            omega
          have hpred : (content.numEntries - 1).toNat = es.length - 1 := by
            rw [UInt32.toNat_sub_of_le _ _ (by rw [UInt32.le_iff_toNat_le, hlen]; exact hi.pos), hlen]
            rfl
          have hsame : content.numEntries - 1 + 1 = content.numEntries := UInt32.sub_add_cancel _ _
          have hne : content.numEntries ≠ 0 := by
            intro hzero
            rw [hzero] at hlen
            change 0 = es.length at hlen
            omega
          refine ⟨_, _, if_neg hroom, es.eraseIdx i, ?_, ?_⟩
          · dsimp only
            rw [tifilesVeResizeArray, hsame, if_neg hne, hpred, hlen, Option.getD_some,
              terminated_erase hi]
          · dsimp only
            rw [hpred, List.length_eraseIdx_of_lt hi]

/-! ## grouping and ungrouping -/

theorem entryList_of_table (htable : content.Blank ∨ content.TableOk) :
    ∃ es, content.entryList = some es := by
  cases htable with
  | inl hblank =>
      refine ⟨[], ?_⟩
      rw [FileContent.entryList, hblank.2]
      rfl
  | inr htable =>
      obtain ⟨es, hentries, hlen⟩ := htable
      refine ⟨es, ?_⟩
      rw [FileContent.entryList, hentries, hlen]
      exact firstEntries_map_some es [none]

theorem entryLists_of_tables {contents : List FileContent}
    (htables : ∀ content ∈ contents, content.Blank ∨ content.TableOk) :
    ∃ entries, List.Forall₂ (fun content es => content.entryList = some es) contents entries := by
  induction contents with
  | nil => exact ⟨[], .nil⟩
  | cons content contents ih =>
      rw [List.forall_mem_cons] at htables
      obtain ⟨es, hes⟩ := entryList_of_table htables.1
      obtain ⟨entries, hentries⟩ := ih htables.2
      exact ⟨es :: entries, .cons hes hentries⟩

theorem mapM_dupEntries_eq {contents : List FileContent} {entries : List (List VarEntry)}
    (hentries : List.Forall₂ (fun content es => content.entryList = some es) contents entries) :
    contents.mapM dupEntries
      = .ok (entries.map fun es => es.map fun e => some (tifilesVeDup e)) := by
  induction hentries with
  | nil => rfl
  | cons hcontent hrest ih =>
      rw [List.mapM_cons, dupEntries_eq hcontent, ih]
      rfl

theorem sum_toNat_numEntries {contents : List FileContent} {entries : List (List VarEntry)}
    (hentries : List.Forall₂ (fun content es => content.entryList = some es) contents entries) :
    (contents.map fun content => content.numEntries.toNat).sum = entries.flatten.length := by
  induction hentries with
  | nil => rfl
  | cons hcontent hrest ih =>
      obtain ⟨hlength, -⟩ := firstEntries_eq_some hcontent
      rw [List.map_cons, List.sum_cons, List.flatten_cons, List.length_append, ih, hlength]

/-- A group of tables has a table, or is refused. -/
theorem tableOk_group {contents : List FileContent}
    (htables : ∀ content ∈ contents, content.Blank ∨ content.TableOk)
    (hcount : (contents.map fun content => content.numEntries.toNat).sum < 2 ^ 32) :
    (∃ group, tifilesGroupContents contents = .ok group ∧ group.TableOk) ∨
      tifilesGroupContents contents = .error .badCalc ∨
        tifilesGroupContents contents = .error .malloc := by
  obtain ⟨entries, hentries⟩ := entryLists_of_tables htables
  rw [sum_toNat_numEntries hentries] at hcount
  have hsum := sum_numEntries hentries hcount
  unfold tifilesGroupContents
  split
  · exact Or.inr (Or.inl rfl)
  dsimp only
  split
  · exact Or.inr (Or.inr rfl)
  refine Or.inl ?_
  rw [mapM_dupEntries_eq hentries]
  have hslots : (entries.map fun es => es.map fun e => some (tifilesVeDup e)).flatten
      = (entries.flatten.map tifilesVeDup).map some := by
    rw [List.map_map, List.map_flatten]
    rfl
  have hfits : ¬(entries.map fun es => es.map fun e => some (tifilesVeDup e)).flatten.length
      > (contents.map FileContent.numEntries).sum.toNat + 1 := by
    rw [hslots, List.length_map, List.length_map, hsum]
    omega
  refine ⟨_, if_neg hfits, entries.flatten.map tifilesVeDup, ?_, ?_⟩
  · dsimp only
    rw [hslots, List.length_map, List.length_map, hsum, Nat.add_sub_cancel_left]
    rfl
  · rw [List.length_map]
    exact hsum

theorem mapM_ungroupEntry_tables (group : FileContent) (es : List VarEntry) :
    ∃ singles, (es.map some).mapM (ungroupEntry group) = .ok singles ∧
      ∀ single ∈ singles, single.TableOk := by
  induction es with
  | nil => exact ⟨[], rfl, by simp⟩
  | cons e es ih =>
      obtain ⟨singles, hsingles, htables⟩ := ih
      have hdup : dupSlot (some e) = some (tifilesVeDup e) := rfl
      have hstep : ∃ single, ungroupEntry group (some e) = .ok single ∧ single.TableOk := by
        unfold ungroupEntry
        rw [hdup]
        exact ⟨_, rfl, [tifilesVeDup e], rfl, rfl⟩
      obtain ⟨single, hsingle, htable⟩ := hstep
      refine ⟨single :: singles, ?_, List.forall_mem_cons.mpr ⟨htable, htables⟩⟩
      rw [List.map_cons, List.mapM_cons, hsingle, hsingles]
      rfl

/-- The contents that a table is taken apart into have tables, or it is refused. -/
theorem tableOk_ungroup (htable : content.Blank ∨ content.TableOk) :
    (∃ singles, tifilesUngroupContent content = .ok singles ∧
        ∀ single ∈ singles, single.TableOk) ∨
      tifilesUngroupContent content = .error .badCalc ∨
        tifilesUngroupContent content = .error .malloc := by
  obtain ⟨es, hes⟩ := entryList_of_table htable
  obtain ⟨hlength, rest, hslots⟩ := firstEntries_eq_some hes
  unfold tifilesUngroupContent
  split
  · exact Or.inr (Or.inl rfl)
  split
  · exact Or.inr (Or.inr rfl)
  refine Or.inl ?_
  dsimp only
  rw [← hslots, ← hlength, if_neg (by rw [List.length_append, List.length_map]; omega),
    List.take_left' (List.length_map some)]
  exact mapM_ungroupEntry_tables content es

end Tables

/-! ## reading -/

section Read

variable {conv : Converters} {filename bytes : List UInt8} {content read : FileContent}

/-- Each entry of the first pass is somewhere else. -/
theorem countEntries_le {model : CalcModel} {last n : Nat} {layout final : Layout8x} {f : InFile}
    (h : countEntries model last layout f = .ok (n, final)) : n ≤ last - f.pos := by
  induction hleft : last - f.pos using Nat.strong_induction_on generalizing f n layout with
  | _ d ih =>
      by_cases hend : last ≤ f.pos
      · rw [countEntries, if_pos hend] at h
        cases h
        omega
      · obtain ⟨next, f', m, hskip, hcount, rfl⟩ := countEntries_of_lt (Nat.not_le.mp hend) h
        have hlt := lt_of_exec_skipEntry hskip
        have hrest := ih _ (by omega) hcount rfl
        omega

theorem length_readEntries8x {model modelDst : CalcModel} {fileSize n : Nat} {layout : Layout8x}
    {f f' : InFile} {entries : List VarEntry × Nat}
    (h : Proc.exec (readEntries8x conv model modelDst fileSize layout n) f = (.ok entries, f')) :
    entries.1.length = n := by
  induction n generalizing f entries with
  | zero =>
      cases h
      rfl
  | succ n ih =>
      rw [readEntries8x] at h
      obtain ⟨entry, next, -, h⟩ := Proc.exec_bind_eq_ok_iff.mp h
      obtain ⟨rest, t, hrest, h⟩ := Proc.exec_bind_eq_ok_iff.mp h
      cases h
      rw [List.length_cons, ih hrest]

theorem tableOk_of_read8x (h : ti8xFileReadRegular conv filename bytes content = .ok read) :
    read.TableOk := by
  obtain ⟨n, layout, entries, f', hcount, hentries, hnum, hslots⟩ := exists_of_ti8xFileReadRegular h
  have hle : n ≤ sectionEnd bytes - 55 := countEntries_le hcount
  have hword : wordAt bytes 53 < 2 ^ 32 := by
    have hlt := getLE_lt ((bytes.drop 53).take 2)
    have hlen : ((bytes.drop 53).take 2).length ≤ 4 := (List.length_take_le _ _).trans (by decide)
    exact lt_of_lt_of_le hlt (Nat.pow_le_pow_right (by decide) hlen)
  refine ⟨entries.1, hslots, ?_⟩
  rw [hnum, length_readEntries8x hentries]
  apply UInt32.toNat_ofNat_of_lt'
  unfold sectionEnd at hle
  show n < 2 ^ 32
  omega

/-- The array of the entries of a TI-9x file. -/
theorem entries_of_read9x (h : ti9xFileReadRegular conv filename bytes content = .ok read) :
    ∃ es : List VarEntry, read.entries = if es.isEmpty then none else some (es.map some) := by
  unfold ti9xFileReadRegular at h
  rw [check_eq_ok_iff, check_eq_ok_iff] at h
  obtain ⟨-, -, h⟩ := h
  cases hbody : Proc.exec (readRegular9xBody conv bytes.length content) ⟨bytes, 0⟩ with
  | mk result f' =>
      rw [hbody] at h
      dsimp only at h
      subst h
      unfold readRegular9xBody at hbody
      obtain ⟨signature, t, -, hbody⟩ := Proc.exec_bind_eq_ok_iff.mp hbody
      dsimp only at hbody
      split at hbody
      · cases hbody
      · obtain ⟨_, t, -, hbody⟩ := Proc.exec_bind_eq_ok_iff.mp hbody
        obtain ⟨folder, t, -, hbody⟩ := Proc.exec_bind_eq_ok_iff.mp hbody
        obtain ⟨comment, t, -, hbody⟩ := Proc.exec_bind_eq_ok_iff.mp hbody
        obtain ⟨count, t, -, hbody⟩ := Proc.exec_bind_eq_ok_iff.mp hbody
        obtain ⟨⟨es, sum, stored⟩, t, -, hbody⟩ := Proc.exec_bind_eq_ok_iff.mp hbody
        cases hbody
        exact ⟨es, rfl⟩

/-- No content from a TI-9x file has a NULL behind its entries. -/
theorem not_tableOk_of_read9x (h : ti9xFileReadRegular conv filename bytes content = .ok read) :
    ¬ read.TableOk := by
  obtain ⟨es, hes⟩ := entries_of_read9x h
  rintro ⟨es', hentries, -⟩
  rw [hes] at hentries
  split at hentries
  · cases hentries
  · have hmem : none ∈ terminated es' := List.mem_append_right _ (List.mem_singleton_self none)
    rw [← Option.some.inj hentries] at hmem
    simp at hmem

end Read

end Tilibs.Files
