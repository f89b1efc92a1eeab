import Tilibs.Files.EntryTable
import Tilibs.Lib.Run

/-!
# Tilibs.Files.EntryTableRuns

Contents that are read, grouped, taken apart and changed in any order, and their tables.

Every operation leaves a table as it has to be, except the reader of the TI-9x files, which
never does, an addition of NULL, and one to a table whose number of entries nearly fills 32
bits (`tableRun_tableOk`).
-/

namespace Tilibs.Files

open Lib Conv

/-! ## operations -/

/-- The contents of a program; one that has been released is `none`. -/
abbrev Contents := List (Option FileContent)

/-- A content of the program. -/
def Contents.at (contents : Contents) (i : Nat) : Option FileContent := contents[i]?.join

inductive TableOp
  | create (model : CalcModel) (comment : Buf 43)
  | read8x (i : Nat) (filename bytes : List UInt8)
  | read9x (i : Nat) (filename bytes : List UInt8)
  | group (is : List Nat)
  | ungroup (i : Nat)
  | addEntry (i : Nat) (ve : Option VarEntry)
  | delEntry (i : Nat) (ve : Option VarEntry)

/-- `tifiles_content_create_regular` -/
def tifilesContentCreateRegular (model : CalcModel) (comment : Buf 43) : FileContent :=
  { zeroContent with model, modelDst := model, comment }

/-- A content that an operation has worked on, or what the operation must not do. -/
abbrev TableOut := Except GroupErr FileContent

/-- An error that is returned leaves the contents alone. -/
def refused : GroupErr → List TableOut
  | .badCalc | .malloc => []
  | .nullPointer => [.error .nullPointer]
  | .outOfBounds => [.error .outOfBounds]

/-- A content that could not be read is released. -/
def readInto (contents : Contents) (i : Nat) :
    Except TifilesErr FileContent → List TableOut × Contents
  | .ok read => ([.ok read], contents.set i (some read))
  | .error _ => ([], contents.set i none)

/-- New contents. -/
def addContents (contents : Contents) :
    Except GroupErr (List FileContent) → List TableOut × Contents
  | .ok new => (new.map .ok, contents ++ new.map some)
  | .error e => (refused e, contents)

/-- A change of a content; the value -1 says that there was nothing to change. -/
def changeAt (contents : Contents) (i : Nat) :
    Except GroupErr (Int32 × FileContent) → List TableOut × Contents
  | .ok (ret, changed) =>
      (if ret = -1 then [] else [.ok changed], contents.set i (some changed))
  | .error e => (refused e, contents)

/-- Work on a content, if there is one. -/
def onContent (contents : Contents) (i : Nat) (work : FileContent → List TableOut × Contents) :
    List TableOut × Contents :=
  match contents.at i with
  | none => ([], contents)
  | some content => work content

/-- One operation: the contents it has worked on, and those that there are. -/
def tableStep (conv : Converters) (op : TableOp) (contents : Contents) :
    List TableOut × Contents :=
  match op with
  | .create model comment =>
      ([], contents ++ [some (tifilesContentCreateRegular model comment)])
  | .read8x i filename bytes => onContent contents i fun content =>
      readInto contents i (ti8xFileReadRegular conv filename bytes content)
  | .read9x i filename bytes => onContent contents i fun content =>
      readInto contents i (ti9xFileReadRegular conv filename bytes content)
  | .group is =>
      addContents contents ((tifilesGroupContents (is.filterMap contents.at)).map fun group => [group])
  | .ungroup i => onContent contents i fun content =>
      addContents contents (tifilesUngroupContent content)
  | .addEntry i ve => onContent contents i fun content =>
      changeAt contents i (tifilesContentAddEntry content ve)
  | .delEntry i ve => onContent contents i fun content =>
      changeAt contents i (tifilesContentDelEntry content ve)

/-- No fault, and a table as it has to be. -/
def TableRight (out : TableOut) : Prop := ∃ content, out = .ok content ∧ content.TableOk

/-- Where an operation keeps the tables right. -/
def KeepsTable (conv : Converters) (op : TableOp) (contents : Contents) : Prop :=
  match op with
  | .read9x i filename bytes => ∀ content, contents.at i = some content →
      ∀ read, ti9xFileReadRegular conv filename bytes content ≠ .ok read
  | .group is =>
      ((is.filterMap contents.at).map fun content => content.numEntries.toNat).sum < 2 ^ 32
  | .addEntry i ve => ∀ content, contents.at i = some content →
      ve ≠ none ∧ content.numEntries.toNat + 2 < 2 ^ 32
  | .delEntry i ve => ∀ content, contents.at i = some content →
      ve = none → content.entries ≠ none
  | _ => True

/-- Every content is as it was created, or has a table. -/
def TablesOk (contents : Contents) : Prop :=
  ∀ content, some content ∈ contents → content.Blank ∨ content.TableOk

/-! ## steps -/

section Steps

variable {conv : Converters} {contents : Contents} {content : FileContent} {i : Nat}

theorem TablesOk.at (hok : TablesOk contents) (h : contents.at i = some content) :
    content.Blank ∨ content.TableOk := by
  have hmem : contents[i]? = some (some content) := by
    unfold Contents.at at h
    exact Option.join_eq_some_iff.mp h
  exact hok content (List.mem_of_getElem? hmem)

theorem TablesOk.append (hok : TablesOk contents) {more : List FileContent}
    (hmore : ∀ content ∈ more, content.Blank ∨ content.TableOk) :
    TablesOk (contents ++ more.map some) := by
  intro content hmem
  cases List.mem_append.mp hmem with
  | inl hold => exact hok content hold
  | inr hnew =>
      obtain ⟨new, hnew, heq⟩ := List.mem_map.mp hnew
      cases heq
      exact hmore _ hnew

theorem TablesOk.set (hok : TablesOk contents) {new : Option FileContent}
    (hnew : ∀ content, new = some content → content.Blank ∨ content.TableOk) :
    TablesOk (contents.set i new) := by
  intro content hmem
  cases List.mem_or_eq_of_mem_set hmem with
  | inl hold => exact hok content hold
  | inr heq => exact hnew content heq.symm

/-- What an operation has to do: no fault, and tables wherever it has worked. -/
def Right (result : List TableOut × Contents) : Prop :=
  (∀ out ∈ result.1, TableRight out) ∧ TablesOk result.2

theorem right_onContent (hok : TablesOk contents) {work : FileContent → List TableOut × Contents}
    (hwork : ∀ content, contents.at i = some content → Right (work content)) :
    Right (onContent contents i work) := by
  unfold onContent
  split
  · exact ⟨by simp, hok⟩
  · rename_i content hcontent
    exact hwork content hcontent

theorem right_addContents (hok : TablesOk contents) {result : Except GroupErr (List FileContent)}
    (hresult : (∃ new, result = .ok new ∧ ∀ content ∈ new, content.TableOk) ∨
      result = .error .badCalc ∨ result = .error .malloc) : Right (addContents contents result) := by
  rcases hresult with ⟨new, rfl, htables⟩ | rfl | rfl
  · refine ⟨?_, hok.append fun content hmem => Or.inr (htables content hmem)⟩
    intro out hout
    obtain ⟨content, hmem, rfl⟩ := List.mem_map.mp hout
    exact ⟨content, rfl, htables content hmem⟩
  · exact ⟨by simp [addContents, refused], hok⟩
  · exact ⟨by simp [addContents, refused], hok⟩

theorem right_readInto (hok : TablesOk contents) {result : Except TifilesErr FileContent}
    (hresult : ∀ read, result = .ok read → read.TableOk) : Right (readInto contents i result) := by
  cases result with
  | ok read =>
      have htable := hresult read rfl
      refine ⟨?_, hok.set ?_⟩
      · intro out hout
        rw [List.mem_singleton.mp hout]
        exact ⟨read, rfl, htable⟩
      · intro content heq
        cases heq
        exact Or.inr htable
  | error e => exact ⟨by simp [readInto], hok.set (by simp)⟩

theorem right_changeAt (hok : TablesOk contents) {ret : Int32} {changed : FileContent}
    (htable : changed.TableOk) : Right (changeAt contents i (.ok (ret, changed))) := by
  refine ⟨?_, hok.set ?_⟩
  · intro out hout
    change out ∈ (if ret = -1 then [] else [Except.ok changed]) at hout
    split at hout
    · cases hout
    · rw [List.mem_singleton.mp hout]
      exact ⟨changed, rfl, htable⟩
  · intro content heq
    cases heq
    exact Or.inr htable

/-- In a content without an array nothing is found. -/
theorem right_delEntry_blank (hok : TablesOk contents) (hblank : content.Blank) (ve : VarEntry) :
    Right (changeAt contents i (tifilesContentDelEntry content (some ve))) := by
  have hrun : tifilesContentDelEntry content (some ve) = .ok (-1, content) := by
    unfold tifilesContentDelEntry
    rw [hblank.2]
    rfl
  rw [hrun]
  refine ⟨by simp [changeAt], hok.set ?_⟩
  intro content' heq
  cases heq
  exact Or.inl hblank

theorem right_tableStep {op : TableOp} (hok : TablesOk contents)
    (hkeeps : KeepsTable conv op contents) : Right (tableStep conv op contents) := by
  cases op with
  | create model comment =>
      have hblank : (tifilesContentCreateRegular model comment).Blank := ⟨rfl, rfl⟩
      have hnew : ∀ content ∈ [tifilesContentCreateRegular model comment],
          content.Blank ∨ content.TableOk := by
        intro content hmem
        rw [List.mem_singleton.mp hmem]
        exact Or.inl hblank
      exact ⟨by simp [tableStep], hok.append hnew⟩
  | read8x i filename bytes =>
      exact right_onContent hok fun content _ =>
        right_readInto hok fun read hread => tableOk_of_read8x hread
  | read9x i filename bytes =>
      exact right_onContent hok fun content hcontent =>
        right_readInto hok fun read hread => absurd hread (hkeeps content hcontent read)
  | group is =>
      have htables : ∀ content ∈ is.filterMap contents.at, content.Blank ∨ content.TableOk := by
        intro content hmem
        obtain ⟨i, -, hi⟩ := List.mem_filterMap.mp hmem
        exact hok.at hi
      apply right_addContents hok
      rcases tableOk_group htables hkeeps with ⟨group, hgroup, htable⟩ | hrefused | hrefused
      · refine Or.inl ⟨[group], by rw [hgroup]; rfl, ?_⟩
        intro content hmem
        rw [List.mem_singleton.mp hmem]
        exact htable
      · exact Or.inr (Or.inl (by rw [hrefused]; rfl))
      · exact Or.inr (Or.inr (by rw [hrefused]; rfl))
  | ungroup i =>
      exact right_onContent hok fun content hcontent =>
        right_addContents hok (tableOk_ungroup (hok.at hcontent))
  | addEntry i ve =>
      apply right_onContent hok
      intro content hcontent
      obtain ⟨hve, hroom⟩ := hkeeps content hcontent
      obtain ⟨e, rfl⟩ := Option.ne_none_iff_exists'.mp hve
      obtain ⟨ret, added, hrun, htable⟩ := tableOk_addEntry (hok.at hcontent) e hroom
      rw [hrun]
      exact right_changeAt hok htable
  | delEntry i ve =>
      apply right_onContent hok
      intro content hcontent
      cases hok.at hcontent with
      | inl hblank =>
          cases ve with
          | none => exact absurd hblank.1 (hkeeps content hcontent rfl)
          | some ve => exact right_delEntry_blank hok hblank ve
      | inr htable =>
          obtain ⟨ret, left, hrun, hleft⟩ := tableOk_delEntry htable ve
          rw [hrun]
          exact right_changeAt hok hleft

end Steps

/-! ## runs -/

/-- In a run whose operations keep the tables right, each content that an operation has
worked on has its number of entries and a NULL behind them. -/
theorem tableRun_tableOk (conv : Converters) (ops : List TableOp)
    (hops : EachStep (tableStep conv) (KeepsTable conv) ops []) :
    ∀ out ∈ (runSteps (tableStep conv) ops []).1, TableRight out := by
  have hempty : TablesOk [] := by
    intro content hmem
    cases hmem
  exact (runSteps_rel (fun _ _ outs _ => ∀ out ∈ outs, TableRight out) (by simp)
    (fun _ _ _ _ _ _ _ hfirst hnext => List.forall_mem_append.mpr ⟨hfirst, hnext⟩)
    (fun _ _ hok hkeeps => right_tableStep hok hkeeps) hempty hops).1

/-- A new content, and an entry that it gets. -/
def createAndAdd : List TableOp :=
  [.create .ti89 (Buf.zeros 43), .addEntry 0 (some tifilesVeCreate)]

theorem tableRun_tableOk_add :
    (runSteps (tableStep serialConverters) createAndAdd []).1.length = 1
      ∧ ∀ out ∈ (runSteps (tableStep serialConverters) createAndAdd []).1, TableRight out := by
  refine ⟨by decide, ?_⟩
  apply tableRun_tableOk
  refine ⟨trivial, ?_, trivial⟩
  intro content hcontent
  cases hcontent
  exact ⟨by simp, by decide⟩

/-- A TI-89 file of one variable is read, and the variable is deleted. -/
def readAndDelete : List TableOp :=
  [.create .ti89 (Buf.zeros 43),
    .read9x 0 (ascii "x.89e") (writtenFile (sampleContent "" [sampleEntry "main" "x" 0 0])),
    .delEntry 0 (some (sampleEntry "main" "x" 0 0))]

/-- The content has a slot for the variable and none behind it, and the delete reads there. -/
theorem tableRun_read9x :
    ((runSteps (tableStep serialConverters) readAndDelete []).1.map fun out =>
        out.map fun content => (content.numEntries, content.entries))
      = [.ok (1, some [some (sampleEntry "main" "x" 0 0)]), .error .outOfBounds]
      ∧ ¬ ∀ out ∈ (runSteps (tableStep serialConverters) readAndDelete []).1, TableRight out := by
  have hfault : .error .outOfBounds ∈ (runSteps (tableStep serialConverters) readAndDelete []).1 := by
    decide
  refine ⟨by decide, fun h => ?_⟩
  obtain ⟨content, hcontent, -⟩ := h _ hfault
  cases hcontent

end Tilibs.Files
