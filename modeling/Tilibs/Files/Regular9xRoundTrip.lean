import Mathlib
import Tilibs.Files.Regular9x

/-!
# Tilibs.Files.Regular9xRoundTrip

Reading back a TI-9x file: every entry comes back exactly once, folder by folder in
the order of the table of entries.

The table is taken apart first: its rows are the entries of each folder, and
together they are all the entries.  Then the two loops of the writer are followed by
the reader's loop, from the last record back to the first.
-/

namespace Tilibs.Files

open Lib Conv
open Dbus (tifilesChecksum)

/-! ## the rows of the table -/

/-- The entries of a folder. -/
def inFolder (es : List VarEntry) (folder : List UInt8) : List VarEntry :=
  es.filter fun e => e.folder.chars = folder

/-- The rows of the table, as entries. -/
def folderRows (es : List VarEntry) : List (List VarEntry) :=
  (folderList es).map (inFolder es)

theorem foldl_addFolder (es : List VarEntry) (hshort : ∀ e ∈ es, e.folder.chars.length ≤ 256)
    (folders : List (List UInt8)) (hnodup : folders.Nodup) :
    (es.foldl addFolder folders).Nodup
      ∧ ∀ f, f ∈ es.foldl addFolder folders ↔ f ∈ folders ∨ ∃ e ∈ es, e.folder.chars = f := by
  induction es generalizing folders with
  | nil => exact ⟨hnodup, fun f => by simp⟩
  | cons e es ih =>
      obtain ⟨he, hes⟩ := List.forall_mem_cons.1 hshort
      rw [List.foldl_cons]
      have htake : e.folder.chars.take 256 = e.folder.chars := List.take_of_length_le he
      by_cases hmem : e.folder.chars ∈ folders
      · have hstep : addFolder folders e = folders := if_pos hmem
        rw [hstep]
        refine ⟨(ih hes folders hnodup).1, fun f => ?_⟩
        rw [(ih hes folders hnodup).2 f]
        grind
      · have hstep : addFolder folders e = folders ++ [e.folder.chars] := by
          rw [addFolder, if_neg hmem, htake]
        have hnodup' : (folders ++ [e.folder.chars]).Nodup :=
          List.nodup_append_comm.1 (List.nodup_cons.2 ⟨hmem, hnodup⟩)
        rw [hstep]
        refine ⟨(ih hes _ hnodup').1, fun f => ?_⟩
        rw [(ih hes _ hnodup').2 f]
        grind

theorem folderList_nodup {es : List VarEntry} (hshort : ∀ e ∈ es, e.folder.chars.length ≤ 256) :
    (folderList es).Nodup :=
  (foldl_addFolder es hshort [] List.nodup_nil).1

theorem mem_folderList {es : List VarEntry} (hshort : ∀ e ∈ es, e.folder.chars.length ≤ 256)
    (f : List UInt8) : f ∈ folderList es ↔ ∃ e ∈ es, e.folder.chars = f := by
  have hmem := (foldl_addFolder es hshort [] List.nodup_nil).2 f
  simpa [folderList] using hmem

/-- The entries at the indexes of a row are the entries of its folder. -/
theorem filterMap_tableRow (es : List VarEntry) (folder : List UInt8) :
    ((tableRow es folder).filterMap fun idx => es[idx]?) = inFolder es folder := by
  have hget : ∀ p ∈ es.zipIdx.filter fun p => p.1.folder.chars = folder,
      es[p.2]? = some p.1 := by
    intro p hp
    exact List.mem_zipIdx_iff_getElem?.1 (List.mem_of_mem_filter hp)
  have hfst : inFolder es folder
      = (es.zipIdx.filter fun p => p.1.folder.chars = folder).map Prod.fst := by
    rw [inFolder]
    conv => lhs; rw [← List.zipIdx_map_fst 0 es, List.filter_map]
    rfl
  unfold tableRow
  rw [List.filterMap_map, hfst, ← List.filterMap_eq_map]
  exact List.filterMap_congr hget

/-- With short folder names no row is empty, so the loops over the table reach them all. -/
theorem tableEntries_eq {model : CalcModel} {es : List VarEntry} {table : List (List Nat)}
    {numFolders : Nat} (hshort : ∀ e ∈ es, e.folder.chars.length ≤ 256)
    (h8x : tifilesCalcIsTi8x model = false)
    (htable : tifilesCreateTableOfEntries model es = .ok (table, numFolders)) :
    tableEntries es table = folderRows es ∧ numFolders = (folderList es).length := by
  unfold tifilesCreateTableOfEntries at htable
  simp only [h8x, Bool.false_eq_true, if_false, Except.ok.injEq, Prod.mk.injEq] at htable
  obtain ⟨rfl, rfl⟩ := htable
  have hne : ∀ row ∈ (folderList es).map (tableRow es), row ≠ [] := by
    intro row hrow
    obtain ⟨folder, hfolder, rfl⟩ := List.mem_map.1 hrow
    obtain ⟨e, he, rfl⟩ := (mem_folderList hshort folder).1 hfolder
    intro hnil
    have hin : e ∈ inFolder es e.folder.chars := by simp [inFolder, he]
    rw [← filterMap_tableRow, hnil] at hin
    cases hin
  have hall : ((folderList es).map (tableRow es)).takeWhile (· ≠ [])
      = (folderList es).map (tableRow es) :=
    List.takeWhile_eq_self_iff.2 fun row hrow => by simpa using hne row hrow
  refine ⟨?_, rfl⟩
  unfold tableEntries folderRows
  rw [hall, List.map_map]
  exact List.map_congr_left fun folder _ => filterMap_tableRow es folder

theorem count_flatMap_inFolder (es : List VarEntry) (e : VarEntry) (folders : List (List UInt8))
    (hnodup : folders.Nodup) :
    (folders.flatMap (inFolder es)).count e
      = if e.folder.chars ∈ folders then es.count e else 0 := by
  induction folders with
  | nil => rfl
  | cons f folders ih =>
      obtain ⟨hf, hfolders⟩ := List.nodup_cons.1 hnodup
      rw [List.flatMap_cons, List.count_append, ih hfolders]
      by_cases hef : e.folder.chars = f
      · have hin : (inFolder es f).count e = es.count e := by
          rw [inFolder, List.count_filter (by simpa using hef)]
        simp [hin, hef, hf]
      · have hout : (inFolder es f).count e = 0 := by
          rw [List.count_eq_zero]
          simp [inFolder, hef]
        simp [hout, hef]

/-- Together the rows are all the entries. -/
theorem folderRows_perm {es : List VarEntry}
    (hshort : ∀ e ∈ es, e.folder.chars.length ≤ 256) : (folderRows es).flatten.Perm es := by
  rw [List.perm_iff_count]
  intro e
  rw [folderRows, ← List.flatMap_def, count_flatMap_inFolder es e _ (folderList_nodup hshort)]
  split
  · rfl
  · rename_i hmem
    rw [eq_comm, List.count_eq_zero]
    intro he
    exact hmem ((mem_folderList hshort _).2 ⟨e, he, rfl⟩)

/-! ## the reader's loop -/

/-- What comes back of an entry: the attribute 2 is the archived one too, and the file has
no version. -/
def readBack9x (e : VarEntry) : VarEntry :=
  { e with
    attr := if e.attr = 2 ∨ e.attr = 3 then attrbArchived else e.attr
    version := 0
    data := some e.bytes }

theorem VarEntry.Sized.length_bytes {e : VarEntry} (h : e.Sized) :
    e.bytes.length = e.size.toNat := by
  rw [VarEntry.bytes, List.length_take, h, Nat.min_self]

theorem VarEntry.Sized.length_varData {e : VarEntry} (h : e.Sized) :
    (varData e).length = e.size.toNat + 4 + 2 := by
  simp only [varData, List.length_append, length_fwriteLong, length_fwriteWord, h.length_bytes]
  omega

/-- The size of a variable is the distance of two offsets. -/
theorem size_of_offsets (offset : Nat) (size : UInt32) :
    UInt32.ofNat (offset + size.toNat + 4 + 2) - UInt32.ofNat offset - 4 - 2 = size := by
  simp only [UInt32.ofNat_add, UInt32.ofNat_toNat]
  show UInt32.ofNat offset + size + 4 + 2 - UInt32.ofNat offset - 4 - 2 = size
  grind

/-- The data of a variable is read from its offset, and the position is kept. -/
theorem exec_readVarData {f : InFile} {fileSize offset : Nat} {e : VarEntry}
    {more moreData : List UInt8} (hsized : e.Sized)
    (hrest : f.rest = fwriteLong (offset + e.size.toNat + 4 + 2) ++ more)
    (hdata : f.bytes.drop offset = varData e ++ moreData)
    (hend : offset + e.size.toNat + 4 + 2 ≤ fileSize) (hfile : fileSize < 2 ^ 32) :
    Proc.exec (readVarData fileSize offset) f
      = (.ok (e.size, e.bytes, tifilesChecksum e.bytes), f) := by
  have hnext := consumes_freadLong (n := offset + e.size.toNat + 4 + 2) (by omega)
  unfold readVarData
  rw [Proc.exec_bind_ok (rfl : Proc.exec ftell f = (.ok f.pos, f)), hnext.exec_bind hrest,
    if_neg (by omega)]
  dsimp only
  rw [size_of_offsets, if_neg (by omega)]
  -- the position is moved to the data, which is read, and then moved back
  have hseek : Proc.exec (fseek offset : FileReader Unit) (f.advance 4)
      = (.ok (), ⟨f.bytes, offset⟩) := rfl
  have hdata' : (⟨f.bytes, offset⟩ : InFile).rest
      = fwriteLong 0 ++ (e.bytes ++ (fwriteWord (tifilesChecksum e.bytes) ++ moreData)) := by
    show f.bytes.drop offset = _
    rw [hdata, varData]
    simp only [List.append_assoc]
  have hbytes := InFile.rest_advance_append hdata' (length_fwriteLong 0)
  have hsum := InFile.rest_advance_append hbytes hsized.length_bytes
  have hsmall : tifilesChecksum e.bytes < 2 ^ 16 := Nat.mod_lt _ (by decide)
  rw [length_fwriteLong, Proc.exec_bind_ok hseek,
    (Consumes.fskip (length_fwriteLong 0)).exec_bind hdata', length_fwriteLong,
    (consumes_freadBytes hsized.length_bytes).exec_bind hbytes, hsized.length_bytes,
    (consumes_freadWord hsmall).exec_bind hsum]
  rfl

section
variable {conv : Converters} {dst : CalcModel} {fileSize : Nat}

/-- From `f` on, with `n` records left in the folder `current`, the loop reads `out`. -/
def ReadsRecords (conv : Converters) (dst : CalcModel) (fileSize : Nat) (f : InFile) (n : Nat)
    (current : VarName) (out : List VarEntry) : Prop :=
  ∃ sums g, Proc.exec (readRecords9x conv dst fileSize n current) f = (.ok (out, sums), g)

theorem readsRecords_nil (f : InFile) (current : VarName) :
    ReadsRecords conv dst fileSize f 0 current [] :=
  ⟨(0, 0), f, rfl⟩

/-- A record as the writer puts it. -/
def record9x (offset : Nat) (raw : List UInt8) (type attr : UInt8) (n : Nat) : List UInt8 :=
  fwriteLong offset ++ padRight 8 0 raw ++ fwriteByte type ++ fwriteByte attr ++ fwriteWord n

theorem length_record9x {raw : List UInt8} (h : raw.length ≤ 8) (offset : Nat) (type attr : UInt8)
    (n : Nat) : (record9x offset raw type attr n).length = 16 := by
  simp [record9x, length_padRight h]

theorem consumes_readRecord9x {offset n : Nat} {raw : List UInt8} {name : VarName}
    {type attr : UInt8} (hlen : raw.length ≤ 8) (hnul : ∀ b ∈ raw, b ≠ 0)
    (hname : ticonvVarnameFromTifile conv dst raw 0 = some name.chars)
    (hoffset : offset ≤ fileSize) (hfile : fileSize < 2 ^ 32) :
    Consumes (readRecord9x conv dst fileSize) (record9x offset raw type attr n)
      (offset, name, type, if attr = 2 ∨ attr = 3 then attrbArchived else attr) := by
  unfold readRecord9x record9x
  simp only [List.append_assoc]
  refine (consumes_freadLong (by omega)).bind ?_
  rw [if_neg (by omega)]
  refine (consumes_fwriteNChars hlen hnul).bind ?_
  refine (consumes_freadByte type).bind ?_
  refine (consumes_freadByte attr).bind ?_
  refine (Consumes.fskip (length_fwriteWord n)).bind_pure ?_
  rw [nameFromFile, hname]
  dsimp only
  rw [VarName.ofChars_chars]
  exact Consumes.pure _

/-- The record of a folder sets the current folder. -/
theorem readsRecords_folder {f : InFile} {n k offset : Nat} (current : VarName)
    {folder : VarName} {raw more : List UInt8} {out : List VarEntry} (hlen : raw.length ≤ 8)
    (hnul : ∀ b ∈ raw, b ≠ 0)
    (hname : ticonvVarnameFromTifile conv dst raw 0 = some folder.chars)
    (hrest : f.rest = record9x offset raw ti9xDir 0 k ++ more)
    (hoffset : offset ≤ fileSize) (hfile : fileSize < 2 ^ 32)
    (htail : ReadsRecords conv dst fileSize (f.advance 16) n folder out) :
    ReadsRecords conv dst fileSize f (n + 1) current out := by
  obtain ⟨sums, g, htail⟩ := htail
  refine ⟨sums, g, ?_⟩
  unfold readRecords9x
  rw [(consumes_readRecord9x hlen hnul hname hoffset hfile).exec_bind hrest,
    length_record9x hlen]
  exact htail

/-- The record of a variable gives the entry. -/
theorem readsRecords_var {f : InFile} {n offset : Nat} {e : VarEntry}
    {raw more moreData : List UInt8} {out : List VarEntry} (hlen : raw.length ≤ 8)
    (hnul : ∀ b ∈ raw, b ≠ 0)
    (hname : ticonvVarnameFromTifile conv dst raw 0 = some e.name.chars)
    (hrest : f.rest = record9x offset raw e.type e.attr 0
      ++ (fwriteLong (offset + e.size.toNat + 4 + 2) ++ more))
    (hdata : f.bytes.drop offset = varData e ++ moreData)
    (htype : e.type ≠ ti9xDir) (hsized : e.Sized)
    (hend : offset + e.size.toNat + 4 + 2 ≤ fileSize) (hfile : fileSize < 2 ^ 32)
    (htail : ReadsRecords conv dst fileSize (f.advance 16) n e.folder out) :
    ReadsRecords conv dst fileSize f (n + 1) e.folder (readBack9x e :: out) := by
  obtain ⟨sums, g, htail⟩ := htail
  refine ⟨(tifilesChecksum e.bytes + sums.1, tifilesChecksum e.bytes + sums.2), g, ?_⟩
  have hnext := InFile.rest_advance_append hrest (length_record9x hlen _ _ _ _)
  unfold readRecords9x
  rw [(consumes_readRecord9x hlen hnul hname (by omega) hfile).exec_bind hrest,
    length_record9x hlen]
  dsimp only
  rw [if_neg htype, Proc.exec_bind_ok (exec_readVarData hsized hnext hdata hend hfile)]
  dsimp only
  rw [Proc.exec_bind_ok htail]
  rfl

/-! ## the writer's loops, read back -/

/-- The bytes of the data of some variables. -/
def dataLength (es : List VarEntry) : Nat := (es.map fun e => e.size.toNat + 4 + 2).sum

@[simp] theorem dataLength_nil : dataLength [] = 0 := rfl

@[simp] theorem dataLength_cons (e : VarEntry) (es : List VarEntry) :
    dataLength (e :: es) = e.size.toNat + 4 + 2 + dataLength es := by
  simp [dataLength]

theorem dataLength_append (es es' : List VarEntry) :
    dataLength (es ++ es') = dataLength es + dataLength es' := by
  simp [dataLength]

theorem length_flatMap_varData {es : List VarEntry} (hsized : ∀ e ∈ es, e.Sized) :
    (es.flatMap varData).length = dataLength es := by
  induction es with
  | nil => rfl
  | cons e es ih =>
      obtain ⟨he, hes⟩ := List.forall_mem_cons.1 hsized
      rw [List.flatMap_cons, List.length_append, he.length_varData, ih hes, dataLength_cons]

variable {model : CalcModel}

theorem fwriteName_calcName {name : VarName} {raw : List UInt8} (hlen : raw.length ≤ 8)
    (type : UInt8) (h : ticonvVarnameToTifile conv model name.chars type = some raw) :
    fwriteName conv model name type = .ok (padRight 8 0 raw) := by
  have htake : raw.take (varnameMax - 1) = raw :=
    List.take_of_length_le (by rw [varnameMax]; omega)
  rw [fwriteName, h]
  dsimp only
  rw [htake, fwriteNChars, if_neg (by omega)]

theorem varRecord_calcName {e : VarEntry} {raw : List UInt8} (offset : Nat)
    (hlen : raw.length ≤ 8)
    (h : ticonvVarnameToTifile conv model e.name.chars e.type = some raw) :
    varRecord conv model offset e = .ok (record9x offset raw e.type e.attr 0) := by
  have hattr : (if e.attr = attrbArchived then (3 : UInt8) else e.attr) = e.attr := by
    split
    · rename_i harch
      rw [harch]
      rfl
    · rfl
  unfold varRecord
  rw [fwriteName_calcName hlen e.type h]
  simp only [hattr]
  rfl

/-- The records of some variables: sixteen bytes each, the first with the first offset, and
after them the offset where their data ends. -/
theorem varRecords_spec (es : List VarEntry)
    (hnames : ∀ e ∈ es, CalcName conv model 8 e.name.chars) (offset : Nat) :
    ∃ bs, varRecords conv model offset es = .ok (bs, offset + dataLength es)
      ∧ bs.length = 16 * es.length
      ∧ fwriteLong offset <+: bs ++ fwriteLong (offset + dataLength es) := by
  induction es generalizing offset with
  | nil => exact ⟨[], rfl, rfl, List.prefix_rfl⟩
  | cons e es ih =>
      obtain ⟨⟨raw, hlen, -, hto, -⟩, hes⟩ := List.forall_mem_cons.1 hnames
      obtain ⟨bs, hbs, hlength, -⟩ := ih hes (offset + e.size.toNat + 4 + 2)
      refine ⟨record9x offset raw e.type e.attr 0 ++ bs, ?_, ?_, ?_⟩
      · unfold varRecords
        rw [varRecord_calcName offset hlen (hto e.type)]
        show (varRecords conv model (offset + e.size.toNat + 4 + 2) es).bind _ = _
        rw [hbs, dataLength_cons]
        simp only [Except.bind, pure, Except.pure, Except.ok.injEq, Prod.mk.injEq, true_and]
        omega
      · rw [List.length_append, length_record9x hlen, hlength, List.length_cons]
        omega
      · rw [record9x]
        simp only [List.append_assoc]
        exact List.prefix_append _ _

/-- The records of the variables of the current folder are read back. -/
theorem readsRecords_vars {current : VarName} {out : List VarEntry} {n : Nat}
    {more moreData : List UInt8} (hfile : fileSize < 2 ^ 32)
    (hdst : ∀ raw type, ticonvVarnameFromTifile conv dst raw type
      = ticonvVarnameFromTifile conv model raw type)
    (es : List VarEntry) (hnames : ∀ e ∈ es, CalcName conv model 8 e.name.chars)
    (hsized : ∀ e ∈ es, e.Sized) (htypes : ∀ e ∈ es, e.type ≠ ti9xDir)
    (hfolder : ∀ e ∈ es, e.folder = current) (offset : Nat) (bs : List UInt8) (f : InFile)
    (hwrite : varRecords conv model offset es = .ok (bs, offset + dataLength es))
    (hrest : f.rest = bs ++ (fwriteLong (offset + dataLength es) ++ more))
    (hdata : f.bytes.drop offset = es.flatMap varData ++ moreData)
    (hend : offset + dataLength es ≤ fileSize)
    (htail : ReadsRecords conv dst fileSize (f.advance (16 * es.length)) n current out) :
    ReadsRecords conv dst fileSize f (es.length + n) current (es.map readBack9x ++ out) := by
  induction es generalizing offset bs f with
  | nil => simpa using htail
  | cons e es ih =>
      obtain ⟨⟨raw, hlen, hnul, hto, hfrom⟩, hnames⟩ := List.forall_mem_cons.1 hnames
      obtain ⟨he, hsized⟩ := List.forall_mem_cons.1 hsized
      obtain ⟨htype, htypes⟩ := List.forall_mem_cons.1 htypes
      obtain ⟨hcur, hfolder⟩ := List.forall_mem_cons.1 hfolder
      obtain ⟨bs', hbs', -, hstart⟩ :=
        varRecords_spec es hnames (offset + e.size.toNat + 4 + 2)
      have hlast : offset + dataLength (e :: es)
          = offset + e.size.toNat + 4 + 2 + dataLength es := by
        rw [dataLength_cons]
        omega
      have hbs : bs = record9x offset raw e.type e.attr 0 ++ bs' := by
        unfold varRecords at hwrite
        rw [varRecord_calcName offset hlen (hto e.type)] at hwrite
        change (varRecords conv model (offset + e.size.toNat + 4 + 2) es).bind _ = _ at hwrite
        rw [hbs'] at hwrite
        simp only [Except.bind, pure, Except.pure, Except.ok.injEq, Prod.mk.injEq] at hwrite
        exact hwrite.1.symm
      rw [hlast] at hrest hend
      obtain ⟨t, ht⟩ := hstart
      have hrest' : f.rest = record9x offset raw e.type e.attr 0
          ++ (bs' ++ (fwriteLong (offset + e.size.toNat + 4 + 2 + dataLength es) ++ more)) := by
        rw [hrest, hbs, List.append_assoc]
      have hnext := InFile.rest_advance_append hrest' (length_record9x hlen _ _ _ _)
      rw [List.flatMap_cons, List.append_assoc] at hdata
      have hdata' : (f.advance 16).bytes.drop (offset + e.size.toNat + 4 + 2)
          = es.flatMap varData ++ moreData := by
        have hdrop := congrArg (List.drop (varData e).length) hdata
        rw [List.drop_drop, List.drop_left, he.length_varData] at hdrop
        rw [← hdrop]
        congr 1
      have hrec := ih hnames hsized htypes hfolder (offset + e.size.toNat + 4 + 2) bs'
        (f.advance 16) hbs' hnext hdata' hend (by
          rw [InFile.advance_advance]
          convert htail using 2
          rw [List.length_cons]
          omega)
      have hstart' : bs' ++ (fwriteLong (offset + e.size.toNat + 4 + 2 + dataLength es) ++ more)
          = fwriteLong (offset + e.size.toNat + 4 + 2) ++ (t ++ more) := by
        rw [← List.append_assoc, ← ht, List.append_assoc]
      rw [hstart'] at hrest'
      have hvar := readsRecords_var hlen hnul ((hdst raw 0).trans (hfrom 0)) hrest' hdata htype he
        (by omega) hfile (hcur ▸ hrec)
      rw [hcur] at hvar
      rw [List.length_cons, List.map_cons, List.cons_append, Nat.add_right_comm]
      exact hvar

/-- The entries that a row of a table may have. -/
structure RowOk (conv : Converters) (model : CalcModel) (row : List VarEntry) : Prop where
  nonempty : row ≠ []
  folderName : CalcName conv model 8 row.headI.folder.chars
  names : ∀ e ∈ row, CalcName conv model 8 e.name.chars
  sized : ∀ e ∈ row, e.Sized
  types : ∀ e ∈ row, e.type ≠ ti9xDir
  folder : ∀ e ∈ row, e.folder = row.headI.folder

theorem folderRecord_calcName {folder : VarName} {raw : List UInt8} (offset n : Nat)
    (hlen : raw.length ≤ 8)
    (h : ticonvVarnameToTifile conv model folder.chars 0xFF = some raw) :
    folderRecord conv model offset folder n = .ok (record9x offset raw ti9xDir 0 n) := by
  unfold folderRecord
  rw [fwriteName_calcName hlen 0xFF h]
  rfl

/-- How many records a group file has. -/
def recordNumber (rows : List (List VarEntry)) : Nat := rows.flatten.length + rows.length

/-- The table of a group file: a record for each folder and each variable, the first with the
first offset, and after them the offset where the data ends. -/
theorem tableRecords_spec (rows : List (List VarEntry)) (hrows : ∀ row ∈ rows, RowOk conv model row)
    (offset : Nat) :
    ∃ bs, tableRecords conv model true offset rows = .ok (bs, offset + dataLength rows.flatten)
      ∧ bs.length = 16 * recordNumber rows
      ∧ fwriteLong offset <+: bs ++ fwriteLong (offset + dataLength rows.flatten) := by
  induction rows generalizing offset with
  | nil => exact ⟨[], rfl, rfl, List.prefix_rfl⟩
  | cons row rows ih =>
      obtain ⟨hrow, hrows⟩ := List.forall_mem_cons.1 hrows
      obtain ⟨raw, hlen, -, hto, -⟩ := hrow.folderName
      obtain ⟨vars, hvars, hvarsLen, -⟩ := varRecords_spec row hrow.names offset
      obtain ⟨records, hrecords, hrecordsLen, -⟩ := ih hrows (offset + dataLength row)
      have hlast : offset + dataLength row + dataLength rows.flatten
          = offset + dataLength (row :: rows).flatten := by
        rw [List.flatten_cons, dataLength_append]
        omega
      refine ⟨record9x offset raw ti9xDir 0 row.length ++ vars ++ records, ?_, ?_, ?_⟩
      · unfold tableRecords
        rw [if_pos rfl, folderRecord_calcName offset row.length hlen (hto 0xFF)]
        simp only [bind, Except.bind, pure, Except.pure, hvars, hrecords, hlast]
      · simp only [List.length_append, length_record9x hlen, hvarsLen, hrecordsLen, recordNumber,
          List.flatten_cons, List.length_cons]
        omega
      · rw [record9x]
        simp only [List.append_assoc]
        exact List.prefix_append _ _

/-- The records of a group file are read back, row by row. -/
theorem readsRecords_rows {more : List UInt8} (hfile : fileSize < 2 ^ 32)
    (hdst : ∀ raw type, ticonvVarnameFromTifile conv dst raw type
      = ticonvVarnameFromTifile conv model raw type)
    (rows : List (List VarEntry)) (hrows : ∀ row ∈ rows, RowOk conv model row)
    (current : VarName) (offset : Nat) (bs : List UInt8) (f : InFile)
    (hwrite : tableRecords conv model true offset rows
      = .ok (bs, offset + dataLength rows.flatten))
    (hrest : f.rest = bs ++ (fwriteLong (offset + dataLength rows.flatten) ++ more))
    (hdata : f.bytes.drop offset = rows.flatten.flatMap varData)
    (hend : offset + dataLength rows.flatten ≤ fileSize) :
    ReadsRecords conv dst fileSize f (recordNumber rows) current
      (rows.flatten.map readBack9x) := by
  induction rows generalizing current offset bs f with
  | nil => exact readsRecords_nil f current
  | cons row rows ih =>
      obtain ⟨hrow, hrows⟩ := List.forall_mem_cons.1 hrows
      obtain ⟨raw, hlen, hnul, hto, hfrom⟩ := hrow.folderName
      obtain ⟨vars, hvars, hvarsLen, -⟩ := varRecords_spec row hrow.names offset
      obtain ⟨records, hrecords, -, hstart⟩ :=
        tableRecords_spec rows hrows (offset + dataLength row)
      have hlast : offset + dataLength (row :: rows).flatten
          = offset + dataLength row + dataLength rows.flatten := by
        rw [List.flatten_cons, dataLength_append]
        omega
      have hbs : bs = record9x offset raw ti9xDir 0 row.length ++ (vars ++ records) := by
        unfold tableRecords at hwrite
        rw [if_pos rfl, folderRecord_calcName offset row.length hlen (hto 0xFF)] at hwrite
        simp only [bind, Except.bind, pure, Except.pure, hvars, hrecords, Except.ok.injEq,
          Prod.mk.injEq] at hwrite
        rw [← hwrite.1, List.append_assoc]
      rw [hlast] at hrest hend
      obtain ⟨t, ht⟩ := hstart
      have hnextRow : records ++ (fwriteLong (offset + dataLength row + dataLength rows.flatten)
          ++ more) = fwriteLong (offset + dataLength row) ++ (t ++ more) := by
        rw [← List.append_assoc, ← ht, List.append_assoc]
      have hrest' : f.rest = record9x offset raw ti9xDir 0 row.length ++ (vars
          ++ (records ++ (fwriteLong (offset + dataLength row + dataLength rows.flatten)
            ++ more))) := by
        rw [hrest, hbs]
        simp only [List.append_assoc]
      have hafter := InFile.rest_advance_append hrest' (length_record9x hlen _ _ _ _)
      have hafterVars := InFile.rest_advance_append hafter hvarsLen
      rw [List.flatten_cons, List.flatMap_append] at hdata
      have hdata' : ((f.advance 16).advance (16 * row.length)).bytes.drop (offset + dataLength row)
          = rows.flatten.flatMap varData := by
        have hdrop := congrArg (List.drop (row.flatMap varData).length) hdata
        rw [List.drop_drop, List.drop_left, length_flatMap_varData hrow.sized] at hdrop
        exact hdrop
      have htail := ih hrows row.headI.folder (offset + dataLength row) records
        ((f.advance 16).advance (16 * row.length)) hrecords hafterVars hdata' hend
      rw [hnextRow] at hafter
      have hvarsRead := readsRecords_vars hfile hdst row hrow.names hrow.sized hrow.types
        hrow.folder offset vars (f.advance 16) hvars hafter hdata (by omega) htail
      have hfolder := readsRecords_folder current hlen hnul
        ((hdst raw 0).trans (hfrom 0)) hrest' (by omega) hfile hvarsRead
      rw [List.flatten_cons, List.map_append]
      convert hfolder using 1
      simp only [recordNumber, List.flatten_cons, List.length_append, List.length_cons]
      omega

end

/-! ## round trip -/

/-- The row of a folder may stand in a table. -/
theorem rowOk_inFolder {conv : Converters} {model : CalcModel} {es : List VarEntry}
    (hfolders : ∀ e ∈ es, CalcName conv model 8 e.folder.chars)
    (hnames : ∀ e ∈ es, CalcName conv model 8 e.name.chars) (hsized : ∀ e ∈ es, e.Sized)
    (htypes : ∀ e ∈ es, e.type ≠ ti9xDir) (hshort : ∀ e ∈ es, e.folder.chars.length ≤ 256) :
    ∀ row ∈ folderRows es, RowOk conv model row := by
  intro row hrow
  obtain ⟨folder, hfolder, rfl⟩ := List.mem_map.1 hrow
  obtain ⟨e, he, rfl⟩ := (mem_folderList hshort folder).1 hfolder
  have hmem : ∀ x ∈ inFolder es e.folder.chars, x ∈ es ∧ x.folder = e.folder := by
    intro x hx
    have hfilter := List.mem_filter.1 hx
    exact ⟨hfilter.1, CStr.ext (by simpa using hfilter.2)⟩
  have hne : inFolder es e.folder.chars ≠ [] := by
    intro hnil
    have hin : e ∈ inFolder es e.folder.chars := by simp [inFolder, he]
    rw [hnil] at hin
    cases hin
  have hhead : (inFolder es e.folder.chars).headI ∈ inFolder es e.folder.chars := by
    cases h : inFolder es e.folder.chars with
    | nil => exact absurd h hne
    | cons x xs => exact List.mem_cons_self
  constructor
  · exact hne
  · rw [(hmem _ hhead).2]
    exact hfolders e he
  · exact fun x hx => hnames x (hmem x hx).1
  · exact fun x hx => hsized x (hmem x hx).1
  · exact fun x hx => htypes x (hmem x hx).1
  · exact fun x hx => ((hmem x hx).2).trans (hmem _ hhead).2.symm

/-- The table of a file, single or group: what is written is read back, in a single file
with the entry's folder as the current one. -/
theorem tableRecords_readBack {conv : Converters} {model dst : CalcModel} {es : List VarEntry}
    {fileSize : Nat} (hne : es ≠ []) (hshort : ∀ e ∈ es, e.folder.chars.length ≤ 256)
    (hrows : ∀ row ∈ folderRows es, RowOk conv model row)
    (hdst : ∀ raw type, ticonvVarnameFromTifile conv dst raw type
      = ticonvVarnameFromTifile conv model raw type)
    (hfile : fileSize < 2 ^ 32) (offset : Nat) :
    ∃ records, tableRecords conv model (es.length > 1) offset (folderRows es)
        = .ok (records, offset + dataLength (folderRows es).flatten)
      ∧ records.length = 16 * (recordCount es.length (folderList es).length).1
      ∧ ∀ (f : InFile) (current : VarName) (more : List UInt8),
        (∀ e, es = [e] → current = e.folder) →
        f.rest = records ++ (fwriteLong (offset + dataLength (folderRows es).flatten) ++ more) →
        f.bytes.drop offset = (folderRows es).flatten.flatMap varData →
        offset + dataLength (folderRows es).flatten ≤ fileSize →
        ReadsRecords conv dst fileSize f (recordCount es.length (folderList es).length).1 current
          ((folderRows es).flatten.map readBack9x) := by
  by_cases hgroup : es.length > 1
  · have hcount : (recordCount es.length (folderList es).length).1
        = recordNumber (folderRows es) := by
      rw [recordCount, if_pos hgroup, recordNumber, (folderRows_perm hshort).length_eq,
        folderRows, List.length_map]
    obtain ⟨records, hrecords, hlen, -⟩ := tableRecords_spec (folderRows es) hrows offset
    rw [hcount]
    refine ⟨records, by simpa [hgroup] using hrecords, hlen, ?_⟩
    intro f current more _ hrest hdata hend
    exact readsRecords_rows hfile hdst (folderRows es) hrows current offset records f hrecords
      hrest hdata hend
  · have hone : ∃ e, es = [e] := by
      cases es with
      | nil => exact absurd rfl hne
      | cons e es =>
          cases es with
          | nil => exact ⟨e, rfl⟩
          | cons e' es => simp at hgroup
    obtain ⟨e, rfl⟩ := hone
    have hrow : folderRows [e] = [[e]] := by
      have htake : e.folder.chars.take 256 = e.folder.chars :=
        List.take_of_length_le (hshort e (List.mem_singleton.2 rfl))
      simp [folderRows, folderList, addFolder, inFolder, htake]
    rw [hrow] at hrows ⊢
    have hok := hrows [e] (List.mem_singleton.2 rfl)
    obtain ⟨records, hrecords, hlen, -⟩ := varRecords_spec [e] hok.names offset
    refine ⟨records, ?_, by simpa [recordCount] using hlen, ?_⟩
    · unfold tableRecords
      simp [hrecords, tableRecords, bind, Except.bind, pure, Except.pure]
    · intro f current more hcurrent hrest hdata hend
      have hfolder : ∀ x ∈ [e], x.folder = current := by
        simpa using (hcurrent e rfl).symm
      have hdata' : f.bytes.drop offset = [e].flatMap varData ++ [] := by simpa using hdata
      have hread := readsRecords_vars hfile hdst [e] hok.names hok.sized hok.types hfolder offset
        records f (by simpa using hrecords) (by simpa using hrest) hdata' (by simpa using hend)
        (readsRecords_nil _ current)
      simpa [recordCount] using hread

/-- The header of 60 bytes. -/
def header9x (sig folder : List UInt8) (comment : Buf 43) (count : Nat) : List UInt8 :=
  sig ++ [1, 0] ++ folder ++ comment.val.take 40 ++ fwriteWord count

/-- What the writer puts into the file of a content it accepts. -/
theorem written9x_bytes {conv : Converters} (content : FileContent) {es : List VarEntry}
    {bytes : List UInt8} {sig records : List UInt8} {offset last : Nat}
    (h8x : tifilesCalcIsTi8x content.model = false)
    (hshort : ∀ e ∈ es, e.folder.chars.length ≤ 256)
    (hsome : tifilesCalctype2signature content.model = some sig) (hsig : IsSignature sig)
    (hcount : (recordCount es.length (folderList es).length).2 = offset)
    (hrecords : tableRecords conv content.model (es.length > 1) offset (folderRows es)
      = .ok (records, last))
    (hwrite : writeEntries9x conv content es = .ok bytes) :
    ∃ folder, fwriteName conv content.model content.defaultFolder 0xFF = .ok folder
      ∧ bytes = header9x sig folder content.comment
          (recordCount es.length (folderList es).length).1
        ++ (records ++ (fwriteLong last ++ (fwriteWord 0x5aa5
          ++ (folderRows es).flatten.flatMap varData))) := by
  have hfit : ¬8 < sig.length := by
    rw [hsig.1]
    decide
  have hpad : padRight 8 0 sig = sig := by simp [padRight, hsig.1]
  have htable : tifilesCreateTableOfEntries content.model es
      = .ok ((folderList es).map (tableRow es), (folderList es).length) := by
    unfold tifilesCreateTableOfEntries
    simp only [h8x, Bool.false_eq_true, if_false]
  have hrows := (tableEntries_eq hshort h8x htable).1
  subst hcount
  unfold writeEntries9x at hwrite
  rw [htable] at hwrite
  simp only [bind, Except.bind, pure, Except.pure, hsome, fwriteNChars, if_neg hfit, hpad, hrows,
    hrecords] at hwrite
  cases hfolder : fwriteName conv content.model content.defaultFolder 0xFF with
  | error err => simp [hfolder] at hwrite
  | ok folder =>
      simp only [hfolder, Except.ok.injEq] at hwrite
      refine ⟨folder, rfl, ?_⟩
      rw [← hwrite, header9x]
      simp only [List.append_assoc]

/-- The reader's body, once the loop over the records is known. -/
theorem exec_readRegular9xBody {conv : Converters} {sig folder tail : List UInt8}
    {comment : Buf 43} {count fileSize : Nat} {old : FileContent} {dst : CalcModel}
    {out : List VarEntry} (hsig : IsSignature sig) (hlen : folder.length = 8)
    (hcount : count < 2 ^ 16)
    (hdst : dst = if old.modelDst = .none then tifilesSignature2calctype sig else old.modelDst)
    (hloop : ReadsRecords conv dst fileSize
      ((⟨header9x sig folder comment count ++ tail, 0⟩ : InFile).advance 60) count
      (nameFromFile conv dst (cstr folder) 0xFF old.defaultFolder) out) :
    ∃ read, (Proc.exec (readRegular9xBody conv fileSize old)
        ⟨header9x sig folder comment count ++ tail, 0⟩).1 = .ok read
      ∧ read.entries = (if out.isEmpty then none else some (out.map some))
      ∧ read.numEntries = UInt32.ofNat out.length := by
  obtain ⟨sums, g, hloop⟩ := hloop
  have hcomment : (comment.val.take 40).length = 40 := by
    rw [List.length_take, comment.property]
    decide
  generalize hf : (⟨header9x sig folder comment count ++ tail, 0⟩ : InFile) = f
    at hloop ⊢
  have hrest : f.rest = sig ++ ([1, 0] ++ (folder ++ (comment.val.take 40
      ++ (fwriteWord count ++ tail)))) := by
    rw [← hf, header9x]
    simp [InFile.rest]
  have hpad : padRight 8 0 sig = sig := by simp [padRight, hsig.1]
  have hreadSig := consumes_fwriteNChars hsig.1.le hsig.2.1
  rw [hpad] at hreadSig
  have hversion : ([1, 0] : List UInt8).length = 2 := rfl
  have h1 := InFile.rest_advance_append hrest hsig.1
  have h2 := InFile.rest_advance_append h1 hversion
  have h3 := InFile.rest_advance_append h2 hlen
  have h4 := InFile.rest_advance_append h3 hcomment
  unfold readRegular9xBody
  rw [hreadSig.exec_bind hrest, hsig.1, if_neg hsig.2.2.2]
  dsimp only
  rw [← hdst, (Consumes.fskip hversion).exec_bind h1, hversion,
    (consumes_freadNChars hlen).exec_bind h2, hlen,
    (consumes_freadBytes hcomment).exec_bind h3, hcomment,
    (consumes_freadWord hcount).exec_bind h4, length_fwriteWord]
  have hloop' : Proc.exec (readRecords9x conv dst fileSize count
      (nameFromFile conv dst (cstr folder) 0xFF old.defaultFolder))
      (((((f.advance 8).advance 2).advance 8).advance 40).advance 2) = (.ok (out, sums), g) := by
    simpa using hloop
  exact ⟨_, by rw [Proc.exec_bind_ok hloop']; rfl, rfl, rfl⟩

theorem ti9x_not_ti8x {model : CalcModel} (h : tifilesCalcIsTi9x model = true) :
    tifilesCalcIsTi8x model = false ∧ isUsb84 model = false := by
  cases model <;> first | exact absurd h (by decide) | exact ⟨rfl, rfl⟩

theorem length_fwriteName {conv : Converters} {model : CalcModel} {name : VarName} {type : UInt8}
    {field : List UInt8} (h : fwriteName conv model name type = .ok field) : field.length = 8 := by
  unfold fwriteName at h
  split at h
  · cases h
  · unfold fwriteNChars at h
    split at h
    · cases h
    · cases h
      exact length_padRight (by omega)

/-- The folder of a single variable is written as the default folder. -/
theorem ti9xFileWriteRegular_entries {conv : Converters} {content : FileContent}
    {es : List VarEntry} {bytes : List UInt8} (hes : content.entryList = some es)
    (hwrite : ti9xFileWriteRegular conv content = .ok (some bytes)) :
    ∃ defaultFolder : VarName, (∀ e, es = [e] → defaultFolder = e.folder)
      ∧ writeEntries9x conv { content with defaultFolder } es = .ok bytes := by
  have hmap : ∀ out : Except TifilesErr (List UInt8),
      out.map some = .ok (some bytes) → out = .ok bytes := by
    intro out hout
    cases out with
    | error err => cases hout
    | ok out =>
        cases hout
        rfl
  unfold ti9xFileWriteRegular at hwrite
  split at hwrite
  · cases hwrite
  · rw [hes] at hwrite
    refine ⟨_, ?_, hmap _ hwrite⟩
    rintro e rfl
    exact VarName.ofChars_chars e.folder

/-- The entries of a content that a reader has filled. -/
theorem entryList_of_entries {content : FileContent} {out : List VarEntry}
    (hlen : out.length < 2 ^ 32) (hentries : content.entries = some (out.map some))
    (hnum : content.numEntries = UInt32.ofNat out.length) : content.entryList = some out := by
  have hcount : content.numEntries.toNat = out.length := by
    rw [hnum, UInt32.toNat_ofNat', Nat.mod_eq_of_lt hlen]
  unfold FileContent.entryList
  rw [hcount, hentries]
  simpa using firstEntries_map_some out []

theorem length_header9x {sig folder : List UInt8} (hsig : sig.length = 8)
    (hfolder : folder.length = 8) (comment : Buf 43) (count : Nat) :
    (header9x sig folder comment count).length = 60 := by
  have hcomment : (comment.val.take 40).length = 40 := by
    rw [List.length_take, comment.property]
    decide
  simp only [header9x, List.length_append, hsig, hfolder, hcomment, length_fwriteWord]
  rfl

/-- The data follows the header, the records, the offset of the end and the signature word. -/
theorem recordCount_offset (n folders : Nat) :
    (recordCount n folders).2 = 60 + 16 * (recordCount n folders).1 + 4 + 2 := by
  unfold recordCount
  split
  · dsimp only
    omega
  · rfl

/-- The default folder that the reader finds. -/
theorem nameFromFile_fwriteName {conv : Converters} {model dst : CalcModel} {folder old : VarName}
    {field : List UInt8} (hname : CalcName conv model 8 folder.chars)
    (hdst : ∀ raw type, ticonvVarnameFromTifile conv dst raw type
      = ticonvVarnameFromTifile conv model raw type)
    (hfield : fwriteName conv model folder 0xFF = .ok field) :
    nameFromFile conv dst (cstr field) 0xFF old = folder := by
  obtain ⟨raw, hlen, hnul, hto, hfrom⟩ := hname
  rw [fwriteName_calcName hlen 0xFF (hto 0xFF)] at hfield
  cases hfield
  rw [cstr_padRight hnul, nameFromFile, hdst, hfrom]
  exact VarName.ofChars_chars folder

/-- The reading model of the file converts as the writing one does. -/
theorem readModel_convert {conv : Converters} {model old : CalcModel} {sig : List UInt8}
    (h9x : tifilesCalcIsTi9x model = true) (hold : isUsb84 old = false)
    (h89 : old = .ti89tUsb ↔ model = .ti89tUsb)
    (hsig : tifilesSignature2calctype sig ≠ .ti89tUsb)
    (hsig9x : tifilesCalcIsTi9x (tifilesSignature2calctype sig) = true) (raw : List UInt8)
    (type : UInt8) :
    ticonvVarnameFromTifile conv (if old = .none then tifilesSignature2calctype sig else old) raw
      type = ticonvVarnameFromTifile conv model raw type := by
  have hmodel := (ti9x_not_ti8x h9x).2
  by_cases hnone : old = .none
  · rw [if_pos hnone]
    have hserial : model ≠ .ti89tUsb := by
      intro hm
      rw [hnone] at h89
      exact absurd (h89.2 hm) (by decide)
    exact ticonvVarnameFromTifile_congr conv (ti9x_not_ti8x hsig9x).2 hmodel
      (iff_of_false hsig hserial) raw type
  · rw [if_neg hnone]
    exact ticonvVarnameFromTifile_congr conv hold hmodel h89 raw type

/-- A file that was written from at least one entry, that has room for the number of its
records and that the reader takes for a regular file of a possible size, is read back: every
entry exactly once, folder by folder in the order of the table of entries. -/
theorem ti9xFileReadRegular_written (conv : Converters) {content old : FileContent}
    {es : List VarEntry} {filename bytes : List UInt8}
    (h9x : tifilesCalcIsTi9x content.model = true) (hold : isUsb84 old.modelDst = false)
    (h89 : old.modelDst = .ti89tUsb ↔ content.model = .ti89tUsb)
    (hes : content.entryList = some es) (hne : es ≠ [])
    (hcount : es.length + (folderList es).length < 2 ^ 16)
    (hfolders : ∀ e ∈ es, CalcName conv content.model 8 e.folder.chars)
    (hnames : ∀ e ∈ es, CalcName conv content.model 8 e.name.chars)
    (hsized : ∀ e ∈ es, e.Sized) (htypes : ∀ e ∈ es, e.type ≠ ti9xDir)
    (hwrite : ti9xFileWriteRegular conv content = .ok (some bytes))
    (hregular : tifilesFileIsRegular filename bytes = true) (hsize : bytes.length < 8 * 2 ^ 20) :
    ∃ table n read, tifilesCreateTableOfEntries content.model es = .ok (table, n)
      ∧ ti9xFileReadRegular conv filename bytes old = .ok read
      ∧ read.entryList = some ((tableEntries es table).flatten.map readBack9x)
      ∧ (tableEntries es table).flatten.Perm es
      ∧ tableEntries es table = (folderList es).map (inFolder es) := by
  obtain ⟨h8x, h84⟩ := ti9x_not_ti8x h9x
  obtain ⟨sig, hsome, hsig, hsig89, hsig9x⟩ := signature_ti9x h9x
  have hshort : ∀ e ∈ es, e.folder.chars.length ≤ 256 := fun e he => by
    have hlen := (hfolders e he).length_le h84
    omega
  have htable : tifilesCreateTableOfEntries content.model es
      = .ok ((folderList es).map (tableRow es), (folderList es).length) := by
    unfold tifilesCreateTableOfEntries
    simp only [h8x, Bool.false_eq_true, if_false]
  have hrowsEq := (tableEntries_eq hshort h8x htable).1
  have hperm := folderRows_perm hshort
  have hrows := rowOk_inFolder hfolders hnames hsized htypes hshort
  have hfile32 : bytes.length < 2 ^ 32 := by omega
  have hdst := @readModel_convert conv _ _ _ h9x hold h89 hsig89 hsig9x
  obtain ⟨records, hrecords, hrecordsLen, hloop⟩ := tableRecords_readBack hne hshort hrows hdst
    hfile32 (recordCount es.length (folderList es).length).2
  obtain ⟨defaultFolder, hdefault, hwrite'⟩ := ti9xFileWriteRegular_entries hes hwrite
  obtain ⟨folder, hfolder, hbytes⟩ := written9x_bytes { content with defaultFolder } h8x hshort
    hsome hsig rfl hrecords hwrite'
  have hfolderLen := length_fwriteName hfolder
  have hoffset := recordCount_offset es.length (folderList es).length
  have hheader := length_header9x hsig.1 hfolderLen content.comment
    (recordCount es.length (folderList es).length).1
  have hdataLen : ((folderRows es).flatten.flatMap varData).length
      = dataLength (folderRows es).flatten :=
    length_flatMap_varData fun e he => hsized e (hperm.mem_iff.1 he)
  have hlength : bytes.length = (recordCount es.length (folderList es).length).2
      + dataLength (folderRows es).flatten := by
    rw [hbytes]
    simp only [List.length_append, hheader, hrecordsLen, length_fwriteLong, length_fwriteWord,
      hdataLen]
    omega
  have hdrop : bytes.drop (recordCount es.length (folderList es).length).2
      = (folderRows es).flatten.flatMap varData := by
    rw [hbytes, ← List.append_assoc, ← List.append_assoc, ← List.append_assoc]
    refine List.drop_left' ?_
    simp only [List.length_append, hheader, hrecordsLen, length_fwriteLong, length_fwriteWord]
    omega
  -- the loop starts after the header, in the default folder
  have hread := hloop ((⟨bytes, 0⟩ : InFile).advance 60)
    (nameFromFile conv _ (cstr folder) 0xFF old.defaultFolder) _
    (fun e he => by
      rw [← hdefault e he]
      exact nameFromFile_fwriteName (hdefault e he ▸ hfolders e (he ▸ List.mem_singleton.2 rfl))
        hdst hfolder)
    (by
      rw [InFile.rest_advance]
      show bytes.drop 60 = _
      rw [hbytes]
      exact List.drop_left' hheader)
    hdrop hlength.ge
  have hsmall : (recordCount es.length (folderList es).length).1 < 2 ^ 16 := by
    unfold recordCount
    split
    · exact hcount
    · decide
  rw [hbytes] at hread
  obtain ⟨read, hok, hentries, hnum⟩ := exec_readRegular9xBody hsig hfolderLen hsmall rfl hread
  rw [← hbytes] at hok
  refine ⟨_, _, read, htable, ?_, ?_, ?_, ?_⟩
  · unfold ti9xFileReadRegular
    rw [hregular, if_neg (by decide), if_neg (by omega)]
    exact hok
  · have houtLen : ((folderRows es).flatten.map readBack9x).length = es.length := by
      rw [List.length_map, hperm.length_eq]
    have hout : ((folderRows es).flatten.map readBack9x).isEmpty = false := by
      rw [List.isEmpty_eq_false_iff, Ne, ← List.length_eq_zero_iff, houtLen,
        List.length_eq_zero_iff]
      exact hne
    rw [hrowsEq]
    exact entryList_of_entries (by omega) (by rw [hentries, hout]; rfl) hnum
  · rw [hrowsEq]
    exact hperm
  · exact hrowsEq

/-- Converters for the serial models, which convert nothing. -/
def serialConverters : Converters where
  utf16ToUtf8 := fun _ => none
  length_utf16ToUtf8 := nofun
  utf8ToUtf16 := fun _ => none
  toTifile84 := fun _ _ _ => none
  fromTifile84 := fun _ _ _ => none

/-- An entry of two bytes. -/
def sampleEntry (folder name : String) (type attr : UInt8) : VarEntry where
  folder := VarName.ofChars (ascii folder)
  name := VarName.ofChars (ascii name)
  type := type
  attr := attr
  version := 0
  size := 2
  data := some [1, 2]

/-- The 41 characters of a comment that was read fit its field. -/
theorem commentField_le : 40 + 1 ≤ 43 := by decide

/-- A content with its entries. -/
def sampleContent (comment : String) (es : List VarEntry) : FileContent where
  model := .ti89
  defaultFolder := VarName.ofChars (ascii "main")
  comment := (Buf.ofChars 40 (ascii comment)).overwrite ⟨List.replicate 43 0, List.length_replicate⟩
    commentField_le
  numEntries := UInt32.ofNat es.length
  entries := some (es.map some)
  checksum := 0
  modelDst := .ti89
  storedChecksum := 0

/-- Two entries of one folder, and one of another between them. -/
def sampleEntries : List VarEntry :=
  [sampleEntry "main" "x" 0 0, sampleEntry "lib" "f" 0x13 3, sampleEntry "main" "y" 4 2]

/-- The bytes that the writer puts into the file. -/
def writtenFile (content : FileContent) : List UInt8 :=
  match ti9xFileWriteRegular serialConverters content with
  | .ok (some bytes) => bytes
  | _ => []

theorem ti9xFileReadRegular_written_group :
    ∃ read, ti9xFileReadRegular serialConverters (ascii "a.89g")
        (writtenFile (sampleContent "" sampleEntries)) (sampleContent "" []) = .ok read
      ∧ read.entryList = some ([sampleEntry "main" "x" 0 0, sampleEntry "main" "y" 4 2,
        sampleEntry "lib" "f" 0x13 3].map readBack9x) := by
  have hname : ∀ name : List UInt8, name.length ≤ 8 → (∀ b ∈ name, b ≠ 0) →
      CalcName serialConverters .ti89 8 name := fun name hlen hnul =>
    calcName_serial serialConverters rfl (by decide) hlen hnul
  obtain ⟨table, n, read, htable, hread, hentries, -, hrows⟩ :=
    @ti9xFileReadRegular_written serialConverters (sampleContent "" sampleEntries)
      (sampleContent "" []) sampleEntries (ascii "a.89g")
      (writtenFile (sampleContent "" sampleEntries)) rfl rfl
      (iff_of_false (by decide) (by decide)) (by decide) (by decide) (by decide)
      (fun e he => hname _ (by revert e; decide) (by revert e; decide))
      (fun e he => hname _ (by revert e; decide) (by revert e; decide))
      (by unfold VarEntry.Sized; decide +kernel) (by decide +kernel) (by decide +kernel)
      (by decide +kernel) (by decide +kernel)
  refine ⟨read, hread, ?_⟩
  rw [hentries, hrows]
  decide

/-- Every content of a TI-9x model comes back, entry by entry in the order of the table of
entries, with the property `keeps` of what is read and what was written. -/
def EntriesKeep9x (keeps : VarEntry → VarEntry → Prop) : Prop :=
  ∀ (conv : Converters) (content old : FileContent) (es : List VarEntry)
    (filename bytes : List UInt8), tifilesCalcIsTi9x content.model = true →
    old.modelDst = content.model → content.entryList = some es →
    (∀ e ∈ es, CalcName conv content.model 8 e.name.chars) → (∀ e ∈ es, e.Sized) →
    ti9xFileWriteRegular conv content = .ok (some bytes) →
    ∃ table n read out, tifilesCreateTableOfEntries content.model es = .ok (table, n)
      ∧ ti9xFileReadRegular conv filename bytes old = .ok read ∧ read.entryList = some out
      ∧ List.Forall₂ keeps out (tableEntries es table).flatten

/-- What is found in the file of a content for the TI-89. -/
def readSample (comment : String) (es : List VarEntry) : Option (List VarEntry) :=
  (ti9xFileReadRegular serialConverters (ascii "main.x.89y") (writtenFile (sampleContent comment es))
    (sampleContent "" [])).toOption.bind FileContent.entryList

theorem EntriesKeep9x.sample {keeps : VarEntry → VarEntry → Prop} (h : EntriesKeep9x keeps)
    {comment : String} {es : List VarEntry} (hes : (sampleContent comment es).entryList = some es)
    (hnames : ∀ e ∈ es, e.name.chars.length ≤ 8) (hsized : ∀ e ∈ es, e.Sized)
    (hwrite : ti9xFileWriteRegular serialConverters (sampleContent comment es)
      = .ok (some (writtenFile (sampleContent comment es)))) :
    ∃ table out, tifilesCreateTableOfEntries .ti89 es = .ok table
      ∧ readSample comment es = some out
      ∧ List.Forall₂ keeps out (tableEntries es table.1).flatten := by
  obtain ⟨table, n, read, out, htable, hread, hout, hkeeps⟩ := h serialConverters
    (sampleContent comment es) (sampleContent "" []) es (ascii "main.x.89y") _ rfl rfl hes
    (fun e he => calcName_serial serialConverters rfl (nofun : CalcModel.ti89 ≠ .ti89tUsb)
      (hnames e he) e.name.noNul)
    hsized hwrite
  refine ⟨_, out, htable, ?_, hkeeps⟩
  rw [readSample, hread]
  exact hout

/-- What the format loses: the difference of the attributes 2 and 3, an entry with the type
of a folder, and a file whose comment makes it look like an operating system. -/
theorem not_entriesKeep9x :
    ¬EntriesKeep9x (fun read e => read.attr = e.attr)
      ∧ ¬EntriesKeep9x (fun read e => read.type = e.type) ∧ ¬EntriesKeep9x fun _ _ => True := by
  refine ⟨fun h => ?_, fun h => ?_, fun h => ?_⟩
  · obtain ⟨table, out, htable, hread, hkeeps⟩ := @EntriesKeep9x.sample _ h ""
      [sampleEntry "main" "x" 0 2] (by decide) (by decide)
      (by unfold VarEntry.Sized; decide) (by decide)
    have hout : readSample "" [sampleEntry "main" "x" 0 2]
        = some [sampleEntry "main" "x" 0 3] := by
      decide
    cases Option.some.inj (hout.symm.trans hread)
    cases htable
    have hrow : (tableEntries [sampleEntry "main" "x" 0 2] [[0]]).flatten
        = [sampleEntry "main" "x" 0 2] := by
      decide
    have hattr := (List.forall₂_cons.1 (hrow ▸ hkeeps)).1
    exact absurd hattr (by decide)
  · obtain ⟨table, out, htable, hread, hkeeps⟩ := @EntriesKeep9x.sample _ h ""
      [sampleEntry "main" "d" 0x1F 0, sampleEntry "main" "x" 0 0] (by decide)
      (by decide) (by unfold VarEntry.Sized; decide) (by decide)
    have hout : readSample "" [sampleEntry "main" "d" 0x1F 0, sampleEntry "main" "x" 0 0]
        = some [sampleEntry "d" "x" 0 0] := by
      decide +kernel
    cases Option.some.inj (hout.symm.trans hread)
    cases htable
    exact absurd hkeeps.length_eq (by decide)
  · obtain ⟨table, out, -, hread, -⟩ := @EntriesKeep9x.sample _ h
      "the Advanced Mathematics Software" [sampleEntry "main" "x" 0 0] (by decide)
      (by decide) (by unfold VarEntry.Sized; decide) (by decide)
    have hout : readSample "the Advanced Mathematics Software" [sampleEntry "main" "x" 0 0]
        = none := by
      decide
    cases hout.symm.trans hread

end Tilibs.Files
