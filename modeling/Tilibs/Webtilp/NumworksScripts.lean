import Tilibs.Lib.Fallible
import Tilibs.Lib.Keyed
import Tilibs.Webtilp.NumworksBackend

/-!
# Tilibs.Webtilp.NumworksScripts

The edits of the scripts in the storage of a NumWorks calculator: `upsertScripts`, `deleteScripts`
and `renameScript`, which make another list of records and commit it.

The names of scripts are normalised; a stored name is compared with them without regard to case.
On a storage whose names differ an edit is a map, a filter or an append (`ScriptEdit.apply`), and
the names differ afterwards.
-/

namespace Tilibs.Webtilp

open Lib

/-! ## names -/

/-- What JavaScript does with text: its codec, `normalize('NFKD')` and `toLowerCase`. -/
structure JsText extends TextCodec where
  normalizeNFKD : String → String
  toLowerCase : String → String

/-- `[a-z_]` -/
def scriptStart (c : Char) : Bool := decide ('a' ≤ c ∧ c ≤ 'z' ∨ c = '_')

/-- `[a-z0-9_]` -/
def scriptChar (c : Char) : Bool := scriptStart c || decide ('0' ≤ c ∧ c ≤ '9')

/-- `[\u0300-\u036f]` -/
def isCombining (c : Char) : Bool := decide (0x300 ≤ c.toNat ∧ c.toNat ≤ 0x36F)

/-- `.split(/[\\/]/).pop()` -/
def lastPart (cs : List Char) : List Char :=
  (cs.reverse.takeWhile fun c => c ≠ '/' && c ≠ '\\').reverse

/-- `.replace(/\.py$/i, '')` -/
def withoutPy (cs : List Char) : List Char :=
  match cs.reverse with
  | y :: p :: '.' :: rest =>
      if (y = 'y' ∨ y = 'Y') ∧ (p = 'p' ∨ p = 'P') then rest.reverse else cs
  | _ => cs

/-- Each run of characters of a kind becomes an underscore. -/
def replaceRuns (p : Char → Bool) : List Char → List Char
  | [] => []
  | c :: cs =>
      if p c then '_' :: replaceRuns p (cs.dropWhile p) else c :: replaceRuns p cs
  termination_by cs => cs.length
  decreasing_by
    · have hle := (cs.dropWhile_sublist p).length_le
      simp only [List.length_cons]
      omega
    · simp

/-- The name that `normalizeScriptName` comes to. -/
def scriptBaseName (js : JsText) (filename : String) : List Char :=
  let withoutExtension := withoutPy (lastPart filename.toList)
  let decomposed := (js.normalizeNFKD (String.ofList withoutExtension)).toList
  let plain := decomposed.filter fun c => !isCombining c
  let lower := (js.toLowerCase (String.ofList plain)).toList
  let joined := replaceRuns (· == '_') (replaceRuns (fun c => !scriptChar c) lower)
  let named := if joined = [] then "script".toList else joined
  let started := if named.head?.any scriptStart then named else '_' :: named
  started.take 215

/-- `normalizeScriptName` -/
def normalizeScriptName (js : JsText) (filename : String) : Except String String :=
  let baseName := scriptBaseName js filename
  if baseName.head?.any scriptStart && baseName.all scriptChar then .ok (String.ofList baseName)
  else .error s!"Cannot create a valid NumWorks script name from {filename}."

/-- The record of a script; `recordSize` is not there before it is read back. -/
def scriptRecord (js : JsText) (baseName code : String) (autoImport : Bool) : StorageRecord where
  fullName := baseName ++ ".py"
  baseName
  type := "py"
  nameBytes := some (js.encode (baseName ++ ".py"))
  data := (if autoImport then 1 else 0) :: js.encode code ++ [0]
  recordSize := 0
  valid := true
  autoImport := some autoImport
  code := some code

/-- `makePythonRecord` -/
def makePythonRecord (js : JsText) (baseName code : String) (autoImport : Bool) :
    Except String StorageRecord := do
  let normalized ← normalizeScriptName js baseName
  if '\x00' ∈ code.toList then .error s!"NumWorks script {normalized}.py contains a NUL byte."
  else .ok (scriptRecord js normalized code autoImport)

/-- A stored name without regard to case. -/
def StorageRecord.key (js : JsText) (record : StorageRecord) : String :=
  js.toLowerCase record.fullName

/-! ## upsert -/

/-- A script to put in the storage; `autoImport` may be undefined. -/
structure ScriptFile where
  name : String
  code : String
  autoImport : Option Bool

/-- The records, and `normalizedNames`. -/
structure Upsert where
  records : List StorageRecord
  names : List String

/-- The record in the place of an old one, whose import flag stays when it is not given. -/
def replacement (js : JsText) (script : ScriptFile) (old : Option StorageRecord)
    (next : StorageRecord) : Except String StorageRecord :=
  if script.autoImport = none then
    makePythonRecord js script.name script.code ((old.bind StorageRecord.autoImport).getD false)
  else .ok next

/-- A turn of the loop of `upsertScripts`. -/
def upsertScript (js : JsText) (st : Upsert) (script : ScriptFile) : Except String Upsert := do
  let next ← makePythonRecord js script.name script.code (decide (script.autoImport ≠ some false))
  let key := next.key js
  if key ∈ st.names then .error s!"Multiple files normalize to {next.fullName}."
  else
    match st.records.findIdx? fun record => record.key js = key with
    | some i => do
        let next ← replacement js script st.records[i]? next
        .ok ⟨st.records.set i next, key :: st.names⟩
    | none => .ok ⟨st.records ++ [next], key :: st.names⟩

def upsertRecords (js : JsText) (records : List StorageRecord) (scripts : List ScriptFile) :
    Except String (List StorageRecord) :=
  (scripts.foldlM (upsertScript js) ⟨records, []⟩).map Upsert.records

/-! ## delete and rename -/

/-- The name that an existing script is looked for with. -/
def targetKey (js : JsText) (name : String) : String :=
  js.toLowerCase (String.ofList (withoutPy name.toList)) ++ ".py"

def deleteRecords (js : JsText) (records : List StorageRecord) (names : List String) :
    Except String (List StorageRecord) :=
  let targets := names.map (targetKey js)
  let kept := records.filter fun record => record.key js ∉ targets
  if kept.length = records.length then
    .error "None of the selected NumWorks scripts were found."
  else .ok kept

/-- The record under another name. -/
def StorageRecord.renamed (js : JsText) (newBase : String) (record : StorageRecord) :
    StorageRecord :=
  { record with
    fullName := newBase ++ ".py"
    baseName := newBase
    nameBytes := some (js.encode (newBase ++ ".py")) }

def renameRecords (js : JsText) (records : List StorageRecord) (oldName newName : String) :
    Except String (List StorageRecord) := do
  let newBase ← normalizeScriptName js newName
  match records.findIdx? fun record => record.key js = targetKey js oldName with
  | none => .error s!"NumWorks script {oldName}.py was not found."
  | some i =>
      if records.zipIdx.any fun (record, candidate) =>
          candidate != i && record.key js == newBase ++ ".py" then
        .error s!"NumWorks script {newBase}.py already exists."
      else .ok (records.modify i (StorageRecord.renamed js newBase))

/-! ## what an edit is -/

/-- The name that a script is normalised to, if it can be. -/
def ScriptFile.base (js : JsText) (script : ScriptFile) : Option String :=
  (normalizeScriptName js script.name).toOption

def ScriptFile.key (js : JsText) (script : ScriptFile) : Option String :=
  (script.base js).map (· ++ ".py")

def ScriptFile.record (js : JsText) (script : ScriptFile) (autoImport : Bool) : StorageRecord :=
  scriptRecord js ((script.base js).getD "") script.code autoImport

/-- A record with the script of its name in its place, if there is one; a script whose import flag
is undefined takes that of the record. -/
def StorageRecord.upserted (js : JsText) (scripts : List ScriptFile) (record : StorageRecord) :
    StorageRecord :=
  match scripts.find? fun script => script.key js = some (record.key js) with
  | some script => script.record js (script.autoImport.getD (record.autoImport.getD false))
  | none => record

/-- No record has the name of the script. -/
def ScriptFile.isNew (js : JsText) (records : List StorageRecord) (script : ScriptFile) : Bool :=
  records.all fun record => script.key js ≠ some (record.key js)

/-- The edits of scripts. -/
inductive ScriptEdit
  | upsert (scripts : List ScriptFile)
  | delete (names : List String)
  | rename (oldName newName : String)

/-- The records that an edit makes. -/
def ScriptEdit.records (js : JsText) (records : List StorageRecord) :
    ScriptEdit → Except String (List StorageRecord)
  | .upsert scripts => upsertRecords js records scripts
  | .delete names => deleteRecords js records names
  | .rename oldName newName => renameRecords js records oldName newName

/-- The records with the scripts put in place, and the new ones behind them. -/
def upsertedRecords (js : JsText) (records : List StorageRecord) (scripts : List ScriptFile) :
    List StorageRecord :=
  records.map (StorageRecord.upserted js scripts)
    ++ (scripts.filter (ScriptFile.isNew js records)).map fun script =>
      script.record js (script.autoImport.getD true)

/-- What the records of an edit are to be: those that it does not name stay as they are, the ones
that it does are replaced, renamed or removed in place, and new ones are behind them in order. -/
def ScriptEdit.apply (js : JsText) (records : List StorageRecord) :
    ScriptEdit → List StorageRecord
  | .upsert scripts => upsertedRecords js records scripts
  | .delete names => records.filter fun record => record.key js ∉ names.map (targetKey js)
  | .rename oldName newName =>
      records.map fun record =>
        if record.key js = targetKey js oldName then
          record.renamed js ((normalizeScriptName js newName).toOption.getD "")
        else record

/-- What is relied on of the text functions: lower case letters, digits, underscores and dots are
their own lower case, and are encoded and decoded as themselves. -/
structure JsText.Documented (js : JsText) : Prop where
  toLowerCase : ∀ s : String, (∀ c ∈ s.toList, scriptChar c = true ∨ c = '.') → js.toLowerCase s = s
  decode_encode : ∀ s : String, (∀ c ∈ s.toList, scriptChar c = true ∨ c = '.') →
    js.decode (js.encode s) = s

section Edits

variable {js : JsText} {records : List StorageRecord} {script : ScriptFile}
  {done : List ScriptFile} {st st' : Upsert}

theorem normalizeScriptName_ok {filename base : String}
    (h : normalizeScriptName js filename = .ok base) : ∀ c ∈ base.toList, scriptChar c = true := by
  unfold normalizeScriptName at h
  generalize scriptBaseName js filename = baseName at h
  dsimp only at h
  split at h
  · next hvalid =>
    cases h
    rw [Bool.and_eq_true] at hvalid
    rw [String.toList_ofList]
    exact List.all_eq_true.mp hvalid.2
  · cases h

/-- The name of a script is its own lower case. -/
theorem lowered_base (hjs : js.Documented) {filename base : String}
    (h : normalizeScriptName js filename = .ok base) :
    js.toLowerCase (base ++ ".py") = base ++ ".py"
      ∧ js.decode (js.encode (base ++ ".py")) = base ++ ".py" := by
  have hchars : ∀ c ∈ (base ++ ".py").toList, scriptChar c = true ∨ c = '.' := by
    intro c hc
    rw [String.toList_append] at hc
    rcases List.mem_append.mp hc with hc | hc
    · exact .inl (normalizeScriptName_ok h c hc)
    · rw [show ".py".toList = ['.', 'p', 'y'] from rfl] at hc
      simp only [List.mem_cons, List.not_mem_nil, or_false] at hc
      rcases hc with rfl | rfl | rfl
      · exact .inr rfl
      · exact .inl rfl
      · exact .inl rfl
  exact ⟨hjs.toLowerCase _ hchars, hjs.decode_encode _ hchars⟩

theorem makePythonRecord_ok {name code : String} {flag : Bool} {record : StorageRecord}
    (h : makePythonRecord js name code flag = .ok record) :
    ∃ base, normalizeScriptName js name = .ok base ∧ record = scriptRecord js base code flag := by
  obtain ⟨base, hbase, h⟩ := bind_eq_ok_iff.mp h
  obtain ⟨-, h⟩ := check_eq_ok_iff.mp h
  cases h
  exact ⟨base, hbase, rfl⟩

theorem ScriptFile.record_key (hjs : js.Documented) {key : String} (h : script.key js = some key)
    (flag : Bool) : (script.record js flag).key js = key := by
  unfold ScriptFile.key ScriptFile.base at h
  cases hbase : normalizeScriptName js script.name with
  | error e =>
      rw [hbase] at h
      cases h
  | ok base =>
      rw [hbase] at h
      cases h
      unfold ScriptFile.record ScriptFile.base StorageRecord.key
      rw [hbase]
      exact (lowered_base hjs hbase).1

theorem StorageRecord.upserted_key (hjs : js.Documented) (scripts : List ScriptFile)
    (record : StorageRecord) : (record.upserted js scripts).key js = record.key js := by
  unfold StorageRecord.upserted
  split
  · next script hfound =>
    have hkey := List.find?_some hfound
    exact ScriptFile.record_key hjs (of_decide_eq_true hkey) _
  · rfl

theorem StorageRecord.upserted_of_ne {scripts : List ScriptFile} {record : StorageRecord}
    (h : ∀ s ∈ scripts, s.key js ≠ some (record.key js)) : record.upserted js scripts = record := by
  have hnone : scripts.find? (fun s => s.key js = some (record.key js)) = none := by
    refine List.find?_eq_none.mpr fun s hs => ?_
    rw [decide_eq_true_eq]
    exact h s hs
  unfold StorageRecord.upserted
  rw [hnone]

/-- The name of a script is not that of one that is done. -/
structure ScriptFile.Fresh (js : JsText) (done : List ScriptFile) (script : ScriptFile)
    (key : String) : Prop where
  named : script.key js = some key
  other : ∀ s ∈ done, s.key js ≠ some key
  others : ∀ s ∈ done, (s.key js).isSome

section Fresh

variable {key : String}

theorem ScriptFile.Fresh.record_key_ne (hfresh : script.Fresh js done key)
    (hjs : js.Documented) {s : ScriptFile} (hs : s ∈ done)
    (flag : Bool) : (s.record js flag).key js ≠ key := by
  obtain ⟨name, hname⟩ := Option.isSome_iff_exists.mp (hfresh.others s hs)
  rw [ScriptFile.record_key hjs hname]
  exact fun heq => hfresh.other s hs (heq ▸ hname)

theorem ScriptFile.Fresh.upserted_eq (hfresh : script.Fresh js done key)
    {record : StorageRecord} (h : record.key js = key) :
    record.upserted js done = record :=
  StorageRecord.upserted_of_ne fun s hs => by
    rw [h]
    exact hfresh.other s hs

/-- One more script replaces the record of its name. -/
theorem ScriptFile.Fresh.upserted_append (hfresh : script.Fresh js done key)
    (record : StorageRecord) :
    record.upserted js (done ++ [script])
      = if record.key js = key then
          script.record js (script.autoImport.getD (record.autoImport.getD false))
        else record.upserted js done := by
  unfold StorageRecord.upserted
  rw [List.find?_append]
  by_cases hkey : record.key js = key
  · have hnone : done.find? (fun s => s.key js = some (record.key js)) = none := by
      refine List.find?_eq_none.mpr fun s hs => ?_
      rw [hkey, decide_eq_true_eq]
      exact hfresh.other s hs
    rw [if_pos hkey, hnone, Option.none_or, List.find?_singleton, hfresh.named, hkey]
    simp only [decide_true, if_true]
  · have hnone : [script].find? (fun s => s.key js = some (record.key js)) = none := by
      rw [List.find?_singleton, hfresh.named, if_neg]
      rw [decide_eq_true_eq]
      exact fun heq => hkey (Option.some.inj heq).symm
    rw [if_neg hkey, hnone, Option.or_none]

/-- A record of the name is an old one, which no script has replaced. -/
theorem ScriptFile.Fresh.mem_of_mem (hfresh : script.Fresh js done key) (hjs : js.Documented)
    {x : StorageRecord}
    (hx : x ∈ upsertedRecords js records done) (hkey : x.key js = key) : x ∈ records := by
  rcases List.mem_append.mp hx with hx | hx
  · obtain ⟨r, hr, rfl⟩ := List.mem_map.mp hx
    rw [hfresh.upserted_eq ((StorageRecord.upserted_key hjs done r).symm.trans hkey)]
    exact hr
  · obtain ⟨s, hs, rfl⟩ := List.mem_map.mp hx
    exact absurd hkey (hfresh.record_key_ne hjs (List.mem_of_mem_filter hs) _)

theorem ScriptFile.Fresh.filter_append (hfresh : script.Fresh js done key) :
    (done ++ [script]).filter (ScriptFile.isNew js records)
    = done.filter (ScriptFile.isNew js records)
      ++ if ∀ r ∈ records, r.key js ≠ key then [script] else [] := by
  have hnew : script.isNew js records = decide (∀ r ∈ records, r.key js ≠ key) := by
    unfold ScriptFile.isNew
    rw [Bool.eq_iff_iff, List.all_eq_true, decide_eq_true_eq]
    refine forall₂_congr fun r _ => ?_
    rw [hfresh.named, decide_eq_true_eq, ne_eq, Option.some_inj, eq_comm]
  rw [List.filter_append, List.filter_singleton, hnew, Bool.cond_decide]

/-- A script whose name a record has takes its place. -/
theorem ScriptFile.Fresh.upsertedRecords_found (hfresh : script.Fresh js done key)
    (hjs : js.Documented) {x : StorageRecord}
    (hdistinct : DistinctKeys (StorageRecord.key js) (upsertedRecords js records done))
    (hx : x ∈ upsertedRecords js records done) (hkey : x.key js = key) :
    upsertedRecords js records (done ++ [script])
      = (upsertedRecords js records done).map fun r =>
        if r.key js = key then
          script.record js (script.autoImport.getD (x.autoImport.getD false))
        else r := by
  have hxold := hfresh.mem_of_mem hjs hx hkey
  have hreplaced : records.map (StorageRecord.upserted js (done ++ [script]))
      = (records.map (StorageRecord.upserted js done)).map fun r =>
        if r.key js = key then script.record js (script.autoImport.getD (x.autoImport.getD false))
        else r := by
    rw [List.map_map]
    refine List.map_congr_left fun r hr => ?_
    rw [hfresh.upserted_append, Function.comp_apply, StorageRecord.upserted_key hjs]
    by_cases hkeyr : r.key js = key
    · have hmem : r ∈ upsertedRecords js records done := by
        rw [← hfresh.upserted_eq hkeyr]
        exact List.mem_append_left _ (List.mem_map_of_mem hr)
      obtain rfl := hdistinct.eq_of_mem hmem hx (hkeyr.trans hkey.symm)
      rw [if_pos hkeyr]
    · rw [if_neg hkeyr, if_neg hkeyr]
  have hkept : ((done.filter (ScriptFile.isNew js records)).map fun s =>
        s.record js (s.autoImport.getD true)).map
          (fun r => if r.key js = key then
            script.record js (script.autoImport.getD (x.autoImport.getD false)) else r)
      = (done.filter (ScriptFile.isNew js records)).map fun s =>
        s.record js (s.autoImport.getD true) := by
    rw [List.map_map]
    refine List.map_congr_left fun s hs => ?_
    rw [Function.comp_apply, if_neg (hfresh.record_key_ne hjs (List.mem_of_mem_filter hs) _)]
  unfold upsertedRecords
  rw [hfresh.filter_append, if_neg (fun h => h x hxold hkey), List.append_nil, hreplaced,
    List.map_append, hkept]

/-- A script whose name no record has is put behind them. -/
theorem ScriptFile.Fresh.upsertedRecords_new (hfresh : script.Fresh js done key)
    (hjs : js.Documented)
    (hnone : ∀ x ∈ upsertedRecords js records done, x.key js ≠ key) :
    upsertedRecords js records (done ++ [script])
      = upsertedRecords js records done ++ [script.record js (script.autoImport.getD true)] := by
  have hold : ∀ r ∈ records, r.key js ≠ key := by
    intro r hr heq
    refine hnone (r.upserted js done) ?_ ((StorageRecord.upserted_key hjs done r).trans heq)
    exact List.mem_append_left _ (List.mem_map_of_mem hr)
  have hsame : records.map (StorageRecord.upserted js (done ++ [script]))
      = records.map (StorageRecord.upserted js done) :=
    List.map_congr_left fun r hr => by rw [hfresh.upserted_append, if_neg (hold r hr)]
  unfold upsertedRecords
  rw [hsame, hfresh.filter_append, if_pos hold, List.map_append, ← List.append_assoc]
  rfl

end Fresh

/-- The state of the loop when these scripts are done. -/
structure Upsert.Holds (js : JsText) (records : List StorageRecord) (done : List ScriptFile)
    (st : Upsert) : Prop where
  records : st.records = upsertedRecords js records done
  distinct : DistinctKeys (StorageRecord.key js) st.records
  keys : done.map (ScriptFile.key js) = st.names.reverse.map some
  nodup : st.names.Nodup

theorem Upsert.Holds.fresh (hst : st.Holds js records done) {key : String}
    (hkey : script.key js = some key) (hnot : key ∉ st.names) : script.Fresh js done key := by
  have hnames : ∀ s ∈ done, ∃ name ∈ st.names, some name = s.key js := by
    intro s hs
    have hmem := List.mem_map_of_mem (f := ScriptFile.key js) hs
    rw [hst.keys, List.mem_map] at hmem
    obtain ⟨name, hname, hsame⟩ := hmem
    exact ⟨name, List.mem_reverse.mp hname, hsame⟩
  refine ⟨hkey, fun s hs heq => ?_, fun s hs => ?_⟩
  · obtain ⟨name, hname, hsame⟩ := hnames s hs
    exact hnot (Option.some.inj (hsame.trans heq) ▸ hname)
  · obtain ⟨name, -, hsame⟩ := hnames s hs
    rw [← hsame]
    rfl

/-- The scripts of `makePythonRecord`. -/
theorem makePythonRecord_record {flag : Bool} {next : StorageRecord}
    (h : makePythonRecord js script.name script.code flag = .ok next) :
    next = script.record js flag ∧ (script.key js).isSome := by
  obtain ⟨base, hbase, rfl⟩ := makePythonRecord_ok h
  unfold ScriptFile.record ScriptFile.key ScriptFile.base
  rw [hbase]
  exact ⟨rfl, rfl⟩

theorem replacement_ok {x next : StorageRecord}
    (h : replacement js script (some x)
      (script.record js (decide (script.autoImport ≠ some false))) = .ok next) :
    next = script.record js (script.autoImport.getD (x.autoImport.getD false)) := by
  unfold replacement at h
  cases hflag : script.autoImport with
  | none =>
      rw [hflag, if_pos rfl] at h
      exact (makePythonRecord_record h).1
  | some flag =>
      rw [hflag, if_neg nofun] at h
      cases h
      cases flag <;> rfl

/-- One more script. -/
theorem Upsert.Holds.step (hjs : js.Documented) (hst : st.Holds js records done)
    (h : upsertScript js st script = .ok st') : st'.Holds js records (done ++ [script]) := by
  obtain ⟨next, hnext, h⟩ := bind_eq_ok_iff.mp h
  obtain ⟨rfl, hsome⟩ := makePythonRecord_record hnext
  obtain ⟨key, hkey⟩ := Option.isSome_iff_exists.mp hsome
  have hrecord := ScriptFile.record_key hjs hkey
  dsimp only at h
  rw [hrecord] at h
  obtain ⟨hnot, h⟩ := check_eq_ok_iff.mp h
  have hfresh := hst.fresh hkey hnot
  have hkeys : (done ++ [script]).map (ScriptFile.key js) = (key :: st.names).reverse.map some := by
    rw [List.map_append, hst.keys, List.reverse_cons, List.map_append, List.map_singleton, hkey]
    rfl
  have hnodup : (key :: st.names).Nodup := List.nodup_cons.mpr ⟨hnot, hst.nodup⟩
  split at h
  · next i hfound =>
    obtain ⟨x, hx, hxkey, hset⟩ := hst.distinct.set_findIdx? hfound
    obtain ⟨next, hnext', h⟩ := bind_eq_ok_iff.mp h
    rw [hx] at hnext'
    obtain rfl := replacement_ok hnext'
    cases h
    have hxmem := List.mem_of_getElem? hx
    refine ⟨?_, ?_, hkeys, hnodup⟩
    · rw [hst.records] at hxmem
      rw [hfresh.upsertedRecords_found hjs (hst.records ▸ hst.distinct) hxmem hxkey, ← hst.records]
      exact hset _
    · dsimp only
      rw [hset]
      refine hst.distinct.map fun r _ => ?_
      by_cases hkeyr : r.key js = key
      · rw [if_pos hkeyr, hrecord, hkeyr]
      · rw [if_neg hkeyr]
  · next hnone =>
    cases h
    have hnone := notMem_of_findIdx?_eq_none hnone
    have hflag : decide (script.autoImport ≠ some false) = script.autoImport.getD true := by
      rcases script.autoImport with _ | _ | _ <;> rfl
    refine ⟨?_, ?_, hkeys, hnodup⟩
    · rw [hfresh.upsertedRecords_new hjs (hst.records ▸ hnone), ← hst.records, ← hflag]
    · refine hst.distinct.append (List.nodup_singleton _) fun x hx y hy => ?_
      obtain rfl := List.mem_singleton.mp hy
      rw [hrecord]
      exact hnone x hx

/-- The records that `upsertScripts` makes. -/
theorem upsertRecords_ok (hjs : js.Documented)
    (hdistinct : DistinctKeys (StorageRecord.key js) records) {scripts : List ScriptFile}
    {records' : List StorageRecord} (h : upsertRecords js records scripts = .ok records') :
    records' = upsertedRecords js records scripts
      ∧ DistinctKeys (StorageRecord.key js) records'
      ∧ (scripts.map (ScriptFile.key js)).Nodup ∧ ∀ script ∈ scripts, (script.key js).isSome := by
  obtain ⟨st, hloop, rfl⟩ := map_eq_ok_iff.mp h
  have hstart : Upsert.Holds js records [] ⟨records, []⟩ := by
    refine ⟨?_, hdistinct, rfl, List.nodup_nil⟩
    unfold upsertedRecords
    rw [List.filter_nil, List.map_nil, List.append_nil]
    conv_lhs => rw [← List.map_id records]
    exact List.map_congr_left fun r _ => (StorageRecord.upserted_of_ne fun s hs =>
      absurd hs List.not_mem_nil).symm
  have hst := foldlM_prefix (P := Upsert.Holds js records)
    (fun done script st st' hst hstep => hst.step hjs hstep) hstart hloop
  have hkeys := hst.keys
  rw [List.nil_append] at hkeys
  refine ⟨hst.records, hst.distinct, ?_, fun script hscript => ?_⟩
  · rw [hkeys]
    exact (List.nodup_reverse.mpr hst.nodup).map (Option.some_injective _)
  · have hmem := List.mem_map_of_mem (f := ScriptFile.key js) hscript
    rw [hkeys] at hmem
    obtain ⟨name, -, hname⟩ := List.mem_map.mp hmem
    rw [← hname]
    rfl

theorem deleteRecords_ok (hdistinct : DistinctKeys (StorageRecord.key js) records)
    {names : List String} {records' : List StorageRecord}
    (h : deleteRecords js records names = .ok records') :
    records' = (ScriptEdit.delete names).apply js records
      ∧ DistinctKeys (StorageRecord.key js) records'
      ∧ ∃ record ∈ records, record.key js ∈ names.map (targetKey js) := by
  unfold deleteRecords at h
  obtain ⟨hsome, h⟩ := check_eq_ok_iff.mp h
  cases h
  refine ⟨rfl, hdistinct.filter _, ?_⟩
  by_contra hnone
  apply hsome
  rw [List.filter_eq_self.mpr]
  intro record hrecord
  rw [decide_eq_true_eq]
  exact fun hmem => hnone ⟨record, hrecord, hmem⟩

/-- The records that `renameScript` makes. -/
theorem renameRecords_ok (hjs : js.Documented)
    (hdistinct : DistinctKeys (StorageRecord.key js) records) {oldName newName : String}
    {records' : List StorageRecord} (h : renameRecords js records oldName newName = .ok records') :
    ∃ newBase, normalizeScriptName js newName = .ok newBase
      ∧ records' = (ScriptEdit.rename oldName newName).apply js records
      ∧ DistinctKeys (StorageRecord.key js) records'
      ∧ (∃ record ∈ records, record.key js = targetKey js oldName)
      ∧ ∀ record ∈ records, record.key js ≠ targetKey js oldName →
        record.key js ≠ newBase ++ ".py" := by
  obtain ⟨newBase, hbase, h⟩ := bind_eq_ok_iff.mp h
  split at h
  · cases h
  · next i hfound =>
    obtain ⟨x, hx, hxkey, -⟩ := hdistinct.set_findIdx? hfound
    obtain ⟨hclash, h⟩ := check_eq_ok_iff.mp h
    cases h
    have hother : ∀ record ∈ records, record.key js ≠ targetKey js oldName →
        record.key js ≠ newBase ++ ".py" := by
      intro record hrecord hne heq
      obtain ⟨j, hj⟩ := List.mem_iff_getElem?.mp hrecord
      have hji : j ≠ i := by
        rintro rfl
        exact hne (Option.some.inj (hj.symm.trans hx) ▸ hxkey)
      apply hclash
      refine List.any_eq_true.mpr ⟨(record, j), List.mk_mem_zipIdx_iff_getElem?.mpr hj, ?_⟩
      rw [Bool.and_eq_true, bne_iff_ne, beq_iff_eq]
      exact ⟨hji, heq⟩
    refine ⟨newBase, hbase, ?_, ?_, ⟨x, List.mem_of_getElem? hx, hxkey⟩, hother⟩
    · rw [hdistinct.modify_findIdx? hfound]
      unfold ScriptEdit.apply
      dsimp only
      rw [hbase]
      rfl
    · rw [hdistinct.modify_findIdx? hfound]
      exact hdistinct.map_replace (fun _ _ _ => (lowered_base hjs hbase).1) hother

end Edits

end Tilibs.Webtilp
