import Tilibs.Webtilp.NumworksInterrupted
import Tilibs.Webtilp.NumworksScripts

/-!
# Tilibs.Webtilp.NumworksEdit

The edits of scripts on a connected calculator: `upsertScripts`, `deleteScripts` and
`renameScript` take the records of the storage, edit them, and commit the result.

An edit that returns has written what `ScriptEdit.apply` says; one that is refused has not written.
-/

namespace Tilibs.Webtilp

open Lib

/-! ## the operations -/

/-- What `listScripts` says of a script. -/
structure ScriptInfo where
  index : Nat
  name : String
  fullName : String
  size : Nat
  autoImport : Bool
  valid : Bool
  deriving DecidableEq

def listScripts (js : JsText) : Option StorageImage → List ScriptInfo
  | none => []
  | some storage =>
      (storage.records.filter fun record => js.toLowerCase record.type = "py").zipIdx.map
        fun (record, index) =>
          { index
            name := record.baseName
            fullName := record.fullName
            size := (js.encode (record.code.getD "")).length
            autoImport := record.autoImport.getD false
            valid := record.valid }

/-- The records of the storage, which is read first when there is none. -/
def storedRecords (text : TextCodec) (device : DfuDevice) : NumWorksProc (List StorageRecord) := do
  if (← get).storage.isNone then
    let _ ← refresh text device false
  match (← get).storage with
  | some storage => return storage.records
  | none => throw (.error "Cannot read properties of null (reading 'records')")

/-- What the edits of records throw is thrown before the commit. -/
def edited {α : Type} (result : Except String α) : NumWorksProc α :=
  Proc.ofExcept (result.mapError BackendErr.error)

def upsertScripts (js : JsText) (device : DfuDevice) (scripts : List ScriptFile) :
    NumWorksProc (List ScriptInfo) := do
  let stored ← storedRecords js.toTextCodec device
  let records ← edited (upsertRecords js stored scripts)
  commitRecords js.toTextCodec device records
  return listScripts js (← get).storage

def deleteScripts (js : JsText) (device : DfuDevice) (names : List String) :
    NumWorksProc (List ScriptInfo) := do
  let stored ← storedRecords js.toTextCodec device
  let records ← edited (deleteRecords js stored names)
  commitRecords js.toTextCodec device records
  return listScripts js (← get).storage

def renameScript (js : JsText) (device : DfuDevice) (oldName newName : String) :
    NumWorksProc String := do
  let stored ← storedRecords js.toTextCodec device
  let newBase ← edited (normalizeScriptName js newName)
  let records ← edited (renameRecords js stored oldName newName)
  commitRecords js.toTextCodec device records
  return newBase

/-- The call of an edit; what it returns is left out. -/
def ScriptEdit.run (js : JsText) (device : DfuDevice) : ScriptEdit → NumWorksProc Unit
  | .upsert scripts => do
      let _ ← upsertScripts js device scripts
  | .delete names => do
      let _ ← deleteScripts js device names
  | .rename oldName newName => do
      let _ ← renameScript js device oldName newName

/-! ## what is named and what is refused -/

/-- The call names the record. -/
def ScriptEdit.names (js : JsText) (record : StorageRecord) : ScriptEdit → Bool
  | .upsert scripts => scripts.any fun script => script.key js = some (record.key js)
  | .delete names => record.key js ∈ names.map (targetKey js)
  | .rename oldName _ => record.key js = targetKey js oldName

/-- The calls that are refused. -/
inductive ScriptEdit.Refused (js : JsText) (info : PlatformInfo) (storage : StorageImage) :
    ScriptEdit → Prop
  | duplicate {scripts : List ScriptFile} :
      ¬(scripts.map (ScriptFile.key js)).Nodup → Refused js info storage (.upsert scripts)
  | unknownDelete {names : List String} :
      (∀ record ∈ storage.records, record.key js ∉ names.map (targetKey js)) →
      Refused js info storage (.delete names)
  | unknownRename {oldName newName : String} :
      (∀ record ∈ storage.records, record.key js ≠ targetKey js oldName) →
      Refused js info storage (.rename oldName newName)
  | clash {oldName newName newBase : String} {record : StorageRecord} :
      normalizeScriptName js newName = .ok newBase → record ∈ storage.records →
      record.key js ≠ targetKey js oldName → record.key js = newBase ++ ".py" →
      Refused js info storage (.rename oldName newName)
  | noSpace {edit : ScriptEdit} :
      info.storageSize < (storageBytes js.toTextCodec (edit.apply js storage.records)).length
        + storageTerminatorSize → Refused js info storage edit
  | notAllowed {edit : ScriptEdit} :
      ¬CommitAllowed info storage → Refused js info storage edit

/-! ## a commit that returns -/

section Commit

variable {text : TextCodec} {device : DfuDevice} {allow : Bool} {s₀ s s' : NumWorks}
  {info : PlatformInfo} {storage : StorageImage} {records : List StorageRecord} {left : Nat}

/-- A commit that returns has written all of its bytes. -/
theorem exec_commitRecords_ok
    (hrefresh : Proc.exec (refresh text device allow) s₀ = (.ok (some storage), s))
    (hinfo : s.platformInfo = some info)
    (hrun : Proc.exec (commitRecords text device records) { s with left } = (.ok (), s')) :
    ∃ encoded, encodeStoragePrefix text records info.storageSize = .ok encoded
      ∧ s'.memory
        = s.memory.poke (commitBytes info.storageAddress storage.usedBytes encoded) := by
  obtain ⟨info', hinfo', hstorage, hsize, hram, hparse⟩ := exec_refresh_ok hrefresh
  obtain rfl : info' = info := Option.some.inj (hinfo'.symm.trans hinfo)
  have hallowed : CommitAllowed info' storage := by
    by_contra hnot
    obtain ⟨message, hrefused⟩ := @exec_commitRecords_of_not_allowed text device records
      { s with left } _ _ hinfo hstorage hnot
    rw [hrefused] at hrun
    cases hrun
  rw [exec_commitRecords (s := { s with left }) hinfo hstorage hallowed] at hrun
  cases hencode : encodeStoragePrefix text records info'.storageSize with
  | error message =>
      rw [hencode] at hrun
      cases hrun
  | ok encoded =>
      rw [hencode] at hrun
      dsimp only at hrun
      obtain ⟨hmin, hmax, hused⟩ := commit_bounds hparse hencode
      have hsends := sends_commitWrites hsize hram hmin hmax hused
      rcases exec_withStorageInterface hsends device { s with left } with ⟨message, hmissing⟩ |
        ⟨hdone, hlost⟩
      · rw [hmissing] at hrun
        cases hrun
      · rcases Nat.lt_or_ge left (commitSteps device storage encoded s) with hlt | hge
        · obtain ⟨n, alternate, hwrites⟩ := hlost hlt
          rw [hwrites] at hrun
          cases hrun
        · rw [hdone hge] at hrun
          refine ⟨encoded, rfl, ?_⟩
          rw [← (Prod.mk.inj hrun).2]
          exact (exec_refresh text device false _).1

/-- The storage of a commit that returns holds its records. -/
theorem image_of_commitRecords
    (hrefresh : Proc.exec (refresh text device allow) s₀ = (.ok (some storage), s))
    (hinfo : s.platformInfo = some info)
    (hrun : Proc.exec (commitRecords text device records) { s with left } = (.ok (), s')) :
    ∃ parsed, parseStorageImage text (s'.image info) info.storageSize = .ok parsed
      ∧ parsed.records.map (fun r => (r.nameBytes, r.data))
        = records.map (fun r => (some (r.writtenName text), r.data)) := by
  obtain ⟨info', hinfo', -, -, -, hparse⟩ := exec_refresh_ok hrefresh
  obtain rfl : info' = info := Option.some.inj (hinfo'.symm.trans hinfo)
  obtain ⟨encoded, hencode, hmemory⟩ := exec_commitRecords_ok hrefresh hinfo hrun
  unfold NumWorks.image
  rw [hmemory]
  exact (image_of_commit hparse hencode).2

/-- Records for which there is no space are not written. -/
theorem exec_commitRecords_of_noSpace (hinfo : s.platformInfo = some info)
    (hstorage : s.storage = some storage)
    (hspace : info.storageSize < (storageBytes text records).length + storageTerminatorSize)
    (hmin : 2 ≤ info.storageSize) :
    ∃ message, Proc.exec (commitRecords text device records) s = (.error (.error message), s) := by
  by_cases hallowed : CommitAllowed info storage
  · rw [exec_commitRecords hinfo hstorage hallowed]
    cases hencode : encodeStoragePrefix text records info.storageSize with
    | error message => exact ⟨message, rfl⟩
    | ok encoded =>
        obtain ⟨hbytes, -, hroom⟩ := encodeStoragePrefix_ok hencode
        have hlength : encoded.length = 4 + ((storageBytes text records).length + 2) := by
          rw [hbytes, List.length_append, List.length_append]
          rfl
        unfold storageTerminatorSize at hspace
        unfold storageHeaderSize at hroom
        cases records with
        | nil =>
            have hnone : (storageBytes text []).length = 0 := rfl
            omega
        | cons record records =>
            have hroom := hroom (List.cons_ne_nil record records)
            omega
  · exact exec_commitRecords_of_not_allowed hinfo hstorage hallowed

end Commit

/-! ## the names that are read back -/

/-- The name of the record is that of the bytes that are written. -/
def StorageRecord.Named (text : TextCodec) (record : StorageRecord) : Prop :=
  record.fullName = text.decode (record.writtenName text)

theorem parseRecord_named {text : TextCodec} {bytes : List UInt8} {offset recordSize : Nat}
    {record : StorageRecord} (h : parseRecord text bytes offset recordSize = .ok record) :
    record.nameBytes.isSome ∧ record.Named text := by
  unfold parseRecord at h
  dsimp only at h
  split at h
  · cases h
  · split at h
    · cases h
      exact ⟨rfl, rfl⟩
    · cases h
      exact ⟨rfl, rfl⟩

theorem parseRecords_named {text : TextCodec} {bytes : List UInt8} {recordLimit offset : Nat}
    {found : List StorageRecord × Nat}
    (h : parseRecords text bytes recordLimit offset = .ok found) :
    ∀ record ∈ found.1, record.nameBytes.isSome ∧ record.Named text := by
  fun_induction parseRecords text bytes recordLimit offset generalizing found with
  | case1 offset hroom recordSize =>
      cases h
      exact fun record hrecord => absurd hrecord List.not_mem_nil
  | case2 offset hroom recordSize hzero => cases h
  | case3 offset hroom recordSize hzero hbad =>
      rename_i ih
      obtain ⟨record, hrecord, h⟩ := bind_eq_ok_iff.mp h
      obtain ⟨rest, hrest, h⟩ := bind_eq_ok_iff.mp h
      cases h
      intro r hr
      rcases List.mem_cons.mp hr with rfl | hr
      · exact parseRecord_named hrecord
      · exact ih hrest r hr
  | case4 offset hroom => cases h

theorem parseStorageImage_named {text : TextCodec} {bytes : List UInt8} {storageSize : Int}
    {parsed : StorageImage} (h : parseStorageImage text bytes storageSize = .ok parsed) :
    ∀ record ∈ parsed.records, record.nameBytes.isSome ∧ record.Named text := by
  unfold parseStorageImage at h
  obtain ⟨-, h⟩ := check_eq_ok_iff.mp h
  obtain ⟨-, h⟩ := check_eq_ok_iff.mp h
  obtain ⟨-, h⟩ := check_eq_ok_iff.mp h
  obtain ⟨found, hfound, h⟩ := bind_eq_ok_iff.mp h
  cases h
  exact parseRecords_named hfound

section Names

variable {js : JsText} {records : List StorageRecord}

theorem ScriptFile.record_named (hjs : js.Documented) {script : ScriptFile}
    (h : (script.key js).isSome) (flag : Bool) : (script.record js flag).Named js.toTextCodec := by
  obtain ⟨base, hbase⟩ : ∃ base, script.base js = some base := by
    rw [← Option.isSome_iff_exists]
    exact (Option.isSome_map ..).symm.trans h
  unfold ScriptFile.record
  rw [hbase]
  cases hname : normalizeScriptName js script.name with
  | error message =>
      unfold ScriptFile.base at hbase
      rw [hname] at hbase
      cases hbase
  | ok base' =>
      unfold ScriptFile.base at hbase
      rw [hname] at hbase
      cases hbase
      exact (lowered_base hjs hname).2.symm

theorem upsertedRecords_named (hjs : js.Documented) {scripts : List ScriptFile}
    (hscripts : ∀ script ∈ scripts, (script.key js).isSome)
    (h : ∀ record ∈ records, record.Named js.toTextCodec) :
    ∀ record ∈ upsertedRecords js records scripts, record.Named js.toTextCodec := by
  intro record hrecord
  rcases List.mem_append.mp hrecord with hrecord | hrecord
  · obtain ⟨old, hold, rfl⟩ := List.mem_map.mp hrecord
    unfold StorageRecord.upserted
    split
    · next script hfound =>
      exact ScriptFile.record_named hjs (hscripts _ (List.mem_of_find?_eq_some hfound)) _
    · exact h old hold
  · obtain ⟨script, hscript, rfl⟩ := List.mem_map.mp hrecord
    exact ScriptFile.record_named hjs (hscripts _ (List.mem_of_mem_filter hscript)) _

/-- The records that an edit makes are those it is to make, and their names differ. -/
theorem ScriptEdit.records_ok (hjs : js.Documented)
    (hdistinct : DistinctKeys (StorageRecord.key js) records)
    (hnamed : ∀ record ∈ records, record.Named js.toTextCodec) {edit : ScriptEdit}
    {records' : List StorageRecord} (h : edit.records js records = .ok records') :
    records' = edit.apply js records ∧ DistinctKeys (StorageRecord.key js) records'
      ∧ ∀ record ∈ records', record.Named js.toTextCodec := by
  cases edit with
  | upsert scripts =>
      obtain ⟨rfl, hkeys, -, hscripts⟩ := upsertRecords_ok hjs hdistinct h
      exact ⟨rfl, hkeys, upsertedRecords_named hjs hscripts hnamed⟩
  | delete names =>
      obtain ⟨rfl, hkeys, -⟩ := deleteRecords_ok hdistinct h
      exact ⟨rfl, hkeys, fun record hrecord => hnamed record (List.mem_of_mem_filter hrecord)⟩
  | rename oldName newName =>
      obtain ⟨newBase, hbase, rfl, hkeys, -⟩ := renameRecords_ok hjs hdistinct h
      refine ⟨rfl, hkeys, fun record hrecord => ?_⟩
      obtain ⟨old, hold, rfl⟩ := List.mem_map.mp hrecord
      split
      · rw [hbase]
        exact (lowered_base hjs hbase).2.symm
      · exact hnamed old hold

/-- The records that an edit does not name stay, in their order. -/
theorem ScriptEdit.unnamed_sublist (js : JsText) (records : List StorageRecord)
    (edit : ScriptEdit) :
    (records.filter fun record => !edit.names js record).Sublist (edit.apply js records) := by
  have hmap (f : StorageRecord → StorageRecord)
      (hf : ∀ record, edit.names js record = false → f record = record) :
      (records.filter fun record => !edit.names js record).Sublist (records.map f) := by
    have hself : (records.filter fun record => !edit.names js record).map f
        = records.filter fun record => !edit.names js record := by
      conv_rhs => rw [← List.map_id (records.filter _)]
      refine List.map_congr_left fun record hrecord => hf record ?_
      have hunnamed := (List.mem_filter.mp hrecord).2
      rwa [Bool.not_eq_true'] at hunnamed
    rw [← hself]
    exact List.filter_sublist.map f
  cases edit with
  | upsert scripts =>
      refine (hmap (StorageRecord.upserted js scripts) fun record hrecord => ?_).trans
        (List.sublist_append_left _ _)
      refine StorageRecord.upserted_of_ne fun script hscript heq => ?_
      have hnone := List.any_eq_false.mp hrecord script hscript
      exact hnone (decide_eq_true heq)
  | delete names =>
      have hsame : (fun record => !(ScriptEdit.delete names).names js record)
          = fun record => decide (record.key js ∉ names.map (targetKey js)) := by
        funext record
        exact (decide_not ..).symm
      rw [hsame]
      exact List.Sublist.refl _
  | rename oldName newName =>
      refine hmap _ fun record hrecord => ?_
      rw [if_neg (of_decide_eq_false hrecord)]

/-- Records with the names and the data of others that name themselves have their keys. -/
theorem map_key_of_named {parsed : List StorageRecord}
    (hparsed : ∀ record ∈ parsed, record.nameBytes.isSome ∧ record.Named js.toTextCodec)
    (hnamed : ∀ record ∈ records, record.Named js.toTextCodec)
    (h : parsed.map (fun r => (r.nameBytes, r.data))
      = records.map fun r => (some (r.writtenName js.toTextCodec), r.data)) :
    parsed.map (StorageRecord.key js) = records.map (StorageRecord.key js) := by
  have hread : parsed.map (StorageRecord.key js)
      = (parsed.map fun r => (r.nameBytes, r.data)).map fun pair =>
        js.toLowerCase (js.decode (pair.1.getD [])) := by
    rw [List.map_map]
    refine List.map_congr_left fun record hrecord => ?_
    obtain ⟨hsome, hname⟩ := hparsed record hrecord
    obtain ⟨bytes, hbytes⟩ := Option.isSome_iff_exists.mp hsome
    unfold StorageRecord.key
    rw [hname]
    unfold StorageRecord.writtenName
    dsimp only [Function.comp_apply]
    rw [hbytes]
    rfl
  rw [hread, h, List.map_map]
  refine List.map_congr_left fun record hrecord => ?_
  unfold StorageRecord.key
  rw [hnamed record hrecord]
  rfl

end Names

/-! ## the calls -/

section Calls

variable {js : JsText} {device : DfuDevice} {allow : Bool} {s₀ s s' : NumWorks}
  {info : PlatformInfo} {storage : StorageImage}

theorem exec_storedRecords {text : TextCodec} (hstorage : s.storage = some storage) :
    Proc.exec (storedRecords text device) s = (.ok storage.records, s) := by
  unfold storedRecords
  rw [Proc.exec_bind_ok (Proc.exec_get s), hstorage]
  dsimp only
  rw [if_neg (show ¬(some storage).isNone = true from Bool.false_ne_true),
    Proc.exec_bind_ok (Proc.exec_get s), hstorage]
  rfl

/-- Behind the records of the storage a call edits them, commits, and answers. -/
theorem exec_edited_commit {α : Type} {g : NumWorks → α} {answer : NumWorksProc α}
    (hanswer : ∀ t, Proc.exec answer t = (.ok (g t), t))
    (result : Except String (List StorageRecord)) :
    Proc.exec ((edited result >>= fun records => do
        commitRecords js.toTextCodec device records
        answer) >>= fun _ => pure ()) s =
      match result with
      | .error message => (.error (.error message), s)
      | .ok records => Proc.exec (commitRecords js.toTextCodec device records) s := by
  rw [bind_assoc, Proc.exec_bind]
  unfold edited
  rw [Proc.exec_ofExcept]
  cases result with
  | error message => rfl
  | ok records =>
      dsimp only [Except.mapError]
      rw [Proc.exec_bind, Proc.exec_bind]
      rcases Proc.exec (commitRecords js.toTextCodec device records) s with ⟨_ | _, t⟩
      · rfl
      · dsimp only
        rw [hanswer]
        rfl

/-- A call edits the records and commits them. -/
theorem exec_edit (hstorage : s.storage = some storage) (edit : ScriptEdit) :
    Proc.exec (edit.run js device) s =
      match edit.records js storage.records with
      | .error message => (.error (.error message), s)
      | .ok records => Proc.exec (commitRecords js.toTextCodec device records) s := by
  cases edit with
  | upsert scripts =>
      unfold ScriptEdit.run ScriptEdit.records upsertScripts
      dsimp only
      rw [bind_assoc, Proc.exec_bind_ok (exec_storedRecords hstorage)]
      exact exec_edited_commit (fun t => rfl) _
  | delete names =>
      unfold ScriptEdit.run ScriptEdit.records deleteScripts
      dsimp only
      rw [bind_assoc, Proc.exec_bind_ok (exec_storedRecords hstorage)]
      exact exec_edited_commit (fun t => rfl) _
  | rename oldName newName =>
      unfold ScriptEdit.run ScriptEdit.records renameScript
      dsimp only
      rw [bind_assoc, Proc.exec_bind_ok (exec_storedRecords hstorage), bind_assoc, Proc.exec_bind]
      cases hbase : normalizeScriptName js newName with
      | error message =>
          unfold renameRecords
          rw [hbase]
          rfl
      | ok newBase => exact exec_edited_commit (fun t => rfl) _

/-- A call that is refused changes nothing. -/
theorem exec_edit_refused (hjs : js.Documented)
    (hrefresh : Proc.exec (refresh js.toTextCodec device allow) s₀ = (.ok (some storage), s))
    (hinfo : s.platformInfo = some info)
    (hdistinct : DistinctKeys (StorageRecord.key js) storage.records) {edit : ScriptEdit}
    (hrefused : edit.Refused js info storage) (left : Nat) :
    ∃ message, Proc.exec (edit.run js device) { s with left }
      = (.error (.error message), { s with left }) := by
  obtain ⟨info', hinfo', hstorage, -, -, hparse⟩ := exec_refresh_ok hrefresh
  obtain rfl : info' = info := Option.some.inj (hinfo'.symm.trans hinfo)
  rw [exec_edit (s := { s with left }) hstorage]
  cases hedit : edit.records js storage.records with
  | error message => exact ⟨message, rfl⟩
  | ok records =>
      cases hrefused with
      | duplicate hduplicate =>
          exact absurd (upsertRecords_ok hjs hdistinct hedit).2.2.1 hduplicate
      | unknownDelete hunknown =>
          obtain ⟨-, -, record, hrecord, hkey⟩ := deleteRecords_ok hdistinct hedit
          exact absurd hkey (hunknown record hrecord)
      | unknownRename hunknown =>
          obtain ⟨-, -, -, -, ⟨record, hrecord, hkey⟩, -⟩ := renameRecords_ok hjs hdistinct hedit
          exact absurd hkey (hunknown record hrecord)
      | clash hbase hrecord hother hkey =>
          obtain ⟨newBase, hbase', -, -, -, hfree⟩ := renameRecords_ok hjs hdistinct hedit
          obtain rfl := Except.ok.inj (hbase.symm.trans hbase')
          exact absurd hkey (hfree _ hrecord hother)
      | noSpace hspace =>
          obtain ⟨rfl, -⟩ := ScriptEdit.records_ok hjs hdistinct
            (fun record hrecord => (parseStorageImage_named hparse record hrecord).2) hedit
          exact exec_commitRecords_of_noSpace (s := { s with left }) hinfo hstorage hspace
            (by exact_mod_cast (parseStorageImage_bounds hparse).1)
      | notAllowed hallowed =>
          exact exec_commitRecords_of_not_allowed (s := { s with left }) hinfo hstorage hallowed

/-- A call that returns has written the records with its edit and no other change, and their names
differ; a call that is refused has written nothing. -/
theorem scriptEdit_correct (hjs : js.Documented)
    (hrefresh : Proc.exec (refresh js.toTextCodec device allow) s₀ = (.ok (some storage), s))
    (hinfo : s.platformInfo = some info)
    (hdistinct : DistinctKeys (StorageRecord.key js) storage.records) (edit : ScriptEdit)
    (left : Nat) :
    (∀ s', Proc.exec (edit.run js device) { s with left } = (.ok (), s') →
      DistinctKeys (StorageRecord.key js) (edit.apply js storage.records)
      ∧ (storage.records.filter fun record => !edit.names js record).Sublist
          (edit.apply js storage.records)
      ∧ ∃ parsed, parseStorageImage js.toTextCodec (s'.image info) info.storageSize = .ok parsed
        ∧ parsed.records.map (fun r => (r.nameBytes, r.data))
          = (edit.apply js storage.records).map
              (fun r => (some (r.writtenName js.toTextCodec), r.data))
        ∧ DistinctKeys (StorageRecord.key js) parsed.records)
    ∧ (edit.Refused js info storage →
      ∃ message, Proc.exec (edit.run js device) { s with left }
        = (.error (.error message), { s with left })) := by
  refine ⟨fun s' hrun => ?_, fun hrefused =>
    exec_edit_refused hjs hrefresh hinfo hdistinct hrefused left⟩
  obtain ⟨info', hinfo', hstorage, -, -, hparse⟩ := exec_refresh_ok hrefresh
  obtain rfl : info' = info := Option.some.inj (hinfo'.symm.trans hinfo)
  rw [exec_edit (s := { s with left }) hstorage] at hrun
  cases hedit : edit.records js storage.records with
  | error message =>
      rw [hedit] at hrun
      cases hrun
  | ok records =>
      rw [hedit] at hrun
      obtain ⟨rfl, hkeys, hnamed⟩ := ScriptEdit.records_ok hjs hdistinct
        (fun record hrecord => (parseStorageImage_named hparse record hrecord).2) hedit
      obtain ⟨parsed, hparsed, hwritten⟩ := image_of_commitRecords hrefresh hinfo hrun
      refine ⟨hkeys, edit.unnamed_sublist js storage.records, parsed, hparsed, hwritten, ?_⟩
      unfold DistinctKeys
      rw [map_key_of_named (parseStorageImage_named hparsed) hnamed hwritten]
      exact hkeys

end Calls

/-! ## a calculator with a script -/

/-- The text functions on ASCII characters. -/
def asciiJs : JsText where
  toTextCodec := asciiText
  normalizeNFKD := id
  toLowerCase s := String.ofList (s.toList.map Char.toLower)

/-- The characters of a name have no capital letter. -/
theorem toLower_scriptChar {c : Char} (h : scriptChar c = true ∨ c = '.') :
    c.toLower = c ∧ c.toNat < 256 := by
  have hrange : c.toNat < 65 ∨ 90 < c.toNat ∧ c.toNat < 256 := by
    rcases h with h | rfl
    · unfold scriptChar scriptStart at h
      rw [Bool.or_eq_true, decide_eq_true_eq, decide_eq_true_eq] at h
      rcases h with (⟨hlow, hhigh⟩ | rfl) | ⟨hlow, hhigh⟩
      · have hlow : 97 ≤ c.toNat := hlow
        have hhigh : c.toNat ≤ 122 := hhigh
        omega
      · decide
      · have hhigh : c.toNat ≤ 57 := hhigh
        omega
    · decide
  refine ⟨?_, by omega⟩
  unfold Char.toLower
  rw [dif_neg]
  rintro ⟨hlow, hhigh⟩
  have hlow : 65 ≤ c.toNat := hlow
  have hhigh : c.toNat ≤ 90 := hhigh
  omega

theorem asciiJs_documented : asciiJs.Documented where
  toLowerCase s hs := by
    unfold asciiJs
    dsimp only
    rw [List.map_congr_left (g := id) fun c hc => (toLower_scriptChar (hs c hc)).1, List.map_id,
      String.ofList_toList]
  decode_encode s hs := by
    unfold asciiJs asciiText
    dsimp only
    rw [List.map_map, List.map_congr_left (g := id) fun c hc => ?_, List.map_id,
      String.ofList_toList]
    have hsmall := (toLower_scriptChar (hs c hc)).2
    rw [Function.comp_apply, UInt8.toNat_ofNat', Nat.mod_eq_of_lt hsmall, Char.ofNat_toNat]
    rfl

/-- A record and a script behind it, in a storage of 40 bytes. -/
def scriptImage : List UInt8 :=
  [0xBA, 0xDD, 0x0B, 0xEE, 0x06, 0x00, 0x78, 0x00, 0x01, 0x02,
    0x0A, 0x00, 0x41, 0x2E, 0x70, 0x79, 0x00, 0x00, 0x63, 0x00, 0x00, 0x00]
    ++ List.replicate 22 0 ++ [0xBA, 0xDD, 0x0B, 0xEE]

/-- The information in flash, and the storage in RAM. -/
def scriptMemory : Memory := fun a =>
  if 0x080001C4 ≤ a ∧ a < 0x20000000 then (legacyHeader.set 24 40).getD (a - 0x080001C4) 0
  else if 0x20001000 ≤ a then scriptImage.getD (a - 0x20001000) 0
  else 0

def scriptNumWorks : NumWorks := { legacyNumWorks with memory := scriptMemory }

def scriptRefreshed : NumWorks :=
  (Proc.exec (refresh asciiText legacyDevice true) scriptNumWorks).2

/-- A script in the place of another whose name has the same letters, and a new one. -/
def scriptEdit : ScriptEdit := .upsert [⟨"a", "d", none⟩, ⟨"B.PY", "e", some true⟩]

/-- What is in the storage. -/
def scriptStorage : StorageImage where
  records := [sampleRecord,
    { fullName := "A.py"
      baseName := "A"
      type := "py"
      nameBytes := some [0x41, 0x2E, 0x70, 0x79]
      data := [0x00, 0x63, 0x00]
      recordSize := 10
      valid := true
      autoImport := some false
      code := some "c" }]
  rawImage := scriptImage
  usedBytes := 22
  freeBytes := 22
  footerValid := true

theorem scriptEdit_correct_upsert :
    ∃ s' parsed,
      Proc.exec (scriptEdit.run asciiJs legacyDevice) { scriptRefreshed with left := 300 }
        = (.ok (), s')
      ∧ parseStorageImage asciiText (s'.image ⟨"", 0x20001000, 40, true⟩) 40 = .ok parsed
      ∧ parsed.records.map (fun r => (r.nameBytes, r.data))
        = [(some [0x78], [1, 2]),
          (some [0x61, 0x2E, 0x70, 0x79], [0x00, 0x64, 0x00]),
          (some [0x62, 0x2E, 0x70, 0x79], [0x01, 0x65, 0x00])] := by
  have hrefresh : Proc.exec (refresh asciiText legacyDevice true) scriptNumWorks
      = (.ok (some scriptStorage), scriptRefreshed) :=
    Prod.ext (show _ = Except.ok (some scriptStorage) by decide +kernel) rfl
  have hinfo : scriptRefreshed.platformInfo = some ⟨"", 0x20001000, 40, true⟩ := by
    decide +kernel
  have hdistinct : (scriptStorage.records.map (StorageRecord.key asciiJs)).Nodup := by
    decide
  have hrun : Proc.exec (scriptEdit.run asciiJs legacyDevice) { scriptRefreshed with left := 300 }
      = (.ok (), (Proc.exec (scriptEdit.run asciiJs legacyDevice)
        { scriptRefreshed with left := 300 }).2) :=
    Prod.ext (show _ = Except.ok () by decide +kernel) rfl
  obtain ⟨-, -, parsed, hparsed, hrecords, -⟩ := (scriptEdit_correct asciiJs_documented hrefresh
    hinfo hdistinct scriptEdit 300).1 _ hrun
  refine ⟨_, parsed, hrun, hparsed, hrecords.trans ?_⟩
  decide +kernel

end Tilibs.Webtilp
