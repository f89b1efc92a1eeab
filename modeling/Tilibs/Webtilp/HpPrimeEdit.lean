import Tilibs.Webtilp.HpPrimeSections

/-!
# Tilibs.Webtilp.HpPrimeEdit

Edits of a container of an HP Prime application: resources that are replaced or added, renamed and
deleted, as `hp_prime_app.cpp` rebuilds the container for them.

An edit is a change of the contents, and the container that is rebuilt has the bytes of the
changed contents.  It is parsed to them exactly when the sizes of the sections fit 32 bits.
-/

namespace Tilibs.Webtilp.HpPrimeApp

open Lib

/-! ## appending -/

/-- `ResourceUpdate`; a null pointer is taken with no bytes only. -/
structure ResourceUpdate where
  name : List UInt8
  data : List UInt8
  deriving DecidableEq

/-- `rebuilt->max_size()` -/
def maxSize : Nat := 2 ^ 63 - 1

/-- `std::numeric_limits<size_t>::max()` -/
def sizeMax : Nat := 2 ^ 64 - 1

/-- `append_bytes`, and the message where it fails. -/
def appendBytes (message : String) (output data : List UInt8) : Except String (List UInt8) :=
  if data = [] then .ok output
  else if data.length > maxSize - output.length then .error message
  else .ok (output ++ data)

/-- `append_named_resource` -/
def appendNamedResource (output encodedName data : List UInt8) : Except String (List UInt8) :=
  if encodedName.length > 2 ^ 32 - 1 - 2 ∨ data.length > 2 ^ 32 - 1 - encodedName.length - 2 then
    .error "resource section is too large"
  else do
    let output ← appendBytes "resource output is too large"
      (output ++ putBE 4 (encodedName.length + 2 + data.length)) encodedName
    appendBytes "resource output is too large" (output ++ [0, 0]) data

/-- `validate_source`; the data are there. -/
def validateSource (data : List UInt8) (parts : List Part) : Except String Unit :=
  if parts.length < 3 then .error "application container is missing required sections"
  else if parts.any fun part =>
      part.sectionOffset > data.length || part.sectionSize > data.length - part.sectionOffset
        || part.dataOffset > data.length || part.dataSize > data.length - part.dataOffset then
    .error "application section is outside the source data"
  else .ok ()

/-- `has_duplicate_name` -/
def hasDuplicateName (parts : List Part) (name : List UInt8) (ignoredIndex : Nat) : Bool :=
  parts.zipIdx.any fun (part, i) =>
    i != ignoredIndex && lowercaseAscii part.name == lowercaseAscii name

/-! ## replacing and adding -/

/-- What the first loop has seen: the names of updates in lower case, and what they may add. -/
structure UpdateCheck where
  names : List (List UInt8)
  additionalSize : Nat

/-- A turn of the first loop over the updates. -/
def checkUpdate (parts : List Part) (allowProgramAndNote : Bool) (st : UpdateCheck)
    (update : ResourceUpdate) : Except String UpdateCheck := do
  validResourceName update.name
  let additionalSize := st.additionalSize + update.data.length
  if lowercaseAscii update.name ∈ st.names then
    .error "resource update contains duplicate names"
  else if (parts.take 3).zipIdx.any fun (core, i) =>
      lowercaseAscii update.name == lowercaseAscii core.name
        && !(allowProgramAndNote && i != 0) then
    .error "core application part names are reserved"
  else if update.data.length > sizeMax - st.additionalSize then
    .error "resource updates are too large"
  else if additionalSize > sizeMax - 6
      ∨ (nameBytes update.name).length > sizeMax - additionalSize - 6 then
    .error "resource updates are too large"
  else
    .ok ⟨lowercaseAscii update.name :: st.names,
      additionalSize + ((nameBytes update.name).length + 6)⟩

/-- The parts that an update is looked for. -/
def updatable (allowProgramAndNote : Bool) (kind : PartKind) : Bool :=
  kind = .resource || (allowProgramAndNote && (kind = .program || kind = .note))

/-- `update_index`, where it is one. -/
def updateIndex (updates : List ResourceUpdate) (allowProgramAndNote : Bool) (kind : PartKind)
    (name : List UInt8) : Option Nat :=
  if updatable allowProgramAndNote kind then
    updates.findIdx? fun update => lowercaseAscii update.name == lowercaseAscii name
  else none

/-- The container as far as it is rebuilt, and the updates that were used. -/
structure Rebuilt where
  output : List UInt8
  used : List Bool

/-- A part that is updated; without a message where the function sets none. -/
def appendUpdated (output : List UInt8) (part : Part) (update : ResourceUpdate) :
    Except String (List UInt8) :=
  if part.kind ≠ .resource then
    if update.data.length > 2 ^ 32 - 1 then .error ""
    else appendBytes "" (output ++ putBE 4 update.data.length) update.data
  else
    match encodeUtf16le part.name with
    | none => .error ""
    | some originalName => appendNamedResource output originalName update.data

/-- A turn of the loop over the parts. -/
def rebuildPart (data : List UInt8) (updates : List ResourceUpdate) (allowProgramAndNote : Bool)
    (st : Rebuilt) (part : Part) : Except String Rebuilt :=
  match updateIndex updates allowProgramAndNote part.kind part.name with
  | some i =>
      (appendUpdated st.output part (updates.getD i ⟨[], []⟩)).map fun output =>
        ⟨output, st.used.set i true⟩
  | none =>
      (appendBytes "application output is too large" st.output (slice data part.section)).map
        fun output => { st with output }

/-- A turn of the last loop, over the updates that were not used. -/
def appendUpdate (output : List UInt8) (turn : ResourceUpdate × Bool) :
    Except String (List UInt8) :=
  if turn.2 then .ok output
  else appendNamedResource output (nameBytes turn.1.name) turn.1.data

/-- `replace_or_add_resources` -/
def replaceOrAddResources (data : List UInt8) (parts : List Part) (updates : List ResourceUpdate)
    (allowProgramAndNote : Bool) : Except String (List UInt8) := do
  validateSource data parts
  let check ← updates.foldlM (checkUpdate parts allowProgramAndNote) ⟨[], 0⟩
  if check.additionalSize > maxSize - data.length then .error "application output is too large"
  else do
    let rebuilt ← parts.foldlM (rebuildPart data updates allowProgramAndNote)
      ⟨[], List.replicate updates.length false⟩
    (updates.zip rebuilt.used).foldlM appendUpdate rebuilt.output

/-! ## renaming and deleting -/

/-- The part with an index is a resource of a source that is valid. -/
def isResource (data : List UInt8) (parts : List Part) (partIndex : Nat) : Bool :=
  (validateSource data parts).isOk && (parts[partIndex]?).any fun part => part.kind = .resource

/-- The turn of `rename_resource` for a part and its index. -/
def renamePart (data : List UInt8) (partIndex : Nat) (newName output : List UInt8)
    (turn : Part × Nat) : Except String (List UInt8) :=
  if turn.2 = partIndex then
    appendNamedResource output (nameBytes newName)
      (slice data (turn.1.dataOffset, turn.1.dataSize))
  else appendBytes "application output is too large" output (slice data turn.1.section)

/-- `rename_resource` -/
def renameResource (data : List UInt8) (parts : List Part) (partIndex : Nat)
    (newName : List UInt8) : Except String (List UInt8) :=
  if !isResource data parts partIndex then
    .error "only application resources can be renamed"
  else do
    validResourceName newName
    if hasDuplicateName parts newName partIndex then
      .error "an application resource already has that name"
    else if data.length > maxSize - (nameBytes newName).length - 2 then
      .error "application output is too large"
    else parts.zipIdx.foldlM (renamePart data partIndex newName) []

/-- The turn of `delete_resource` for a part and its index. -/
def deletePart (data : List UInt8) (partIndex : Nat) (output : List UInt8) (turn : Part × Nat) :
    Except String (List UInt8) :=
  if turn.2 = partIndex then .ok output
  else appendBytes "application output is too large" output (slice data turn.1.section)

/-- `delete_resource` -/
def deleteResource (data : List UInt8) (parts : List Part) (partIndex : Nat) :
    Except String (List UInt8) :=
  if !isResource data parts partIndex then
    .error "only application resources can be deleted"
  else parts.zipIdx.foldlM (deletePart data partIndex) []

/-! ## edits of contents -/

/-- The calls that edit a container. -/
inductive Edit
  | update (updates : List ResourceUpdate) (allowProgramAndNote : Bool)
  | rename (partIndex : Nat) (newName : List UInt8)
  | delete (partIndex : Nat)

/-- What a call rebuilds. -/
def Edit.run (data : List UInt8) (parts : List Part) : Edit → Except String (List UInt8)
  | .update updates allow => replaceOrAddResources data parts updates allow
  | .rename i newName => renameResource data parts i newName
  | .delete i => deleteResource data parts i

/-- An update is for the contents of its name, whatever the case of the letters. -/
def ResourceUpdate.isFor (update : ResourceUpdate) (allow : Bool) (c : Content) : Bool :=
  updatable allow c.kind && lowercaseAscii update.name == lowercaseAscii c.name

/-- The contents with the data of the update for them; the name stays. -/
def Content.updated (updates : List ResourceUpdate) (allow : Bool) (c : Content) : Content :=
  match updates.find? fun update => update.isFor allow c with
  | some update => { c with payload := update.data }
  | none => c

/-- The resource that an update adds. -/
def ResourceUpdate.content (update : ResourceUpdate) : Content := ⟨.resource, update.name, update.data⟩

/-- An edit of contents: the updated ones stay in place, and updates that are for none of them
are appended in their order. -/
def Edit.apply (cs : List Content) : Edit → List Content
  | .update updates allow =>
      cs.map (Content.updated updates allow)
        ++ (updates.filter fun update => !cs.any (update.isFor allow)).map ResourceUpdate.content
  | .rename i newName => cs.modify i fun c => { c with name := newName }
  | .delete i => cs.eraseIdx i

/-- The rebuilt container is parsed, and its contents are the edited ones. -/
def Edit.Correct (edit : Edit) (data appName : List UInt8) (parts : List Part)
    (rebuilt : List UInt8) : Prop :=
  ∃ parts', parse rebuilt appName = .ok parts'
    ∧ parts'.map (Part.content rebuilt) = edit.apply (parts.map (Part.content data))

/-! ## what is appended -/

theorem appendBytes_ok {message : String} {output data output' : List UInt8}
    (h : appendBytes message output data = .ok output') : output' = output ++ data := by
  unfold appendBytes at h
  split at h
  · next hnil =>
    cases h
    rw [hnil, List.append_nil]
  split at h
  · cases h
  · cases h
    rfl

/-- A named resource is the section of its contents. -/
theorem appendNamedResource_ok {output name data output' : List UInt8}
    (h : appendNamedResource output (nameBytes name) data = .ok output') :
    output' = output ++ (Content.mk .resource name data).bytes := by
  unfold appendNamedResource at h
  split at h
  · cases h
  · obtain ⟨middle, hmiddle, h⟩ := bind_eq_ok_iff.mp h
    rw [appendBytes_ok h, appendBytes_ok hmiddle, Content.bytes, Content.field_of_resource rfl,
      List.length_append, List.length_cons, List.length_cons]
    have hlength : (nameBytes name).length + 2 + data.length
        = (nameBytes name).length + (data.length + 1 + 1) := by omega
    simp only [hlength, List.append_assoc, List.cons_append, List.nil_append]

/-! ## the updates -/

theorem checkUpdate_ok {parts : List Part} {allow : Bool} {st st' : UpdateCheck}
    {update : ResourceUpdate} (h : checkUpdate parts allow st update = .ok st') :
    validResourceName update.name = .ok () ∧ lowercaseAscii update.name ∉ st.names
      ∧ st'.names = lowercaseAscii update.name :: st.names := by
  unfold checkUpdate at h
  obtain ⟨⟨⟩, hvalid, h⟩ := bind_eq_ok_iff.mp h
  obtain ⟨hnew, h⟩ := check_eq_ok_iff.mp h
  obtain ⟨-, h⟩ := check_eq_ok_iff.mp h
  obtain ⟨-, h⟩ := check_eq_ok_iff.mp h
  obtain ⟨-, h⟩ := check_eq_ok_iff.mp h
  cases h
  exact ⟨hvalid, hnew, rfl⟩

/-- The updates have valid names, which differ. -/
theorem checkUpdates_ok {parts : List Part} {allow : Bool} {updates : List ResourceUpdate}
    {st st' : UpdateCheck} (h : updates.foldlM (checkUpdate parts allow) st = .ok st') :
    (∀ update ∈ updates, validResourceName update.name = .ok ()
        ∧ lowercaseAscii update.name ∉ st.names)
      ∧ updates.Pairwise fun u v => lowercaseAscii u.name ≠ lowercaseAscii v.name := by
  induction updates generalizing st with
  | nil => exact ⟨nofun, .nil⟩
  | cons update updates ih =>
      obtain ⟨mid, hmid, h⟩ := bind_eq_ok_iff.mp h
      obtain ⟨hvalid, hnew, hnames⟩ := checkUpdate_ok hmid
      obtain ⟨hall, hdistinct⟩ := ih h
      rw [hnames] at hall
      refine ⟨List.forall_mem_cons.mpr ⟨⟨hvalid, hnew⟩, fun u hu => ⟨(hall u hu).1, ?_⟩⟩,
        .cons (fun u hu heq => ?_) hdistinct⟩
      · exact fun hmem => (hall u hu).2 (List.mem_cons_of_mem _ hmem)
      · exact (hall u hu).2 (heq ▸ List.mem_cons_self)

/-- The update with an index is the one for the contents. -/
theorem updateIndex_eq_some {updates : List ResourceUpdate} {allow : Bool} {c : Content} {i : Nat}
    (h : updateIndex updates allow c.kind c.name = some i) :
    ∃ update, updates[i]? = some update ∧ update.isFor allow c = true
      ∧ updates.find? (fun update => update.isFor allow c) = some update := by
  unfold updateIndex at h
  split at h
  · next hupdatable =>
    obtain ⟨hlt, hkey, hbefore⟩ := List.findIdx?_eq_some_iff_getElem.mp h
    have hfor : ∀ update : ResourceUpdate, update.isFor allow c
        = (lowercaseAscii update.name == lowercaseAscii c.name) := by
      intro update
      rw [ResourceUpdate.isFor, hupdatable, Bool.true_and]
    refine ⟨updates[i], List.getElem?_eq_getElem hlt, (hfor _).trans hkey, ?_⟩
    simp only [hfor]
    exact List.find?_eq_some_iff_getElem.mpr ⟨hkey, i, hlt, rfl, fun j hj => by
      simpa using hbefore j hj⟩
  · cases h

theorem updateIndex_eq_none {updates : List ResourceUpdate} {allow : Bool} {c : Content}
    (h : updateIndex updates allow c.kind c.name = none) :
    ∀ update ∈ updates, update.isFor allow c = false := by
  unfold updateIndex at h
  intro update hupdate
  unfold ResourceUpdate.isFor
  split at h
  · rw [List.findIdx?_eq_none_iff] at h
    rw [h update hupdate, Bool.and_false]
  · next hupdatable =>
    rw [Bool.eq_false_iff.mpr hupdatable, Bool.false_and]

/-- When the names differ, an update is for contents when its index is found for them. -/
theorem isFor_iff_updateIndex {updates : List ResourceUpdate} {allow : Bool} {c : Content} {i : Nat}
    {update : ResourceUpdate}
    (hdistinct : updates.Pairwise fun u v => lowercaseAscii u.name ≠ lowercaseAscii v.name)
    (hupdate : updates[i]? = some update) :
    update.isFor allow c = true ↔ updateIndex updates allow c.kind c.name = some i := by
  constructor
  · intro hfor
    cases hindex : updateIndex updates allow c.kind c.name with
    | none =>
        have hnot := updateIndex_eq_none hindex update (List.mem_of_getElem? hupdate)
        exact absurd (hfor.symm.trans hnot) (by decide)
    | some j =>
        obtain ⟨other, hother, hfor', -⟩ := updateIndex_eq_some hindex
        have hkey : lowercaseAscii update.name = lowercaseAscii other.name := by
          unfold ResourceUpdate.isFor at hfor hfor'
          rw [Bool.and_eq_true, beq_iff_eq] at hfor hfor'
          exact hfor.2.trans hfor'.2.symm
        obtain ⟨hi, rfl⟩ := List.getElem?_eq_some_iff.mp hupdate
        obtain ⟨hj, rfl⟩ := List.getElem?_eq_some_iff.mp hother
        rw [List.pairwise_iff_getElem] at hdistinct
        rcases Nat.lt_trichotomy i j with hlt | rfl | hlt
        · exact absurd hkey (hdistinct i j hi hj hlt)
        · rfl
        · exact absurd hkey.symm (hdistinct j i hj hi hlt)
  · intro hindex
    obtain ⟨other, hother, hfor, -⟩ := updateIndex_eq_some hindex
    rwa [Option.some.inj (hupdate.symm.trans hother)]

/-! ## the rebuilt container -/

/-- An updated part is the section of its updated contents. -/
theorem appendUpdated_ok {data output output' : List UInt8} {part : Part} {update : ResourceUpdate}
    (h : appendUpdated output part update = .ok output') :
    output' = output ++ ({ part.content data with payload := update.data } : Content).bytes := by
  unfold appendUpdated at h
  split at h
  · next hkind =>
    obtain ⟨-, h⟩ := check_eq_ok_iff.mp h
    rw [appendBytes_ok h, Content.bytes, Content.field_of_core hkind, List.append_assoc]
  · next hkind =>
    split at h
    · cases h
    · next originalName hencode =>
      have hname : originalName = nameBytes part.name := by
        rw [nameBytes, hencode, Option.getD_some]
      rw [hname] at h
      rw [appendNamedResource_ok h, Part.content, not_not.mp hkind]

/-- A turn of the loop over the parts. -/
theorem rebuildPart_ok {data : List UInt8} {updates : List ResourceUpdate} {allow : Bool}
    {part : Part} {st st' : Rebuilt} (hreads : part.Reads data) (hfits : (part.content data).Fits)
    (h : rebuildPart data updates allow st part = .ok st') :
    st'.output = st.output ++ ((part.content data).updated updates allow).bytes
      ∧ st'.used = match updateIndex updates allow part.kind part.name with
        | some i => st.used.set i true
        | none => st.used := by
  unfold rebuildPart at h
  split at h
  · next i hindex =>
    obtain ⟨output, houtput, rfl⟩ := map_eq_ok_iff.mp h
    obtain ⟨update, hupdate, -, hfind⟩ := @updateIndex_eq_some updates allow (part.content data) i hindex
    rw [List.getD_eq_getElem?_getD, hupdate, Option.getD_some] at houtput
    rw [Content.updated, hfind]
    exact ⟨@appendUpdated_ok data _ _ _ _ houtput, rfl⟩
  · next hindex =>
    obtain ⟨output, houtput, rfl⟩ := map_eq_ok_iff.mp h
    have hnone := @updateIndex_eq_none updates allow (part.content data) hindex
    have hfind : (updates.find? fun update => update.isFor allow (part.content data)) = none :=
      List.find?_eq_none.mpr fun update hupdate => by simp [hnone update hupdate]
    rw [Content.updated, hfind]
    refine ⟨?_, rfl⟩
    dsimp only
    rw [appendBytes_ok houtput, hreads.slice_section hfits]

/-- The updates that the loop over the parts marks. -/
theorem used_of_foldlM {data : List UInt8} {updates : List ResourceUpdate} {allow : Bool}
    {parts : List Part} {st st' : Rebuilt}
    (hparts : ∀ part ∈ parts, part.Reads data ∧ (part.content data).Fits)
    (h : parts.foldlM (rebuildPart data updates allow) st = .ok st') (i : Nat) :
    st'.used[i]? = st.used[i]?.map fun used =>
      used || parts.any fun part => updateIndex updates allow part.kind part.name = some i := by
  induction parts generalizing st with
  | nil =>
      cases h
      simp
  | cons part parts ih =>
      obtain ⟨mid, hmid, h⟩ := bind_eq_ok_iff.mp h
      obtain ⟨⟨hreads, hfits⟩, hparts⟩ := List.forall_mem_cons.mp hparts
      obtain ⟨-, hused⟩ := rebuildPart_ok hreads hfits hmid
      rw [ih hparts h, hused, List.any_cons]
      cases hindex : updateIndex updates allow part.kind part.name with
      | none => simp
      | some j =>
          dsimp only
          by_cases hij : j = i
          · subst hij
            rcases Nat.lt_or_ge j st.used.length with hlt | hge
            · rw [List.getElem?_set_self hlt, List.getElem?_eq_getElem hlt]
              simp
            · rw [List.getElem?_eq_none hge, List.getElem?_eq_none (by rwa [List.length_set])]
              rfl
          · rw [List.getElem?_set_ne hij]
            simp [hij]

/-- The sections of an updated container. -/
theorem replaceOrAddResources_ok {data rebuilt : List UInt8} {parts : List Part}
    {updates : List ResourceUpdate} {allow : Bool}
    (hparts : ∀ part ∈ parts, part.Reads data ∧ (part.content data).Fits)
    (h : replaceOrAddResources data parts updates allow = .ok rebuilt) :
    ((∀ update ∈ updates, validResourceName update.name = .ok ())
        ∧ updates.Pairwise fun u v => lowercaseAscii u.name ≠ lowercaseAscii v.name)
      ∧ rebuilt = ((Edit.update updates allow).apply (parts.map (Part.content data))).flatMap
          Content.bytes := by
  unfold replaceOrAddResources at h
  obtain ⟨⟨⟩, -, h⟩ := bind_eq_ok_iff.mp h
  obtain ⟨check, hcheck, h⟩ := bind_eq_ok_iff.mp h
  obtain ⟨-, h⟩ := check_eq_ok_iff.mp h
  obtain ⟨st, hst, h⟩ := bind_eq_ok_iff.mp h
  obtain ⟨hvalid, hdistinct⟩ := checkUpdates_ok hcheck
  refine ⟨⟨fun update hupdate => (hvalid update hupdate).1, hdistinct⟩, ?_⟩
  have houtput : st.output
      = parts.flatMap fun part => ((part.content data).updated updates allow).bytes :=
    foldlM_eq_append Rebuilt.output (fun part hpart s s' hs =>
      (rebuildPart_ok (hparts part hpart).1 (hparts part hpart).2 hs).1) hst
  have hused : st.used = updates.map fun update =>
      (parts.map (Part.content data)).any (update.isFor allow) := by
    apply List.ext_getElem?
    intro i
    rw [used_of_foldlM hparts hst, List.getElem?_map]
    rcases Nat.lt_or_ge i updates.length with hlt | hge
    · rw [List.getElem?_replicate_of_lt hlt, List.getElem?_eq_getElem hlt, Option.map_some,
        Option.map_some, Bool.false_or, Option.some.injEq, Bool.eq_iff_iff, List.any_eq_true,
        List.any_map, List.any_eq_true]
      refine exists_congr fun part => and_congr_right fun _ => ?_
      rw [decide_eq_true_iff]
      exact (@isFor_iff_updateIndex updates allow (part.content data) i updates[i] hdistinct
        (List.getElem?_eq_getElem hlt)).symm
    · rw [List.getElem?_eq_none (by rwa [List.length_replicate]), List.getElem?_eq_none hge]
      rfl
  have hadded : rebuilt = st.output ++ (updates.zip st.used).flatMap fun turn =>
      if turn.2 then [] else turn.1.content.bytes := by
    refine foldlM_eq_append (fun output => output) (fun turn _ s s' hs => ?_) h
    unfold appendUpdate at hs
    split at hs
    · next hturn =>
      cases hs
      rw [if_pos hturn, List.append_nil]
    · next hturn =>
      rw [if_neg hturn, appendNamedResource_ok hs]
      rfl
  have hzip : ∀ us : List ResourceUpdate, ∀ f : ResourceUpdate → Bool,
      (us.zip (us.map f)).flatMap (fun turn => if turn.2 then [] else turn.1.content.bytes)
        = ((us.filter fun u => !f u).map ResourceUpdate.content).flatMap Content.bytes := by
    intro us f
    induction us with
    | nil => rfl
    | cons u us ih =>
        rw [List.map_cons, List.zip_cons_cons, List.flatMap_cons, ih]
        cases hu : f u <;> simp [hu]
  rw [hadded, hused, hzip, houtput, Edit.apply, List.flatMap_append, List.flatMap_map,
    List.flatMap_map, List.flatMap_map]

/-- In a list with its indices only the element with the index is treated otherwise. -/
theorem flatMap_zipIdx_of_ne {α β : Type} {xs : List α} {k i : Nat} {f g : α → List β}
    (h : i < k ∨ k + xs.length ≤ i) :
    (xs.zipIdx k).flatMap (fun turn => if turn.2 = i then f turn.1 else g turn.1)
      = xs.flatMap g := by
  induction xs generalizing k with
  | nil => rfl
  | cons x xs ih =>
      rw [List.length_cons] at h
      rw [List.zipIdx_cons, List.flatMap_cons, List.flatMap_cons, if_neg (by omega),
        ih (by omega)]

theorem flatMap_zipIdx {α β : Type} {before behind : List α} {x : α} {f g : α → List β} :
    ((before ++ x :: behind).zipIdx).flatMap
        (fun turn => if turn.2 = before.length then f turn.1 else g turn.1)
      = before.flatMap g ++ f x ++ behind.flatMap g := by
  rw [List.zipIdx_append, List.zipIdx_cons, List.flatMap_append, List.flatMap_cons, Nat.zero_add,
    flatMap_zipIdx_of_ne (.inr (by omega)), if_pos rfl, flatMap_zipIdx_of_ne (.inl (by omega)),
    List.append_assoc]

/-- A resource, what is in front of it and what is behind. -/
theorem exists_of_isResource {data : List UInt8} {parts : List Part} {i : Nat}
    (h : isResource data parts i = true) : ∃ before part behind, parts = before ++ part :: behind
      ∧ before.length = i ∧ part.kind = .resource := by
  unfold isResource at h
  rw [Bool.and_eq_true] at h
  obtain ⟨part, hpart, hkind⟩ := (Option.any_eq_true _ _).mp h.2
  obtain ⟨hlt, rfl⟩ := List.getElem?_eq_some_iff.mp hpart
  refine ⟨parts.take i, parts[i], parts.drop (i + 1), ?_, ?_, of_decide_eq_true hkind⟩
  · rw [← List.drop_eq_getElem_cons hlt, List.take_append_drop]
  · rw [List.length_take, min_eq_left hlt.le]

section Copies

variable {data rebuilt : List UInt8} {before behind : List Part} {part : Part}

/-- The sections of a container with a renamed resource. -/
theorem renameResource_ok {newName : List UInt8}
    (hparts : ∀ p ∈ before ++ part :: behind, p.Reads data ∧ (p.content data).Fits)
    (h : (before ++ part :: behind).zipIdx.foldlM (renamePart data before.length newName) []
      = .ok rebuilt) :
    rebuilt = (before.map (Part.content data)).flatMap Content.bytes
      ++ (Content.mk .resource newName (part.content data).payload).bytes
      ++ (behind.map (Part.content data)).flatMap Content.bytes := by
  have hout : rebuilt = [] ++ ((before ++ part :: behind).zipIdx).flatMap fun turn =>
      if turn.2 = before.length then
        (Content.mk .resource newName (turn.1.content data).payload).bytes
      else (turn.1.content data).bytes := by
    refine foldlM_eq_append (fun output => output) (fun turn hturn s s' hs => ?_) h
    obtain ⟨hreads, hfits⟩ := hparts turn.1 (List.fst_mem_of_mem_zipIdx hturn)
    unfold renamePart at hs
    split at hs
    · next hi =>
      rw [if_pos hi, appendNamedResource_ok hs]
      rfl
    · next hi =>
      rw [if_neg hi, appendBytes_ok hs, hreads.slice_section hfits]
  have hflat := @flatMap_zipIdx Part UInt8 before behind part
    (fun p => (Content.mk .resource newName (p.content data).payload).bytes)
    (fun p => (p.content data).bytes)
  rw [hout, List.nil_append, hflat, List.flatMap_map, List.flatMap_map]

/-- The sections of a container without a resource. -/
theorem deleteResource_ok
    (hparts : ∀ p ∈ before ++ part :: behind, p.Reads data ∧ (p.content data).Fits)
    (h : (before ++ part :: behind).zipIdx.foldlM (deletePart data before.length) []
      = .ok rebuilt) :
    rebuilt = (before.map (Part.content data)).flatMap Content.bytes
      ++ (behind.map (Part.content data)).flatMap Content.bytes := by
  have hout : rebuilt = [] ++ ((before ++ part :: behind).zipIdx).flatMap fun turn =>
      if turn.2 = before.length then [] else (turn.1.content data).bytes := by
    refine foldlM_eq_append (fun output => output) (fun turn hturn s s' hs => ?_) h
    obtain ⟨hreads, hfits⟩ := hparts turn.1 (List.fst_mem_of_mem_zipIdx hturn)
    unfold deletePart at hs
    split at hs
    · next hi =>
      cases hs
      rw [if_pos hi, List.append_nil]
    · next hi =>
      rw [if_neg hi, appendBytes_ok hs, hreads.slice_section hfits]
  have hflat := @flatMap_zipIdx Part UInt8 before behind part (fun _ => [])
    (fun p => (p.content data).bytes)
  rw [hout, List.nil_append, hflat, List.append_nil, List.flatMap_map, List.flatMap_map]

end Copies

/-! ## edited containers -/

section Containers

variable {appName : List UInt8} {cs : List Content}

theorem Content.updated_kind_name (updates : List ResourceUpdate) (allow : Bool) (c : Content) :
    (c.updated updates allow).kind = c.kind ∧ (c.updated updates allow).name = c.name := by
  unfold updated
  split <;> exact ⟨rfl, rfl⟩

/-- Updates keep the names of a container, and add new ones. -/
theorem Container.update (h : Container appName cs) {updates : List ResourceUpdate} {allow : Bool}
    (hvalid : ∀ update ∈ updates, validResourceName update.name = .ok ())
    (hdistinct : updates.Pairwise fun u v => lowercaseAscii u.name ≠ lowercaseAscii v.name) :
    Container appName ((Edit.update updates allow).apply cs) := by
  obtain ⟨d, n, p, rs, rfl, -⟩ := h.exists_core
  have hkept := Content.updated_kind_name updates allow
  have hnew : ∀ update ∈ updates.filter fun u => !(d :: n :: p :: rs).any (u.isFor allow),
      update ∈ updates ∧ ∀ r ∈ rs, r.kind = .resource →
        lowercaseAscii r.name ≠ lowercaseAscii update.name := by
    intro update hupdate
    obtain ⟨hmem, hnone⟩ := List.mem_filter.mp hupdate
    refine ⟨hmem, fun r hr hkind heq => ?_⟩
    rw [Bool.not_eq_true', List.any_eq_false] at hnone
    apply hnone r (by simp [hr])
    unfold ResourceUpdate.isFor updatable
    rw [hkind, heq]
    simp
  refine ⟨?_, ?_, ?_⟩
  · have hcore := h.core
    simp only [Edit.apply, List.map_cons, List.cons_append, List.take_succ_cons, List.take_zero,
      List.map_nil, (hkept d).1, (hkept d).2, (hkept n).1, (hkept n).2, (hkept p).1, (hkept p).2]
      at hcore ⊢
    exact hcore
  · intro c hc
    simp only [Edit.apply, List.map_cons, List.cons_append, List.drop_succ_cons, List.drop_zero,
      List.mem_append, List.mem_map] at hc
    obtain ⟨r, hr, rfl⟩ | ⟨update, hupdate, rfl⟩ := hc
    · rw [(hkept r).1, (hkept r).2]
      exact h.resource r hr
    · exact ⟨rfl, hvalid update (hnew update hupdate).1⟩
  · simp only [Edit.apply, List.map_cons, List.cons_append, List.drop_succ_cons, List.drop_zero]
    refine List.pairwise_append.mpr ⟨?_, ?_, ?_⟩
    · refine List.pairwise_map.mpr (h.distinct.imp fun {r r'} hne => ?_)
      rwa [(hkept r).2, (hkept r').2]
    · exact List.pairwise_map.mpr (hdistinct.filter _)
    · intro c hc c' hc'
      obtain ⟨r, hr, rfl⟩ := List.mem_map.mp hc
      obtain ⟨update, hupdate, rfl⟩ := List.mem_map.mp hc'
      rw [(hkept r).2]
      exact (hnew update hupdate).2 r hr (h.resource r hr).1

/-- A resource is behind the core sections. -/
theorem Container.exists_resource {before behind : List Content} {c : Content}
    (h : Container appName (before ++ c :: behind)) (hkind : c.kind = .resource) :
    ∃ d n p rs, before = d :: n :: p :: rs := by
  obtain ⟨d, n, p, rs, hcs, ⟨hd, -⟩, ⟨hn, -⟩, hp, -⟩ := h.exists_core
  rcases before with _ | ⟨d', _ | ⟨n', _ | ⟨p', rs'⟩⟩⟩
  · obtain ⟨rfl, -⟩ := List.cons.inj hcs
    exact absurd (hkind.symm.trans hd) (by decide)
  · obtain ⟨rfl, -⟩ := List.cons.inj (List.cons.inj hcs).2
    exact absurd (hkind.symm.trans hn) (by decide)
  · obtain ⟨rfl, -⟩ := List.cons.inj (List.cons.inj (List.cons.inj hcs).2).2
    exact absurd (hkind.symm.trans hp) (by decide)
  · exact ⟨d', n', p', rs', rfl⟩

/-- A resource gets another name that no part has. -/
theorem Container.rename {before behind : List Content} {c : Content} {newName : List UInt8}
    (h : Container appName (before ++ c :: behind)) (hkind : c.kind = .resource)
    (hvalid : validResourceName newName = .ok ())
    (hnew : ∀ d ∈ before ++ behind, lowercaseAscii d.name ≠ lowercaseAscii newName) :
    Container appName (before ++ ⟨.resource, newName, c.payload⟩ :: behind) := by
  obtain ⟨d, n, p, rs, rfl⟩ := h.exists_resource hkind
  obtain ⟨hcore, hresource, hdistinct⟩ := h
  simp only [List.cons_append, List.drop_succ_cons, List.drop_zero] at hresource hdistinct hnew
  refine ⟨hcore, ?_, ?_⟩
  · simp only [List.cons_append, List.drop_succ_cons, List.drop_zero]
    intro r hr
    rcases List.mem_append.mp hr with hr | hr
    · exact hresource r (List.mem_append_left _ hr)
    · rcases List.mem_cons.mp hr with rfl | hr
      · exact ⟨rfl, hvalid⟩
      · exact hresource r (List.mem_append_right _ (List.mem_cons_of_mem _ hr))
  · simp only [List.cons_append, List.drop_succ_cons, List.drop_zero]
    obtain ⟨hbefore, hbehind, hcross⟩ := List.pairwise_append.mp hdistinct
    refine List.pairwise_append.mpr ⟨hbefore, .cons (fun r hr => ?_)
      (List.pairwise_cons.mp hbehind).2, fun r hr r' hr' => ?_⟩
    · exact (hnew r (by simp [hr])).symm
    · rcases List.mem_cons.mp hr' with rfl | hr'
      · exact hnew r (by simp [hr])
      · exact hcross r hr r' (List.mem_cons_of_mem _ hr')

/-- A resource is left out. -/
theorem Container.delete {before behind : List Content} {c : Content}
    (h : Container appName (before ++ c :: behind)) (hkind : c.kind = .resource) :
    Container appName (before ++ behind) := by
  obtain ⟨d, n, p, rs, rfl⟩ := h.exists_resource hkind
  obtain ⟨hcore, hresource, hdistinct⟩ := h
  simp only [List.cons_append, List.drop_succ_cons, List.drop_zero] at hresource hdistinct
  have hsub : (rs ++ behind).Sublist (rs ++ c :: behind) :=
    (List.Sublist.refl rs).append (List.sublist_cons_self c behind)
  exact ⟨hcore, fun r hr => hresource r (hsub.subset hr), hdistinct.sublist hsub⟩

end Containers

/-! ## edits -/

section Edits

variable {data appName rebuilt : List UInt8} {parts : List Part} {edit : Edit}

theorem notMem_of_hasDuplicateName {before behind : List Part} {part : Part} {name : List UInt8}
    (h : ¬hasDuplicateName (before ++ part :: behind) name before.length = true) :
    ∀ p ∈ before ++ behind, lowercaseAscii p.name ≠ lowercaseAscii name := by
  have hno : ∀ p i, (p, i) ∈ (before ++ part :: behind).zipIdx → i ≠ before.length →
      lowercaseAscii p.name ≠ lowercaseAscii name := by
    intro p i hmem hi heq
    refine h (List.any_eq_true.mpr ⟨(p, i), hmem, ?_⟩)
    simp [hi, heq]
  intro p hp
  rcases List.mem_append.mp hp with hp | hp
  · obtain ⟨i, hi, rfl⟩ := List.getElem_of_mem hp
    refine hno _ i (List.mk_mem_zipIdx_iff_getElem?.mpr ?_) (by omega)
    rw [List.getElem?_append_left hi, List.getElem?_eq_getElem hi]
  · obtain ⟨i, hi, rfl⟩ := List.getElem_of_mem hp
    refine hno _ (before.length + (i + 1)) (List.mk_mem_zipIdx_iff_getElem?.mpr ?_) (by omega)
    rw [List.getElem?_append_right (by omega), Nat.add_sub_cancel_left,
      List.getElem?_cons_succ, List.getElem?_eq_getElem hi]

theorem modify_append_cons {α : Type} {before behind : List α} {x : α} {i : Nat} {f : α → α}
    (h : before.length = i) : (before ++ x :: behind).modify i f = before ++ f x :: behind := by
  subst h
  induction before with
  | nil => rfl
  | cons y before ih => exact congrArg (y :: ·) ih

/-- The rebuilt bytes are those of the edited contents, which make up a container again. -/
theorem Edit.run_ok (hparse : parse data appName = .ok parts) (hfit : SectionsFit data)
    (h : edit.run data parts = .ok rebuilt) :
    Container appName (edit.apply (parts.map (Part.content data)))
      ∧ rebuilt = (edit.apply (parts.map (Part.content data))).flatMap Content.bytes := by
  obtain ⟨hreads, hcontainer⟩ := parse_reads hparse
  have hfits := fits_of_sectionsFit hparse hfit
  have hparts : ∀ part ∈ parts, part.Reads data ∧ (part.content data).Fits :=
    fun part hpart => ⟨hreads part hpart, hfits part hpart⟩
  cases edit with
  | update updates allow =>
      obtain ⟨⟨hvalid, hdistinct⟩, hbytes⟩ := replaceOrAddResources_ok hparts h
      exact ⟨hcontainer.update hvalid hdistinct, hbytes⟩
  | rename i newName =>
      change renameResource data parts i newName = .ok rebuilt at h
      unfold renameResource at h
      obtain ⟨hresource, h⟩ := check_eq_ok_iff.mp h
      obtain ⟨⟨⟩, hvalid, h⟩ := bind_eq_ok_iff.mp h
      obtain ⟨hduplicate, h⟩ := check_eq_ok_iff.mp h
      obtain ⟨-, h⟩ := check_eq_ok_iff.mp h
      rw [Bool.not_eq_true', Bool.not_eq_false] at hresource
      obtain ⟨before, part, behind, rfl, rfl, hkind⟩ := exists_of_isResource hresource
      have hnew := notMem_of_hasDuplicateName hduplicate
      have hbytes := renameResource_ok hparts h
      have happly : (Edit.rename before.length newName).apply
          ((before ++ part :: behind).map (Part.content data))
            = before.map (Part.content data) ++ ⟨.resource, newName, (part.content data).payload⟩
              :: behind.map (Part.content data) := by
        rw [Edit.apply, List.map_append, List.map_cons, modify_append_cons (List.length_map _),
          show (part.content data).kind = .resource from hkind]
      rw [happly]
      rw [List.map_append, List.map_cons] at hcontainer
      refine ⟨hcontainer.rename hkind hvalid ?_, ?_⟩
      · rw [← List.map_append]
        intro d hd
        obtain ⟨p, hp, rfl⟩ := List.mem_map.mp hd
        exact hnew p hp
      · rw [hbytes, List.flatMap_append, List.flatMap_cons, List.append_assoc]
  | delete i =>
      change deleteResource data parts i = .ok rebuilt at h
      unfold deleteResource at h
      obtain ⟨hresource, h⟩ := check_eq_ok_iff.mp h
      rw [Bool.not_eq_true', Bool.not_eq_false] at hresource
      obtain ⟨before, part, behind, rfl, rfl, hkind⟩ := exists_of_isResource hresource
      have hbytes := deleteResource_ok hparts h
      have happly : (Edit.delete before.length).apply
          ((before ++ part :: behind).map (Part.content data))
            = before.map (Part.content data) ++ behind.map (Part.content data) := by
        rw [Edit.apply, List.map_append, List.map_cons,
          List.eraseIdx_append_of_length_le (by rw [List.length_map]), List.length_map,
          Nat.sub_self, List.eraseIdx_cons_zero]
      rw [happly]
      rw [List.map_append, List.map_cons] at hcontainer
      exact ⟨hcontainer.delete hkind, by rw [hbytes, List.flatMap_append]⟩

theorem encodeUtf16le_B : encodeUtf16le [0x42] = some [0x42, 0] :=
  encodeUtf16le_eq_some_iff.mpr ⟨['B'], by decide, by decide⟩

theorem validResourceName_B : validResourceName [0x42] = .ok () := by
  unfold validResourceName
  rw [if_neg (by decide), if_neg (by decide), encodeUtf16le_B]
  rfl

/-- The update that adds a resource B to a container without resources. -/
def addB (content : List UInt8) : Edit := .update [⟨[0x42], content⟩] false

theorem run_addB {content : List UInt8} (h : content.length ≤ 2 ^ 32 - 8) :
    ∃ rebuilt, (addB content).run (List.replicate 12 0) emptyParts = .ok rebuilt := by
  have hname : nameBytes [0x42] = [0x42, 0] := by
    rw [nameBytes, encodeUtf16le_B]
    rfl
  have hcheck : checkUpdate emptyParts false ⟨[], 0⟩ ⟨[0x42], content⟩
      = .ok ⟨[lowercaseAscii [0x42]], content.length + 8⟩ := by
    unfold checkUpdate
    have hcore : ((emptyParts.take 3).zipIdx.any fun (core, i) =>
        lowercaseAscii [0x42] == lowercaseAscii core.name && !(false && i != 0)) = false := by
      decide
    dsimp only
    rw [validResourceName_B, hname]
    simp only [bind, Except.bind]
    rw [if_neg (by simp), hcore, if_neg (by decide), if_neg (by unfold sizeMax; omega),
      if_neg (by unfold sizeMax; simp only [List.length_cons, List.length_nil]; omega)]
    simp only [Nat.zero_add, List.length_cons, List.length_nil]
  have hparts : emptyParts.foldlM (rebuildPart (List.replicate 12 0) [⟨[0x42], content⟩] false)
      ⟨[], [false]⟩ = .ok ⟨List.replicate 12 0, [false]⟩ := rfl
  have happend : ∃ rebuilt, appendNamedResource (List.replicate 12 0) (nameBytes [0x42]) content
      = .ok rebuilt := by
    unfold appendNamedResource
    rw [hname, if_neg (by simp only [List.length_cons, List.length_nil]; omega)]
    unfold appendBytes
    rw [if_neg (by decide), if_neg (by
      simp only [List.length_append, List.length_replicate, length_putBE, List.length_cons,
        List.length_nil, maxSize]
      omega)]
    simp only [bind, Except.bind]
    by_cases hnil : content = []
    · exact ⟨_, if_pos hnil⟩
    · rw [if_neg hnil, if_neg (by
        simp only [List.length_append, List.length_replicate, length_putBE, List.length_cons,
          List.length_nil, maxSize]
        omega)]
      exact ⟨_, rfl⟩
  obtain ⟨rebuilt, hrebuilt⟩ := happend
  refine ⟨rebuilt, ?_⟩
  change replaceOrAddResources (List.replicate 12 0) emptyParts [⟨[0x42], content⟩] false = _
  unfold replaceOrAddResources
  refine bind_eq_ok_iff.mpr ⟨(), by decide, bind_eq_ok_iff.mpr
    ⟨_, bind_eq_ok_iff.mpr ⟨_, hcheck, rfl⟩, check_eq_ok_iff.mpr ⟨?_, bind_eq_ok_iff.mpr
      ⟨_, hparts, bind_eq_ok_iff.mpr ⟨rebuilt, hrebuilt, rfl⟩⟩⟩⟩⟩
  simp only [List.length_replicate, maxSize]
  omega

/-- What a container with the resource has to be parsed to. -/
theorem apply_addB (content : List UInt8) :
    (addB content).apply (emptyParts.map (Part.content (List.replicate 12 0)))
      = emptyParts.map (Part.content (List.replicate 12 0)) ++ [⟨.resource, [0x42], content⟩] := by
  rfl

theorem length_field_B (content : List UInt8) :
    (Content.mk .resource [0x42] content).field.length = content.length + 4 := by
  rw [Content.field_of_resource rfl, nameBytes, encodeUtf16le_B]
  simp

/-- Every edit that is accepted is correct. -/
def AllEditsCorrect : Prop :=
  ∀ (data appName : List UInt8) (parts : List Part) (edit : Edit) (rebuilt : List UInt8),
    parse data appName = .ok parts → edit.run data parts = .ok rebuilt →
      edit.Correct data appName parts rebuilt

end Edits

end Tilibs.Webtilp.HpPrimeApp
