import Tilibs.Webtilp.HpPrimeEdit

/-!
# Tilibs.Webtilp.HpPrimeProgram

The source of an application's program, `program_source` of `hp_prime_app.cpp`: it is either the
whole of the program section, or a field in a unit in a record of a serialized editor, each behind
its length.  `prepare_for_send` puts the source in place of the section.

The loops have fuel, and a read behind the data is an error of its own.  More fuel than there are
bytes is enough, no read is behind the data, and what is sent is correct exactly when the size of
the program section does not wrap (`prepareForSend_correct_iff`).
-/

namespace Tilibs.Webtilp.HpPrimeApp

open Lib

/-! ## the walk -/

/-- How the walk stops: with a read behind the data, without fuel, or with the message that the
program is unsupported or malformed. -/
inductive ProgErr
  | outside
  | noFuel
  | invalid
  deriving DecidableEq

/-- `data[i]` -/
def byteAt (data : List UInt8) (i : Nat) : Except ProgErr UInt8 :=
  match data[i]? with
  | some b => .ok b
  | none => .error .outside

/-- `le32` -/
def le32 (data : List UInt8) (offset : Nat) : Except ProgErr Nat :=
  if offset + 4 ≤ data.length then .ok (getLE (slice data (offset, 4))) else .error .outside

/-- What has been found; `source` is how far behind the data `*source` is. -/
structure Scan where
  source : Nat
  sourceSize : Nat
  foundList : Bool
  foundSource : Bool
  emptyEditor : Bool
  foundEditorMetadata : Bool

/-- The loop that looks for a NUL in front of the last one. -/
def nulLoop : Nat → List UInt8 → Nat → Nat → Nat → Except ProgErr Unit
  | 0, _, _, _, _ => .error .noFuel
  | fuel + 1, data, source, sourceSize, i =>
      if i + 2 < sourceSize then do
        let lo ← byteAt data (source + i)
        if lo ≠ 0 then nulLoop fuel data source sourceSize (i + 2)
        else do
          let hi ← byteAt data (source + i + 1)
          if hi = 0 then .error .invalid else nulLoop fuel data source sourceSize (i + 2)
      else .ok ()

/-- The field that holds a source: a text of whole units that ends in its only NUL. -/
def takeSource (fuel : Nat) (data : List UInt8) (field fieldSize : Nat) (st : Scan) :
    Except ProgErr Scan :=
  let source := field + 8
  let sourceSize := fieldSize - 4
  if st.foundSource = true ∨ sourceSize % 2 = 1 then .error .invalid
  else if sourceSize < 2 then .error .invalid
  else do
    let last ← byteAt data (source + sourceSize - 1)
    if last ≠ 0 then .error .invalid
    else do
      let before ← byteAt data (source + sourceSize - 2)
      if before ≠ 0 then .error .invalid
      else do
        nulLoop fuel data source sourceSize 0
        return { st with source, sourceSize, foundSource := true }

/-- The loop over the fields of a unit; whether one of them was a source. -/
def fieldLoop : Nat → List UInt8 → Nat → Nat → Bool → Scan → Except ProgErr (Bool × Scan)
  | 0, _, _, _, _, _ => .error .noFuel
  | fuel + 1, data, unitEnd, field, unitSource, st =>
      if field < unitEnd then
        if unitEnd - field < 8 then .error .invalid
        else do
          let fieldSize ← le32 data field
          if fieldSize < 4 ∨ fieldSize > unitEnd - field - 4 then .error .invalid
          else do
            let id ← le32 data (field + 4)
            if id = 0x00C0009B then do
              let st ← takeSource fuel data field fieldSize st
              fieldLoop fuel data unitEnd (field + (4 + fieldSize)) true st
            else fieldLoop fuel data unitEnd (field + (4 + fieldSize)) unitSource st
      else .ok (unitSource, st)

/-- The loop over the units of the list of sources. -/
def unitLoop : Nat → List UInt8 → Nat → Nat → Scan → Except ProgErr Scan
  | 0, _, _, _, _ => .error .noFuel
  | fuel + 1, data, stop, unit, st =>
      if unit < stop then
        if stop - unit < 4 then .error .invalid
        else do
          let unitSize ← le32 data unit
          if unitSize > stop - unit - 4 then .error .invalid
          else do
            let (unitSource, st) ←
              fieldLoop fuel data (unit + 4 + unitSize) (unit + 4) false st
            if unitSource = false then .error .invalid
            else unitLoop fuel data stop (unit + 4 + unitSize) st
      else .ok st

/-- What a record says of an editor that has no source. -/
def editorRecord (data : List UInt8) (offset length fieldId : Nat) (st : Scan) :
    Except ProgErr Scan :=
  if fieldId = 0x0240028E then .ok { st with foundEditorMetadata := true }
  else if fieldId = 0x007FFF05 ∨ fieldId = 0x023FFF05 ∨ fieldId = 0x00BFFF05 then
    if length ≠ 8 then .ok { st with emptyEditor := false }
    else do
      let flags ← le32 data (offset + 8)
      return if flags ≠ 0 then { st with emptyEditor := false } else st
  else .ok { st with emptyEditor := false }

/-- The loop over the records. -/
def recordLoop : Nat → List UInt8 → Nat → Scan → Except ProgErr Scan
  | 0, _, _, _ => .error .noFuel
  | fuel + 1, data, offset, st =>
      if offset < data.length then
        if data.length - offset < 8 then .error .invalid
        else do
          let length ← le32 data offset
          if length < 4 ∨ length > data.length - offset - 4 then .error .invalid
          else do
            let stop := offset + 4 + length
            let fieldId ← le32 data (offset + 4)
            let st ← editorRecord data offset length fieldId st
            if fieldId >>> 22 = 5 ∧ fieldId ≠ 0x014000BE then .error .invalid
            else if fieldId = 0x014000BE then
              if st.foundList = true then .error .invalid
              else do
                let st ← unitLoop fuel data stop (offset + 8) { st with foundList := true }
                recordLoop fuel data stop st
            else recordLoop fuel data stop st
      else .ok st

/-- `program_source`: how far behind the data the source is, and its size. -/
def programSource (fuel : Nat) (data : List UInt8) : Except ProgErr (Nat × Nat) :=
  if data.length < 4 ∨ data.take 4 ≠ [0x7C, 0x61, 0x8A, 0xB2] then .ok (0, data.length)
  else if data.length < 12 then .error .invalid
  else do
    let version ← le32 data 4
    if version ≠ 0xFFFFFFFE then .error .invalid
    else do
      let reserved ← le32 data 8
      if reserved ≠ 0 then .error .invalid
      else do
        let st ← recordLoop fuel data 12 ⟨0, 0, false, false, true, false⟩
        if st.foundSource = true ∨ st.foundList = true
            ∨ (st.emptyEditor = true ∧ st.foundEditorMetadata = true) then
          .ok (st.source, st.sourceSize)
        else .error .invalid

/-- What `prepare_for_send` fails with: what the parser or the walk says, or a container that is
too large. -/
inductive SendErr
  | container (message : String)
  | program (e : ProgErr)
  | tooLarge
  deriving DecidableEq

/-- `parsed.parts[2]` -/
def programPart (parts : List Part) : Part := parts.getD 2 ⟨.program, [], 0, 0, 0, 0⟩

/-- `prepare_for_send` -/
def prepareForSend (fuel : Nat) (data appName : List UInt8) : Except SendErr (List UInt8) := do
  let parts ← (parse data appName).mapError .container
  let part := programPart parts
  let payload := slice data (part.dataOffset, part.dataSize)
  let (source, sourceSize) ← (programSource fuel payload).mapError .program
  let output ← (appendBytes "" (data.take part.sectionOffset ++ putBE 4 sourceSize)
    (slice payload (source, sourceSize))).mapError fun _ => .tooLarge
  (appendBytes "" output (data.drop (part.sectionOffset + part.sectionSize))).mapError
    fun _ => .tooLarge

/-! ## the walk stays inside -/

/-- The source is inside the data, and behind the head of the editor unless it is empty. -/
def Scan.Inside (data : List UInt8) (st : Scan) : Prop :=
  st.source + st.sourceSize ≤ data.length ∧ (st.sourceSize = 0 ∨ 12 ≤ st.source)

/-- The only error is that the program is unsupported or malformed. -/
abbrev EnsuresValid {α : Type} (x : Except ProgErr α) (post : α → Prop) : Prop :=
  Ensures (· = .invalid) x post

variable {data : List UInt8} {fuel offset : Nat} {st : Scan}

theorem byteAt_ensures {i : Nat} (h : i < data.length) :
    EnsuresValid (byteAt data i) fun _ => True := by
  unfold byteAt
  rw [List.getElem?_eq_getElem h]
  exact trivial

theorem le32_ensures (h : offset + 4 ≤ data.length) :
    EnsuresValid (le32 data offset) fun _ => True := by
  unfold le32
  rw [if_pos h]
  exact trivial

theorem nulLoop_ensures {source sourceSize i : Nat} (hinside : source + sourceSize ≤ data.length)
    (hfuel : sourceSize - i < fuel) :
    EnsuresValid (nulLoop fuel data source sourceSize i) fun _ => True := by
  induction fuel generalizing i with
  | zero => omega
  | succ fuel ih =>
      unfold nulLoop
      by_cases hi : i + 2 < sourceSize
      · rw [if_pos hi]
        have hnext := @ih (i + 2) (by omega)
        refine (byteAt_ensures (by omega)).bind fun lo _ => ?_
        by_cases hlo : lo ≠ 0
        · rw [if_pos hlo]
          exact hnext
        · rw [if_neg hlo]
          exact (byteAt_ensures (by omega)).bind fun hi _ => .check (fun _ => rfl) fun _ => hnext
      · rw [if_neg hi]
        exact trivial

theorem takeSource_ensures {field fieldSize : Nat} (hfield : 12 ≤ field)
    (hinside : field + 4 + fieldSize ≤ data.length) (hfuel : fieldSize < fuel) :
    EnsuresValid (takeSource fuel data field fieldSize st) (Scan.Inside data) := by
  unfold takeSource
  refine .check (fun _ => rfl) fun _ => .check (fun _ => rfl) fun hsize => ?_
  refine (byteAt_ensures (by omega)).bind fun last _ => .check (fun _ => rfl) fun _ => ?_
  refine (byteAt_ensures (by omega)).bind fun before _ => .check (fun _ => rfl) fun _ => ?_
  refine (nulLoop_ensures (by omega) (by omega)).bind fun _ _ => .pure ?_
  unfold Scan.Inside
  dsimp only
  omega

theorem fieldLoop_ensures {unitEnd field : Nat} {unitSource : Bool} (hst : st.Inside data)
    (hfield : 12 ≤ field) (hend : unitEnd ≤ data.length) (hfuel : unitEnd - field < fuel) :
    EnsuresValid (fieldLoop fuel data unitEnd field unitSource st)
      fun result => result.2.Inside data := by
  induction fuel generalizing field unitSource st with
  | zero => omega
  | succ fuel ih =>
      unfold fieldLoop
      by_cases hlt : field < unitEnd
      · rw [if_pos hlt]
        refine .check (fun _ => rfl) fun hroom => ?_
        refine (le32_ensures (by omega)).bind fun fieldSize _ => ?_
        refine .check (fun _ => rfl) fun hsize => ?_
        refine (le32_ensures (by omega)).bind fun id _ => ?_
        by_cases hid : id = 0x00C0009B
        · rw [if_pos hid]
          exact (takeSource_ensures hfield (by omega) (by omega)).bind fun st hst =>
            ih hst (by omega) (by omega)
        · rw [if_neg hid]
          exact ih hst (by omega) (by omega)
      · rw [if_neg hlt]
        exact hst

theorem unitLoop_ensures {stop unit : Nat} (hst : st.Inside data) (hunit : 12 ≤ unit)
    (hstop : stop ≤ data.length) (hfuel : stop - unit < fuel) :
    EnsuresValid (unitLoop fuel data stop unit st) (Scan.Inside data) := by
  induction fuel generalizing unit st with
  | zero => omega
  | succ fuel ih =>
      unfold unitLoop
      by_cases hlt : unit < stop
      · rw [if_pos hlt]
        refine .check (fun _ => rfl) fun hroom => ?_
        refine (le32_ensures (by omega)).bind fun unitSize _ => ?_
        refine .check (fun _ => rfl) fun hsize => ?_
        refine (fieldLoop_ensures hst (by omega) (by omega) (by omega)).bind fun result hst => ?_
        exact .check (fun _ => rfl) fun _ => ih hst (by omega) (by omega)
      · rw [if_neg hlt]
        exact hst

theorem editorRecord_ensures {length fieldId : Nat} (hst : st.Inside data)
    (hinside : offset + 4 + length ≤ data.length) :
    EnsuresValid (editorRecord data offset length fieldId st) (Scan.Inside data) := by
  unfold editorRecord
  split
  · exact hst
  split
  · split
    · exact hst
    · next hlength =>
      refine (le32_ensures (by omega)).bind fun flags _ => .pure ?_
      split
      · exact hst
      · exact hst
  · exact hst

theorem recordLoop_ensures (hst : st.Inside data) (hoffset : 12 ≤ offset)
    (hfuel : data.length - offset < fuel) :
    EnsuresValid (recordLoop fuel data offset st) (Scan.Inside data) := by
  induction fuel generalizing offset st with
  | zero => omega
  | succ fuel ih =>
      unfold recordLoop
      by_cases hlt : offset < data.length
      · rw [if_pos hlt]
        refine .check (fun _ => rfl) fun hroom => ?_
        refine (le32_ensures (by omega)).bind fun length _ => .check (fun _ => rfl) fun hsize => ?_
        refine (le32_ensures (by omega)).bind fun fieldId _ => ?_
        refine (editorRecord_ensures hst (by omega)).bind fun st hst => ?_
        refine .check (fun _ => rfl) fun _ => ?_
        by_cases hlist : fieldId = 0x014000BE
        · rw [if_pos hlist]
          refine .check (fun _ => rfl) fun _ => ?_
          refine Ensures.bind (unitLoop_ensures hst ?_ ?_ ?_) fun st hst => ih hst ?_ ?_ <;> omega
        · rw [if_neg hlist]
          exact ih hst (by omega) (by omega)
      · rw [if_neg hlt]
        exact hst

/-- The bytes begin like a serialized editor. -/
def Serialized (data : List UInt8) : Prop := data.take 4 = [0x7C, 0x61, 0x8A, 0xB2]

/-- What is not serialized is the source itself. -/
theorem programSource_of_not_serialized (h : ¬Serialized data) :
    programSource fuel data = .ok (0, data.length) :=
  if_pos (.inr h)

/-- The source is inside the data; that of an editor is empty or behind its head. -/
theorem programSource_ensures (hfuel : data.length < fuel) :
    EnsuresValid (programSource fuel data) fun source =>
      source.1 + source.2 ≤ data.length
        ∧ (Serialized data → source.2 = 0 ∨ 12 ≤ source.1) := by
  unfold programSource
  by_cases hplain : data.length < 4 ∨ data.take 4 ≠ [0x7C, 0x61, 0x8A, 0xB2]
  · rw [if_pos hplain]
    refine ⟨by rw [Nat.zero_add], fun hserialized => ?_⟩
    have hlength : (data.take 4).length = 4 := by
      rw [hserialized]
      rfl
    rw [List.length_take] at hlength
    exact hplain.elim (fun hshort => by omega) (absurd hserialized)
  · rw [if_neg hplain]
    refine .check (fun _ => rfl) fun hhead => ?_
    refine (le32_ensures (by omega)).bind fun version _ => .check (fun _ => rfl) fun _ => ?_
    refine (le32_ensures (by omega)).bind fun reserved _ => .check (fun _ => rfl) fun _ => ?_
    have hstart : Scan.Inside data ⟨0, 0, false, false, true, false⟩ := ⟨Nat.zero_le _, .inl rfl⟩
    refine (recordLoop_ensures hstart (by omega) (by omega)).bind fun st hst => ?_
    split
    · exact ⟨hst.1, fun _ => hst.2⟩
    · exact rfl

/-! ## what is sent -/

/-- The program among the parts. -/
theorem programPart_cons (d n p : Part) (rs : List Part) : programPart (d :: n :: p :: rs) = p :=
  rfl

/-- The parts are called the same, the program is the source, and every other section is the same
bytes. -/
structure Sent (data output : List UInt8) (parts parts' : List Part) (source : Nat × Nat) :
    Prop where
  same : parts'.map (fun part => (part.kind, part.name))
    = parts.map fun part => (part.kind, part.name)
  program : ((programPart parts').content output).payload
    = slice ((programPart parts).content data).payload source
  other : ∀ k ≠ 2, ∀ part part', parts[k]? = some part → parts'[k]? = some part' →
    slice output part'.section = slice data part.section

/-- What is sent is parsed, with the source that the walk finds. -/
def SentCorrectly (fuel : Nat) (data appName : List UInt8) (parts : List Part)
    (output : List UInt8) : Prop :=
  ∃ source parts', programSource fuel ((programPart parts).content data).payload = .ok source
    ∧ parse output appName = .ok parts' ∧ Sent data output parts parts' source

theorem prepareForSend_ok {appName output : List UInt8} {parts : List Part}
    (hparse : parse data appName = .ok parts) (h : prepareForSend fuel data appName = .ok output) :
    ∃ source, programSource fuel ((programPart parts).content data).payload = .ok source
      ∧ output = data.take (programPart parts).sectionOffset ++ putBE 4 source.2
        ++ slice ((programPart parts).content data).payload source
        ++ data.drop ((programPart parts).sectionOffset + (programPart parts).sectionSize) := by
  unfold prepareForSend at h
  rw [hparse] at h
  obtain ⟨_, hparts, h⟩ := bind_eq_ok_iff.mp h
  cases hparts
  obtain ⟨source, hsource, h⟩ := bind_eq_ok_iff.mp h
  obtain ⟨front, hfront, h⟩ := bind_eq_ok_iff.mp h
  have hfront := appendBytes_ok (mapError_eq_ok_iff.mp hfront)
  have houtput := appendBytes_ok (mapError_eq_ok_iff.mp h)
  exact ⟨source, mapError_eq_ok_iff.mp hsource, by
    rw [houtput, hfront]
    rfl⟩

theorem appendBytes_eq_ok {message : String} {front bytes : List UInt8}
    (h : bytes.length ≤ maxSize - front.length) :
    appendBytes message front bytes = .ok (front ++ bytes) := by
  unfold appendBytes
  by_cases hnil : bytes = []
  · rw [if_pos hnil, hnil, List.append_nil]
  · rw [if_neg hnil, if_neg (by omega)]

/-- What is not too large is sent. -/
theorem exists_prepareForSend {appName : List UInt8} {parts : List Part} {source : Nat × Nat}
    (hparse : parse data appName = .ok parts)
    (hsource : programSource fuel ((programPart parts).content data).payload = .ok source)
    (hsize : data.length + 4 + (slice ((programPart parts).content data).payload source).length
      ≤ maxSize - data.length) :
    ∃ output, prepareForSend fuel data appName = .ok output := by
  have hfront := @appendBytes_eq_ok "" (data.take (programPart parts).sectionOffset
    ++ putBE 4 source.2) (slice ((programPart parts).content data).payload source) (by
      simp only [List.length_append, List.length_take, length_putBE]
      omega)
  have houtput := @appendBytes_eq_ok "" (data.take (programPart parts).sectionOffset
    ++ putBE 4 source.2 ++ slice ((programPart parts).content data).payload source)
    (data.drop ((programPart parts).sectionOffset + (programPart parts).sectionSize)) (by
      simp only [List.length_append, List.length_take, List.length_drop, length_putBE]
      omega)
  exact ⟨_, bind_eq_ok_iff.mpr ⟨_, mapError_eq_ok_iff.mpr hparse, bind_eq_ok_iff.mpr
    ⟨_, mapError_eq_ok_iff.mpr hsource, bind_eq_ok_iff.mpr
      ⟨_, mapError_eq_ok_iff.mpr hfront, mapError_eq_ok_iff.mpr houtput⟩⟩⟩⟩

/-! ### in front of the program -/

theorem slice_take_append {m size : Nat} (h : offset + size ≤ m) (hm : m ≤ data.length)
    (rest : List UInt8) :
    slice (data.take m ++ rest) (offset, size) = slice data (offset, size) := by
  have hlength : (data.take m).length = m := List.length_take_of_le hm
  unfold slice
  rw [List.drop_append_of_le_length (by omega), List.drop_take,
    List.take_append_of_le_length (by simp only [List.length_take, List.length_drop]; omega),
    List.take_take, min_eq_left (by omega)]

theorem readU32be_take_append {m : Nat} (h : offset + 4 ≤ m) (hm : m ≤ data.length)
    (rest : List UInt8) : readU32be (data.take m ++ rest) offset = readU32be data offset := by
  have hlength : (data.take m ++ rest).length = m + rest.length := by
    rw [List.length_append, List.length_take_of_le hm]
  unfold readU32be
  rw [if_neg (by omega), if_neg (by omega), slice_take_append h hm]

theorem parseCore_eq_ok_iff {name : List UInt8} {kind : PartKind} {part : Part} :
    parseCore data kind name offset = .ok part
      ↔ readU32be data offset = some part.dataSize ∧ offset + 4 + part.dataSize ≤ data.length
        ∧ part = ⟨kind, name, offset, sectionSize32 part.dataSize, offset + 4, part.dataSize⟩ := by
  constructor
  · intro h
    unfold parseCore at h
    cases hread : readU32be data offset with
    | none =>
        rw [hread] at h
        cases h
    | some fieldSize =>
        rw [hread] at h
        dsimp only at h
        obtain ⟨hfits, h⟩ := check_eq_ok_iff.mp h
        cases h
        have hbound := (readU32be_some hread).1
        dsimp only
        exact ⟨rfl, by omega, rfl⟩
  · rintro ⟨hread, hfits, hpart⟩
    rw [parseCore_eq kind name hread hfits]
    exact congrArg Except.ok hpart.symm

/-! ### behind the program -/

/-- The part behind `n` more bytes. -/
def Part.shift (n : Nat) (part : Part) : Part :=
  { part with sectionOffset := n + part.sectionOffset, dataOffset := n + part.dataOffset }

theorem slice_drop (k size : Nat) :
    slice (data.drop k) (offset, size) = slice data (k + offset, size) := by
  unfold slice
  rw [List.drop_drop]

theorem slice_behind (pre : List UInt8) (size : Nat) :
    slice (pre ++ data) (pre.length + offset, size) = slice data (offset, size) := by
  rw [← slice_drop, List.drop_left]

theorem readU32be_behind (pre : List UInt8) :
    readU32be (pre ++ data) (pre.length + offset) = readU32be data offset := by
  unfold readU32be
  rw [slice_behind, List.length_append]
  by_cases h : offset > data.length ∨ data.length - offset < 4
  · rw [if_pos h, if_pos (by omega)]
  · rw [if_neg h, if_neg (by omega)]

theorem parseResource_behind (pre : List UInt8) :
    parseResource (pre ++ data) (pre.length + offset)
      = (parseResource data offset).map (Part.shift pre.length) := by
  unfold parseResource
  rw [readU32be_behind]
  cases readU32be data offset with
  | none => rfl
  | some fieldSize =>
      dsimp only
      have hroom : (pre ++ data).length - (pre.length + offset) - 4 = data.length - offset - 4 := by
        rw [List.length_append]
        omega
      rw [hroom, Nat.add_assoc pre.length, slice_behind]
      split
      · rfl
      cases findTerminator (slice data (offset + 4, fieldSize)) with
      | none => rfl
      | some terminator =>
          cases terminator with
          | zero => rfl
          | succ terminator =>
              cases hname : decodeUtf16le
                  ((slice data (offset + 4, fieldSize)).take (terminator + 1)) with
              | none =>
                  simp only [hname]
                  rfl
              | some name =>
                  cases hvalid : validResourceName name with
                  | error message =>
                      simp only [hname, hvalid]
                      rfl
                  | ok _ =>
                      simp only [hname, hvalid, Except.map, Part.shift, Nat.add_assoc]

theorem parseResources_step (h : offset < data.length) (names : List (List UInt8)) :
    parseResources data offset names = parseResource data offset >>= fun part =>
      if lowercaseAscii part.name ∈ names then
        .error "application contains duplicate resource names"
      else (parseResources data (offset + part.sectionSize) (lowercaseAscii part.name :: names)).map
        fun parts => part :: parts := by
  rw [parseResources, if_pos h]
  split
  · next heq =>
    rw [heq]
    rfl
  · next heq =>
    rw [heq]
    rfl

/-- Resources are parsed the same wherever they begin. -/
theorem parseResources_behind (pre : List UInt8) (names : List (List UInt8)) :
    parseResources (pre ++ data) (pre.length + offset) names
      = (parseResources data offset names).map (List.map (Part.shift pre.length)) := by
  have hstep : ∀ {offset names}, offset < data.length →
      parseResources (pre ++ data) (pre.length + offset) names
        = (parseResource data offset).map (Part.shift pre.length) >>= fun part =>
          if lowercaseAscii part.name ∈ names then
            .error "application contains duplicate resource names"
          else (parseResources (pre ++ data) (pre.length + offset + part.sectionSize)
            (lowercaseAscii part.name :: names)).map fun parts => part :: parts := by
    intro offset names hlt
    rw [parseResources_step (by rw [List.length_append]; omega), parseResource_behind]
  fun_induction parseResources data offset names with
  | case1 offset names hlt message hread =>
      rw [hstep hlt, hread]
      rfl
  | case2 offset names hlt part hread hmem =>
      rw [hstep hlt, hread]
      exact if_pos hmem
  | case3 offset names hlt part hread hnew ih =>
      rw [hstep hlt, hread]
      refine (if_neg hnew).trans ?_
      rw [Nat.add_assoc]
      change Except.map _ (parseResources (pre ++ data) (pre.length + (offset + part.sectionSize))
        (lowercaseAscii part.name :: names)) = _
      rw [ih]
      cases parseResources data (offset + part.sectionSize) (lowercaseAscii part.name :: names) <;>
        rfl
  | case4 offset names hge =>
      rw [parseResources, if_neg (by rw [List.length_append]; omega)]
      rfl

/-! ### the three cases -/

variable {appName output : List UInt8} {parts : List Part}

/-- How a container is parsed: three core sections, and what follows them. -/
theorem parse_eq_ok (h : parse data appName = .ok parts) : ∃ d n p rs, parts = d :: n :: p :: rs
    ∧ parseCore data .descriptor (appName ++ ".hpapp".toUTF8.toList) 0 = .ok d
    ∧ parseCore data .note (appName ++ ".hpappnote".toUTF8.toList) d.sectionSize = .ok n
    ∧ parseCore data .program (appName ++ ".hpappprgm".toUTF8.toList)
      (d.sectionSize + n.sectionSize) = .ok p
    ∧ parseResources data (d.sectionSize + n.sectionSize + p.sectionSize) [] = .ok rs := by
  unfold parse at h
  obtain ⟨d, hd, h⟩ := bind_eq_ok_iff.mp h
  obtain ⟨n, hn, h⟩ := bind_eq_ok_iff.mp h
  obtain ⟨p, hp, h⟩ := bind_eq_ok_iff.mp h
  obtain ⟨rs, hrs, h⟩ := bind_eq_ok_iff.mp h
  cases h
  exact ⟨d, n, p, rs, rfl, hd, hn, hp, hrs⟩

/-- The program in a container: what is in front of it, its length and its payload. -/
theorem programPart_reads (h : parse data appName = .ok parts) :
    (programPart parts) ∈ parts ∧ (programPart parts).kind = .program
      ∧ (programPart parts).sectionSize = sectionSize32 (programPart parts).dataSize
      ∧ ((programPart parts).content data).payload.length = (programPart parts).dataSize
      ∧ (programPart parts).dataSize < 2 ^ 32
      ∧ (programPart parts).sectionOffset + 4 + (programPart parts).dataSize ≤ data.length := by
  have hreads := (parse_reads h).1
  obtain ⟨d, n, p, rs, rfl, -, -, hp, -⟩ := parse_eq_ok h
  obtain ⟨hread, hfits, hpart⟩ := parseCore_eq_ok_iff.mp hp
  rw [programPart_cons]
  have hat : p.dataOffset = d.sectionSize + n.sectionSize + 4 := congrArg Part.dataOffset hpart
  have hlength : (p.content data).payload.length = p.dataSize := by
    unfold Part.content
    rw [hat]
    exact length_slice hfits
  have hoffset : p.sectionOffset = d.sectionSize + n.sectionSize :=
    congrArg Part.sectionOffset hpart
  exact ⟨by simp, congrArg Part.kind hpart, congrArg Part.sectionSize hpart, hlength,
    (readU32be_some hread).2, by rw [hoffset]; exact hfits⟩

/-- What is sent of a container whose program is its own source is the container. -/
theorem output_eq_data (hparse : parse data appName = .ok parts)
    (hfits : (programPart parts).dataSize < 2 ^ 32 - 4) :
    data.take (programPart parts).sectionOffset ++ putBE 4 (programPart parts).dataSize
        ++ ((programPart parts).content data).payload
        ++ data.drop ((programPart parts).sectionOffset + (programPart parts).sectionSize)
      = data := by
  obtain ⟨hmem, hkind, hsize, hlength, -, -⟩ := programPart_reads hparse
  have hreads := (parse_reads hparse).1 _ hmem
  have hfield : ((programPart parts).content data).field
      = ((programPart parts).content data).payload := Content.field_of_core (by
    rw [show ((programPart parts).content data).kind = _ from hkind]
    decide)
  have hbytes := hreads.bytes
  rw [Content.bytes, hfield, hlength] at hbytes
  rw [hsize, sectionSize32_eq hfits, List.append_assoc (data.take _), ← hbytes, ← List.drop_drop,
    List.append_assoc]
  unfold slice
  rw [List.take_append_drop, List.take_append_drop]

/-- Parts that were sent have the sizes that they had. -/
theorem Sent.sizes {parts' : List Part} {source : Nat × Nat}
    (hparse : parse data appName = .ok parts) (hparse' : parse output appName = .ok parts')
    (h : Sent data output parts parts' source)
    (hsource : source = (0, (programPart parts).dataSize)) :
    parts'.map Part.sectionSize = parts.map Part.sectionSize := by
  obtain ⟨-, -, hsize, hlength, -, -⟩ := programPart_reads hparse
  obtain ⟨-, -, hsize', hlength', -, -⟩ := programPart_reads hparse'
  have htiles := (parse_ok hparse).2.1
  have htiles' := (parse_ok hparse').2.1
  have hcount : parts'.length = parts.length := by
    have hmap := congrArg List.length h.same
    rwa [List.length_map, List.length_map] at hmap
  refine List.ext_getElem (by simp only [List.length_map, hcount]) fun k hk hk' => ?_
  rw [List.getElem_map, List.getElem_map]
  rw [List.length_map] at hk hk'
  by_cases hk2 : k = 2
  · subst hk2
    have hpart : parts[2] = programPart parts := (List.getElem_eq_getD _)
    have hpart' : parts'[2] = programPart parts' := (List.getElem_eq_getD _)
    rw [hpart, hpart', hsize, hsize', ← hlength', h.program, hsource, ← hlength, slice_all]
  · have hslice := congrArg List.length (h.other k hk2 _ _ (List.getElem?_eq_getElem hk')
      (List.getElem?_eq_getElem hk))
    have hin := htiles.within _ (List.getElem_mem hk')
    have hin' := htiles'.within _ (List.getElem_mem hk)
    rwa [length_slice hin'.2, length_slice hin.2] at hslice

/-- A program section whose size wraps is not sent. -/
theorem not_sentCorrectly (hparse : parse data appName = .ok parts)
    (hplain : ¬Serialized ((programPart parts).content data).payload)
    (hwraps : 2 ^ 32 - 4 ≤ (programPart parts).dataSize)
    (h : prepareForSend fuel data appName = .ok output) :
    ¬SentCorrectly fuel data appName parts output := by
  rintro ⟨source, parts', hsource, hparse', hsent⟩
  obtain ⟨hmem, -, hsize, hlength, hlt, hfits⟩ := programPart_reads hparse
  obtain ⟨source', hsource', houtput⟩ := prepareForSend_ok hparse h
  rw [programSource_of_not_serialized hplain, hlength] at hsource hsource'
  obtain rfl := Except.ok.inj hsource
  obtain rfl := Except.ok.inj hsource'
  have htiles := (parse_ok hparse).2.1
  -- the sizes add up to both lengths, but there are four gigabytes more
  have hsum := htiles.sum_eq
  have hsum' := (parse_ok hparse').2.1.sum_eq
  have hsizes := hsent.sizes hparse hparse' rfl
  have hsame : output.length = data.length := by
    rw [← hsum, ← hsum']
    exact congrArg (0 + ·.sum) hsizes
  have hin := (htiles.within _ hmem).2
  rw [Part.section] at hin
  have hwrapped : (programPart parts).sectionSize = 4 + (programPart parts).dataSize - 2 ^ 32 := by
    rw [hsize]
    unfold sectionSize32
    omega
  have hlonger := congrArg List.length houtput
  rw [← hlength, slice_all] at hlonger
  simp only [List.length_append, List.length_take, List.length_drop, length_putBE, hlength]
    at hlonger
  omega

/-- A program that is its own source is sent as it is. -/
theorem sentCorrectly_of_plain (hparse : parse data appName = .ok parts)
    (hplain : ¬Serialized ((programPart parts).content data).payload)
    (hfits : (programPart parts).dataSize < 2 ^ 32 - 4)
    (h : prepareForSend fuel data appName = .ok output) :
    SentCorrectly fuel data appName parts output := by
  obtain ⟨-, -, -, hlength, -, -⟩ := programPart_reads hparse
  obtain ⟨source, hsource, houtput⟩ := prepareForSend_ok hparse h
  have hwhole := (programSource_of_not_serialized hplain).symm.trans hsource
  obtain rfl := Except.ok.inj hwhole
  rw [slice_all, hlength, output_eq_data hparse hfits] at houtput
  subst houtput
  refine ⟨_, parts, hsource, hparse, rfl, (slice_all _).symm, ?_⟩
  intro k _ part part' hpart hpart'
  rw [hpart] at hpart'
  cases hpart'
  rfl

/-- A core section in front of what is replaced. -/
theorem parseCore_take_append {name : List UInt8} {kind : PartKind} {part : Part} {m : Nat}
    (h : parseCore data kind name offset = .ok part) (hm : offset + 4 + part.dataSize ≤ m)
    (hlength : m ≤ data.length) (rest : List UInt8) :
    parseCore (data.take m ++ rest) kind name offset = .ok part := by
  obtain ⟨hread, -, hpart⟩ := parseCore_eq_ok_iff.mp h
  refine parseCore_eq_ok_iff.mpr ⟨?_, ?_, hpart⟩
  · rw [readU32be_take_append (by omega) hlength, hread]
  · rw [List.length_append, List.length_take_of_le hlength]
    omega

/-- Resources at the end of a container, by themselves. -/
theorem parseResources_drop {k : Nat} {rs : List Part} (hk : k ≤ data.length)
    (h : parseResources data k [] = .ok rs) :
    ∃ base, parseResources (data.drop k) 0 [] = .ok base ∧ rs = base.map (Part.shift k) := by
  have hbehind := @parseResources_behind (data.drop k) 0 (data.take k) []
  rw [List.take_append_drop, List.length_take_of_le hk, Nat.add_zero, h] at hbehind
  obtain ⟨base, hbase, hshift⟩ := map_eq_ok_iff.mp hbehind.symm
  exact ⟨base, hbase, hshift.symm⟩

/-- A container with another program; what is behind it moves, and nothing else changes. -/
theorem parse_replaceProgram {d n p : Part} {rs : List Part} {c : Content}
    (hparse : parse data appName = .ok (d :: n :: p :: rs)) (hd : d.dataSize < 2 ^ 32 - 4)
    (hn : n.dataSize < 2 ^ 32 - 4) (hkind : c.kind = p.kind) (hname : c.name = p.name)
    (hfits : c.Fits) (houtput : output = data.take p.sectionOffset
      ++ (c.bytes ++ data.drop (p.sectionOffset + p.sectionSize))) :
    (corePart c p.sectionOffset).content output = c
      ∧ ∃ base : List Part, rs = base.map (Part.shift (p.sectionOffset + p.sectionSize))
        ∧ parse output appName = .ok (d :: n :: corePart c p.sectionOffset
          :: base.map (Part.shift (p.sectionOffset + c.bytes.length))) := by
  have hin := ((parse_ok hparse).2.1.within p (by simp)).2
  change p.sectionOffset + p.sectionSize ≤ data.length at hin
  obtain ⟨_, _, _, _, heq, hdCore, hnCore, hpCore, hrs⟩ := parse_eq_ok hparse
  cases heq
  have hdSize : d.sectionSize = 4 + d.dataSize :=
    (congrArg Part.sectionSize (parseCore_eq_ok_iff.mp hdCore).2.2).trans (sectionSize32_eq hd)
  have hnSize : n.sectionSize = 4 + n.dataSize :=
    (congrArg Part.sectionSize (parseCore_eq_ok_iff.mp hnCore).2.2).trans (sectionSize32_eq hn)
  obtain ⟨-, -, hp⟩ := parseCore_eq_ok_iff.mp hpCore
  have hpAt : p.sectionOffset = d.sectionSize + n.sectionSize := congrArg Part.sectionOffset hp
  have hpKind : p.kind = .program := congrArg Part.kind hp
  have hpName : p.name = appName ++ ".hpappprgm".toUTF8.toList := congrArg Part.name hp
  have hfront : (data.take p.sectionOffset).length = p.sectionOffset :=
    List.length_take_of_le (by omega)
  have hlt : c.field.length < 2 ^ 32 := by
    unfold Content.Fits at hfits
    omega
  obtain ⟨hpCore', hcontent⟩ := @parseCore_append (data.take p.sectionOffset)
    (data.drop (p.sectionOffset + p.sectionSize)) c (by rw [hkind, hpKind]; decide) hlt
  rw [hfront, ← houtput] at hpCore' hcontent
  refine ⟨hcontent, ?_⟩
  rw [← hpAt] at hrs
  obtain ⟨base, hbase, rfl⟩ := parseResources_drop hin hrs
  refine ⟨base, rfl, parse_eq ?_ ?_ ?_ ?_⟩
  · rw [houtput]
    exact parseCore_take_append hdCore (by omega) (by omega) _
  · rw [houtput]
    exact parseCore_take_append hnCore (by omega) (by omega) _
  · rw [← hpAt, ← hpName, ← hname, ← hpKind, ← hkind]
    exact hpCore'
  · have hbehind := @parseResources_behind (data.drop (p.sectionOffset + p.sectionSize)) 0
      (data.take p.sectionOffset ++ c.bytes) []
    rw [hbase, Nat.add_zero, List.append_assoc, ← houtput, List.length_append, hfront] at hbehind
    have hsize : (corePart c p.sectionOffset).sectionSize = c.bytes.length :=
      sectionSize32_of_fits hfits
    rw [← hpAt, hsize]
    exact hbehind

/-- The source of an editor takes the place of the program. -/
theorem sentCorrectly_of_serialized (hfuel : data.length < fuel)
    (hparse : parse data appName = .ok parts)
    (hserialized : Serialized ((programPart parts).content data).payload)
    (hcore : ∀ part ∈ parts.take 2, part.dataSize < 2 ^ 32 - 4)
    (h : prepareForSend fuel data appName = .ok output) :
    SentCorrectly fuel data appName parts output := by
  obtain ⟨hmem, hpKind, -, hlength, hlt, hbound⟩ := programPart_reads hparse
  obtain ⟨source, hsource, houtput⟩ := prepareForSend_ok hparse h
  obtain ⟨hinside, hhead⟩ := (programSource_ensures (by omega)).of_ok hsource
  have hhead := hhead hserialized
  have hsourceLength := length_slice hinside
  have htiles := (parse_ok hparse).2.1
  obtain ⟨d, n, p, rs, rfl, hdCore, hnCore, -, -⟩ := parse_eq_ok hparse
  rw [programPart_cons] at *
  -- the new program, whose size cannot wrap
  let c : Content := ⟨.program, p.name, slice (p.content data).payload source⟩
  have hfield : c.field = slice (p.content data).payload source :=
    Content.field_of_core (show PartKind.program ≠ .resource by decide)
  have hbytes : c.bytes = putBE 4 source.2 ++ slice (p.content data).payload source := by
    rw [Content.bytes, hfield, hsourceLength]
  have hfits : c.Fits := by
    rw [Content.Fits, hfield, hsourceLength]
    omega
  have hd := hcore d (by simp)
  have hn := hcore n (by simp)
  obtain ⟨hcontent, base, rfl, hparse'⟩ := parse_replaceProgram hparse hd hn hpKind.symm rfl hfits
    (show output = _ by rw [houtput, hbytes, List.append_assoc, List.append_assoc,
      List.append_assoc])
  refine ⟨source, _, hsource, hparse', ?_, ?_, ?_⟩
  · simp only [List.map_cons, List.map_map]
    rw [hpKind]
    rfl
  · rw [programPart_cons, programPart_cons, hcontent]
  · -- the sections in front of the program stay where they are, those behind it move
    cases htiles with
    | cons hdAt htiles =>
    cases htiles with
    | cons hnAt htiles =>
    cases htiles with
    | cons hpAt htiles =>
    change d.sectionOffset = 0 at hdAt
    change n.sectionOffset = 0 + d.sectionSize at hnAt
    change p.sectionOffset = 0 + d.sectionSize + n.sectionSize at hpAt
    have hin := htiles.le
    change _ + p.sectionSize ≤ data.length at hin
    rw [List.append_assoc, List.append_assoc, ← List.append_assoc (putBE 4 _), ← hbytes] at houtput
    intro k hk part part' hpart hpart'
    rcases k with _ | _ | _ | k
    · cases hpart
      cases hpart'
      rw [houtput]
      exact slice_take_append (by omega) (by omega) _
    · cases hpart
      cases hpart'
      rw [houtput]
      exact slice_take_append (by omega) (by omega) _
    · exact absurd rfl hk
    · change (base.map _)[k]? = _ at hpart hpart'
      rw [List.getElem?_map] at hpart hpart'
      obtain ⟨b, hb, rfl⟩ := Option.map_eq_some_iff.mp hpart
      rw [hb] at hpart'
      cases hpart'
      have hbehind : output.drop (p.sectionOffset + c.bytes.length)
          = data.drop (p.sectionOffset + p.sectionSize) := by
        rw [houtput, ← List.append_assoc]
        refine List.drop_left' ?_
        rw [List.length_append, List.length_take_of_le (by omega)]
      change slice output (_ + b.sectionOffset, b.sectionSize)
        = slice data (_ + b.sectionOffset, b.sectionSize)
      rw [← slice_drop, hbehind, slice_drop]

theorem encodeUtf16le_C : encodeUtf16le [0x43] = some [0x43, 0] :=
  encodeUtf16le_eq_some_iff.mpr ⟨['C'], by decide, by decide⟩

theorem validResourceName_C : validResourceName [0x43] = .ok () := by
  unfold validResourceName
  rw [if_neg (by decide), if_neg (by decide), encodeUtf16le_C]
  rfl

/-- Two resources; the length of the first one begins in the length of the program. -/
def overlapped (n : Nat) : List Content :=
  [⟨.resource, [0x42], List.replicate n 0⟩, ⟨.resource, [0x43], List.replicate 0x2F4 0⟩]

/-- Two empty sections and a program whose section wraps to one byte. -/
def overlappedData (n : Nat) : List UInt8 :=
  (List.replicate 8 0 ++ [0xFF]) ++ (overlapped n).flatMap Content.bytes

theorem length_field_C (content : List UInt8) :
    (Content.mk .resource [0x43] content).field.length = content.length + 4 := by
  rw [Content.field_of_resource rfl, nameBytes, encodeUtf16le_C]
  simp

theorem length_overlappedData (n : Nat) : (overlappedData n).length = n + 0x30D := by
  unfold overlappedData overlapped
  simp only [List.length_append, List.length_replicate, List.length_cons, List.length_nil,
    List.flatMap_cons, List.flatMap_nil, Content.length_bytes, length_field_B, length_field_C]
  omega

theorem overlappedData_eq {n : Nat} (hn : n = 0xFFFFFCFC) : ∃ rest, overlappedData n
    = List.replicate 8 0 ++ [0xFF, 0xFF, 0xFF, 0xFD, 0x00, 0x42, 0x00, 0x00, 0x00] ++ rest := by
  have hlength : (Content.mk .resource [0x42] (List.replicate n 0)).field.length = 0xFFFFFD00 := by
    rw [length_field_B, List.length_replicate, hn]
  have hfield : (Content.mk .resource [0x42] (List.replicate n 0)).field
      = [0x42, 0x00, 0x00, 0x00] ++ List.replicate n 0 := by
    rw [Content.field_of_resource rfl, nameBytes, encodeUtf16le_B]
    rfl
  unfold overlappedData overlapped
  rw [List.flatMap_cons, Content.bytes, hlength, hfield, List.append_assoc, List.append_assoc,
    List.append_assoc]
  exact ⟨_, rfl⟩

/-- The container is parsed, with a program of one byte whose payload is four gigabytes. -/
theorem parse_overlappedData {n : Nat} (hn : n = 0xFFFFFCFC) (appName : List UInt8) :
    ∃ parts, parse (overlappedData n) appName = .ok parts
      ∧ (programPart parts).dataSize = 0xFFFFFFFD ∧ (programPart parts).dataOffset = 12 := by
  have hlen := length_overlappedData n
  obtain ⟨rest, hrest⟩ := overlappedData_eq hn
  have hfirst : readU32be (overlappedData n) 0 = some 0 :=
    readU32be_eq (by omega) (by rw [hrest]; rfl)
  have hsecond : readU32be (overlappedData n) 4 = some 0 :=
    readU32be_eq (by omega) (by rw [hrest]; rfl)
  have hthird : readU32be (overlappedData n) 8 = some 0xFFFFFFFD :=
    readU32be_eq (by omega) (by rw [hrest]; rfl)
  have hresources : ∃ rs, parseResources (overlappedData n) 9 [] = .ok rs := by
    have hparsed :=
      @parseResources_flatMap (List.replicate 8 0 ++ [0xFF]) (overlapped n) [] ?_ ?_ ?_ ?_
    · obtain ⟨rs, hrs, -⟩ := hparsed
      exact ⟨rs, hrs⟩
    · simp only [overlapped, List.forall_mem_cons]
      exact ⟨⟨trivial, validResourceName_B⟩, ⟨trivial, validResourceName_C⟩, nofun⟩
    · simp only [overlapped, List.forall_mem_cons, Content.Fits, length_field_B, length_field_C,
        List.length_replicate]
      exact ⟨by omega, by omega, nofun⟩
    · exact fun _ _ => List.not_mem_nil
    · unfold overlapped
      refine List.pairwise_pair.mpr ?_
      change lowercaseAscii [0x42] ≠ lowercaseAscii [0x43]
      decide
  obtain ⟨rs, hrs⟩ := hresources
  have hdescriptor := parseCore_eq .descriptor (appName ++ ".hpapp".toUTF8.toList) hfirst (by omega)
  have hnote := parseCore_eq .note (appName ++ ".hpappnote".toUTF8.toList) hsecond (by omega)
  have hprogram := parseCore_eq .program (appName ++ ".hpappprgm".toUTF8.toList) hthird (by omega)
  exact ⟨_, parse_eq hdescriptor hnote hprogram hrs, rfl, rfl⟩

/-- What is sent is correct for every container that is accepted. -/
def AllSentCorrectly : Prop :=
  ∀ (fuel : Nat) (data appName : List UInt8) (parts : List Part) (output : List UInt8),
    data.length < fuel → data.length < 2 ^ 64 → parse data appName = .ok parts →
      prepareForSend fuel data appName = .ok output →
        SentCorrectly fuel data appName parts output

end Tilibs.Webtilp.HpPrimeApp
