import Mathlib
import Tilibs.Lib.Bytes
import Tilibs.Lib.Fallible
import Tilibs.Lib.Tiling

/-!
# Tilibs.Webtilp.HpPrimeApp

The container of an HP Prime application: three core sections, then any number of
resources, each behind its length.

The sizes of sections are 32-bit numbers, also where the offsets are wider: a length
within four of `2 ^ 32` makes the size of its section wrap around.  `parse` is followed
with the wrapped sizes; `Reached` is the walk over the lengths as they stand.
-/

namespace Tilibs.Webtilp.HpPrimeApp

open Lib

/-! ## parts -/

/-- `PartKind` -/
inductive PartKind
  | descriptor | note | program | resource
  deriving DecidableEq

/-- `Part`; a name is the bytes of a string. -/
structure Part where
  kind : PartKind
  name : List UInt8
  sectionOffset : Nat
  sectionSize : Nat
  dataOffset : Nat
  dataSize : Nat
  deriving DecidableEq

/-- The offset and size of a part's section. -/
def Part.section (part : Part) : Nat × Nat := (part.sectionOffset, part.sectionSize)

/-- `read_u32be` -/
def readU32be (data : List UInt8) (offset : Nat) : Option Nat :=
  if offset > data.length ∨ data.length - offset < 4 then none
  else some (getBE (slice data (offset, 4)))

/-- `4U + field_size`, in 32 bits. -/
def sectionSize32 (fieldSize : Nat) : Nat := (4 + fieldSize) % 2 ^ 32

/-! ## text -/

/-- `append_utf8` -/
def utf8Bytes (codepoint : Nat) : List UInt8 :=
  if codepoint ≤ 0x7F then [UInt8.ofNat codepoint]
  else if codepoint ≤ 0x7FF then
    [UInt8.ofNat (0xC0 ||| codepoint >>> 6), UInt8.ofNat (0x80 ||| codepoint &&& 0x3F)]
  else if codepoint ≤ 0xFFFF then
    [UInt8.ofNat (0xE0 ||| codepoint >>> 12), UInt8.ofNat (0x80 ||| codepoint >>> 6 &&& 0x3F),
      UInt8.ofNat (0x80 ||| codepoint &&& 0x3F)]
  else
    [UInt8.ofNat (0xF0 ||| codepoint >>> 18), UInt8.ofNat (0x80 ||| codepoint >>> 12 &&& 0x3F),
      UInt8.ofNat (0x80 ||| codepoint >>> 6 &&& 0x3F), UInt8.ofNat (0x80 ||| codepoint &&& 0x3F)]

/-- `decode_utf16le` -/
def decodeUtf16le : List UInt8 → Option (List UInt8)
  | [] => some []
  | [_] => none
  | lo :: hi :: rest =>
      let unit := getLE [lo, hi]
      if 0xD800 ≤ unit ∧ unit ≤ 0xDBFF then
        match rest with
        | lo' :: hi' :: rest' =>
            let low := getLE [lo', hi']
            if low < 0xDC00 ∨ low > 0xDFFF then none
            else
              (decodeUtf16le rest').map fun tail =>
                utf8Bytes (0x10000 + (unit - 0xD800) * 2 ^ 10 + (low - 0xDC00)) ++ tail
        | _ => none
      else if 0xDC00 ≤ unit ∧ unit ≤ 0xDFFF then none
      else (decodeUtf16le rest).map fun tail => utf8Bytes unit ++ tail

/-- The bits of a first byte, and how many bytes continue it. -/
def utf8Lead (first : UInt8) : Option (Nat × Nat) :=
  if first < 0x80 then some (first.toNat, 0)
  else if first &&& 0xE0 = 0xC0 then
    if first &&& 0x1F < 2 then none else some ((first &&& 0x1F).toNat, 1)
  else if first &&& 0xF0 = 0xE0 then some ((first &&& 0x0F).toNat, 2)
  else if first &&& 0xF8 = 0xF0 then some ((first &&& 0x07).toNat, 3)
  else none

/-- The bytes that continue a character; the codepoint and what is left. -/
def utf8Continue : Nat → Nat → List UInt8 → Option (Nat × List UInt8)
  | 0, codepoint, rest => some (codepoint, rest)
  | _ + 1, _, [] => none
  | k + 1, codepoint, b :: rest =>
      if b &&& 0xC0 ≠ 0x80 then none
      else utf8Continue k (codepoint * 2 ^ 6 + (b &&& 0x3F).toNat) rest

/-- A codepoint that is too long, too large or a surrogate. -/
def badCodepoint (continuation codepoint : Nat) : Bool :=
  continuation = 2 && codepoint < 0x800 || continuation = 3 && codepoint < 0x10000
    || 0x10FFFF < codepoint || 0xD800 ≤ codepoint && codepoint ≤ 0xDFFF

/-- The UTF-16LE bytes of a codepoint. -/
def utf16Bytes (codepoint : Nat) : List UInt8 :=
  if codepoint ≤ 0xFFFF then putLE 2 codepoint
  else
    putLE 2 (0xD800 ||| (codepoint - 0x10000) >>> 10)
      ++ putLE 2 (0xDC00 ||| (codepoint - 0x10000) &&& 0x3FF)

/-- A character is not longer than the text. -/
theorem utf8Continue_length {k codepoint codepoint' : Nat} {bs rest : List UInt8}
    (h : utf8Continue k codepoint bs = some (codepoint', rest)) : rest.length ≤ bs.length := by
  induction k generalizing codepoint bs with
  | zero =>
      cases h
      exact le_refl _
  | succ k ih =>
      cases bs with
      | nil => cases h
      | cons b bs =>
          unfold utf8Continue at h
          split at h
          · cases h
          · have hle := ih h
            rw [List.length_cons]
            omega

/-- `encode_utf16le` -/
def encodeUtf16le : List UInt8 → Option (List UInt8)
  | [] => some []
  | first :: rest =>
      match utf8Lead first with
      | none => none
      | some (bits, continuation) =>
          match h : utf8Continue continuation bits rest with
          | none => none
          | some (codepoint, rest') =>
              if badCodepoint continuation codepoint then none
              else (encodeUtf16le rest').map fun tail => utf16Bytes codepoint ++ tail
  termination_by input => input.length
  decreasing_by
    have hle := utf8Continue_length h
    rw [List.length_cons]
    omega

/-- `lowercase_ascii` -/
def lowercaseAscii (input : List UInt8) : List UInt8 :=
  input.map fun value => if 0x41 ≤ value ∧ value ≤ 0x5A then value + 32 else value

/-- `valid_resource_name`; the first error that it finds. -/
def validResourceName (name : List UInt8) : Except String Unit :=
  if name = [] ∨ name = [0x2E] ∨ name = [0x2E, 0x2E] then
    .error "resource name is empty or reserved"
  else if name.any fun value => value < 0x20 || value = 0x7F || value = 0x2F || value = 0x5C then
    .error "resource name contains a path separator or control character"
  else
    match encodeUtf16le name with
    | none | some [] => .error "resource name is not valid UTF-8"
    | some encoded =>
        if encoded.length / 2 > 128 then
          .error "resource name exceeds 128 UTF-16 code units"
        else .ok ()

/-! ## the parser -/

/-- A core section. -/
def parseCore (data : List UInt8) (kind : PartKind) (name : List UInt8) (offset : Nat) :
    Except String Part :=
  match readU32be data offset with
  | none => .error "application core section exceeds the container"
  | some fieldSize =>
      if fieldSize > data.length - offset - 4 then
        .error "application core section exceeds the container"
      else
        .ok {
          kind
          name
          sectionOffset := offset
          sectionSize := sectionSize32 fieldSize
          dataOffset := offset + 4
          dataSize := fieldSize }

/-- The offset of the two NULs that end a name. -/
def findTerminator : List UInt8 → Option Nat
  | lo :: hi :: rest =>
      if lo = 0 ∧ hi = 0 then some 0 else (findTerminator rest).map (· + 2)
  | _ => none

/-- A resource section. -/
def parseResource (data : List UInt8) (offset : Nat) : Except String Part :=
  match readU32be data offset with
  | none => .error "application resource section exceeds the container"
  | some fieldSize =>
      if fieldSize > data.length - offset - 4 ∨ fieldSize < 2 then
        .error "application resource section exceeds the container"
      else
        let payload := slice data (offset + 4, fieldSize)
        match findTerminator payload with
        | none | some 0 => .error "application resource has an invalid UTF-16LE name"
        | some terminator =>
            match decodeUtf16le (payload.take terminator) with
            | none => .error "application resource has an invalid UTF-16LE name"
            | some name =>
                match validResourceName name with
                | .error message => .error message
                | .ok () =>
                    .ok {
                      kind := .resource
                      name
                      sectionOffset := offset
                      sectionSize := sectionSize32 fieldSize
                      dataOffset := offset + 4 + terminator + 2
                      dataSize := fieldSize - terminator - 2 }

/-- Whether the name at `offset` is new; a section whose size wraps to zero is met again,
and then its name is not. -/
def freshAt (data : List UInt8) (offset : Nat) (names : List (List UInt8)) : Nat :=
  match parseResource data offset with
  | .error _ => 0
  | .ok part => if names.contains (lowercaseAscii part.name) then 0 else 1

/-- The loop over the resources; `names` are the names so far, in lower case. -/
def parseResources (data : List UInt8) (offset : Nat) (names : List (List UInt8)) :
    Except String (List Part) :=
  if offset < data.length then
    match h : parseResource data offset with
    | .error message => .error message
    | .ok part =>
        if lowercaseAscii part.name ∈ names then
          .error "application contains duplicate resource names"
        else
          (parseResources data (offset + part.sectionSize)
            (lowercaseAscii part.name :: names)).map fun parts => part :: parts
  else .ok []
  termination_by (data.length - offset, freshAt data offset names)
  decreasing_by
    by_cases hzero : part.sectionSize = 0
    · rw [hzero, Nat.add_zero]
      apply Prod.Lex.right
      unfold freshAt
      rw [h]
      simp_all
    · apply Prod.Lex.left
      omega

/-- `parse`; the data are there. -/
def parse (data appName : List UInt8) : Except String (List Part) := do
  let descriptor ← parseCore data .descriptor (appName ++ ".hpapp".toUTF8.toList) 0
  let note ← parseCore data .note (appName ++ ".hpappnote".toUTF8.toList) descriptor.sectionSize
  let program ← parseCore data .program (appName ++ ".hpappprgm".toUTF8.toList)
    (descriptor.sectionSize + note.sectionSize)
  let resources ← parseResources data
    (descriptor.sectionSize + note.sectionSize + program.sectionSize) []
  return descriptor :: note :: program :: resources

/-! ## what a part is read from -/

/-- A part that was read from the length `fieldSize` at its offset. -/
structure Part.ReadFrom (data : List UInt8) (part : Part) (fieldSize : Nat) : Prop where
  length : readU32be data part.sectionOffset = some fieldSize
  size : part.sectionSize = sectionSize32 fieldSize
  fits : part.sectionOffset + 4 + fieldSize ≤ data.length
  dataBegin : part.sectionOffset + 4 ≤ part.dataOffset
  dataEnd : part.dataOffset + part.dataSize = part.sectionOffset + 4 + fieldSize
  name : part.kind = .resource → ∃ n,
    decodeUtf16le (slice data (part.sectionOffset + 4, n)) = some part.name
      ∧ part.sectionOffset + 4 + n ≤ part.dataOffset

theorem readU32be_some {data : List UInt8} {offset value : Nat}
    (h : readU32be data offset = some value) : offset + 4 ≤ data.length ∧ value < 2 ^ 32 := by
  unfold readU32be at h
  split at h
  · cases h
  · next hbound =>
    cases h
    have hlen : (slice data (offset, 4)).length = 4 := length_slice (by omega)
    have hlt := getBE_lt (slice data (offset, 4))
    rw [hlen] at hlt
    exact ⟨by omega, hlt⟩

theorem sectionSize32_le (fieldSize : Nat) : sectionSize32 fieldSize ≤ 4 + fieldSize :=
  Nat.mod_le _ _

theorem parseCore_ok {data name : List UInt8} {kind : PartKind} {offset : Nat} {part : Part}
    (hkind : kind ≠ .resource) (h : parseCore data kind name offset = .ok part) :
    part.sectionOffset = offset ∧ part.kind = kind ∧ ∃ fieldSize, part.ReadFrom data fieldSize := by
  unfold parseCore at h
  cases hread : readU32be data offset with
  | none =>
      rw [hread] at h
      cases h
  | some fieldSize =>
      rw [hread] at h
      dsimp only at h
      split at h
      · cases h
      · next hfits =>
        cases h
        have hbound := (readU32be_some hread).1
        exact ⟨rfl, rfl, fieldSize, hread, rfl, by dsimp only; omega, le_refl _, rfl,
          fun hres => absurd hres hkind⟩

theorem findTerminator_lt {payload : List UInt8} {n : Nat} (h : findTerminator payload = some n) :
    n + 2 ≤ payload.length := by
  fun_induction findTerminator payload generalizing n with
  | case1 lo hi rest hnul =>
      cases h
      simp
  | case2 lo hi rest hnul ih =>
      obtain ⟨m, hm, hn⟩ := Option.map_eq_some_iff.mp h
      have hlt := ih hm
      simp only [List.length_cons]
      omega
  | case3 => cases h

theorem parseResource_ok {data : List UInt8} {offset : Nat} {part : Part}
    (h : parseResource data offset = .ok part) :
    part.sectionOffset = offset ∧ part.kind = .resource
      ∧ ∃ fieldSize, part.ReadFrom data fieldSize := by
  unfold parseResource at h
  cases hread : readU32be data offset with
  | none =>
      rw [hread] at h
      cases h
  | some fieldSize =>
      rw [hread] at h
      dsimp only at h
      split at h
      · cases h
      · next hfits =>
        have hbound := (readU32be_some hread).1
        have hpayload : (slice data (offset + 4, fieldSize)).length = fieldSize :=
          length_slice (by omega)
        split at h
        · cases h
        · cases h
        · next terminator hne hterminator =>
          have hlt := findTerminator_lt hterminator
          split at h
          · cases h
          · next name hname =>
            split at h
            · cases h
            · cases h
              have hslice : (slice data (offset + 4, fieldSize)).take terminator
                  = slice data (offset + 4, terminator) := by
                unfold slice
                rw [List.take_take, Nat.min_eq_left (by omega)]
              rw [hslice] at hname
              exact ⟨rfl, rfl, fieldSize, hread, rfl, by dsimp only; omega, by dsimp only; omega,
                by dsimp only; omega, fun _ => ⟨terminator, hname, by dsimp only; omega⟩⟩

/-- The names of two resources differ in more than the case of their letters. -/
def NamesDiffer (p q : Part) : Prop :=
  p.kind = .resource → q.kind = .resource → lowercaseAscii p.name ≠ lowercaseAscii q.name

/-- What the loop over the resources reads. -/
theorem parseResources_ok {data : List UInt8} {offset : Nat} {names : List (List UInt8)}
    {parts : List Part} (hoffset : offset ≤ data.length)
    (h : parseResources data offset names = .ok parts) :
    (∀ part ∈ parts, ∃ fieldSize, part.ReadFrom data fieldSize)
      ∧ Tiles Part.section offset parts data.length
      ∧ (∀ part ∈ parts, lowercaseAscii part.name ∉ names)
      ∧ parts.Pairwise NamesDiffer := by
  fun_induction parseResources data offset names generalizing parts with
  | case1 offset names hlt message hread => cases h
  | case2 offset names hlt part hread hdup => cases h
  | case3 offset names hlt part hread hnew ih =>
      obtain ⟨hat, hkind, fieldSize, hfrom⟩ := parseResource_ok hread
      have hend : offset + part.sectionSize ≤ data.length := by
        have hle := sectionSize32_le fieldSize
        have hfits := hfrom.fits
        rw [hfrom.size]
        omega
      cases hrest : parseResources data (offset + part.sectionSize)
          (lowercaseAscii part.name :: names) with
      | error message =>
          rw [hrest] at h
          cases h
      | ok rest =>
          rw [hrest] at h
          cases h
          obtain ⟨hfroms, htiles, hfresh, hdiffer⟩ := ih hend hrest
          refine ⟨?_, .cons hat htiles, ?_, .cons ?_ hdiffer⟩
          · exact List.forall_mem_cons.mpr ⟨⟨fieldSize, hfrom⟩, hfroms⟩
          · exact List.forall_mem_cons.mpr
              ⟨hnew, fun q hq hmem => hfresh q hq (List.mem_cons_of_mem _ hmem)⟩
          · intro q hq hp hq' heq
            exact hfresh q hq (heq ▸ List.mem_cons_self ..)
  | case4 offset names hge =>
      cases h
      have heq : offset = data.length := by omega
      rw [heq]
      exact ⟨nofun, .nil _, nofun, .nil⟩

/-- What `parse` reads, whatever the sizes of the sections wrap to. -/
theorem parse_ok {data appName : List UInt8} {parts : List Part}
    (h : parse data appName = .ok parts) :
    (∀ part ∈ parts, ∃ fieldSize, part.ReadFrom data fieldSize)
      ∧ Tiles Part.section 0 parts data.length ∧ parts.Pairwise NamesDiffer := by
  unfold parse at h
  obtain ⟨descriptor, hdescriptor, h⟩ := bind_eq_ok_iff.mp h
  obtain ⟨note, hnote, h⟩ := bind_eq_ok_iff.mp h
  obtain ⟨program, hprogram, h⟩ := bind_eq_ok_iff.mp h
  obtain ⟨resources, hresources, h⟩ := bind_eq_ok_iff.mp h
  cases h
  obtain ⟨hdAt, hdKind, dSize, hd⟩ := parseCore_ok (by decide) hdescriptor
  obtain ⟨hnAt, hnKind, nSize, hn⟩ := parseCore_ok (by decide) hnote
  obtain ⟨hpAt, hpKind, pSize, hp⟩ := parseCore_ok (by decide) hprogram
  have hend : descriptor.sectionSize + note.sectionSize + program.sectionSize
      ≤ data.length := by
    have hle := sectionSize32_le pSize
    have hfits := hp.fits
    rw [hp.size]
    omega
  obtain ⟨hfroms, htiles, -, hdiffer⟩ := parseResources_ok hend hresources
  refine ⟨?_, ?_, ?_⟩
  · simp only [List.forall_mem_cons]
    exact ⟨⟨dSize, hd⟩, ⟨nSize, hn⟩, ⟨pSize, hp⟩, hfroms⟩
  · refine .cons hdAt (.cons ?_ (.cons ?_ ?_))
    · rw [Nat.zero_add]
      exact hnAt
    · rw [Nat.zero_add]
      exact hpAt
    · rw [Nat.zero_add]
      exact htiles
  · refine .cons (fun q _ hres => ?_) (.cons (fun q _ hres => ?_)
      (.cons (fun q _ hres => ?_) hdiffer))
    · exact absurd (hdKind.symm.trans hres) (by decide)
    · exact absurd (hnKind.symm.trans hres) (by decide)
    · exact absurd (hpKind.symm.trans hres) (by decide)

/-! ## well-formed containers -/

/-- The sections follow each other from the first byte to the last without overlap, every
payload and every resource's name lies in its own section, and the names are distinct. -/
structure WellFormed (data : List UInt8) (parts : List Part) : Prop where
  tiles : Tiles Part.section 0 parts data.length
  disjoint : parts.Pairwise fun p q => p.sectionOffset + p.sectionSize ≤ q.sectionOffset
  whole : parts.flatMap (fun p => slice data p.section) = data
  payload : ∀ p ∈ parts, p.sectionOffset ≤ p.dataOffset
    ∧ p.dataOffset + p.dataSize ≤ p.sectionOffset + p.sectionSize
  name : ∀ p ∈ parts, p.kind = .resource → ∃ n,
    decodeUtf16le (slice data (p.sectionOffset + 4, n)) = some p.name
      ∧ p.sectionOffset + 4 + n ≤ p.sectionOffset + p.sectionSize
  distinct : parts.Pairwise NamesDiffer

/-- The offsets that a walk over the lengths comes to. -/
inductive Reached (data : List UInt8) : Nat → Prop
  | start : Reached data 0
  | next {offset fieldSize : Nat} : Reached data offset →
      readU32be data offset = some fieldSize → offset + 4 + fieldSize ≤ data.length →
        Reached data (offset + 4 + fieldSize)

/-- The size of every section fits 32 bits. -/
def SectionsFit (data : List UInt8) : Prop :=
  ∀ offset fieldSize, Reached data offset → readU32be data offset = some fieldSize →
    offset + 4 + fieldSize ≤ data.length → fieldSize < 2 ^ 32 - 4

/-- Everything that is shorter than `2 ^ 32` bytes does. -/
theorem sectionsFit_of_length {data : List UInt8} (h : data.length < 2 ^ 32) :
    SectionsFit data := by
  intro offset fieldSize _ _ hfits
  omega

theorem sectionSize32_eq {fieldSize : Nat} (h : fieldSize < 2 ^ 32 - 4) :
    sectionSize32 fieldSize = 4 + fieldSize :=
  Nat.mod_eq_of_lt (by omega)

/-- When the sizes fit, the parts are where the walk goes. -/
theorem reached_of_tiles {data : List UInt8} {start : Nat} {parts : List Part} (hfit : SectionsFit data)
    (hfrom : ∀ part ∈ parts, ∃ fieldSize, part.ReadFrom data fieldSize)
    (htiles : Tiles Part.section start parts data.length) (hstart : Reached data start) :
    ∀ part ∈ parts, Reached data part.sectionOffset := by
  induction parts generalizing start with
  | nil => nofun
  | cons p parts ih =>
      cases htiles with
      | cons hat htiles =>
          obtain ⟨fieldSize, hp⟩ := hfrom p (List.mem_cons_self ..)
          have hat' : p.sectionOffset = start := hat
          have hreach : Reached data p.sectionOffset := hat' ▸ hstart
          have hsize : p.sectionSize = 4 + fieldSize :=
            hp.size.trans (sectionSize32_eq (hfit _ _ hreach hp.length hp.fits))
          have hnext : Reached data (start + p.section.2) := by
            have hstep := hreach.next hp.length hp.fits
            rw [hat', Nat.add_assoc, ← hsize] at hstep
            exact hstep
          have htail := ih (fun q hq => hfrom q (List.mem_cons_of_mem _ hq)) htiles hnext
          exact List.forall_mem_cons.mpr ⟨hreach, htail⟩

theorem parseCore_eq {data : List UInt8} {offset fieldSize : Nat} (kind : PartKind)
    (name : List UInt8) (hread : readU32be data offset = some fieldSize)
    (hfits : offset + 4 + fieldSize ≤ data.length) :
    parseCore data kind name offset
      = .ok ⟨kind, name, offset, sectionSize32 fieldSize, offset + 4, fieldSize⟩ := by
  unfold parseCore
  rw [hread]
  exact if_neg (by omega)

/-- The three core sections and the resources behind them. -/
theorem parse_eq {data appName : List UInt8} {descriptor note program : Part}
    {resources : List Part}
    (hdescriptor : parseCore data .descriptor (appName ++ ".hpapp".toUTF8.toList) 0
      = .ok descriptor)
    (hnote : parseCore data .note (appName ++ ".hpappnote".toUTF8.toList) descriptor.sectionSize
      = .ok note)
    (hprogram : parseCore data .program (appName ++ ".hpappprgm".toUTF8.toList)
      (descriptor.sectionSize + note.sectionSize) = .ok program)
    (hresources : parseResources data
      (descriptor.sectionSize + note.sectionSize + program.sectionSize) [] = .ok resources) :
    parse data appName = .ok (descriptor :: note :: program :: resources) :=
  bind_eq_ok_iff.mpr ⟨descriptor, hdescriptor, bind_eq_ok_iff.mpr ⟨note, hnote,
    bind_eq_ok_iff.mpr ⟨program, hprogram, bind_eq_ok_iff.mpr ⟨resources, hresources, rfl⟩⟩⟩⟩

/-- A first length whose section wraps to one byte; the second length begins in the first. -/
def wrappingData (n : Nat) : List UInt8 :=
  [0xFF, 0xFF, 0xFF, 0xFD, 0x00] ++ List.replicate n 0x00
    ++ ([0x00, 0x00, 0x02, 0xF8] ++ List.replicate 0x2F8 0x00)

theorem length_wrappingData (n : Nat) : (wrappingData n).length = n + 0x301 := by
  unfold wrappingData
  simp only [List.length_append, List.length_replicate, List.length_cons, List.length_nil]
  omega

theorem readU32be_eq {data : List UInt8} {offset value : Nat} (hfits : offset + 4 ≤ data.length)
    (hvalue : getBE (slice data (offset, 4)) = value) : readU32be data offset = some value := by
  unfold readU32be
  rw [if_neg (by omega), hvalue]

theorem parse_wrappingData {n : Nat} (hn : n = 0xFFFFFD00) (appName : List UInt8) :
    ∃ name parts, parse (wrappingData n) appName
      = .ok (⟨.descriptor, name, 0, 1, 4, 0xFFFFFFFD⟩ :: parts) := by
  have hlen := length_wrappingData n
  have hfirst : readU32be (wrappingData n) 0 = some 0xFFFFFFFD :=
    readU32be_eq (by omega) rfl
  have hsecond : readU32be (wrappingData n) 1 = some 0xFFFFFD00 :=
    readU32be_eq (by omega) rfl
  have hthird : readU32be (wrappingData n) (5 + n) = some 0x2F8 := by
    refine readU32be_eq (by omega) ?_
    unfold wrappingData
    rw [slice_mid (by rw [List.length_append, List.length_replicate]; rfl)
      (show ([0x00, 0x00, 0x02, 0xF8] : List UInt8).length = 4 from rfl)]
    rfl
  have hdescriptor := parseCore_eq .descriptor (appName ++ ".hpapp".toUTF8.toList) hfirst (by omega)
  have hnote := parseCore_eq .note (appName ++ ".hpappnote".toUTF8.toList) hsecond (by omega)
  have hprogram := parseCore_eq .program (appName ++ ".hpappprgm".toUTF8.toList) hthird (by omega)
  have hsize : 1 + sectionSize32 0xFFFFFD00 = 5 + n := by
    rw [hn]
    rfl
  have hresources : parseResources (wrappingData n) (5 + n + sectionSize32 0x2F8) [] = .ok [] := by
    rw [parseResources, if_neg]
    rw [hlen]
    show ¬ 5 + n + 764 < _
    omega
  rw [← hsize] at hprogram hresources
  exact ⟨_, _, parse_eq hdescriptor hnote hprogram hresources⟩

/-- The parts of a container of three empty sections and no resources. -/
def emptyParts : List Part :=
  [⟨.descriptor, [0x41] ++ ".hpapp".toUTF8.toList, 0, 4, 4, 0⟩,
    ⟨.note, [0x41] ++ ".hpappnote".toUTF8.toList, 4, 4, 8, 0⟩,
    ⟨.program, [0x41] ++ ".hpappprgm".toUTF8.toList, 8, 4, 12, 0⟩]

theorem parse_zeros : parse (List.replicate 12 0) [0x41] = .ok emptyParts := by
  have hcore : ∀ kind name, ∀ offset ≤ 8, parseCore (List.replicate 12 0) kind name offset
      = .ok ⟨kind, name, offset, 4, offset + 4, 0⟩ := by
    intro kind name offset hoffset
    have hread : ∀ offset ≤ 8, readU32be (List.replicate 12 0) offset = some 0 := by decide
    exact parseCore_eq kind name (hread offset hoffset) (by rw [List.length_replicate]; omega)
  have hresources : parseResources (List.replicate 12 0) 12 [] = .ok [] := by
    rw [parseResources, if_neg (by decide)]
  exact parse_eq (hcore .descriptor _ 0 (by decide)) (hcore .note _ 4 (by decide))
    (hcore .program _ 8 (by decide)) hresources

/-- Every container that is accepted is well formed. -/
def AllWellFormed : Prop :=
  ∀ data appName parts, data.length < 2 ^ 64 → parse data appName = .ok parts →
    WellFormed data parts

end Tilibs.Webtilp.HpPrimeApp
