import Tilibs.Webtilp.HpPrimeText

/-!
# Tilibs.Webtilp.HpPrimeSections

A container of an HP Prime application as its contents: what the parts are, what they are called
and what is in them, without where they are.

The bytes of a list of contents parse to it exactly when the size of every section fits 32 bits
(`parse_flatMap_iff`), and what is parsed has the bytes of its contents (`parse_reads`).
-/

namespace Tilibs.Webtilp.HpPrimeApp

open Lib

/-! ## contents -/

/-- What is in a section. -/
structure Content where
  kind : PartKind
  name : List UInt8
  payload : List UInt8
  deriving DecidableEq

/-- The UTF-16LE bytes of a name. -/
def nameBytes (name : List UInt8) : List UInt8 := (encodeUtf16le name).getD []

namespace Content

/-- What is behind the length of a section; a resource has its name in front of its data. -/
def field (c : Content) : List UInt8 :=
  match c.kind with
  | .resource => nameBytes c.name ++ (0 :: 0 :: c.payload)
  | _ => c.payload

/-- The bytes of a section. -/
def bytes (c : Content) : List UInt8 := putBE 4 c.field.length ++ c.field

/-- The size of the section is below `2 ^ 32`. -/
def Fits (c : Content) : Prop := c.field.length < 2 ^ 32 - 4

instance (c : Content) : Decidable c.Fits := inferInstanceAs (Decidable (_ < _))

theorem length_bytes (c : Content) : c.bytes.length = 4 + c.field.length := by
  rw [bytes, List.length_append, length_putBE]

theorem field_of_core {c : Content} (h : c.kind ≠ .resource) : c.field = c.payload := by
  unfold field
  cases hkind : c.kind <;> simp_all

theorem field_of_resource {c : Content} (h : c.kind = .resource) :
    c.field = nameBytes c.name ++ (0 :: 0 :: c.payload) := by
  unfold field
  rw [h]

end Content

/-- What is in the section of a part. -/
def Part.content (data : List UInt8) (part : Part) : Content where
  kind := part.kind
  name := part.name
  payload := slice data (part.dataOffset, part.dataSize)

/-- The kinds and the names of the core sections. -/
def coreParts (appName : List UInt8) : List (PartKind × List UInt8) :=
  [(.descriptor, appName ++ ".hpapp".toUTF8.toList), (.note, appName ++ ".hpappnote".toUTF8.toList),
    (.program, appName ++ ".hpappprgm".toUTF8.toList)]

/-- The core sections, and then resources with names that the parser accepts. -/
structure Container (appName : List UInt8) (cs : List Content) : Prop where
  core : (cs.take 3).map (fun c => (c.kind, c.name)) = coreParts appName
  resource : ∀ c ∈ cs.drop 3, c.kind = .resource ∧ validResourceName c.name = .ok ()
  distinct : (cs.drop 3).Pairwise fun c d => lowercaseAscii c.name ≠ lowercaseAscii d.name

/-! ## names -/

/-- A name that is accepted is a text without NUL. -/
theorem exists_of_validResourceName {name : List UInt8} (h : validResourceName name = .ok ()) :
    ∃ cs : List Char, name = utf8 cs ∧ nameBytes name = utf16le cs ∧ utf16le cs ≠ []
      ∧ ∀ c ∈ cs, c.toNat ≠ 0 := by
  unfold validResourceName at h
  split at h
  · cases h
  split at h
  · cases h
  · next hcontrol =>
    split at h
    · cases h
    · cases h
    · next encoded hne hencode =>
      obtain ⟨cs, hs, hb⟩ := encodeUtf16le_eq_some_iff.mp hencode
      refine ⟨cs, hs, ?_, ?_, ?_⟩
      · rw [nameBytes, hencode, Option.getD_some, hb]
      · rw [← hb]
        exact hne
      · intro c hc hzero
        apply hcontrol
        have hbyte : (0 : UInt8) ∈ name := by
          rw [hs]
          refine List.mem_flatMap.mpr ⟨c, hc, ?_⟩
          rw [← utf8Bytes_toNat, hzero]
          decide
        exact List.any_eq_true.mpr ⟨0, hbyte, by decide⟩

/-- The NULs behind a text without NUL are found. -/
theorem findTerminator_utf16le {cs : List Char} (h : ∀ c ∈ cs, c.toNat ≠ 0) (rest : List UInt8) :
    findTerminator (utf16le cs ++ (0 :: 0 :: rest)) = some (utf16le cs).length := by
  have hunit : ∀ lo hi : UInt8, getLE [lo, hi] ≠ 0 → ¬(lo = 0 ∧ hi = 0) := by
    rintro lo hi hne ⟨rfl, rfl⟩
    exact hne (by decide)
  induction cs with
  | nil =>
      change findTerminator (0 :: 0 :: rest) = some 0
      rw [findTerminator, if_pos ⟨rfl, rfl⟩]
  | cons c cs ih =>
      obtain ⟨hc, hcs⟩ := List.forall_mem_cons.mp h
      rw [utf16le_cons]
      obtain ⟨lo, hi, hbytes, hvalue, -, -⟩ | ⟨lo, hi, lo', hi', hbytes, -, hhigh, hlow⟩ :=
        utf16leChar_cases c
      · rw [hbytes]
        change findTerminator (lo :: hi :: (utf16le cs ++ (0 :: 0 :: rest))) = _
        rw [findTerminator, if_neg (hunit lo hi (by rw [← hvalue]; exact hc)), ih hcs]
        rfl
      · rw [hbytes]
        change findTerminator (lo :: hi :: lo' :: hi' :: (utf16le cs ++ (0 :: 0 :: rest))) = _
        unfold HighSurrogate at hhigh
        unfold LowSurrogate at hlow
        rw [findTerminator, if_neg (hunit lo hi (by omega)), findTerminator,
          if_neg (hunit lo' hi' (by omega)), ih hcs]
        rfl

/-- What is behind the name that is found. -/
theorem eq_of_findTerminator {field : List UInt8} {n : Nat} (h : findTerminator field = some n) :
    field = field.take n ++ (0 :: 0 :: field.drop (n + 2)) := by
  fun_induction findTerminator field generalizing n with
  | case1 lo hi rest hnul =>
      cases h
      rw [hnul.1, hnul.2]
      rfl
  | case2 lo hi rest hnul ih =>
      obtain ⟨m, hm, rfl⟩ := Option.map_eq_some_iff.mp h
      change lo :: hi :: rest = lo :: hi :: (rest.take m ++ (0 :: 0 :: rest.drop (m + 2)))
      rw [← ih hm]
  | case3 => cases h

/-! ## sections in a container -/

/-- A part that was read where the bytes of its contents are. -/
structure Part.Reads (data : List UInt8) (part : Part) : Prop where
  length : readU32be data part.sectionOffset = some (part.content data).field.length
  bytes : slice data (part.sectionOffset, 4 + (part.content data).field.length)
    = (part.content data).bytes
  size : part.sectionSize = sectionSize32 (part.content data).field.length
  fits : part.sectionOffset + 4 + (part.content data).field.length ≤ data.length

theorem readU32be_append {pre post : List UInt8} {n : Nat} (hn : n < 2 ^ 32) :
    readU32be (pre ++ (putBE 4 n ++ post)) pre.length = some n := by
  refine readU32be_eq ?_ ?_
  · simp only [List.length_append, length_putBE]
    omega
  · rw [slice_mid rfl (length_putBE 4 n)]
    exact getBE_putBE hn

/-- A length and what is behind it, when it is read. -/
theorem slice_of_readU32be {data : List UInt8} {offset n : Nat}
    (h : readU32be data offset = some n) :
    slice data (offset, 4 + n) = putBE 4 n ++ slice data (offset + 4, n) := by
  have hbound := (readU32be_some h).1
  have hlength : (slice data (offset, 4)).length = 4 := length_slice (by omega)
  unfold readU32be at h
  rw [if_neg (by omega), Option.some.injEq] at h
  have hbytes := putBE_getBE (slice data (offset, 4))
  rw [hlength, h] at hbytes
  rw [← slice_append, hbytes]

/-- The field behind its length. -/
theorem slice_field (pre post : List UInt8) (c : Content) :
    slice (pre ++ (c.bytes ++ post)) (pre.length + 4, c.field.length) = c.field := by
  rw [Content.bytes, List.append_assoc, ← List.append_assoc pre]
  exact slice_mid (by rw [List.length_append, length_putBE]) rfl

theorem length_container (pre post : List UInt8) (c : Content) :
    (pre ++ (c.bytes ++ post)).length = pre.length + 4 + c.field.length + post.length := by
  simp only [List.length_append, c.length_bytes]
  omega

/-- The part that a core section is read as. -/
def corePart (c : Content) (offset : Nat) : Part where
  kind := c.kind
  name := c.name
  sectionOffset := offset
  sectionSize := sectionSize32 c.field.length
  dataOffset := offset + 4
  dataSize := c.field.length

theorem parseCore_append {pre post : List UInt8} {c : Content} (hkind : c.kind ≠ .resource)
    (hlength : c.field.length < 2 ^ 32) :
    parseCore (pre ++ (c.bytes ++ post)) c.kind c.name pre.length = .ok (corePart c pre.length)
      ∧ (corePart c pre.length).content (pre ++ (c.bytes ++ post)) = c := by
  constructor
  · refine parseCore_eq c.kind c.name ?_ ?_
    · rw [Content.bytes, List.append_assoc]
      exact readU32be_append hlength
    · rw [length_container]
      omega
  · unfold Part.content corePart
    dsimp only
    rw [slice_field, c.field_of_core hkind]

/-- The part that a resource is read as. -/
def resourcePart (c : Content) (offset : Nat) : Part where
  kind := .resource
  name := c.name
  sectionOffset := offset
  sectionSize := sectionSize32 c.field.length
  dataOffset := offset + 4 + (nameBytes c.name).length + 2
  dataSize := c.field.length - (nameBytes c.name).length - 2

theorem parseResource_append {pre post : List UInt8} {c : Content} (hkind : c.kind = .resource)
    (hname : validResourceName c.name = .ok ()) (hlength : c.field.length < 2 ^ 32) :
    parseResource (pre ++ (c.bytes ++ post)) pre.length = .ok (resourcePart c pre.length)
      ∧ (resourcePart c pre.length).content (pre ++ (c.bytes ++ post)) = c := by
  obtain ⟨cs, hs, hb, hne, hnul⟩ := exists_of_validResourceName hname
  have hfield := c.field_of_resource hkind
  have hlen : c.field.length = (nameBytes c.name).length + 2 + c.payload.length := by
    rw [hfield, List.length_append, List.length_cons, List.length_cons]
    omega
  have hread : readU32be (pre ++ (c.bytes ++ post)) pre.length = some c.field.length := by
    rw [Content.bytes, List.append_assoc]
    exact readU32be_append hlength
  have hterminator : findTerminator c.field = some (nameBytes c.name).length := by
    rw [hfield, hb]
    exact findTerminator_utf16le hnul c.payload
  have hdecode : decodeUtf16le (c.field.take (nameBytes c.name).length) = some c.name := by
    rw [hfield, List.take_left, hb]
    exact decodeUtf16le_eq_some_iff.mpr ⟨cs, hs, rfl⟩
  have hpos : (nameBytes c.name).length ≠ 0 := by
    rw [hb]
    exact fun hzero => hne (List.eq_nil_of_length_eq_zero hzero)
  constructor
  · unfold parseResource
    rw [hread]
    dsimp only
    rw [if_neg (by rw [length_container]; omega), slice_field, hterminator]
    split
    · next heq => cases heq
    · next heq => exact absurd (Option.some.inj heq) hpos
    · next n _ heq =>
      obtain rfl := Option.some.inj heq
      rw [hdecode]
      dsimp only
      rw [hname]
      rfl
  · unfold Part.content resourcePart
    dsimp only
    have hpayload : slice (pre ++ (c.bytes ++ post))
        (pre.length + 4 + (nameBytes c.name).length + 2,
          c.field.length - (nameBytes c.name).length - 2) = c.payload := by
      have hsplit : pre ++ (c.bytes ++ post) = (pre ++ putBE 4 c.field.length
          ++ nameBytes c.name ++ [0, 0]) ++ (c.payload ++ post) := by
        rw [Content.bytes]
        conv_lhs => rw [hfield]
        simp only [List.append_assoc, List.cons_append, List.nil_append]
        rw [← hfield]
      rw [hsplit]
      refine slice_mid ?_ (by omega)
      simp only [List.length_append, length_putBE, List.length_cons, List.length_nil]
    rw [hpayload, ← hkind]

/-! ## parsing contents -/

theorem sectionSize32_of_fits {c : Content} (h : c.Fits) :
    sectionSize32 c.field.length = c.bytes.length := by
  rw [sectionSize32_eq h, c.length_bytes]

/-- Resources with different names are parsed. -/
theorem parseResources_flatMap {pre : List UInt8} {rs : List Content} {names : List (List UInt8)}
    (hresource : ∀ c ∈ rs, c.kind = .resource ∧ validResourceName c.name = .ok ())
    (hfits : ∀ c ∈ rs, c.Fits) (hnew : ∀ c ∈ rs, lowercaseAscii c.name ∉ names)
    (hdistinct : rs.Pairwise fun c d => lowercaseAscii c.name ≠ lowercaseAscii d.name) :
    ∃ parts, parseResources (pre ++ rs.flatMap Content.bytes) pre.length names = .ok parts
      ∧ parts.map (Part.content (pre ++ rs.flatMap Content.bytes)) = rs := by
  induction rs generalizing pre names with
  | nil =>
      refine ⟨[], ?_, rfl⟩
      rw [parseResources, if_neg]
      simp
  | cons c rs ih =>
      obtain ⟨⟨hkind, hname⟩, hresource⟩ := List.forall_mem_cons.mp hresource
      obtain ⟨hfit, hfits⟩ := List.forall_mem_cons.mp hfits
      obtain ⟨hfresh, hnew⟩ := List.forall_mem_cons.mp hnew
      obtain ⟨hdiffer, hdistinct⟩ := List.pairwise_cons.mp hdistinct
      have hlt : c.field.length < 2 ^ 32 := by
        unfold Content.Fits at hfit
        omega
      obtain ⟨hread, hcontent⟩ :=
        @parseResource_append pre (rs.flatMap Content.bytes) c hkind hname hlt
      have hdata : pre ++ (c.bytes ++ rs.flatMap Content.bytes)
          = (pre ++ c.bytes) ++ rs.flatMap Content.bytes := (List.append_assoc ..).symm
      obtain ⟨parts, hparts, hcontents⟩ := @ih (pre ++ c.bytes) (lowercaseAscii c.name :: names)
        hresource hfits
        (fun d hd hmem => (List.mem_cons.mp hmem).elim (fun heq => hdiffer d hd heq.symm)
          (hnew d hd)) hdistinct
      rw [List.flatMap_cons]
      refine ⟨resourcePart c pre.length :: parts, ?_, ?_⟩
      · have hinside : pre.length < (pre ++ (c.bytes ++ rs.flatMap Content.bytes)).length := by
          rw [length_container]
          omega
        have hnext : pre.length + (resourcePart c pre.length).sectionSize
            = (pre ++ c.bytes).length := by
          rw [List.length_append, ← sectionSize32_of_fits hfit]
          rfl
        rw [parseResources, if_pos hinside]
        split
        · next message hbad =>
          rw [hread] at hbad
          cases hbad
        · next part hgood =>
          obtain rfl := Except.ok.inj (hread.symm.trans hgood)
          rw [if_neg (show lowercaseAscii (resourcePart c pre.length).name ∉ names from hfresh),
            hnext, hdata, show (resourcePart c pre.length).name = c.name from rfl, hparts]
          rfl
      · rw [List.map_cons, hcontent, hdata, hcontents]

/-- The three core sections of a container, and what follows them. -/
theorem Container.exists_core {appName : List UInt8} {cs : List Content}
    (h : Container appName cs) : ∃ d n p rs, cs = d :: n :: p :: rs
      ∧ (d.kind = .descriptor ∧ d.name = appName ++ ".hpapp".toUTF8.toList)
      ∧ (n.kind = .note ∧ n.name = appName ++ ".hpappnote".toUTF8.toList)
      ∧ (p.kind = .program ∧ p.name = appName ++ ".hpappprgm".toUTF8.toList) := by
  have hcore := h.core
  rcases cs with _ | ⟨d, _ | ⟨n, _ | ⟨p, rs⟩⟩⟩
  · exact absurd (congrArg List.length hcore) (by simp [coreParts])
  · exact absurd (congrArg List.length hcore) (by simp [coreParts])
  · exact absurd (congrArg List.length hcore) (by simp [coreParts])
  · simp only [List.take_succ_cons, List.take_zero, List.map_cons, List.map_nil, coreParts,
      List.cons.injEq, Prod.mk.injEq, and_true] at hcore
    exact ⟨d, n, p, rs, rfl, hcore⟩

/-- A container whose sections fit is parsed to its contents. -/
theorem parse_flatMap {appName : List UInt8} {cs : List Content} (h : Container appName cs)
    (hfits : ∀ c ∈ cs, c.Fits) :
    ∃ parts, parse (cs.flatMap Content.bytes) appName = .ok parts
      ∧ parts.map (Part.content (cs.flatMap Content.bytes)) = cs := by
  obtain ⟨d, n, p, rs, rfl, ⟨hdKind, hdName⟩, ⟨hnKind, hnName⟩, hpKind, hpName⟩ := h.exists_core
  obtain ⟨hd, hfits⟩ := List.forall_mem_cons.mp hfits
  obtain ⟨hn, hfits⟩ := List.forall_mem_cons.mp hfits
  obtain ⟨hp, hfits⟩ := List.forall_mem_cons.mp hfits
  have hlt : ∀ c : Content, c.Fits → c.field.length < 2 ^ 32 := by
    intro c hc
    unfold Content.Fits at hc
    omega
  obtain ⟨hdRead, hdContent⟩ := @parseCore_append []
    (n.bytes ++ (p.bytes ++ rs.flatMap Content.bytes)) d (by rw [hdKind]; decide) (hlt d hd)
  obtain ⟨hnRead, hnContent⟩ := @parseCore_append d.bytes
    (p.bytes ++ rs.flatMap Content.bytes) n (by rw [hnKind]; decide) (hlt n hn)
  obtain ⟨hpRead, hpContent⟩ := @parseCore_append (d.bytes ++ n.bytes)
    (rs.flatMap Content.bytes) p (by rw [hpKind]; decide) (hlt p hp)
  obtain ⟨parts, hparts, hcontents⟩ := @parseResources_flatMap
    (d.bytes ++ n.bytes ++ p.bytes) rs [] h.resource hfits (by simp) h.distinct
  simp only [List.nil_append, List.append_assoc, List.length_append, List.length_nil, hdKind, hdName,
    hnKind, hnName, hpKind, hpName] at *
  have hdSize : (corePart d 0).sectionSize = d.bytes.length := sectionSize32_of_fits hd
  have hnSize : (corePart n d.bytes.length).sectionSize = n.bytes.length :=
    sectionSize32_of_fits hn
  have hpSize : (corePart p (d.bytes.length + n.bytes.length)).sectionSize = p.bytes.length :=
    sectionSize32_of_fits hp
  simp only [List.flatMap_cons]
  refine ⟨corePart d 0 :: corePart n d.bytes.length
    :: corePart p (d.bytes.length + n.bytes.length) :: parts, parse_eq hdRead ?_ ?_ ?_, ?_⟩
  · rw [hdSize]
    exact hnRead
  · rw [hdSize, hnSize]
    exact hpRead
  · rw [hdSize, hnSize, hpSize, Nat.add_assoc]
    exact hparts
  · simp only [List.map_cons, hdContent, hnContent, hpContent, hcontents]

/-! ## the contents of what is parsed -/

theorem parseCore_reads {data name : List UInt8} {kind : PartKind} {offset : Nat} {part : Part}
    (hkind : kind ≠ .resource) (h : parseCore data kind name offset = .ok part) :
    part.Reads data ∧ part.kind = kind ∧ part.name = name := by
  unfold parseCore at h
  cases hread : readU32be data offset with
  | none =>
      rw [hread] at h
      cases h
  | some fieldSize =>
      rw [hread] at h
      dsimp only at h
      split at h
      · cases h
      · next hfits =>
        cases h
        have hbound := (readU32be_some hread).1
        have hlength : (slice data (offset + 4, fieldSize)).length = fieldSize :=
          length_slice (by omega)
        have hfield : ((⟨kind, name, offset, sectionSize32 fieldSize, offset + 4, fieldSize⟩
            : Part).content data).field = slice data (offset + 4, fieldSize) :=
          Content.field_of_core hkind
        refine ⟨⟨?_, ?_, ?_, ?_⟩, rfl, rfl⟩
        · rw [hfield, hlength]
          exact hread
        · rw [Content.bytes, hfield, hlength]
          exact slice_of_readU32be hread
        · rw [hfield, hlength]
        · rw [hfield, hlength]
          dsimp only
          omega

theorem parseResource_reads {data : List UInt8} {offset : Nat} {part : Part}
    (h : parseResource data offset = .ok part) :
    part.Reads data ∧ part.kind = .resource ∧ validResourceName part.name = .ok () := by
  unfold parseResource at h
  cases hread : readU32be data offset with
  | none =>
      rw [hread] at h
      cases h
  | some fieldSize =>
      rw [hread] at h
      dsimp only at h
      split at h
      · cases h
      · next hfits =>
        have hbound := (readU32be_some hread).1
        have hlength : (slice data (offset + 4, fieldSize)).length = fieldSize :=
          length_slice (by omega)
        split at h
        · cases h
        · cases h
        · next terminator hne hterminator =>
          split at h
          · cases h
          · next name hdecode =>
            split at h
            · cases h
            · next hvalid =>
              cases h
              have hlt := findTerminator_lt hterminator
              have hname : nameBytes name = (slice data (offset + 4, fieldSize)).take terminator := by
                rw [nameBytes, decodeUtf16le_iff_encodeUtf16le.mp hdecode, Option.getD_some]
              have hpayload : slice data (offset + 4 + terminator + 2, fieldSize - terminator - 2)
                  = (slice data (offset + 4, fieldSize)).drop (terminator + 2) := by
                unfold slice
                rw [List.drop_take, List.drop_drop, Nat.sub_sub, Nat.add_assoc, Nat.add_assoc]
              have hfield : ((⟨.resource, name, offset, sectionSize32 fieldSize,
                  offset + 4 + terminator + 2, fieldSize - terminator - 2⟩ : Part).content data).field
                    = slice data (offset + 4, fieldSize) := by
                rw [Content.field_of_resource rfl, eq_of_findTerminator hterminator, ← hname, ← hpayload]
                rfl
              refine ⟨⟨?_, ?_, ?_, ?_⟩, rfl, hvalid⟩
              · rw [hfield, hlength]
                exact hread
              · rw [Content.bytes, hfield, hlength]
                exact slice_of_readU32be hread
              · rw [hfield, hlength]
              · rw [hfield, hlength]
                dsimp only
                omega

theorem parseResources_reads {data : List UInt8} {offset : Nat} {names : List (List UInt8)}
    {parts : List Part} (h : parseResources data offset names = .ok parts) :
    ∀ part ∈ parts, part.Reads data ∧ part.kind = .resource
      ∧ validResourceName part.name = .ok () := by
  fun_induction parseResources data offset names generalizing parts with
  | case1 => cases h
  | case2 => cases h
  | case3 offset names hlt part hread hnew ih =>
      obtain ⟨rest, hrest, rfl⟩ := map_eq_ok_iff.mp h
      exact List.forall_mem_cons.mpr ⟨parseResource_reads hread, ih hrest⟩
  | case4 =>
      cases h
      exact fun _ hmem => absurd hmem List.not_mem_nil

/-- What is parsed has the bytes of its contents, whatever the sizes wrap to. -/
theorem parse_reads {data appName : List UInt8} {parts : List Part}
    (h : parse data appName = .ok parts) :
    (∀ part ∈ parts, part.Reads data) ∧ Container appName (parts.map (Part.content data)) := by
  have hdiffer := (parse_ok h).2.2
  unfold parse at h
  obtain ⟨d, hd, h⟩ := bind_eq_ok_iff.mp h
  obtain ⟨n, hn, h⟩ := bind_eq_ok_iff.mp h
  obtain ⟨p, hp, h⟩ := bind_eq_ok_iff.mp h
  obtain ⟨rs, hrs, h⟩ := bind_eq_ok_iff.mp h
  cases h
  obtain ⟨hdReads, hdKind, hdName⟩ := parseCore_reads (by decide) hd
  obtain ⟨hnReads, hnKind, hnName⟩ := parseCore_reads (by decide) hn
  obtain ⟨hpReads, hpKind, hpName⟩ := parseCore_reads (by decide) hp
  have hall := parseResources_reads hrs
  refine ⟨?_, ?_, ?_, ?_⟩
  · simp only [List.forall_mem_cons]
    exact ⟨hdReads, hnReads, hpReads, fun r hr => (hall r hr).1⟩
  · simp only [List.map_cons, List.take_succ_cons, List.take_zero, List.map_nil, Part.content,
      hdKind, hdName, hnKind, hnName, hpKind, hpName, coreParts]
  · intro c hc
    obtain ⟨r, hr, rfl⟩ := List.mem_map.mp hc
    exact (hall r hr).2
  · refine List.pairwise_map.mpr ?_
    have hresources := (List.pairwise_cons.mp (List.pairwise_cons.mp
      (List.pairwise_cons.mp hdiffer).2).2).2
    refine hresources.imp_of_mem fun {r r'} hr hr' hne => ?_
    exact hne (hall r hr).2.1 (hall r' hr').2.1

/-- The sections of a container whose sizes fit are the bytes of its contents. -/
theorem Part.Reads.slice_section {data : List UInt8} {part : Part} (h : part.Reads data)
    (hfits : (part.content data).Fits) : slice data part.section = (part.content data).bytes := by
  rw [← h.bytes, Part.section, h.size, sectionSize32_eq hfits]

/-- When the sizes of a container fit, those of its parts do. -/
theorem fits_of_sectionsFit {data appName : List UInt8} {parts : List Part}
    (h : parse data appName = .ok parts) (hfit : SectionsFit data) :
    ∀ part ∈ parts, (part.content data).Fits := by
  obtain ⟨hfrom, htiles, -⟩ := parse_ok h
  intro part hpart
  have hreads := (parse_reads h).1 part hpart
  exact hfit _ _ (reached_of_tiles hfit hfrom htiles .start part hpart) hreads.length hreads.fits

/-- The bytes of a container are parsed to its contents exactly when all sizes fit. -/
theorem parse_flatMap_iff {appName : List UInt8} {cs : List Content} (h : Container appName cs) :
    (∃ parts, parse (cs.flatMap Content.bytes) appName = .ok parts
      ∧ parts.map (Part.content (cs.flatMap Content.bytes)) = cs) ↔ ∀ c ∈ cs, c.Fits := by
  refine ⟨fun ⟨parts, hparse, hcontents⟩ => ?_, parse_flatMap h⟩
  have hreads := (parse_reads hparse).1
  have hsum := (parse_ok hparse).2.1.sum_eq
  -- the sizes add up to the length, so that no size is less than that of its section
  have hlength : (cs.flatMap Content.bytes).length
      = (parts.map fun part => 4 + (part.content (cs.flatMap Content.bytes)).field.length).sum := by
    conv_lhs => rw [← hcontents]
    rw [List.length_flatMap, List.map_map]
    simp only [Function.comp_def, Content.length_bytes]
  rw [Nat.zero_add, hlength] at hsum
  have hle : ∀ part ∈ parts, part.section.2
      ≤ 4 + (part.content (cs.flatMap Content.bytes)).field.length := by
    intro part hpart
    rw [Part.section, (hreads part hpart).size]
    exact sectionSize32_le _
  intro c hc
  rw [← hcontents] at hc
  obtain ⟨part, hpart, rfl⟩ := List.mem_map.mp hc
  by_contra hbig
  have hless := List.sum_lt_sum _ _ hle ⟨part, hpart, ?_⟩
  · omega
  · rw [Part.section, (hreads part hpart).size]
    unfold Content.Fits at hbig
    unfold sectionSize32
    omega

end Tilibs.Webtilp.HpPrimeApp
