import Mathlib
import Tilibs.Files.Flash8x
import Tilibs.Files.Regular9xRoundTrip
import Tilibs.Lib.Fallible

/-!
# Tilibs.Files.Flash8xChain

What the file of a chain of flash contents is.  A content without Intel-HEX text is appended to
the file.  One with such a text leaves the position near the start of the file, so that it must
be the last one; and what it writes depends on the flag of the page that was written last in the
process.
-/

namespace Tilibs.Files

open Lib Conv

/-! ## a content on its own -/

/-- The data of a content. -/
def flashData (oldFlag : UInt8) (c : FlashContent) : List UInt8 :=
  if isHexContent c then flashText oldFlag c else c.dataPart.take c.dataLength.toNat

/-- The static flag after a content. -/
def flagAfter (oldFlag : UInt8) (c : FlashContent) : UInt8 :=
  if isHexContent c then lastFlag oldFlag (flashPages c) else oldFlag

/-- A content: its header, the number of its data bytes, and these bytes. -/
def flashImage (conv : Converters) (oldFlag : UInt8) (c : FlashContent) :
    Except TifilesErr (List UInt8) :=
  (flashHeader conv c).map fun header =>
    header ++ (fwriteLong (flashData oldFlag c).length ++ flashData oldFlag c)

/-- The contents of a chain, one after the other. -/
def flashImages (conv : Converters) (oldFlag : UInt8) :
    List FlashContent → Except TifilesErr (List UInt8)
  | [] => .ok []
  | c :: cs => do
      let image ← flashImage conv oldFlag c
      let images ← flashImages conv (flagAfter oldFlag c) cs
      return image ++ images

theorem flashImages_cons_iff {conv : Converters} {oldFlag : UInt8} {c : FlashContent}
    {cs : List FlashContent} {bytes : List UInt8} :
    flashImages conv oldFlag (c :: cs) = .ok bytes
      ↔ ∃ image images, flashImage conv oldFlag c = .ok image
        ∧ flashImages conv (flagAfter oldFlag c) cs = .ok images ∧ bytes = image ++ images := by
  show (flashImage conv oldFlag c >>= fun image => flashImages conv (flagAfter oldFlag c) cs
    >>= fun images => pure (image ++ images)) = _ ↔ _
  rw [bind_eq_ok_iff]
  constructor
  · rintro ⟨image, himage, hrest⟩
    obtain ⟨images, himages, heq⟩ := bind_eq_ok_iff.mp hrest
    cases heq
    exact ⟨image, images, himage, himages, rfl⟩
  · rintro ⟨image, images, himage, himages, rfl⟩
    exact ⟨image, himage, bind_eq_ok_iff.mpr ⟨images, himages, rfl⟩⟩

/-- Every number of data bytes is one of 32 bits. -/
def DataFits (oldFlag : UInt8) : List FlashContent → Prop
  | [] => True
  | c :: cs => (flashData oldFlag c).length < 2 ^ 32 ∧ DataFits (flagAfter oldFlag c) cs

/-- The file is the concatenation of the contents, each with its own length. -/
def ChainSerialised (conv : Converters) (oldFlag : UInt8) (chain : List FlashContent)
    (bytes : List UInt8) : Prop :=
  flashImages conv oldFlag chain = .ok bytes ∧ DataFits oldFlag chain

/-- A content of one of the known types, whose data, where it is not text, has the length that
it says. -/
structure FlashContent.Known (c : FlashContent) : Prop where
  kind : isCert c = true ∨ isOsOrApp c = true
  sized : isHexContent c = false → c.dataPart.length = c.dataLength.toNat

theorem flashHeader_facts {conv : Converters} {c : FlashContent} {header : List UInt8}
    (h : flashHeader conv c = .ok header) :
    header.length = 74 ∧ ∃ rest, header = ascii "**TIFL**" ++ rest := by
  unfold flashHeader fwriteNChars at h
  split at h
  · cases h
  · rename_i hlen
    cases h
    have hname := length_padRight (c := 0) (Nat.not_lt.mp hlen)
    have hmagic : (ascii "**TIFL**").length = 8 := by decide
    constructor
    · simp only [List.length_append, hname, hmagic, length_fwriteWord, length_fwriteByte,
        List.length_cons, List.length_nil, List.length_replicate]
    · simp only [List.append_assoc]
      exact ⟨_, rfl⟩

theorem not_isCert_of_hex {c : FlashContent} (h : isHexContent c = true) : isCert c = false := by
  unfold isHexContent isOsOrApp at h
  unfold isCert
  rw [Bool.and_eq_true, Bool.or_eq_true, decide_eq_true_eq, decide_eq_true_eq] at h
  rcases h.1 with htype | htype <;> rw [htype] <;> decide

/-! ## one content -/

theorem exec_fwriteBytes (data : List UInt8) (s : FlashOut) :
    Proc.exec (fwriteBytes data) s = (.ok (), { s with file := s.file.write data }) := rfl

/-- Without its name there is no header, and no content. -/
theorem exec_writeFlashContent_error {conv : Converters} {c : FlashContent} {e : TifilesErr}
    (h : flashHeader conv c = .error e) (s : FlashOut) :
    Proc.exec (writeFlashContent conv c) s = (.error e, s) := by
  unfold writeFlashContent
  rw [Proc.exec_bind, Proc.exec_ofExcept, h]

/-- A content without text is three writes. -/
theorem exec_writeFlashContent_plain {conv : Converters} {c : FlashContent} {header : List UInt8}
    (hheader : flashHeader conv c = .ok header) (hknown : c.Known)
    (hplain : isHexContent c = false) (s : FlashOut) :
    Proc.exec (writeFlashContent conv c) s = (.ok (), { s with
      file := ((s.file.write header).write (fwriteLong c.dataLength.toNat)).write
        (c.dataPart.take c.dataLength.toNat) }) := by
  unfold writeFlashContent
  rw [hheader, Proc.exec_bind_ok (Proc.exec_ofExcept _ s),
    Proc.exec_bind_ok (exec_fwriteBytes _ _), Proc.exec_bind_ok (exec_fwriteBytes _ _)]
  by_cases hcert : isCert c = true
  · rw [if_pos hcert]
    rfl
  · have happ : isOsOrApp c = true := hknown.kind.resolve_left hcert
    rw [if_neg hcert, if_neg (by rw [hplain]; decide), if_pos happ]
    rfl

/-- The state when the text of a content was written. -/
def FlashOut.withText (s : FlashOut) (header : List UInt8) (c : FlashContent) : FlashOut where
  file := ((s.file.write header).write (fwriteLong c.dataLength.toNat)).write
    (flashText s.oldFlag c)
  bytesWritten := s.bytesWritten + (flashText s.oldFlag c).length
  oldFlag := lastFlag s.oldFlag (flashPages c)

/-- A content with text is written and its length patched. -/
theorem exec_writeFlashContent_hex {conv : Converters} {c : FlashContent} {header : List UInt8}
    (hheader : flashHeader conv c = .ok header) (hhex : isHexContent c = true) (s : FlashOut) :
    Proc.exec (writeFlashContent conv c) s = Proc.exec patchLength (s.withText header c) := by
  unfold writeFlashContent
  rw [hheader, Proc.exec_bind_ok (Proc.exec_ofExcept _ s),
    Proc.exec_bind_ok (exec_fwriteBytes _ _), Proc.exec_bind_ok (exec_fwriteBytes _ _),
    if_neg (by rw [not_isCert_of_hex hhex]; decide), if_pos hhex]
  exact Proc.exec_bind_ok rfl

theorem exec_patchLength (s : FlashOut) :
    Proc.exec patchLength s
      = match s.file.seekCur (Int.bmod (-(s.bytesWritten : Int) - 4) (2 ^ 32)) with
        | none => (.error .fileIo, s)
        | some file =>
            (.ok (), { s with file := (file.write (fwriteLong s.bytesWritten)).seekSet 2 }) := by
  unfold patchLength
  rw [Proc.exec_bind_ok (Proc.exec_get s)]
  cases s.file.seekCur (Int.bmod (-(s.bytesWritten : Int) - 4) (2 ^ 32)) with
  | none => rfl
  | some file => rfl

/-! ## a second content behind a text -/

/-- The signature stands where the position was left: at 2, with the start of the file that was
there before. -/
structure Shifted (file : OutFile) : Prop where
  star : file.bytes[2]? = some 0x2A
  letter : file.bytes[7]? = some 0x4C
  pos : 10 ≤ file.pos

/-- Enough of it is left to tell the file from one that begins with a signature. -/
def ShiftedEnd (bytes : List UInt8) : Prop := bytes[2]? = some 0x2A ∨ bytes[7]? = some 0x4C

theorem lt_of_getElem?_eq_some {bytes : List UInt8} {i : Nat} {b : UInt8}
    (h : bytes[i]? = some b) : i < bytes.length := by
  by_contra hge
  rw [List.getElem?_eq_none (Nat.not_lt.mp hge)] at h
  cases h

theorem Shifted.write {file : OutFile} (h : Shifted file) (data : List UInt8) :
    Shifted (file.write data) where
  star := by
    have hpos := h.pos
    exact (getElem?_fwriteAt_before data (by omega) (lt_of_getElem?_eq_some h.star)).trans h.star
  letter := by
    have hpos := h.pos
    exact (getElem?_fwriteAt_before data (by omega)
      (lt_of_getElem?_eq_some h.letter)).trans h.letter
  pos := h.pos.trans (Nat.le_add_right _ _)

/-- A header at position 2. -/
theorem shifted_header {conv : Converters} {c : FlashContent} {header : List UInt8}
    (hheader : flashHeader conv c = .ok header) {file : OutFile} (hpos : file.pos = 2) :
    Shifted (file.write header) := by
  obtain ⟨hlen, rest, hrest⟩ := flashHeader_facts hheader
  have hmagic : ∀ i < 8, header[i]? = (ascii "**TIFL**")[i]? := by
    intro i hi
    rw [hrest, List.getElem?_append_left (by exact hi)]
  constructor
  · have hin := @getElem?_fwriteAt_in 2 0 header file.bytes (by omega)
    unfold OutFile.write
    rw [hpos]
    exact hin.trans (hmagic 0 (by decide))
  · have hin := @getElem?_fwriteAt_in 2 5 header file.bytes (by omega)
    unfold OutFile.write
    rw [hpos]
    exact hin.trans (hmagic 5 (by decide))
  · show 10 ≤ file.pos + header.length
    omega

/-- Four bytes more cannot hide both places. -/
theorem Shifted.patched {file : OutFile} (h : Shifted file) (pos n : Nat) :
    ShiftedEnd (fwriteAt pos (fwriteLong n) file.bytes) := by
  have hlen := length_fwriteLong n
  by_cases hpos : pos ≤ 2
  · right
    rw [getElem?_fwriteAt_behind file.bytes (by omega)]
    exact h.letter
  · left
    rw [getElem?_fwriteAt_before _ (by omega) (lt_of_getElem?_eq_some h.star)]
    exact h.star

/-- A content from there. -/
theorem shifted_writeFlashContent {conv : Converters} {c : FlashContent} {s t : FlashOut}
    (hknown : c.Known) (hs : Shifted s.file ∨ s.file.pos = 2)
    (h : Proc.exec (writeFlashContent conv c) s = (.ok (), t)) :
    Shifted t.file ∨ (t.file.pos = 2 ∧ ShiftedEnd t.file.bytes) := by
  cases hheader : flashHeader conv c with
  | error e =>
      rw [exec_writeFlashContent_error hheader] at h
      cases h
  | ok header =>
      have hfirst : Shifted (s.file.write header) :=
        hs.elim (fun hshifted => hshifted.write header) (shifted_header hheader)
      cases hhex : isHexContent c with
      | false =>
          rw [exec_writeFlashContent_plain hheader hknown hhex] at h
          cases h
          exact .inl ((hfirst.write _).write _)
      | true =>
          rw [exec_writeFlashContent_hex hheader hhex, exec_patchLength] at h
          have htext : Shifted (s.withText header c).file := (hfirst.write _).write _
          split at h
          · cases h
          · rename_i file hfile
            cases h
            have hbytes : file.bytes = (s.withText header c).file.bytes := by
              unfold OutFile.seekCur at hfile
              split at hfile
              · cases hfile
              · cases hfile
                rfl
            have hpatched := htext.patched file.pos (s.withText header c).bytesWritten
            rw [← hbytes] at hpatched
            exact .inr ⟨rfl, hpatched⟩

/-- All that follows. -/
theorem shifted_writeFlashChain {conv : Converters} {cs : List FlashContent} {s t : FlashOut}
    (hknown : ∀ c ∈ cs, c.Known)
    (hs : Shifted s.file ∨ (s.file.pos = 2 ∧ (cs = [] → ShiftedEnd s.file.bytes)))
    (h : Proc.exec (writeFlashChain conv cs) s = (.ok (), t)) : ShiftedEnd t.file.bytes := by
  induction cs generalizing s with
  | nil =>
      cases h
      exact hs.elim (fun hshifted => .inl hshifted.star) fun hpos => hpos.2 rfl
  | cons c cs ih =>
      rw [writeFlashChain, Proc.exec_bind] at h
      cases hfirst : Proc.exec (writeFlashContent conv c) s with
      | mk result mid =>
          rw [hfirst] at h
          cases result with
          | error e => cases h
          | ok u =>
              have hmid := shifted_writeFlashContent (hknown c List.mem_cons_self)
                (hs.imp_right And.left) hfirst
              refine ih (fun c' hc => hknown c' (List.mem_cons_of_mem _ hc)) ?_ h
              exact hmid.imp_right fun hpos => ⟨hpos.1, fun _ => hpos.2⟩

/-- A content with text leaves the position at 2. -/
theorem pos_writeFlashContent_hex {conv : Converters} {c : FlashContent} {s t : FlashOut}
    (hhex : isHexContent c = true) (h : Proc.exec (writeFlashContent conv c) s = (.ok (), t)) :
    t.file.pos = 2 := by
  cases hheader : flashHeader conv c with
  | error e =>
      rw [exec_writeFlashContent_error hheader] at h
      cases h
  | ok header =>
      rw [exec_writeFlashContent_hex hheader hhex, exec_patchLength] at h
      split at h
      · cases h
      · cases h
        rfl

/-- A content with text before the last content spoils the start of the file. -/
theorem shifted_of_hex_before {conv : Converters} {chain : List FlashContent} {s t : FlashOut}
    (hknown : ∀ c ∈ chain, c.Known) (hhex : ∃ c ∈ chain.dropLast, isHexContent c = true)
    (h : Proc.exec (writeFlashChain conv chain) s = (.ok (), t)) : ShiftedEnd t.file.bytes := by
  induction chain generalizing s with
  | nil =>
      obtain ⟨c, hc, -⟩ := hhex
      cases hc
  | cons c cs ih =>
      have hcs : cs ≠ [] := by
        rintro rfl
        obtain ⟨c', hc, -⟩ := hhex
        cases hc
      rw [List.dropLast_cons_of_ne_nil hcs] at hhex
      have hknown' : ∀ c' ∈ cs, c'.Known := fun c' hc => hknown c' (List.mem_cons_of_mem _ hc)
      rw [writeFlashChain, Proc.exec_bind] at h
      cases hfirst : Proc.exec (writeFlashContent conv c) s with
      | mk result mid =>
          rw [hfirst] at h
          cases result with
          | error e => cases h
          | ok u =>
              cases hc : isHexContent c with
              | true =>
                  exact shifted_writeFlashChain hknown'
                    (.inr ⟨pos_writeFlashContent_hex hc hfirst, fun hnil => absurd hnil hcs⟩) h
              | false =>
                  refine ih hknown' ?_ h
                  obtain ⟨c', hmem, hc'⟩ := hhex
                  rcases List.mem_cons.mp hmem with rfl | hmem
                  · rw [hc] at hc'
                    cases hc'
                  · exact ⟨c', hmem, hc'⟩

/-- The concatenation of the contents does not look like that. -/
theorem not_shiftedEnd_flashImages {conv : Converters} {oldFlag : UInt8} {c : FlashContent}
    {cs : List FlashContent} {bytes : List UInt8}
    (h : flashImages conv oldFlag (c :: cs) = .ok bytes) : ¬ShiftedEnd bytes := by
  obtain ⟨image, images, himage, -, rfl⟩ := flashImages_cons_iff.mp h
  unfold flashImage at himage
  rw [map_eq_ok_iff] at himage
  obtain ⟨header, hheader, rfl⟩ := himage
  obtain ⟨hlen, rest, rfl⟩ := flashHeader_facts hheader
  have hstart : ∀ i < 8, ∀ tail : List UInt8,
      (ascii "**TIFL**" ++ tail)[i]? = (ascii "**TIFL**")[i]? := fun i hi tail =>
    List.getElem?_append_left hi
  simp only [List.append_assoc]
  rintro (hstar | hletter)
  · rw [hstart 2 (by decide)] at hstar
    exact absurd hstar (by decide)
  · rw [hstart 7 (by decide)] at hletter
    exact absurd hletter (by decide)

/-! ## a chain with at most one text -/

theorem writeFlashChain_append (conv : Converters) (xs ys : List FlashContent) (s : FlashOut) :
    Proc.exec (writeFlashChain conv (xs ++ ys)) s
      = Proc.exec (writeFlashChain conv xs >>= fun _ => writeFlashChain conv ys) s := by
  induction xs generalizing s with
  | nil => rfl
  | cons x xs ih =>
      rw [List.cons_append, writeFlashChain, writeFlashChain, bind_assoc, Proc.exec_bind,
        Proc.exec_bind]
      rcases Proc.exec (writeFlashContent conv x) s with ⟨_ | _, t⟩
      · rfl
      · exact ih t

theorem length_flashData_plain {c : FlashContent} (hknown : c.Known)
    (hplain : isHexContent c = false) (oldFlag : UInt8) :
    flashData oldFlag c = c.dataPart.take c.dataLength.toNat
      ∧ (flashData oldFlag c).length = c.dataLength.toNat := by
  have hdata : flashData oldFlag c = c.dataPart.take c.dataLength.toNat := by
    unfold flashData
    rw [hplain, if_neg (by decide)]
  refine ⟨hdata, ?_⟩
  rw [hdata, List.length_take, hknown.sized hplain, Nat.min_self]

/-- A file that is at its end with more bytes. -/
def FlashOut.append (s : FlashOut) (data : List UInt8) : FlashOut :=
  { s with file := ⟨s.file.bytes ++ data, s.file.pos + data.length⟩ }

/-- The file is at its end. -/
def FlashOut.AtEnd (s : FlashOut) : Prop := s.file.pos = s.file.bytes.length

theorem FlashOut.AtEnd.append {s : FlashOut} (h : s.AtEnd) (data : List UInt8) :
    (s.append data).AtEnd := by
  unfold FlashOut.AtEnd FlashOut.append at *
  rw [List.length_append, h]

theorem FlashOut.append_append (s : FlashOut) (xs ys : List UInt8) :
    (s.append xs).append ys = s.append (xs ++ ys) := by
  simp [FlashOut.append, Nat.add_assoc]

theorem FlashOut.AtEnd.write {s : FlashOut} (h : s.AtEnd) (data : List UInt8) :
    s.file.write data = (s.append data).file := OutFile.write_end h data

/-- A content without text is appended. -/
theorem writeFlashContent_image {conv : Converters} {c : FlashContent} {image : List UInt8}
    {s : FlashOut} (hs : s.AtEnd) (hknown : c.Known) (hplain : isHexContent c = false)
    (himage : flashImage conv s.oldFlag c = .ok image) :
    Proc.exec (writeFlashContent conv c) s = (.ok (), s.append image) := by
  unfold flashImage at himage
  rw [map_eq_ok_iff] at himage
  obtain ⟨header, hheader, rfl⟩ := himage
  obtain ⟨hdata, hlen⟩ := length_flashData_plain hknown hplain s.oldFlag
  rw [exec_writeFlashContent_plain hheader hknown hplain, hlen, hdata, hs.write,
    (hs.append header).write, ((hs.append header).append _).write, FlashOut.append_append,
    FlashOut.append_append]
  rfl

/-- So are any number of them. -/
theorem writeFlashChain_images {conv : Converters} {cs : List FlashContent}
    {images : List UInt8} {s : FlashOut} (hs : s.AtEnd) (hknown : ∀ c ∈ cs, c.Known)
    (hplain : ∀ c ∈ cs, isHexContent c = false)
    (himages : flashImages conv s.oldFlag cs = .ok images) :
    Proc.exec (writeFlashChain conv cs) s = (.ok (), s.append images) := by
  induction cs generalizing s images with
  | nil =>
      cases himages
      unfold FlashOut.append
      rw [List.append_nil]
      rfl
  | cons c cs ih =>
      have hc := hplain c List.mem_cons_self
      obtain ⟨image, rest, himage, hrest, rfl⟩ := flashImages_cons_iff.mp himages
      have hflag : flagAfter s.oldFlag c = s.oldFlag := by
        unfold flagAfter
        rw [hc, if_neg (by decide)]
      rw [hflag] at hrest
      rw [writeFlashChain, Proc.exec_bind_ok
        (writeFlashContent_image hs (hknown c List.mem_cons_self) hc himage)]
      rw [ih (hs.append image) (fun c' hc => hknown c' (List.mem_cons_of_mem _ hc))
        (fun c' hc => hplain c' (List.mem_cons_of_mem _ hc)) hrest, FlashOut.append_append]

/-- Where a content has no header, the chain is not written. -/
theorem flashImages_ok_of_exec {conv : Converters} {cs : List FlashContent} {s t : FlashOut}
    (hs : s.AtEnd) (hknown : ∀ c ∈ cs, c.Known) (hplain : ∀ c ∈ cs, isHexContent c = false)
    (h : Proc.exec (writeFlashChain conv cs) s = (.ok (), t)) :
    ∃ images, flashImages conv s.oldFlag cs = .ok images := by
  induction cs generalizing s with
  | nil => exact ⟨[], rfl⟩
  | cons c cs ih =>
      have hc := hplain c List.mem_cons_self
      rw [writeFlashChain] at h
      cases hheader : flashHeader conv c with
      | error e =>
          rw [Proc.exec_bind_error (exec_writeFlashContent_error hheader s)] at h
          cases h
      | ok header =>
          have himage : flashImage conv s.oldFlag c = .ok (header
              ++ (fwriteLong (flashData s.oldFlag c).length ++ flashData s.oldFlag c)) := by
            unfold flashImage
            rw [hheader]
            rfl
          rw [Proc.exec_bind_ok (writeFlashContent_image hs (hknown c List.mem_cons_self) hc
            himage)] at h
          obtain ⟨images, himages⟩ := ih (hs.append _)
            (fun c' hc => hknown c' (List.mem_cons_of_mem _ hc))
            (fun c' hc => hplain c' (List.mem_cons_of_mem _ hc)) h
          have hflag : flagAfter s.oldFlag c = s.oldFlag := by
            unfold flagAfter
            rw [hc, if_neg (by decide)]
          have himages' : flashImages conv (flagAfter s.oldFlag c) cs = .ok images := by
            rw [hflag]
            exact himages
          exact ⟨_, flashImages_cons_iff.mpr ⟨_, _, himage, himages', rfl⟩⟩

/-! ## the length of the text -/

/-- The patch of the only text of a chain.  The position is computed as an `int`. -/
theorem writeFlashContent_text {conv : Converters} {c : FlashContent} {header : List UInt8}
    {s : FlashOut} (hs : s.AtEnd) (hfirst : s.bytesWritten = 0) (hhex : isHexContent c = true)
    (hheader : flashHeader conv c = .ok header)
    (hfit : (flashText s.oldFlag c).length + 4 ≤ 2 ^ 31) :
    ∃ t, Proc.exec (writeFlashContent conv c) s = (.ok (), t)
      ∧ t.file.bytes = s.file.bytes ++ (header ++ (fwriteLong (flashText s.oldFlag c).length
        ++ flashText s.oldFlag c)) := by
  have hlong := length_fwriteLong c.dataLength.toNat
  obtain ⟨hlen, -⟩ := flashHeader_facts hheader
  have hfile : (s.withText header c).file = (s.append (header
      ++ (fwriteLong c.dataLength.toNat ++ flashText s.oldFlag c))).file := by
    show ((s.file.write header).write _).write _ = _
    rw [hs.write, (hs.append header).write, ((hs.append header).append _).write,
      FlashOut.append_append, FlashOut.append_append]
  have hcount : (s.withText header c).bytesWritten = (flashText s.oldFlag c).length := by
    show s.bytesWritten + _ = _
    rw [hfirst, Nat.zero_add]
  generalize htext : flashText s.oldFlag c = text at *
  have hoffset : Int.bmod (-(text.length : Int) - 4) (2 ^ 32) = -(text.length : Int) - 4 :=
    Int.bmod_eq_of_le (by omega) (by omega)
  have hpos : (s.append (header ++ (fwriteLong c.dataLength.toNat ++ text))).file.pos
      = s.file.bytes.length + 74 + 4 + text.length := by
    show s.file.pos + (header ++ (fwriteLong c.dataLength.toNat ++ text)).length = _
    rw [hs, List.length_append, List.length_append, hlen, hlong]
    omega
  have hseek : (s.withText header c).file.seekCur
      (Int.bmod (-((s.withText header c).bytesWritten : Int) - 4) (2 ^ 32))
        = some ⟨s.file.bytes ++ (header ++ (fwriteLong c.dataLength.toNat ++ text)),
          s.file.bytes.length + 74⟩ := by
    rw [hcount, hoffset, hfile]
    unfold OutFile.seekCur
    rw [hpos, if_neg (by omega)]
    congr 2
    omega
  have hexec := exec_writeFlashContent_hex hheader hhex s
  rw [exec_patchLength, hseek] at hexec
  refine ⟨_, hexec, ?_⟩
  show fwriteAt (s.file.bytes.length + 74) (fwriteLong (s.withText header c).bytesWritten)
    (s.file.bytes ++ (header ++ (fwriteLong c.dataLength.toNat ++ text))) = _
  have hbefore : (s.file.bytes ++ header).length = s.file.bytes.length + 74 := by
    rw [List.length_append, hlen]
  have hthrough : (s.file.bytes ++ header ++ fwriteLong c.dataLength.toNat).length
      = s.file.bytes.length + 74 + (fwriteLong text.length).length := by
    rw [List.length_append, hbefore, hlong, length_fwriteLong]
  have hin : s.file.bytes.length + 74
      ≤ (s.file.bytes ++ (header ++ (fwriteLong c.dataLength.toNat ++ text))).length := by
    rw [← List.append_assoc, List.length_append, hbefore]
    exact Nat.le_add_right _ _
  rw [hcount, fwriteAt_of_le hin, ← List.append_assoc s.file.bytes, List.take_left' hbefore,
    ← List.append_assoc (s.file.bytes ++ header), List.drop_left' hthrough]
  simp only [List.append_assoc]

/-- The number of characters of a longer text is negative as an `int`, and the length is written
behind the end of the file. -/
theorem writeFlashContent_long {conv : Converters} {c : FlashContent} {image : List UInt8}
    {s t : FlashOut} (hs : s.AtEnd) (hfirst : s.bytesWritten = 0) (hhex : isHexContent c = true)
    (himage : flashImage conv s.oldFlag c = .ok image)
    (hlong : 2 ^ 31 < (flashText s.oldFlag c).length + 4)
    (hfit : (flashText s.oldFlag c).length < 2 ^ 32)
    (h : Proc.exec (writeFlashContent conv c) s = (.ok (), t)) :
    s.file.bytes.length + image.length < t.file.bytes.length := by
  unfold flashImage at himage
  rw [map_eq_ok_iff] at himage
  obtain ⟨header, hheader, rfl⟩ := himage
  have hdata : flashData s.oldFlag c = flashText s.oldFlag c := by
    unfold flashData
    rw [hhex, if_pos rfl]
  have hfour := length_fwriteLong c.dataLength.toNat
  have hfour' := length_fwriteLong (flashText s.oldFlag c).length
  have hfile : (s.withText header c).file = (s.append (header
      ++ (fwriteLong c.dataLength.toNat ++ flashText s.oldFlag c))).file := by
    show ((s.file.write header).write _).write _ = _
    rw [hs.write, (hs.append header).write, ((hs.append header).append _).write,
      FlashOut.append_append, FlashOut.append_append]
  have hcount : (s.withText header c).bytesWritten = (flashText s.oldFlag c).length := by
    show s.bytesWritten + _ = _
    rw [hfirst, Nat.zero_add]
  have hend := hs.append (header ++ (fwriteLong c.dataLength.toNat ++ flashText s.oldFlag c))
  have hlen : (s.append (header ++ (fwriteLong c.dataLength.toNat
      ++ flashText s.oldFlag c))).file.bytes.length = s.file.bytes.length
        + (header.length + (4 + (flashText s.oldFlag c).length)) := by
    show (s.file.bytes ++ _).length = _
    rw [List.length_append, List.length_append, List.length_append, hfour]
  unfold FlashOut.AtEnd at hend
  rw [hlen] at hend
  rw [hdata, List.length_append, List.length_append, hfour']
  generalize htext : (flashText s.oldFlag c).length = n at *
  have hoffset : Int.bmod (-(n : Int) - 4) (2 ^ 32) = 2 ^ 32 - (n : Int) - 4 := by
    rw [Int.bmod_eq_iff (by decide)]
    omega
  rw [exec_writeFlashContent_hex hheader hhex, exec_patchLength, hcount, hoffset, hfile] at h
  unfold OutFile.seekCur at h
  rw [hend, if_neg (by omega)] at h
  cases h
  show _ < (fwriteAt _ (fwriteLong n) _).length
  rw [length_fwriteAt (by
    intro hnil
    have hzero := congrArg List.length hnil
    rw [length_fwriteLong] at hzero
    cases hzero), length_fwriteLong]
  refine Nat.lt_of_lt_of_le ?_ (Nat.le_max_right _ _)
  show _ < Int.toNat _ + 4
  omega

/-- The images of a chain whose last content may be text. -/
theorem flashImages_concat {conv : Converters} {oldFlag : UInt8} {cs : List FlashContent}
    {c : FlashContent} (hplain : ∀ c' ∈ cs, isHexContent c' = false) (bytes : List UInt8) :
    flashImages conv oldFlag (cs ++ [c]) = .ok bytes
      ↔ ∃ images image, flashImages conv oldFlag cs = .ok images
        ∧ flashImage conv oldFlag c = .ok image ∧ bytes = images ++ image := by
  induction cs generalizing bytes with
  | nil =>
      rw [List.nil_append, flashImages_cons_iff]
      constructor
      · rintro ⟨image, images, himage, himages, rfl⟩
        cases himages
        exact ⟨[], image, rfl, himage, List.append_nil _⟩
      · rintro ⟨images, image, himages, himage, rfl⟩
        cases himages
        exact ⟨image, [], himage, rfl, (List.append_nil _).symm⟩
  | cons c' cs ih =>
      have hflag : flagAfter oldFlag c' = oldFlag := by
        unfold flagAfter
        rw [hplain c' List.mem_cons_self, if_neg (by decide)]
      have hrest := ih fun x hx => hplain x (List.mem_cons_of_mem _ hx)
      rw [List.cons_append, flashImages_cons_iff, hflag]
      constructor
      · rintro ⟨first, tail, hfirst, htail, rfl⟩
        obtain ⟨images, image, himages, himage, rfl⟩ := (hrest tail).mp htail
        rw [← hflag] at himages
        exact ⟨first ++ images, image, flashImages_cons_iff.mpr ⟨first, images, hfirst, himages, rfl⟩,
          himage, (List.append_assoc _ _ _).symm⟩
      · rintro ⟨all, image, hall, himage, rfl⟩
        obtain ⟨first, images, hfirst, himages, rfl⟩ := flashImages_cons_iff.mp hall
        rw [hflag] at himages
        exact ⟨first, images ++ image, hfirst, (hrest _).mpr ⟨images, image, himages, himage, rfl⟩,
          List.append_assoc _ _ _⟩

theorem dataFits_concat {oldFlag : UInt8} {cs : List FlashContent} {c : FlashContent}
    (hknown : ∀ c' ∈ cs, c'.Known) (hplain : ∀ c' ∈ cs, isHexContent c' = false) :
    DataFits oldFlag (cs ++ [c]) ↔ (flashData oldFlag c).length < 2 ^ 32 := by
  induction cs with
  | nil => exact and_iff_left trivial
  | cons c' cs ih =>
      have hflag : flagAfter oldFlag c' = oldFlag := by
        unfold flagAfter
        rw [hplain c' List.mem_cons_self, if_neg (by decide)]
      have hfirst := (length_flashData_plain (hknown c' List.mem_cons_self)
        (hplain c' List.mem_cons_self) oldFlag).2
      have hlt : (flashData oldFlag c').length < 2 ^ 32 := by
        rw [hfirst]
        exact c'.dataLength.toNat_lt
      rw [List.cons_append, DataFits, hflag, and_iff_right hlt]
      exact ih (fun x hx => hknown x (List.mem_cons_of_mem _ hx))
        fun x hx => hplain x (List.mem_cons_of_mem _ hx)

/-- The start of a file. -/
def FlashOut.start (oldFlag : UInt8) : FlashOut := ⟨⟨[], 0⟩, 0, oldFlag⟩

theorem ti8xFileWriteFlash_eq_ok {conv : Converters} {oldFlag : UInt8}
    {chain : List FlashContent} {bytes : List UInt8}
    (h : (ti8xFileWriteFlash conv oldFlag chain).1 = .ok bytes) :
    ∃ t, Proc.exec (writeFlashChain conv chain) (FlashOut.start oldFlag) = (.ok (), t)
      ∧ t.file.bytes = bytes := by
  unfold ti8xFileWriteFlash at h
  dsimp only at h
  rw [map_eq_ok_iff] at h
  obtain ⟨u, hexec, hbytes⟩ := h
  exact ⟨_, Prod.ext hexec rfl, hbytes⟩

/-- The contents before the last one, where they are not text, are appended. -/
theorem exec_writeFlashChain_concat {conv : Converters} {oldFlag : UInt8}
    {cs : List FlashContent} {c : FlashContent} {t : FlashOut} (hknown : ∀ c' ∈ cs, c'.Known)
    (hplain : ∀ c' ∈ cs, isHexContent c' = false)
    (h : Proc.exec (writeFlashChain conv (cs ++ [c])) (FlashOut.start oldFlag) = (.ok (), t)) :
    ∃ images header, flashImages conv oldFlag cs = .ok images ∧ flashHeader conv c = .ok header
      ∧ Proc.exec (writeFlashContent conv c) ((FlashOut.start oldFlag).append images)
        = (.ok (), t) := by
  have hstart : (FlashOut.start oldFlag).AtEnd := rfl
  rw [writeFlashChain_append, Proc.exec_bind] at h
  cases hfirst : Proc.exec (writeFlashChain conv cs) (FlashOut.start oldFlag) with
  | mk result mid =>
      rw [hfirst] at h
      cases result with
      | error e => cases h
      | ok u =>
          obtain ⟨images, himages⟩ := flashImages_ok_of_exec hstart hknown hplain hfirst
          have hrun := writeFlashChain_images hstart hknown hplain himages
          cases hfirst.symm.trans hrun
          dsimp only at h
          rw [writeFlashChain, Proc.exec_bind] at h
          cases hheader : flashHeader conv c with
          | error e =>
              rw [exec_writeFlashContent_error hheader] at h
              cases h
          | ok header =>
              refine ⟨images, header, himages, rfl, ?_⟩
              split at h
              · rename_i heq
                cases h
                exact heq
              · cases h

theorem flashImage_of_header {conv : Converters} {c : FlashContent} {header : List UInt8}
    (h : flashHeader conv c = .ok header) (oldFlag : UInt8) :
    flashImage conv oldFlag c = .ok (header
      ++ (fwriteLong (flashData oldFlag c).length ++ flashData oldFlag c)) := by
  unfold flashImage
  rw [h]
  rfl

/-- A chain of which only the last content may be text, of a length that the writer's `int` can
hold. -/
structure OneText (oldFlag : UInt8) (chain : List FlashContent) : Prop where
  plain : ∀ c ∈ chain.dropLast, isHexContent c = false
  fits : ∀ c ∈ chain.getLast?, isHexContent c = true →
    (flashText oldFlag c).length + 4 ≤ 2 ^ 31

/-- Such a chain becomes the concatenation of its contents. -/
theorem OneText.serialised {conv : Converters} {oldFlag : UInt8} {chain : List FlashContent}
    {bytes : List UInt8} (hknown : ∀ c ∈ chain, c.Known) (hone : OneText oldFlag chain)
    (hwrite : (ti8xFileWriteFlash conv oldFlag chain).1 = .ok bytes) :
    ChainSerialised conv oldFlag chain bytes := by
  obtain ⟨t, hexec, rfl⟩ := ti8xFileWriteFlash_eq_ok hwrite
  rcases List.eq_nil_or_concat chain with rfl | ⟨cs, c, hconcat⟩
  · cases hexec
    exact ⟨rfl, trivial⟩
  · rw [List.concat_eq_append] at hconcat
    subst hconcat
    have hcs : ∀ c' ∈ cs, c'.Known := fun c' hc => hknown c' (by simp [hc])
    have hc : c.Known := hknown c (by simp)
    have hplain := hone.plain
    have hfits := hone.fits c (by rw [List.getLast?_concat]; rfl)
    rw [List.dropLast_concat] at hplain
    obtain ⟨images, header, himages, hheader, hlast⟩ :=
      exec_writeFlashChain_concat hcs hplain hexec
    have hend : ((FlashOut.start oldFlag).append images).AtEnd :=
      FlashOut.AtEnd.append (show (FlashOut.start oldFlag).AtEnd from rfl) images
    have hbytes : ((FlashOut.start oldFlag).append images).file.bytes = images :=
      List.nil_append _
    have himage := flashImage_of_header hheader oldFlag
    unfold ChainSerialised
    rw [flashImages_concat hplain, dataFits_concat hcs hplain]
    cases hhex : isHexContent c with
    | false =>
        have hlen := (length_flashData_plain hc hhex oldFlag).2
        cases hlast.symm.trans (writeFlashContent_image hend hc hhex himage)
        refine ⟨⟨images, _, himages, himage, ?_⟩, ?_⟩
        · show ((FlashOut.start oldFlag).append images).file.bytes ++ _ = _
          rw [hbytes]
        · rw [hlen]
          exact c.dataLength.toNat_lt
    | true =>
        have hdata : flashData oldFlag c = flashText oldFlag c := by
          unfold flashData
          rw [hhex, if_pos rfl]
        obtain ⟨t', ht', hfile⟩ := writeFlashContent_text hend rfl hhex hheader (hfits hhex)
        cases hlast.symm.trans ht'
        refine ⟨⟨images, _, himages, himage, ?_⟩, ?_⟩
        · rw [hfile, hbytes, hdata]
          rfl
        · have hsmall := hfits hhex
          rw [hdata]
          omega

/-- No other chain does. -/
theorem ChainSerialised.oneText {conv : Converters} {oldFlag : UInt8} {chain : List FlashContent}
    {bytes : List UInt8} (hknown : ∀ c ∈ chain, c.Known)
    (hwrite : (ti8xFileWriteFlash conv oldFlag chain).1 = .ok bytes)
    (hserialised : ChainSerialised conv oldFlag chain bytes) : OneText oldFlag chain := by
  obtain ⟨t, hexec, rfl⟩ := ti8xFileWriteFlash_eq_ok hwrite
  have hplain : ∀ c ∈ chain.dropLast, isHexContent c = false := by
    by_contra hno
    simp only [not_forall, exists_prop, Bool.not_eq_false] at hno
    have hshifted := shifted_of_hex_before hknown hno hexec
    cases chain with
    | nil =>
        obtain ⟨c, hc, -⟩ := hno
        cases hc
    | cons c cs => exact not_shiftedEnd_flashImages hserialised.1 hshifted
  refine ⟨hplain, fun c hlast hhex => ?_⟩
  obtain ⟨cs, hconcat⟩ := List.getLast?_eq_some_iff.mp hlast
  subst hconcat
  rw [List.dropLast_concat] at hplain
  have hcs : ∀ c' ∈ cs, c'.Known := fun c' hc => hknown c' (by simp [hc])
  obtain ⟨images, header, himages, hheader, hcontent⟩ :=
    exec_writeFlashChain_concat hcs hplain hexec
  have hend : ((FlashOut.start oldFlag).append images).AtEnd :=
    FlashOut.AtEnd.append (show (FlashOut.start oldFlag).AtEnd from rfl) images
  have hbytes : ((FlashOut.start oldFlag).append images).file.bytes = images :=
    List.nil_append _
  have hdata : flashData oldFlag c = flashText oldFlag c := by
    unfold flashData
    rw [hhex, if_pos rfl]
  obtain ⟨hall, hfits⟩ := hserialised
  rw [flashImages_concat hplain] at hall
  rw [dataFits_concat hcs hplain, hdata] at hfits
  obtain ⟨images', image, himages', himage, hsame⟩ := hall
  cases himages.symm.trans himages'
  by_contra hlong
  have hlonger := writeFlashContent_long hend rfl hhex himage (Nat.not_le.mp hlong) hfits hcontent
  rw [hsame, hbytes, List.length_append] at hlonger
  exact absurd hlonger (Nat.lt_irrefl _)

/-- A chain of applications, operating systems, certificates and licences becomes the
concatenation of its contents exactly where no content but the last one is Intel-HEX text, and
the text of that one has a length that the writer's `int` can hold. -/
theorem ti8xFileWriteFlash_serialised_iff (conv : Converters) (oldFlag : UInt8)
    {chain : List FlashContent} {bytes : List UInt8} (hknown : ∀ c ∈ chain, c.Known)
    (hwrite : (ti8xFileWriteFlash conv oldFlag chain).1 = .ok bytes) :
    ChainSerialised conv oldFlag chain bytes ↔ OneText oldFlag chain := by
  constructor
  · intro hserialised
    exact hserialised.oneText hknown hwrite
  · intro hone
    exact hone.serialised hknown hwrite

/-- A content of the TI-83+ with its pages and its other data. -/
def sampleFlash (dataType : UInt8) (pages : List FlashPage) (data : List UInt8) : FlashContent where
  modelDst := .ti83p
  revisionMajor := 1
  revisionMinor := 0
  flags := 1
  objectType := 0x88
  revisionDay := 1
  revisionMonth := 1
  revisionYear := 0x2000
  name := VarName.ofChars (ascii "A")
  deviceType := 0x73
  dataType := dataType
  hwId := 0
  dataLength := UInt32.ofNat data.length
  dataPart := data
  numPages := UInt32.ofNat pages.length
  pages := some pages

/-- A licence, and an application of one page. -/
def sampleChain : List FlashContent :=
  [sampleFlash ti83pLicense [] [1, 2, 3, 4], sampleFlash ti83pAppl [shortPage 0 0x80] []]

/-- The file of a chain in a new process. -/
def flashFile (chain : List FlashContent) : List UInt8 :=
  ((ti8xFileWriteFlash serialConverters 0x80 chain).1.toOption).getD []

theorem known_sampleFlash {dataType : UInt8} (hkind : dataType = ti83pLicense ∨ dataType = ti83pAppl)
    (pages : List FlashPage) {data : List UInt8} (hlen : data.length < 2 ^ 32) :
    (sampleFlash dataType pages data).Known where
  kind := by
    rcases hkind with rfl | rfl
    · exact .inl rfl
    · exact .inr rfl
  sized := fun _ => by
    show data.length = (UInt32.ofNat data.length).toNat
    rw [UInt32.toNat_ofNat', Nat.mod_eq_of_lt hlen]

theorem ti8xFileWriteFlash_serialised_sample :
    ChainSerialised serialConverters 0x80 sampleChain (flashFile sampleChain) := by
  have hknown : ∀ c ∈ sampleChain, c.Known := by
    intro c hc
    rcases List.mem_pair.mp hc with rfl | rfl
    · exact known_sampleFlash (.inl rfl) _ (by decide)
    · exact known_sampleFlash (.inr rfl) _ (by decide)
  refine (ti8xFileWriteFlash_serialised_iff serialConverters 0x80 hknown
    (by decide +kernel)).mpr ⟨by decide +kernel, ?_⟩
  intro c hc _
  cases hc
  decide +kernel

/-- An application before a licence: the licence is written over its header. -/
theorem not_chainSerialised_reversed :
    (ti8xFileWriteFlash serialConverters 0x80 sampleChain.reverse).1
        = .ok (flashFile sampleChain.reverse)
      ∧ ¬ChainSerialised serialConverters 0x80 sampleChain.reverse
        (flashFile sampleChain.reverse) := by
  refine ⟨by decide +kernel, fun h => ?_⟩
  have hshifted : ShiftedEnd (flashFile sampleChain.reverse) := .inl (by decide +kernel)
  exact not_shiftedEnd_flashImages h.1 hshifted

end Tilibs.Files
