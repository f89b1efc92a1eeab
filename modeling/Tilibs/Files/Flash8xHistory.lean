import Mathlib
import Tilibs.Files.Flash8xChain

/-!
# Tilibs.Files.Flash8xHistory

The Intel-HEX writer keeps the flag of the last page in a static variable that nothing resets, so
that a file may depend on the files that the process has written before.  It does exactly where
the first page of the file begins otherwise.
-/

namespace Tilibs.Files

open Lib Conv

/-- The static flag after files were written, one after the other, in a new process. -/
def flagAfterFiles (conv : Converters) (files : List (List FlashContent)) : UInt8 :=
  files.foldl (fun oldFlag chain => (ti8xFileWriteFlash conv oldFlag chain).2) 0x80

/-- The first page that a chain writes. -/
def firstPage (chain : List FlashContent) : Option FlashPage :=
  ((chain.filter isHexContent).flatMap flashPages).head?.map Prod.fst

/-- The packets before the data of a page. -/
def pagePackets (oldFlag : UInt8) (p : FlashPage) : List UInt8 :=
  sectionPacket oldFlag p.flag ++ pagePacket oldFlag p

/-- A page begins alike after two flags: they are the same, or both are other than that of the
page, and for page 0 at address 0 of a section with flag 0 both are 0x80 or none. -/
def BeginsAlike (flag₁ flag₂ : UInt8) (p : FlashPage) : Prop :=
  flag₁ = flag₂ ∨ (flag₁ ≠ p.flag ∧ flag₂ ≠ p.flag
    ∧ (p.addr = 0 ∧ p.page = 0 ∧ p.flag = 0 → (flag₁ = 0x80 ↔ flag₂ = 0x80)))

theorem length_sectionPacket (oldFlag flag : UInt8) :
    (sectionPacket oldFlag flag).length = if oldFlag ≠ flag then 13 else 0 := by
  unfold sectionPacket
  split
  · rw [length_hexPacketWrite]
    rfl
  · rfl

theorem length_pagePacket (oldFlag : UInt8) (p : FlashPage) :
    (pagePacket oldFlag p).length
      = if p.addr = 0 ∧ p.page = 0 ∧ ¬(oldFlag = 0x80 ∧ p.flag = 0) then 0 else 17 := by
  unfold pagePacket
  split
  · rfl
  · rw [length_hexPacketWrite]
    rfl

theorem pagePackets_of_beginsAlike {flag₁ flag₂ : UInt8} {p : FlashPage}
    (h : BeginsAlike flag₁ flag₂ p) : pagePackets flag₁ p = pagePackets flag₂ p := by
  rcases h with rfl | ⟨h₁, h₂, hzero⟩
  · rfl
  · have hsame : (p.addr = 0 ∧ p.page = 0 ∧ ¬(flag₁ = 0x80 ∧ p.flag = 0))
        ↔ (p.addr = 0 ∧ p.page = 0 ∧ ¬(flag₂ = 0x80 ∧ p.flag = 0)) := by
      tauto
    unfold pagePackets sectionPacket pagePacket
    rw [if_pos h₁, if_pos h₂]
    simp only [hsame]

/-- Other packets are of another length. -/
theorem beginsAlike_of_length {flag₁ flag₂ : UInt8} {p : FlashPage}
    (h : (pagePackets flag₁ p).length = (pagePackets flag₂ p).length) :
    BeginsAlike flag₁ flag₂ p := by
  unfold pagePackets at h
  rw [List.length_append, List.length_append, length_sectionPacket, length_sectionPacket,
    length_pagePacket, length_pagePacket] at h
  unfold BeginsAlike
  by_cases h₁ : flag₁ = p.flag
  · by_cases h₂ : flag₂ = p.flag
    · exact .inl (h₁.trans h₂.symm)
    · rw [if_neg (not_not.mpr h₁), if_pos h₂] at h
      split_ifs at h <;> omega
  · by_cases h₂ : flag₂ = p.flag
    · rw [if_pos h₁, if_neg (not_not.mpr h₂)] at h
      split_ifs at h <;> omega
    · rw [if_pos h₁, if_pos h₂] at h
      refine .inr ⟨h₁, h₂, fun hzero => ?_⟩
      obtain ⟨haddr, hpage, hflag⟩ := hzero
      simp only [haddr, hpage, hflag, true_and, and_true] at h
      by_cases h80 : flag₁ = 0x80
      · by_cases h80' : flag₂ = 0x80
        · exact iff_of_true h80 h80'
        · rw [if_neg (not_not.mpr h80), if_pos h80'] at h
          omega
      · by_cases h80' : flag₂ = 0x80
        · rw [if_pos h80, if_neg (not_not.mpr h80')] at h
          omega
        · exact iff_of_false h80 h80'

theorem hexPagesWrite_cons (oldFlag : UInt8) (p : FlashPage × Nat) (ps : List (FlashPage × Nat)) :
    hexPagesWrite oldFlag (p :: ps) = pagePackets oldFlag p.1
      ++ (hexDataWrite p.1.addr (p.1.data.take p.1.size.toNat) p.2 ++ hexPagesWrite p.1.flag ps) := by
  simp [hexPagesWrite, hexBlockWrite, pagePackets]

/-! ## the same file -/

/-- The text of a content whose first page begins alike, and the flag after it. -/
theorem flashText_of_beginsAlike {flag₁ flag₂ : UInt8} {c : FlashContent}
    (h : ∀ p ∈ (flashPages c).head?, BeginsAlike flag₁ flag₂ p.1) :
    flashText flag₁ c = flashText flag₂ c
      ∧ (flashPages c ≠ [] → lastFlag flag₁ (flashPages c) = lastFlag flag₂ (flashPages c)) := by
  unfold flashText
  cases hpages : flashPages c with
  | nil => exact ⟨rfl, fun hne => absurd rfl hne⟩
  | cons p ps =>
      have hp := h p (by rw [hpages]; rfl)
      refine ⟨?_, fun _ => ?_⟩
      · rw [hexPagesWrite_cons, hexPagesWrite_cons, pagePackets_of_beginsAlike hp]
      · unfold lastFlag
        rw [List.getLast?_cons]
        rfl

/-- The patch does not look at the flag. -/
theorem exec_patchLength_flag (s : FlashOut) (flag : UInt8) :
    Proc.exec patchLength { s with oldFlag := flag }
        = ((Proc.exec patchLength s).1, { (Proc.exec patchLength s).2 with oldFlag := flag })
      ∧ (Proc.exec patchLength s).2.oldFlag = s.oldFlag := by
  rw [exec_patchLength, exec_patchLength]
  dsimp only
  cases s.file.seekCur (Int.bmod (-(s.bytesWritten : Int) - 4) (2 ^ 32)) with
  | none => exact ⟨rfl, rfl⟩
  | some file => exact ⟨rfl, rfl⟩

/-- A content whose first page begins alike is written alike. -/
theorem exec_writeFlashContent_flag {conv : Converters} {c : FlashContent} (s : FlashOut)
    (flag : UInt8) (h : isHexContent c = true →
      ∀ p ∈ (flashPages c).head?, BeginsAlike s.oldFlag flag p.1) :
    ∃ flag', Proc.exec (writeFlashContent conv c) { s with oldFlag := flag }
        = ((Proc.exec (writeFlashContent conv c) s).1,
          { (Proc.exec (writeFlashContent conv c) s).2 with oldFlag := flag' })
      ∧ ((Proc.exec (writeFlashContent conv c) s).1 = .ok () →
        (Proc.exec (writeFlashContent conv c) s).2.oldFlag = flagAfter s.oldFlag c
          ∧ flag' = flagAfter flag c) := by
  cases hheader : flashHeader conv c with
  | error e =>
      rw [exec_writeFlashContent_error hheader, exec_writeFlashContent_error hheader]
      exact ⟨flag, rfl, nofun⟩
  | ok header =>
      unfold flagAfter
      cases hhex : isHexContent c with
      | true =>
          obtain ⟨htext, -⟩ := flashText_of_beginsAlike (h hhex)
          have hwith : ({ s with oldFlag := flag } : FlashOut).withText header c
              = { s.withText header c with oldFlag := lastFlag flag (flashPages c) } := by
            unfold FlashOut.withText
            dsimp only
            rw [htext]
          obtain ⟨hpatch, hflag⟩ := exec_patchLength_flag (s.withText header c)
            (lastFlag flag (flashPages c))
          rw [exec_writeFlashContent_hex hheader hhex, exec_writeFlashContent_hex hheader hhex,
            hwith, hpatch]
          exact ⟨_, rfl, fun _ => ⟨hflag, rfl⟩⟩
      | false =>
          refine ⟨flag, ?_⟩
          unfold writeFlashContent
          rw [hheader, hhex, Proc.exec_bind_ok (Proc.exec_ofExcept _ _),
            Proc.exec_bind_ok (exec_fwriteBytes _ _), Proc.exec_bind_ok (exec_fwriteBytes _ _),
            Proc.exec_bind_ok (Proc.exec_ofExcept _ _), Proc.exec_bind_ok (exec_fwriteBytes _ _),
            Proc.exec_bind_ok (exec_fwriteBytes _ _)]
          simp only [Bool.false_eq_true, if_false]
          split
          · exact ⟨rfl, fun _ => ⟨rfl, trivial⟩⟩
          · split
            · exact ⟨rfl, fun _ => ⟨rfl, trivial⟩⟩
            · exact ⟨rfl, fun _ => ⟨rfl, trivial⟩⟩

theorem firstPage_cons_plain {c : FlashContent} {cs : List FlashContent}
    (h : isHexContent c = true → flashPages c = []) : firstPage (c :: cs) = firstPage cs := by
  unfold firstPage
  cases hhex : isHexContent c with
  | false => rw [List.filter_cons_of_neg (by rw [hhex]; decide)]
  | true => rw [List.filter_cons_of_pos hhex, List.flatMap_cons, h hhex, List.nil_append]

theorem firstPage_cons_hex {c : FlashContent} (cs : List FlashContent)
    (h : isHexContent c = true) {p : FlashPage × Nat} (hp : p ∈ (flashPages c).head?) :
    firstPage (c :: cs) = some p.1 := by
  unfold firstPage
  rw [List.filter_cons_of_pos h, List.flatMap_cons, List.head?_append, hp]
  rfl

/-- A chain whose first page begins alike is written alike. -/
theorem exec_writeFlashChain_flag {conv : Converters} {chain : List FlashContent} {s : FlashOut}
    {flag : UInt8} (h : ∀ p ∈ firstPage chain, BeginsAlike s.oldFlag flag p) :
    (Proc.exec (writeFlashChain conv chain) { s with oldFlag := flag }).1
        = (Proc.exec (writeFlashChain conv chain) s).1
      ∧ (Proc.exec (writeFlashChain conv chain) { s with oldFlag := flag }).2.file
        = (Proc.exec (writeFlashChain conv chain) s).2.file := by
  induction chain generalizing s flag with
  | nil => exact ⟨rfl, rfl⟩
  | cons c cs ih =>
      have hfirst : isHexContent c = true →
          ∀ p ∈ (flashPages c).head?, BeginsAlike s.oldFlag flag p.1 := fun hhex p hp =>
        h p.1 (firstPage_cons_hex cs hhex hp)
      obtain ⟨flag', hcontent, hflags⟩ := @exec_writeFlashContent_flag conv c s flag hfirst
      rw [writeFlashChain, Proc.exec_bind, Proc.exec_bind, hcontent]
      cases hrun : Proc.exec (writeFlashContent conv c) s with
      | mk result mid =>
          rw [hrun] at hflags
          cases result with
          | error e => exact ⟨rfl, rfl⟩
          | ok u =>
              obtain ⟨hmid, hflag'⟩ := hflags rfl
              dsimp only at hmid ⊢
              refine ih fun p hp => ?_
              rw [hmid, hflag']
              unfold flagAfter
              split
              · rename_i hhex
                by_cases hpages : flashPages c = []
                · rw [hpages]
                  rw [firstPage_cons_plain fun _ => hpages] at h
                  exact h p hp
                · exact .inl ((flashText_of_beginsAlike (hfirst hhex)).2 hpages)
              · rename_i hhex
                rw [firstPage_cons_plain fun hhex' => absurd hhex' hhex] at h
                exact h p hp

/-! ## another file -/

/-- The length of a text says how its first page begins. -/
theorem beginsAlike_of_flashText {flag₁ flag₂ : UInt8} {c : FlashContent}
    (h : (flashText flag₁ c).length = (flashText flag₂ c).length) :
    ∀ p ∈ (flashPages c).head?, BeginsAlike flag₁ flag₂ p.1 := by
  intro p hp
  unfold flashText at h
  cases hpages : flashPages c with
  | nil =>
      rw [hpages] at hp
      cases hp
  | cons q ps =>
      rw [hpages] at hp h
      cases hp
      rw [hexPagesWrite_cons, hexPagesWrite_cons] at h
      simp only [List.length_append] at h
      refine beginsAlike_of_length ?_
      omega

theorem firstPage_concat {cs : List FlashContent} (c : FlashContent)
    (hplain : ∀ c' ∈ cs, isHexContent c' = false) : firstPage (cs ++ [c]) = firstPage [c] := by
  induction cs with
  | nil => rfl
  | cons c' cs ih =>
      have hc := hplain c' List.mem_cons_self
      rw [List.cons_append, firstPage_cons_plain fun hhex => by rw [hc] at hhex; cases hhex]
      exact ih fun x hx => hplain x (List.mem_cons_of_mem _ hx)

/-- Contents without text do not depend on the flag. -/
theorem flashImages_plain {cs : List FlashContent} (hplain : ∀ c ∈ cs, isHexContent c = false)
    (conv : Converters) (flag₁ flag₂ : UInt8) :
    flashImages conv flag₁ cs = flashImages conv flag₂ cs := by
  induction cs with
  | nil => rfl
  | cons c cs ih =>
      have hc := hplain c List.mem_cons_self
      have hrest := ih fun x hx => hplain x (List.mem_cons_of_mem _ hx)
      have himage : flashImage conv flag₁ c = flashImage conv flag₂ c := by
        unfold flashImage flashData
        simp only [hc, Bool.false_eq_true, if_false]
      have hflag : ∀ flag, flagAfter flag c = flag := by
        intro flag
        unfold flagAfter
        rw [hc, if_neg (by decide)]
      show (flashImage conv flag₁ c >>= fun image => flashImages conv (flagAfter flag₁ c) cs
        >>= fun images => pure (image ++ images)) = _
      rw [hflag, himage, hrest]
      show _ = (flashImage conv flag₂ c >>= fun image => flashImages conv (flagAfter flag₂ c) cs
        >>= fun images => pure (image ++ images))
      rw [hflag]

/-- Two chains with the same file begin alike. -/
theorem beginsAlike_of_serialised {conv : Converters} {flag₁ flag₂ : UInt8}
    {chain : List FlashContent} {bytes : List UInt8}
    (hplain : ∀ c ∈ chain.dropLast, isHexContent c = false)
    (h₁ : ChainSerialised conv flag₁ chain bytes) (h₂ : ChainSerialised conv flag₂ chain bytes) :
    ∀ p ∈ firstPage chain, BeginsAlike flag₁ flag₂ p := by
  intro p hp
  rcases List.eq_nil_or_concat chain with rfl | ⟨cs, c, hconcat⟩
  · cases hp
  · rw [List.concat_eq_append] at hconcat
    subst hconcat
    rw [List.dropLast_concat] at hplain
    rw [firstPage_concat c hplain] at hp
    obtain ⟨images₁, image₁, himages₁, himage₁, rfl⟩ := (flashImages_concat hplain _).mp h₁.1
    obtain ⟨images₂, image₂, himages₂, himage₂, hsame⟩ := (flashImages_concat hplain _).mp h₂.1
    rw [flashImages_plain hplain conv flag₁ flag₂, himages₂] at himages₁
    cases himages₁
    have himage : image₁ = image₂ := List.append_cancel_left hsame
    unfold flashImage at himage₁ himage₂
    rw [map_eq_ok_iff] at himage₁ himage₂
    obtain ⟨header₁, hheader₁, rfl⟩ := himage₁
    obtain ⟨header₂, hheader₂, rfl⟩ := himage₂
    cases hheader₁.symm.trans hheader₂
    have hlen := congrArg List.length (List.append_cancel_left himage)
    rw [List.length_append, List.length_append, length_fwriteLong, length_fwriteLong] at hlen
    cases hhex : isHexContent c with
    | false =>
        rw [firstPage_cons_plain fun hhex' => by rw [hhex] at hhex'; cases hhex'] at hp
        cases hp
    | true =>
        have hdata : ∀ flag, flashData flag c = flashText flag c := fun flag => by
          unfold flashData
          rw [hhex, if_pos rfl]
        rw [hdata, hdata] at hlen
        have halike := beginsAlike_of_flashText (Nat.add_left_cancel hlen)
        cases hpages : (flashPages c).head? with
        | none =>
            rw [List.head?_eq_none_iff] at hpages
            rw [firstPage_cons_plain fun _ => hpages] at hp
            cases hp
        | some q =>
            rw [firstPage_cons_hex [] hhex hpages] at hp
            cases hp
            exact halike q hpages

/-- What a process writes depends on what it has written before exactly in how the first page
of the file begins after the static flag: where it begins alike the files are the same, and
where a chain is written as it should be and it does not, they are not. -/
theorem ti8xFileWriteFlash_history_iff (conv : Converters)
    (files₁ files₂ : List (List FlashContent)) (chain : List FlashContent) :
    let flag₁ := flagAfterFiles conv files₁
    let flag₂ := flagAfterFiles conv files₂
    ((∀ p ∈ firstPage chain, BeginsAlike flag₁ flag₂ p) →
        (ti8xFileWriteFlash conv flag₁ chain).1 = (ti8xFileWriteFlash conv flag₂ chain).1)
      ∧ ((∀ c ∈ chain, c.Known) → OneText flag₁ chain → OneText flag₂ chain →
        ∀ bytes, (ti8xFileWriteFlash conv flag₁ chain).1 = .ok bytes →
          ((ti8xFileWriteFlash conv flag₂ chain).1 = .ok bytes
            ↔ ∀ p ∈ firstPage chain, BeginsAlike flag₁ flag₂ p)) := by
  intro flag₁ flag₂
  have hsame : (∀ p ∈ firstPage chain, BeginsAlike flag₁ flag₂ p) →
      (ti8xFileWriteFlash conv flag₁ chain).1 = (ti8xFileWriteFlash conv flag₂ chain).1 := by
    intro halike
    obtain ⟨hresult, hfile⟩ := @exec_writeFlashChain_flag conv chain
      (FlashOut.start flag₁) flag₂ halike
    unfold ti8xFileWriteFlash
    unfold FlashOut.start at hresult hfile
    dsimp only at hresult hfile ⊢
    rw [hresult, hfile]
  refine ⟨hsame, fun hknown hone₁ hone₂ bytes hwrite₁ => ⟨fun hwrite₂ => ?_, fun halike => ?_⟩⟩
  · exact beginsAlike_of_serialised hone₁.plain (hone₁.serialised hknown hwrite₁)
      (hone₂.serialised hknown hwrite₂)
  · rw [← hsame halike]
    exact hwrite₁

/-- A file whose only page has the flag 0. -/
def systemFile : List FlashContent := [sampleFlash ti83pAppl [shortPage 0 0] []]

/-- An application is written otherwise after a file that ends with a page of flag 0. -/
theorem not_independent_ofHistory :
    (ti8xFileWriteFlash serialConverters (flagAfterFiles serialConverters []) sampleChain).1
      ≠ (ti8xFileWriteFlash serialConverters (flagAfterFiles serialConverters [systemFile])
        sampleChain).1 := by
  decide +kernel

end Tilibs.Files
