import Mathlib
import Tilibs.Files.IntelHexBlock

/-!
# Tilibs.Files.IntelHexPages

Pages written as Intel-HEX text and read back.  The reader finds the end of a page where its
buffer is full, where the flag changes and at the end of the text; a page that ends elsewhere is
read as one with the page behind it.
-/

namespace Tilibs.Files

open Lib

/-! ## pages as they are written and read -/

/-- The data of a page: the first bytes of its buffer. -/
def FlashPage.bytes (p : FlashPage) : List UInt8 := p.data.take p.size.toNat

/-- What a page says: its address, number, flag and data. -/
def FlashPage.contents (p : FlashPage) : HexBlock := ⟨p.addr, p.page, p.flag, p.bytes⟩

/-- The text of pages, each with so many bytes 0xFF behind it. -/
def hexPagesWrite (oldFlag : UInt8) : List (FlashPage × Nat) → List UInt8
  | [] => []
  | (p, extra) :: ps => hexBlockWrite oldFlag p extra ++ hexPagesWrite p.flag ps

/-- The text of pages up to its end. -/
def hexTextWrite (oldFlag : UInt8) (ps : List FlashPage) : List UInt8 :=
  hexPagesWrite oldFlag (ps.map fun p => (p, 0)) ++ hexBlockWriteEnd

/-- A page of 1 to 16384 bytes, which are in its buffer. -/
structure FlashPage.Filled (p : FlashPage) : Prop where
  pos : 0 < p.size.toNat
  le : p.size.toNat ≤ blkMax
  data : p.size.toNat ≤ p.data.length

theorem FlashPage.Filled.length_bytes {p : FlashPage} (h : p.Filled) :
    p.bytes.length = p.size.toNat := by
  unfold FlashPage.bytes
  rw [List.length_take, Nat.min_eq_left h.data]

theorem contents_flashPageOf {b : HexBlock} (h : b.data.length < 2 ^ 16) :
    (flashPageOf b).contents = b := by
  have hsize : (UInt16.ofNat b.data.length).toNat = b.data.length := by
    rw [UInt16.toNat_ofNat', Nat.mod_eq_of_lt h]
  unfold flashPageOf FlashPage.contents FlashPage.bytes
  dsimp only
  rw [hsize, padRight, List.take_left]

/-- The state in which the reader is within a page. -/
def pageState (p : FlashPage) : HexState := ⟨p.flag, p.page, p.addr⟩

theorem block_pageState (p : FlashPage) : (pageState p).block p.bytes = p.contents := rfl

/-! ## packets of a page -/

theorem ne_nil_hexBlockWriteEnd : hexBlockWriteEnd ≠ [] := by decide

/-- The first packet of some data. -/
theorem hexDataWrite_of_ne_nil (addr : UInt16) {data : List UInt8} (hne : data ≠ []) :
    hexDataWrite addr data 0 = hexPacketWrite addr hexData (data.take (min data.length pktMax))
      ++ hexDataWrite (addr + UInt16.ofNat (min data.length pktMax))
        (data.drop (min data.length pktMax)) 0 := by
  have hpos : 0 < data.length := List.length_pos_of_ne_nil hne
  rw [hexDataWrite, if_neg (by omega)]
  simp only [Nat.zero_min, List.replicate_zero, List.append_nil, Nat.add_zero, Nat.sub_zero]

theorem hexDataWrite_nil (addr : UInt16) : hexDataWrite addr [] 0 = [] := by
  rw [hexDataWrite, if_pos ⟨rfl, rfl⟩]

/-- The data of a page is appended to the block. -/
theorem hexBlockLoop_hexDataWrite {st st' : HexState} {newPage : Bool} {b : HexBlock}
    {addr : UInt16} {data tail : List UInt8} {f : InFile} (hne : data ≠ []) (htail : tail ≠ [])
    (hst : (if newPage then { st with flashAddr := addr } else st) = st')
    (hfit : b.data.length + data.length ≤ blkMax) (h : f.rest = hexDataWrite addr data 0 ++ tail) :
    hexBlockLoop st newPage b f = hexBlockLoop st' false (st'.block (b.data ++ data))
      (f.advance (hexDataWrite addr data 0).length) := by
  induction hn : data.length using Nat.strong_induction_on
    generalizing st newPage b addr data f with
  | _ n ih =>
      subst hn
      have hpos : 0 < data.length := List.length_pos_of_ne_nil hne
      have hmin : 0 < min data.length pktMax := Nat.lt_min.mpr ⟨hpos, by decide⟩
      have htake : (data.take (min data.length pktMax)).length = min data.length pktMax := by
        rw [List.length_take, Nat.min_eq_left (Nat.min_le_left _ _)]
      have hlen := hexDataWrite_of_ne_nil addr hne
      rw [hlen, List.append_assoc] at h
      have hread := hexPacketRead_packet (by decide) (htake.trans_le (Nat.min_le_right _ _))
        (by simp [htail]) h
      have hroom : b.data.length < blkMax := by omega
      have hset : st.setAddr newPage ⟨addr, hexData, data.take (min data.length pktMax)⟩ = st' :=
        hst
      rw [hexBlockLoop_data hroom hread rfl, hset]
      dsimp only
      by_cases hlast : data.drop (min data.length pktMax) = []
      · have hall : data.take (min data.length pktMax) = data := by
          have happend := List.take_append_drop (min data.length pktMax) data
          rwa [hlast, List.append_nil] at happend
        rw [hlast, hexDataWrite_nil, List.append_nil] at hlen
        rw [← hlen, hall]
      · have hnext := @ih (data.drop (min data.length pktMax)).length
          (by rw [List.length_drop]; omega) st' false
          (st'.block (b.data ++ data.take (min data.length pktMax)))
          (addr + UInt16.ofNat (min data.length pktMax)) (data.drop (min data.length pktMax)) _
          hlast rfl
          (by
            show (b.data ++ data.take (min data.length pktMax)).length + _ ≤ _
            rw [List.length_append, List.length_drop, htake]
            omega)
          (InFile.rest_advance_append h rfl) rfl
        rw [hnext]
        show hexBlockLoop st' false (st'.block ((b.data ++ data.take (min data.length pktMax))
          ++ data.drop (min data.length pktMax))) _ = _
        rw [List.append_assoc, List.take_append_drop, InFile.advance_advance, hlen,
          List.length_append]

/-- The packet with the number of a page is next, where there is one. -/
theorem hexBlockLoop_pagePacket {st : HexState} {b : HexBlock} {oldFlag : UInt8} {p : FlashPage}
    {data tail : List UInt8} {f : InFile} (hne : data ≠ []) (htail : tail ≠ [])
    (hfit : b.data.length + data.length ≤ blkMax)
    (h : f.rest = pagePacket oldFlag p ++ (hexDataWrite p.addr data 0 ++ tail)) :
    hexBlockLoop st false b f
      = hexBlockLoop (if pagePacket oldFlag p = [] then st else ⟨st.flag, p.page, p.addr⟩) false
        ((if pagePacket oldFlag p = [] then st else ⟨st.flag, p.page, p.addr⟩ : HexState).block
          (b.data ++ data))
        (f.advance (pagePacket oldFlag p ++ hexDataWrite p.addr data 0).length) := by
  have hroom : b.data.length < blkMax := by
    have hpos : 0 < data.length := List.length_pos_of_ne_nil hne
    omega
  by_cases hnone : pagePacket oldFlag p = []
  · rw [if_pos hnone]
    rw [hnone, List.nil_append] at h ⊢
    exact hexBlockLoop_hexDataWrite hne htail rfl hfit h
  · have hpacket : pagePacket oldFlag p = hexPacketWrite 0 hexPage
        [UInt8.ofNat (p.page.toNat / 256), UInt8.ofNat p.page.toNat] := by
      unfold pagePacket at hnone ⊢
      split
      · rename_i hzero
        exact absurd (if_pos hzero) hnone
      · rfl
    rw [if_neg hnone]
    rw [hpacket] at h ⊢
    have hshort : [UInt8.ofNat (p.page.toNat / 256), UInt8.ofNat p.page.toNat].length ≤ pktMax :=
      Nat.le_add_right 2 30
    have hread := hexPacketRead_packet (by decide) hshort (by simp [htail]) h
    have hnumber : (st.setAddr false ⟨0, hexPage, [UInt8.ofNat (p.page.toNat / 256),
        UInt8.ofNat p.page.toNat]⟩).newPage ⟨0, hexPage, [UInt8.ofNat (p.page.toNat / 256),
          UInt8.ofNat p.page.toNat]⟩ = ⟨st.flag, p.page, st.flashAddr⟩ := by
      show HexState.mk st.flag (UInt16.ofNat (256 * (UInt8.ofNat (p.page.toNat / 256)).toNat
        + (UInt8.ofNat p.page.toNat).toNat)) st.flashAddr = _
      rw [addr_bytes]
    rw [hexBlockLoop_page hroom hread rfl, hnumber]
    refine (hexBlockLoop_hexDataWrite (b := st.block b.data) hne htail rfl hfit
      (InFile.rest_advance_append h rfl)).trans ?_
    rw [InFile.advance_advance, List.length_append]
    rfl

/-! ## what a block does not have -/

/-- Nothing is taken back from a block. -/
theorem le_length_hexBlockLoop (st : HexState) (newPage : Bool) (b : HexBlock) (f : InFile) :
    b.data.length ≤ (hexBlockLoop st newPage b f).block.data.length := by
  fun_induction hexBlockLoop st newPage b f with
  | case1 | case2 | case3 | case6 | case8 => exact Nat.le_refl _
  | case4 st newPage b f hroom p f' hread heof hdata ih =>
      refine Nat.le_trans ?_ ih
      show b.data.length ≤ (b.data ++ p.data).length
      rw [List.length_append]
      exact Nat.le_add_right _ _
  | case5 st newPage b f hroom p f' hread heof hdata hend hzero ih => exact ih
  | case7 st newPage b f hroom p f' hread heof hdata hend hpage ih => exact ih

/-- The size of a block is a number of 16 bits, also where it is larger than the buffer. -/
theorem length_hexBlockLoop_lt {st : HexState} {newPage : Bool} {b : HexBlock} {f : InFile}
    (h : b.data.length < blkMax + pktMax) :
    (hexBlockLoop st newPage b f).block.data.length < blkMax + pktMax := by
  fun_induction hexBlockLoop st newPage b f with
  | case1 | case2 | case3 | case6 | case8 => exact h
  | case4 st newPage b f hroom p f' hread heof hdata ih =>
      refine ih ?_
      have hlen := (hexPacketRead_facts hread).1
      show (b.data ++ p.data).length < _
      rw [List.length_append]
      omega
  | case5 st newPage b f hroom p f' hread heof hdata hend hzero ih => exact ih h
  | case7 st newPage b f hroom p f' hread heof hdata hend hpage ih => exact ih h

/-- The flag of a page that is read. -/
def FlagRead (flag : UInt8) : Prop := flag = 0x80 ∨ flag = 0

instance (flag : UInt8) : Decidable (FlagRead flag) := inferInstanceAs (Decidable (_ ∨ _))

theorem FlagRead.endSection {st : HexState} (h : FlagRead st.flag) :
    FlagRead st.endSection.flag := by
  unfold HexState.endSection
  rcases h with h | h
  · rw [h]
    decide
  · rw [h]
    decide

theorem flag_setAddr (st : HexState) (newPage : Bool) (p : HexPacket) :
    (st.setAddr newPage p).flag = st.flag := by
  unfold HexState.setAddr
  split <;> rfl

/-- A block and the state behind it have one of two flags. -/
theorem flagRead_hexBlockLoop {st : HexState} {newPage : Bool} {b : HexBlock} {f : InFile}
    (hst : FlagRead st.flag) (hb : FlagRead b.flag) :
    FlagRead (hexBlockLoop st newPage b f).block.flag
      ∧ FlagRead (hexBlockLoop st newPage b f).st.flag := by
  fun_induction hexBlockLoop st newPage b f with
  | case1 | case2 => exact ⟨hb, hst⟩
  | case3 st newPage b f hroom p f' hread heof =>
      rw [← flag_setAddr st newPage p] at hst
      exact ⟨hst, hst⟩
  | case4 st newPage b f hroom p f' hread heof hdata ih =>
      rw [← flag_setAddr st newPage p] at hst
      exact ih hst hst
  | case5 st newPage b f hroom p f' hread heof hdata hend hzero ih =>
      rw [← flag_setAddr st newPage p] at hst
      exact ih hst.endSection hst
  | case6 st newPage b f hroom p f' hread heof hdata hend hzero =>
      rw [← flag_setAddr st newPage p] at hst
      exact ⟨hst, hst.endSection⟩
  | case7 st newPage b f hroom p f' hread heof hdata hend hpage ih =>
      rw [← flag_setAddr st newPage p] at hst
      exact ih hst hst
  | case8 st newPage b f hroom p f' hread heof hdata hend hpage =>
      rw [← flag_setAddr st newPage p] at hst
      exact ⟨hst, hst⟩

/-! ## the page loop -/

/-- The page loop from a block that was read. -/
def readFlashPagesFrom (n : Nat) (r : HexRead) : Option (List FlashPage × InFile) :=
  if r.ret ≠ 0 then some ([flashPageOf r.block], r.file)
  else (readFlashPages n r.st r.file).map fun out => (flashPageOf r.block :: out.1, out.2)

theorem readFlashPages_succ (n : Nat) (st : HexState) (f : InFile) :
    readFlashPages (n + 1) st f = readFlashPagesFrom n (hexBlockRead st f) := rfl

/-- The page loop finds these pages. -/
def PagesRead (out : Option (List FlashPage × InFile)) (ps : List FlashPage) : Prop :=
  ∃ read rest, out = some (read, rest) ∧ read.map FlashPage.contents = ps.map FlashPage.contents

theorem not_pagesRead_nil (n : Nat) (st : HexState) (f : InFile) :
    ¬PagesRead (readFlashPages n st f) [] := by
  rintro ⟨read, rest, hread, hpages⟩
  rw [List.map_nil, List.map_eq_nil_iff] at hpages
  subst hpages
  cases n with
  | zero => cases hread
  | succ n =>
      rw [readFlashPages_succ] at hread
      unfold readFlashPagesFrom at hread
      split at hread
      · cases hread
      · obtain ⟨out, -, heq⟩ := Option.map_eq_some_iff.mp hread
        cases heq

/-- The last block. -/
theorem pagesRead_last_iff {n : Nat} {r : HexRead} {p : FlashPage} {ps : List FlashPage}
    (hlen : r.block.data.length < 2 ^ 16) (hret : r.ret ≠ 0) :
    PagesRead (readFlashPagesFrom n r) (p :: ps) ↔ r.block = p.contents ∧ ps = [] := by
  unfold readFlashPagesFrom PagesRead
  rw [if_pos hret]
  constructor
  · rintro ⟨read, rest, hread, hpages⟩
    cases hread
    rw [List.map_cons, List.map_nil, List.map_cons, List.cons_eq_cons,
      contents_flashPageOf hlen] at hpages
    exact ⟨hpages.1, List.map_eq_nil_iff.mp hpages.2.symm⟩
  · rintro ⟨hblock, rfl⟩
    refine ⟨_, _, rfl, ?_⟩
    rw [List.map_cons, List.map_nil, List.map_cons, List.map_nil, contents_flashPageOf hlen, hblock]

/-- A block with more behind it. -/
theorem pagesRead_cons_iff {n : Nat} {r : HexRead} {p : FlashPage} {ps : List FlashPage}
    (hlen : r.block.data.length < 2 ^ 16) (hret : r.ret = 0) :
    PagesRead (readFlashPagesFrom n r) (p :: ps)
      ↔ r.block = p.contents ∧ PagesRead (readFlashPages n r.st r.file) ps := by
  unfold readFlashPagesFrom PagesRead
  rw [if_neg (not_not.mpr hret)]
  constructor
  · rintro ⟨read, rest, hread, hpages⟩
    obtain ⟨out, hout, heq⟩ := Option.map_eq_some_iff.mp hread
    cases heq
    rw [List.map_cons, List.map_cons, List.cons_eq_cons, contents_flashPageOf hlen] at hpages
    exact ⟨hpages.1, out.1, out.2, hout, hpages.2⟩
  · rintro ⟨hblock, read, rest, hread, hpages⟩
    refine ⟨flashPageOf r.block :: read, rest, ?_, ?_⟩
    · rw [hread]
      rfl
    · rw [List.map_cons, List.map_cons, contents_flashPageOf hlen, hblock, hpages]

/-- The first block is the first page. -/
theorem PagesRead.first {n : Nat} {r : HexRead} {p : FlashPage} {ps : List FlashPage}
    (hlen : r.block.data.length < 2 ^ 16) (h : PagesRead (readFlashPagesFrom n r) (p :: ps)) :
    r.block = p.contents := by
  by_cases hret : r.ret = 0
  · exact ((pagesRead_cons_iff hlen hret).mp h).1
  · exact ((pagesRead_last_iff hlen hret).mp h).1

/-- The pages that are read have one of two flags. -/
theorem PagesRead.flagRead {n : Nat} {st : HexState} {f : InFile} {ps : List FlashPage}
    (hst : FlagRead st.flag) (h : PagesRead (readFlashPages n st f) ps) :
    ∀ p ∈ ps, FlagRead p.flag := by
  induction n generalizing st f ps with
  | zero =>
      obtain ⟨read, rest, hread, -⟩ := h
      cases hread
  | succ n ih =>
      have hlen : (hexBlockRead st f).block.data.length < 2 ^ 16 :=
        (length_hexBlockLoop_lt (b := st.block [])
          (show ([] : List UInt8).length < _ by decide)).trans (by decide)
      obtain ⟨hblock, hnext⟩ := flagRead_hexBlockLoop
        (b := st.block []) (f := f) hst hst
      cases ps with
      | nil => exact absurd h (not_pagesRead_nil _ _ _)
      | cons p ps =>
          rw [readFlashPages_succ] at h
          have hfirst := h.first hlen
          have hflag : FlagRead p.flag := by
            have hsame : (hexBlockRead st f).block.flag = p.flag := congrArg HexBlock.flag hfirst
            rw [← hsame]
            exact hblock
          intro q hq
          rcases List.mem_cons.mp hq with rfl | hq
          · exact hflag
          · by_cases hret : (hexBlockRead st f).ret = 0
            · exact ih hnext ((pagesRead_cons_iff hlen hret).mp h).2 q hq
            · rw [((pagesRead_last_iff hlen hret).mp h).2] at hq
              cases hq

/-! ## when pages come back -/

/-- The page `q` is told from the page `p` before it: the flag changes, or `p` is full; and a
page 0 at address 0, for which no packet is written, keeps the address and the number of `p`. -/
def FollowsPage (p q : FlashPage) : Prop :=
  p.flag = q.flag →
    p.size.toNat = blkMax ∧ (q.addr = 0 → q.page = 0 → p.addr = 0 ∧ p.page = 0)

/-- Where the next page of the section goes. -/
theorem pagePacket_eq_nil_iff {oldFlag : UInt8} {p : FlashPage} :
    pagePacket oldFlag p = []
      ↔ p.addr = 0 ∧ p.page = 0 ∧ ¬(oldFlag = 0x80 ∧ p.flag = 0) := by
  unfold pagePacket
  split
  · rename_i hzero
    exact iff_of_true rfl hzero
  · rename_i hzero
    refine iff_of_false ?_ hzero
    rw [hexPacketWrite_eq]
    exact List.cons_ne_nil _ _

theorem hexTextWrite_cons (oldFlag : UInt8) (p : FlashPage) (ps : List FlashPage) :
    hexTextWrite oldFlag (p :: ps) = sectionPacket oldFlag p.flag ++ (pagePacket oldFlag p
      ++ (hexDataWrite p.addr p.bytes 0 ++ hexTextWrite p.flag ps)) := by
  simp [hexTextWrite, hexPagesWrite, hexBlockWrite, FlashPage.bytes]

theorem hexTextWrite_ne_nil (oldFlag : UInt8) (ps : List FlashPage) :
    hexTextWrite oldFlag ps ≠ [] := by
  simp [hexTextWrite, ne_nil_hexBlockWriteEnd]

theorem FlashPage.Filled.bytes_ne_nil {p : FlashPage} (h : p.Filled) : p.bytes ≠ [] := by
  rw [← List.length_pos_iff, h.length_bytes]
  exact h.pos

/-- More data makes a block longer. -/
theorem lt_length_hexBlockLoop_data {st : HexState} {newPage : Bool} {b : HexBlock} {f : InFile}
    {addr : UInt16} {data tail : List UInt8} (hne : data ≠ []) (hroom : b.data.length < blkMax)
    (htail : tail ≠ []) (h : f.rest = hexDataWrite addr data 0 ++ tail) :
    b.data.length < (hexBlockLoop st newPage b f).block.data.length := by
  have hpos : 0 < data.length := List.length_pos_of_ne_nil hne
  have hmin : 0 < min data.length pktMax := Nat.lt_min.mpr ⟨hpos, by decide⟩
  have htake : (data.take (min data.length pktMax)).length = min data.length pktMax := by
    rw [List.length_take, Nat.min_eq_left (Nat.min_le_left _ _)]
  rw [hexDataWrite_of_ne_nil addr hne, List.append_assoc] at h
  have hread := hexPacketRead_packet (by decide) (htake.trans_le (Nat.min_le_right _ _))
    (by simp [htail]) h
  rw [hexBlockLoop_data hroom hread rfl]
  refine Nat.lt_of_lt_of_le ?_ (le_length_hexBlockLoop _ _ _ _)
  show b.data.length < (b.data ++ _).length
  rw [List.length_append, htake]
  omega

/-- A page that does not end where its data ends has more data. -/
theorem lt_length_hexBlockLoop {st : HexState} {b : HexBlock} {f : InFile} {oldFlag : UInt8}
    {p : FlashPage} {tail : List UInt8} (hp : p.Filled) (hroom : b.data.length < blkMax)
    (htail : tail ≠ [])
    (h : f.rest = pagePacket oldFlag p ++ (hexDataWrite p.addr p.bytes 0 ++ tail)) :
    b.data.length < (hexBlockLoop st false b f).block.data.length := by
  unfold pagePacket at h
  split at h
  · exact lt_length_hexBlockLoop_data hp.bytes_ne_nil hroom htail h
  · have hshort : [UInt8.ofNat (p.page.toNat / 256), UInt8.ofNat p.page.toNat].length ≤ pktMax :=
      Nat.le_add_right 2 30
    have hread := hexPacketRead_packet (by decide) hshort (by simp [htail]) h
    rw [hexBlockLoop_page hroom hread rfl]
    exact lt_length_hexBlockLoop_data (b := st.block b.data) hp.bytes_ne_nil hroom htail
      (InFile.rest_advance_append h rfl)

/-- The packet that ends a section is next, where the flag changes. -/
theorem hexPacketRead_sectionPacket {oldFlag flag : UInt8} {f : InFile} {tail : List UInt8}
    (hflag : oldFlag ≠ flag) (htail : tail ≠ []) (h : f.rest = sectionPacket oldFlag flag ++ tail) :
    hexPacketRead f = (.ok ⟨0, hexEnd, []⟩, f.advance (sectionPacket oldFlag flag).length) := by
  unfold sectionPacket at h ⊢
  rw [if_pos hflag] at h ⊢
  exact hexPacketRead_packet (by decide) (Nat.zero_le _) htail h

theorem endSection_pageState {p q : FlashPage} (hp : FlagRead p.flag) (hq : FlagRead q.flag)
    (hne : p.flag ≠ q.flag) : (pageState p).endSection = ⟨q.flag, 0, 0⟩ := by
  show HexState.mk (p.flag ^^^ 0x80) 0 0 = _
  rcases hp with hp | hp <;> rcases hq with hq | hq <;> rw [hp, hq] at hne <;> rw [hp, hq]
  · exact absurd rfl hne
  · rfl
  · rfl
  · exact absurd rfl hne

/-- The data of the page `q`, behind the packets that begin it. -/
theorem hexBlockLoop_page_data {st : HexState} {b : HexBlock} {oldFlag : UInt8} {q : FlashPage}
    {ps : List FlashPage} {f : InFile} (hq : q.Filled) (hempty : b.data = [])
    (h : f.rest = pagePacket oldFlag q
      ++ (hexDataWrite q.addr q.bytes 0 ++ hexTextWrite q.flag ps)) :
    ∃ g : InFile, g.rest = hexTextWrite q.flag ps ∧ hexBlockLoop st false b f
      = hexBlockLoop (if pagePacket oldFlag q = [] then st else ⟨st.flag, q.page, q.addr⟩) false
        ((if pagePacket oldFlag q = [] then st else ⟨st.flag, q.page, q.addr⟩ : HexState).block
          q.bytes) g := by
  have hfit : b.data.length + q.bytes.length ≤ blkMax := by
    rw [hempty, hq.length_bytes, List.length_nil, Nat.zero_add]
    exact hq.le
  have hloop := @hexBlockLoop_pagePacket st _ _ _ _ _ _ hq.bytes_ne_nil
    (hexTextWrite_ne_nil q.flag ps) hfit h
  rw [hempty, List.nil_append] at hloop
  rw [← List.append_assoc] at h
  exact ⟨_, InFile.rest_advance_append h rfl, hloop⟩

/-- A block that has the data of the page `p`, where a section ends behind it or the page is
full, is left for the page behind it. -/
theorem hexBlockLoop_next {p q : FlashPage} {ps : List FlashPage} {f : InFile} (hp : p.Filled)
    (hq : q.Filled) (hpflag : FlagRead p.flag) (hqflag : FlagRead q.flag)
    (h : f.rest = hexTextWrite p.flag (q :: ps))
    (hend : p.flag = q.flag → p.size.toNat = blkMax) :
    ∃ st next g file, hexBlockLoop (pageState p) false p.contents f = ⟨0, p.contents, next, file⟩
      ∧ hexBlockRead next file = hexBlockLoop st false (st.block q.bytes) g
      ∧ g.rest = hexTextWrite q.flag ps
      ∧ (FollowsPage p q → st = pageState q)
      ∧ (¬FollowsPage p q → st.block q.bytes ≠ q.contents) := by
  have hlen : p.contents.data.length = p.size.toNat := hp.length_bytes
  rw [hexTextWrite_cons] at h
  have hbehind : pagePacket p.flag q ++ (hexDataWrite q.addr q.bytes 0 ++ hexTextWrite q.flag ps)
      ≠ [] := by simp [hexTextWrite_ne_nil]
  by_cases hflag : p.flag = q.flag
  · have hfull := hend hflag
    rw [sectionPacket, if_neg (not_not.mpr hflag), List.nil_append] at h
    obtain ⟨g, hg, hloop⟩ := hexBlockLoop_page_data
      (b := (pageState p).block []) hq rfl h
    refine ⟨_, pageState p, g, f, hexBlockLoop_full (hlen.trans hfull).ge, hloop, hg, ?_, ?_⟩
    · intro hfollows
      split
      · rename_i hnone
        obtain ⟨haddr, hpage, -⟩ := pagePacket_eq_nil_iff.mp hnone
        obtain ⟨-, hzero⟩ := hfollows hflag
        obtain ⟨hpaddr, hppage⟩ := hzero haddr hpage
        unfold pageState
        rw [hflag, haddr, hpage, hpaddr, hppage]
      · unfold pageState
        rw [hflag]
    · intro hfollows
      have hzero : q.addr = 0 ∧ q.page = 0 ∧ ¬(p.addr = 0 ∧ p.page = 0) := by
        unfold FollowsPage at hfollows
        tauto
      obtain ⟨haddr, hpage, hne⟩ := hzero
      have hnone : pagePacket p.flag q = [] := pagePacket_eq_nil_iff.mpr
        ⟨haddr, hpage, fun hboth => absurd (hboth.1.symm.trans (hflag.trans hboth.2)) (by decide)⟩
      rw [if_pos hnone]
      intro hsame
      refine hne ⟨?_, ?_⟩
      · exact (congrArg HexBlock.addr hsame).trans haddr
      · exact (congrArg HexBlock.page hsame).trans hpage
  · have hread := hexPacketRead_sectionPacket hflag hbehind h
    have hsection := endSection_pageState hpflag hqflag hflag
    have hrest := InFile.rest_advance_append h rfl
    have hset : (pageState p).setAddr false ⟨0, hexEnd, []⟩ = pageState p := rfl
    have hpage : (if pagePacket p.flag q = [] then (pageState p).endSection
        else ⟨(pageState p).endSection.flag, q.page, q.addr⟩ : HexState) = pageState q := by
      rw [hsection]
      split
      · rename_i hnone
        obtain ⟨haddr, hpage, -⟩ := pagePacket_eq_nil_iff.mp hnone
        unfold pageState
        rw [haddr, hpage]
      · rfl
    have hfollows : FollowsPage p q := fun heq => absurd heq hflag
    refine ⟨pageState q, ?_⟩
    by_cases hfull : blkMax ≤ p.contents.data.length
    · obtain ⟨g, hg, hloop⟩ := hexBlockLoop_page_data
        (b := (pageState p).block []) hq rfl hrest
      rw [hpage] at hloop
      refine ⟨pageState p, g, f, hexBlockLoop_full hfull, ?_, hg, fun _ => rfl,
        fun hno => absurd hfollows hno⟩
      unfold hexBlockRead
      rw [hexBlockLoop_newSection rfl hread rfl, hset]
      exact hloop
    · obtain ⟨g, hg, hloop⟩ := hexBlockLoop_page_data
        (b := (pageState p).endSection.block []) hq rfl hrest
      rw [hpage] at hloop
      have hne : p.contents.data.length ≠ 0 := by
        rw [hlen]
        exact hp.pos.ne'
      exact ⟨(pageState p).endSection, g, _,
        hexBlockLoop_end (Nat.not_le.mp hfull) hne hread rfl, hloop, hg, fun _ => rfl,
        fun hno => absurd hfollows hno⟩

/-- What is read from within a page is that page, or more. -/
theorem hexBlockLoop_longer {st : HexState} {q : FlashPage} {ps : List FlashPage} {g : InFile}
    (hq : q.Filled) (hfilled : ∀ r ∈ ps, r.Filled) (h : g.rest = hexTextWrite q.flag ps) :
    (hexBlockLoop st false (st.block q.bytes) g).block = st.block q.bytes
      ∨ q.bytes.length < (hexBlockLoop st false (st.block q.bytes) g).block.data.length := by
  by_cases hfull : blkMax ≤ (st.block q.bytes).data.length
  · rw [hexBlockLoop_full hfull]
    exact .inl rfl
  · have hroom := Nat.not_le.mp hfull
    have hlen : (st.block q.bytes).data.length = q.size.toNat := hq.length_bytes
    have hne : (st.block q.bytes).data.length ≠ 0 := by
      rw [hlen]
      exact hq.pos.ne'
    cases ps with
    | nil =>
        have hread := @hexPacketRead_eof g [] ⟨nofun, nofun⟩
          (h.trans (List.append_nil _).symm)
        rw [hexBlockLoop_eof hroom hread rfl]
        exact .inl rfl
    | cons r ps =>
        rw [hexTextWrite_cons] at h
        have hbehind : pagePacket q.flag r ++ (hexDataWrite r.addr r.bytes 0
            ++ hexTextWrite r.flag ps) ≠ [] := by simp [hexTextWrite_ne_nil]
        by_cases hflag : q.flag = r.flag
        · rw [sectionPacket, if_neg (not_not.mpr hflag), List.nil_append] at h
          exact .inr (lt_length_hexBlockLoop (hfilled r List.mem_cons_self) hroom
            (hexTextWrite_ne_nil _ _) h)
        · have hread := hexPacketRead_sectionPacket hflag hbehind h
          rw [hexBlockLoop_end hroom hne hread rfl]
          exact .inl rfl

/-- Pages that can be told apart in the text: each is told from the one before it, and the last
one is not full. -/
def PagesApart : List FlashPage → Prop
  | [] => False
  | [p] => p.size.toNat < blkMax
  | p :: q :: ps => FollowsPage p q ∧ PagesApart (q :: ps)

theorem length_contents_lt {st : HexState} {q : FlashPage} {g : InFile} (hq : q.Filled) :
    (hexBlockLoop st false (st.block q.bytes) g).block.data.length < 2 ^ 16 := by
  have hle := hq.le
  have hlen := hq.length_bytes
  refine (length_hexBlockLoop_lt ?_).trans (show blkMax + pktMax < 2 ^ 16 by decide)
  show q.bytes.length < _
  rw [hlen]
  exact Nat.lt_of_le_of_lt hle (by decide)

/-- The pages are found exactly where they can be told apart and there is room for them. -/
theorem pagesRead_iff {p : FlashPage} {ps : List FlashPage} {n : Nat} {f : InFile}
    (hfilled : ∀ q ∈ p :: ps, q.Filled) (hflags : ∀ q ∈ p :: ps, FlagRead q.flag)
    (h : f.rest = hexTextWrite p.flag ps) :
    PagesRead (readFlashPagesFrom n (hexBlockLoop (pageState p) false p.contents f)) (p :: ps)
      ↔ ps.length ≤ n ∧ PagesApart (p :: ps) := by
  induction ps generalizing p n f with
  | nil =>
      have hp := hfilled p List.mem_cons_self
      have hlen : p.contents.data.length = p.size.toNat := hp.length_bytes
      have hread := @hexPacketRead_eof f [] ⟨nofun, nofun⟩
        (h.trans (List.append_nil _).symm)
      by_cases hfull : blkMax ≤ p.contents.data.length
      · rw [hexBlockLoop_full hfull]
        refine iff_of_false (fun hpages => ?_) fun hapart => ?_
        · have hblock : p.contents.data.length < 2 ^ 16 :=
            hlen.trans_lt (Nat.lt_of_le_of_lt hp.le (by decide))
          exact not_pagesRead_nil _ _ _ ((pagesRead_cons_iff hblock rfl).mp hpages).2
        · have hlast : p.size.toNat < blkMax := hapart.2
          omega
      · have hroom := Nat.not_le.mp hfull
        have hblock : p.contents.data.length < 2 ^ 16 := hroom.trans (by decide)
        rw [hexBlockLoop_eof hroom hread rfl, pagesRead_last_iff hblock (show (-1 : Int) ≠ 0 by decide)]
        rw [hlen] at hroom
        exact iff_of_true ⟨rfl, rfl⟩ ⟨Nat.zero_le _, hroom⟩
  | cons q ps ih =>
      have hp := hfilled p List.mem_cons_self
      have hq := hfilled q (List.mem_cons_of_mem _ List.mem_cons_self)
      have hlen : p.contents.data.length = p.size.toNat := hp.length_bytes
      have hblock : p.contents.data.length < 2 ^ 16 :=
        hlen.trans_lt (Nat.lt_of_le_of_lt hp.le (by decide))
      by_cases hend : p.flag = q.flag → p.size.toNat = blkMax
      · obtain ⟨st, next, g, file, hloop, hread, hg, hfollows, hno⟩ := hexBlockLoop_next hp hq
          (hflags p List.mem_cons_self) (hflags q (List.mem_cons_of_mem _ List.mem_cons_self)) h hend
        rw [hloop, pagesRead_cons_iff hblock rfl, and_iff_right rfl]
        cases n with
        | zero =>
            refine iff_of_false (fun hpages => ?_) fun hapart => ?_
            · obtain ⟨read, rest, hnone, -⟩ := hpages
              cases hnone
            · exact absurd hapart.1 (Nat.not_succ_le_zero _)
        | succ n =>
            dsimp only
            rw [readFlashPages_succ, hread, List.length_cons, Nat.succ_le_succ_iff]
            by_cases hfollow : FollowsPage p q
            · have hst := hfollows hfollow
              subst hst
              rw [block_pageState, ih (fun r hr => hfilled r (List.mem_cons_of_mem _ hr))
                (fun r hr => hflags r (List.mem_cons_of_mem _ hr)) hg]
              exact and_congr_right fun _ => (and_iff_right hfollow).symm
            · refine iff_of_false (fun hpages => ?_) fun hapart => hfollow hapart.2.1
              -- the page is read with the address and the number of the one before it
              have hfirst := hpages.first (length_contents_lt hq)
              rcases hexBlockLoop_longer hq (fun r hr => hfilled r (by simp [hr])) hg
                with hsame | hlonger
              · exact hno hfollow (hsame.symm.trans hfirst)
              · rw [hfirst] at hlonger
                exact absurd hlonger (Nat.lt_irrefl _)
      · -- the data of both pages is in one block
        rw [Classical.not_imp] at hend
        obtain ⟨hflag, hsize⟩ := hend
        refine iff_of_false (fun hpages => ?_) fun hapart => hsize (hapart.2.1 hflag).1
        have hfirst := hpages.first (length_contents_lt hp)
        rw [block_pageState] at hfirst
        rw [hexTextWrite_cons, sectionPacket, if_neg (not_not.mpr hflag), List.nil_append] at h
        have hroom : p.contents.data.length < blkMax := by
          have hle := hp.le
          omega
        have hlonger := @lt_length_hexBlockLoop (pageState p) p.contents _ _ _ _ hq hroom
          (hexTextWrite_ne_nil _ _) h
        rw [hfirst] at hlonger
        exact absurd hlonger (Nat.lt_irrefl _)

/-- The pages that a reader has room for. -/
def maxPages : Nat := 257

/-- The page loop of the reader on the text of pages that a new process has written. -/
def readBackPages (ps : List FlashPage) : Option (List FlashPage × InFile) :=
  readFlashPages maxPages hexReset ⟨hexTextWrite 0x80 ps, 0⟩

/-- A page before the first one: the state after a reset. -/
def resetPage : FlashPage := ⟨0, 0, 0x80, 16384, List.replicate 16384 0⟩

theorem filled_resetPage : resetPage.Filled :=
  ⟨by decide, by decide, (List.length_replicate (n := 16384) (a := (0 : UInt8))).ge⟩

/-- Pages come back exactly where there are at most 257, their flags are the two of the format,
and they can be told apart. -/
theorem pagesRead_readBackPages_iff {ps : List FlashPage} (hfilled : ∀ p ∈ ps, p.Filled) :
    PagesRead (readBackPages ps) ps
      ↔ (∀ p ∈ ps, FlagRead p.flag) ∧ ps.length ≤ maxPages ∧ PagesApart ps := by
  cases ps with
  | nil => exact iff_of_false (not_pagesRead_nil _ _ _) fun hapart => hapart.2.2
  | cons p ps =>
      by_cases hflags : ∀ q ∈ p :: ps, FlagRead q.flag
      · obtain ⟨st, next, g, file, hloop, hread, hg, hfollows, -⟩ :=
          hexBlockLoop_next (f := ⟨hexTextWrite 0x80 (p :: ps), 0⟩) filled_resetPage
            (hfilled p List.mem_cons_self) (.inl rfl) (hflags p List.mem_cons_self) rfl
            fun _ => rfl
        have hst := hfollows fun _ => ⟨rfl, fun _ _ => ⟨rfl, rfl⟩⟩
        have hfull : blkMax ≤ resetPage.contents.data.length :=
          filled_resetPage.length_bytes.ge
        rw [hexBlockLoop_full hfull] at hloop
        cases hloop
        subst hst
        unfold readBackPages
        show PagesRead (readFlashPagesFrom 256 (hexBlockRead (pageState resetPage) _)) _ ↔ _
        rw [hread, block_pageState, pagesRead_iff hfilled hflags hg, and_iff_right hflags,
          List.length_cons]
        exact and_congr_left fun _ => Nat.succ_le_succ_iff.symm
      · refine iff_of_false (fun hpages => hflags ?_) fun hapart => hflags hapart.1
        exact hpages.flagRead (.inl rfl)

/-- A page of three bytes. -/
def shortPage (page : UInt16) (flag : UInt8) : FlashPage := ⟨0x4000, page, flag, 3, [1, 2, 3]⟩

/-- Two sections of one page each come back. -/
theorem pagesRead_readBackPages_sections :
    PagesRead (readBackPages [shortPage 1 0x80, shortPage 0 0]) [shortPage 1 0x80, shortPage 0 0] := by
  have hfilled : ∀ p ∈ [shortPage 1 0x80, shortPage 0 0], p.Filled := by
    intro p hp
    rcases List.mem_pair.mp hp with rfl | rfl <;> exact ⟨by decide, by decide, by decide⟩
  exact (pagesRead_readBackPages_iff hfilled).mpr
    ⟨by decide, by decide, fun h => absurd h (by decide), show 3 < blkMax by decide⟩

/-- Two short pages of one section are read as one page. -/
theorem not_pagesRead_shortPages :
    ¬PagesRead (readBackPages [shortPage 1 0x80, shortPage 2 0x80])
      [shortPage 1 0x80, shortPage 2 0x80] := by
  rintro ⟨read, rest, hread, hpages⟩
  have hone : (readBackPages [shortPage 1 0x80, shortPage 2 0x80]).map
      (fun out => out.1.map FlashPage.contents) = some [⟨0x4000, 2, 0x80, [1, 2, 3, 1, 2, 3]⟩] := by
    decide +kernel
  rw [hread, Option.map_some, hpages] at hone
  exact absurd hone (by decide)

end Tilibs.Files
