import Tilibs.CalcModel
import Tilibs.Files.IntelHex
import Tilibs.Files.VarEntry
import Tilibs.Lib.Alloc
import Tilibs.Lib.Fallible

/-!
# Tilibs.Files.FlashDup

The copy of a flash content, `tifiles_content_dup_flash` of `filesxx.cc`: a chain of contents,
each with a buffer of data and a table of pages.  The kinds of the payload, and the number of
pages, are taken from the first content of the chain.
-/

namespace Tilibs.Files

open Lib

/-! ## contents in memory -/

/-- `FlashPage` -/
structure PageCell where
  addr : UInt16
  page : UInt16
  flag : UInt8
  size : UInt16
  data : Option (Ptr (List UInt8))
  deriving DecidableEq

/-- `FlashContent` without its link to the next one; `pages` is NULL or a table of pointers. -/
structure FlashLink where
  model : CalcModel
  modelDst : CalcModel
  revisionMajor : UInt8
  revisionMinor : UInt8
  flags : UInt8
  objectType : UInt8
  revisionDay : UInt8
  revisionMonth : UInt8
  revisionYear : UInt16
  name : VarName
  deviceType : UInt8
  dataType : UInt8
  hwId : UInt8
  dataLength : UInt32
  dataPart : Option (Ptr (List UInt8))
  numPages : UInt32
  pages : Option (Ptr (List (Option (Ptr PageCell))))
  deriving DecidableEq

/-- The contents of a chain. -/
abbrev FlashChain := List (Ptr FlashLink)

/-- The bytes of a page. -/
def PageCell.bytes (p : PageCell) : List UInt8 :=
  ((p.data.map Ptr.val).getD []).take p.size.toNat

/-- The page without its place in memory. -/
def PageCell.toPage (p : PageCell) : FlashPage := ⟨p.addr, p.page, p.flag, p.size, p.bytes⟩

/-- The bytes of the data part. -/
def FlashLink.data (c : FlashLink) : Option (List UInt8) :=
  c.dataPart.map fun d => d.val.take c.dataLength.toNat

/-- The slots of the table of pages. -/
def FlashLink.slots (c : FlashLink) : List (Option (Ptr PageCell)) :=
  (c.pages.map Ptr.val).getD []

/-- The pages; a NULL pointer is none. -/
def FlashLink.pageList (c : FlashLink) : List (Option FlashPage) :=
  (c.slots.take c.numPages.toNat).map fun slot => slot.map fun p => p.val.toPage

/-! ## the copy -/

/-- What the copy must not do. -/
inductive DupFault
  | nullPointer
  | outOfBounds
  deriving DecidableEq

abbrev Dup := Alloc DupFault

/-- `g_malloc0` and `memcpy` of so many bytes; no bytes are allocated as a NULL pointer. -/
def dupBytes (n : Nat) (src : Option (Ptr (List UInt8))) : Dup (Option (Ptr (List UInt8))) :=
  if n = 0 then pure none
  else
    match src with
    | none => throw .nullPointer
    | some buffer =>
        if buffer.val.length < n then throw .outOfBounds
        else some <$> malloc (buffer.val.take n)

/-- The copy of a page. -/
def dupPage (slot : Option (Ptr PageCell)) : Dup (Option (Ptr PageCell)) :=
  match slot with
  | none => throw .nullPointer
  | some p => do
      let data ← dupBytes p.val.size.toNat p.val.data
      some <$> malloc { p.val with data }

/-- `tifiles_fp_create_array` and the loop over the pages; `count` is the number of pages of the
first content. -/
def dupPages (count : Nat) (c : FlashLink) : Dup (Option (Ptr (List (Option (Ptr PageCell))))) := do
  let places := (c.numPages + 1).toNat
  if count > 0 ∧ (places = 0 ∨ c.pages.isNone) then throw .nullPointer
  else if count > c.slots.length ∨ count > places then throw .outOfBounds
  else
    let copies ← (c.slots.take count).mapM dupPage
    if places = 0 then return none
    else some <$> malloc (copies ++ List.replicate (places - copies.length) none)

/-- The part for the TI-68k and TI-eZ80 models; the pointer was copied with the fields. -/
def dupDataPart (head c : FlashLink) : Dup (Option (Ptr (List UInt8))) :=
  if (tifilesCalcIsTi9x head.model || ticonvModelIsTiez80 head.model) && c.dataPart.isSome then
    dupBytes (c.dataLength + 1).toNat c.dataPart
  else pure c.dataPart

/-- The part for the TI-Z80 models. -/
def dupTable (head c : FlashLink) : Dup (Option (Ptr (List (Option (Ptr PageCell))))) :=
  if tifilesCalcIsTi8x head.model then dupPages head.numPages.toNat c else pure c.pages

/-- A turn of the loop over the chain; `head` is the first content. -/
def dupLink (head c : FlashLink) : Dup (Ptr FlashLink) := do
  let dataPart ← dupDataPart head c
  let pages ← dupTable head c
  malloc { c with dataPart, pages }

/-- `tifiles_content_dup_flash`; an empty chain is a NULL pointer. -/
def tifilesContentDupFlash (chain : FlashChain) : Dup FlashChain :=
  match chain with
  | [] => pure []
  | head :: _ => chain.mapM fun c => dupLink head.val c.val

/-! ## what a copy is -/

/-- A page whose buffer has the bytes that it says. -/
def PageCell.Valid (p : PageCell) : Prop := p.size.toNat ≤ ((p.data.map Ptr.val).getD []).length

/-- A content whose buffer has the bytes that it says, and whose pages end in a NULL pointer. -/
structure FlashLink.Valid (c : FlashLink) : Prop where
  data : ∀ d ∈ c.dataPart, c.dataLength.toNat ≤ d.val.length
  noPages : c.pages = none → c.numPages = 0
  pages : c.pages.isSome → ∃ cells : List (Ptr PageCell), c.slots = cells.map some ++ [none]
    ∧ cells.length = c.numPages.toNat ∧ ∀ p ∈ cells, p.val.Valid

/-- The addresses of a page. -/
def pageAddrs (p : Ptr PageCell) : List Nat := p.addr :: (p.val.data.map Ptr.addr).toList

/-- The addresses of a content. -/
def linkAddrs (c : Ptr FlashLink) : List Nat :=
  c.addr :: ((c.val.dataPart.map Ptr.addr).toList
    ++ ((c.val.pages.map Ptr.addr).toList ++ (c.val.slots.filterMap id).flatMap pageAddrs))

/-- The addresses of a chain. -/
def chainAddrs (chain : FlashChain) : List Nat := chain.flatMap linkAddrs

/-- Two contents that differ only in where they are. -/
structure SameContent (c c' : FlashLink) : Prop where
  fields : { c' with dataPart := c.dataPart, pages := c.pages } = c
  data : c'.data = c.data
  pages : c'.pageList = c.pageList

/-- A copy of a chain: the same contents, and no buffer of the chain. -/
structure IsCopy (chain dup : FlashChain) : Prop where
  same : List.Forall₂ (fun c c' => SameContent c.val c'.val) chain dup
  disjoint : List.Disjoint (chainAddrs dup) (chainAddrs chain)

/-- A content that is copied as a whole when `head` is the first of the chain. -/
structure Copied (head c : FlashLink) : Prop where
  data : ∀ d ∈ c.dataPart, (tifilesCalcIsTi9x head.model || ticonvModelIsTiez80 head.model) = true
    ∧ c.dataLength.toNat + 1 < 2 ^ 32 ∧ c.dataLength.toNat + 1 ≤ d.val.length
  z80 : tifilesCalcIsTi8x head.model = true →
    c.numPages = head.numPages ∧ c.numPages.toNat + 1 < 2 ^ 32
  other : tifilesCalcIsTi8x head.model = false → c.pages = none

/-! ## copying -/

section Copy

variable {lo : Nat}

theorem allocates_dupBytes {n : Nat} {src : Option (Ptr (List UInt8))}
    (h : n ≤ ((src.map Ptr.val).getD []).length) :
    Allocates lo (dupBytes n src) fun d =>
      (d.map Ptr.val).getD [] = ((src.map Ptr.val).getD []).take n
        ∧ (n ≠ 0 → d.isSome) ∧ ∀ x ∈ (d.map Ptr.addr).toList, lo ≤ x := by
  unfold dupBytes
  by_cases hn : n = 0
  · rw [if_pos hn]
    exact .pure ⟨by rw [hn]; rfl, fun hne => absurd hn hne, nofun⟩
  · rw [if_neg hn]
    cases src with
    | none => exact absurd (Nat.le_zero.mp h) hn
    | some buffer =>
        dsimp only
        rw [if_neg (show ¬buffer.val.length < n from Nat.not_lt.mpr h), ← bind_pure_comp]
        refine .bind (Q := fun d => d.val = buffer.val.take n ∧ lo ≤ d.addr)
          (.malloc fun addr haddr => ⟨rfl, haddr⟩) fun d hd => .pure ⟨hd.1, fun _ => rfl, ?_⟩
        intro x hx
        obtain rfl := List.mem_singleton.mp hx
        exact hd.2

/-- A page and its copy. -/
structure SamePage (lo : Nat) (p p' : Ptr PageCell) : Prop where
  toPage : p'.val.toPage = p.val.toPage
  addrs : ∀ x ∈ pageAddrs p', lo ≤ x

theorem allocates_dupPage {p : Ptr PageCell} (h : p.val.Valid) :
    Allocates lo (dupPage (some p)) fun slot => ∃ p', slot = some p' ∧ SamePage lo p p' := by
  unfold dupPage
  refine .bind (allocates_dupBytes h) fun data ⟨hdata, _, haddrs⟩ => ?_
  rw [← bind_pure_comp]
  refine .bind (.malloc fun addr haddr => ?_) fun p' hp' => .pure ⟨p', rfl, hp'⟩
  constructor
  · show FlashPage.mk _ _ _ _ _ = FlashPage.mk _ _ _ _ _
    unfold PageCell.bytes
    dsimp only
    rw [hdata, List.take_take, Nat.min_self]
  · intro x hx
    rcases List.mem_cons.mp hx with rfl | hx
    · exact haddr
    · exact haddrs x hx

/-- The pages of a content are in the first slots of its table. -/
theorem FlashLink.Valid.cells {c : FlashLink} (h : c.Valid) :
    ∃ cells : List (Ptr PageCell), c.slots.take c.numPages.toNat = cells.map some
      ∧ cells.length = c.numPages.toNat ∧ ∀ p ∈ cells, p.val.Valid := by
  cases hpages : c.pages with
  | none => exact ⟨[], by rw [h.noPages hpages]; rfl, by rw [h.noPages hpages]; rfl, nofun⟩
  | some table =>
      obtain ⟨cells, hslots, hlength, hvalid⟩ := h.pages (by rw [hpages]; rfl)
      refine ⟨cells, ?_, hlength, hvalid⟩
      rw [hslots, List.take_left' (by rw [List.length_map, hlength])]

theorem exists_map_some {R : Ptr PageCell → Ptr PageCell → Prop} {cells : List (Ptr PageCell)}
    {copies : List (Option (Ptr PageCell))}
    (h : List.Forall₂ (fun p slot => ∃ p', slot = some p' ∧ R p p') cells copies) :
    ∃ cells', copies = cells'.map some ∧ List.Forall₂ R cells cells' := by
  induction h with
  | nil => exact ⟨[], rfl, .nil⟩
  | cons hp _ ih =>
      obtain ⟨p', rfl, hp'⟩ := hp
      obtain ⟨cells', rfl, hcells'⟩ := ih
      exact ⟨p' :: cells', rfl, .cons hp' hcells'⟩

theorem toNat_add_one {n : UInt32} (h : n.toNat + 1 < 2 ^ 32) : (n + 1).toNat = n.toNat + 1 := by
  rw [UInt32.toNat_add]
  exact Nat.mod_eq_of_lt h

/-- With its own number of pages the table of a content is copied as a whole. -/
theorem allocates_dupPages {c : FlashLink} (hvalid : c.Valid)
    (hplaces : c.numPages.toNat + 1 < 2 ^ 32) {cells : List (Ptr PageCell)}
    (hcells : c.slots.take c.numPages.toNat = cells.map some)
    (hlength : cells.length = c.numPages.toNat) (hpages : ∀ p ∈ cells, p.val.Valid) :
    Allocates lo (dupPages c.numPages.toNat c) fun pages => ∃ table cells',
      pages = some table ∧ lo ≤ table.addr ∧ table.val = cells'.map some ++ [none]
        ∧ List.Forall₂ (SamePage lo) cells cells' := by
  have hsome : c.numPages.toNat > 0 → c.pages.isSome := by
    intro hpos
    by_contra hnone
    rw [hvalid.noPages (Option.not_isSome_iff_eq_none.mp hnone)] at hpos
    exact absurd hpos (Nat.lt_irrefl 0)
  have hslots : c.numPages.toNat ≤ c.slots.length := by
    have htake := congrArg List.length hcells
    rw [List.length_take, List.length_map] at htake
    omega
  unfold dupPages
  dsimp only
  rw [toNat_add_one hplaces, if_neg, if_neg (by omega), hcells]
  · refine .bind (Q := fun copies => ∃ cells', copies = cells'.map some
      ∧ List.Forall₂ (SamePage lo) cells cells') ?_ fun copies hcopies => ?_
    · intro next hnext
      obtain ⟨copies, next', hrun, hle, hall⟩ := Allocates.mapM (f := dupPage)
        (R := fun slot slot' => ∀ p, slot = some p → ∃ p', slot' = some p' ∧ SamePage lo p p')
        (by
          intro slot hslot
          obtain ⟨p, hp, rfl⟩ := List.mem_map.mp hslot
          intro next hnext
          obtain ⟨slot', next', hrun, hle, hpage⟩ := allocates_dupPage (hpages p hp) next hnext
          refine ⟨slot', next', hrun, hle, ?_⟩
          rintro _ ⟨rfl⟩
          exact hpage) next hnext
      rw [List.forall₂_map_left_iff] at hall
      exact ⟨copies, next', hrun, hle, exists_map_some (hall.imp fun p slot h => h p rfl)⟩
    · obtain ⟨cells', rfl, hcells'⟩ := hcopies
      rw [if_neg (Nat.succ_ne_zero _), ← bind_pure_comp]
      refine .bind (.malloc fun addr haddr => ?_) fun table htable =>
        .pure ⟨table, cells', rfl, htable⟩
      refine ⟨haddr, ?_, hcells'⟩
      dsimp only
      rw [List.length_map, ← hcells'.length_eq, hlength, Nat.add_sub_cancel_left]
      rfl
  · rintro ⟨hpos, hzero | hnone⟩
    · omega
    · have his := hsome hpos
      rw [Option.isNone_iff_eq_none.mp hnone] at his
      cases his

theorem map_toPage_of_samePage {cells cells' : List (Ptr PageCell)}
    (h : List.Forall₂ (SamePage lo) cells cells') :
    (cells'.map fun p => p.val.toPage) = cells.map fun p => p.val.toPage := by
  induction h with
  | nil => rfl
  | cons hp _ ih => rw [List.map_cons, List.map_cons, hp.toPage, ih]

theorem addrs_of_samePage {cells cells' : List (Ptr PageCell)}
    (h : List.Forall₂ (SamePage lo) cells cells') {x : Nat} (hx : x ∈ cells'.flatMap pageAddrs) :
    lo ≤ x := by
  induction h with
  | nil => cases hx
  | cons hp _ ih =>
      rw [List.flatMap_cons] at hx
      rcases List.mem_append.mp hx with hx | hx
      · exact hp.addrs x hx
      · exact ih hx

theorem pageList_of_cells {c : FlashLink} {cells : List (Ptr PageCell)}
    (h : c.slots.take c.numPages.toNat = cells.map some) :
    c.pageList = cells.map fun p => some p.val.toPage := by
  unfold FlashLink.pageList
  rw [h, List.map_map]
  rfl

theorem filterMap_slots {cells : List (Ptr PageCell)} :
    (cells.map some ++ [none]).filterMap id = cells := by
  rw [List.filterMap_append, List.filterMap_map]
  simp

/-- The data part of a content that is copied. -/
theorem allocates_dupDataPart {head c : FlashLink} (hcopied : Copied head c) :
    Allocates lo (dupDataPart head c) fun d =>
      (d.map fun d => d.val.take c.dataLength.toNat) = c.data
        ∧ ∀ x ∈ (d.map Ptr.addr).toList, lo ≤ x := by
  unfold dupDataPart
  cases hdata : c.dataPart with
  | none =>
      rw [if_neg (by simp)]
      refine .pure ⟨?_, nofun⟩
      unfold FlashLink.data
      rw [hdata]
  | some d =>
      obtain ⟨hmodel, hmore, hroom⟩ := hcopied.data d hdata
      rw [if_pos (by rw [hmodel]; rfl), toNat_add_one hmore]
      intro next hnext
      obtain ⟨d', next', hrun, hle, hbytes, hsome, haddrs⟩ :=
        @allocates_dupBytes lo _ (some d) hroom next hnext
      refine ⟨d', next', hrun, hle, ?_, haddrs⟩
      obtain ⟨d', rfl⟩ := Option.isSome_iff_exists.mp (hsome (Nat.succ_ne_zero _))
      have hval : d'.val = d.val.take (c.dataLength.toNat + 1) := hbytes
      unfold FlashLink.data
      rw [hdata, Option.map_some, Option.map_some, hval, List.take_take,
        Nat.min_eq_left (Nat.le_succ _)]

/-- A content that is copied as a whole. -/
theorem allocates_dupLink {head : FlashLink} {c : Ptr FlashLink} (hvalid : c.val.Valid)
    (hcopied : Copied head c.val) :
    Allocates lo (dupLink head c.val) fun c' =>
      SameContent c.val c'.val ∧ ∀ x ∈ linkAddrs c', lo ≤ x := by
  unfold dupLink
  refine .bind (allocates_dupDataPart hcopied) fun dataPart ⟨hdata, hdataAddrs⟩ => ?_
  by_cases h8x : tifilesCalcIsTi8x head.model = true
  · obtain ⟨hnum, hplaces⟩ := hcopied.z80 h8x
    obtain ⟨cells, hcells, hlength, hpages⟩ := hvalid.cells
    unfold dupTable
    rw [if_pos h8x, ← hnum]
    refine .bind (allocates_dupPages hvalid hplaces hcells hlength hpages) fun pages hcopy => ?_
    obtain ⟨table, cells', rfl, htable, hslots, hsame⟩ := hcopy
    refine .malloc fun addr haddr => ⟨⟨rfl, hdata, ?_⟩, ?_⟩
    · rw [pageList_of_cells hcells]
      refine (@pageList_of_cells _ cells' ?_).trans ?_
      · show table.val.take c.val.numPages.toNat = _
        rw [hslots, List.take_left' (by rw [List.length_map, ← hsame.length_eq, hlength])]
      · have hmap := congrArg (List.map some) (map_toPage_of_samePage hsame)
        rw [List.map_map, List.map_map] at hmap
        exact hmap
    · intro x hx
      rcases List.mem_cons.mp hx with rfl | hx
      · exact haddr
      · rcases List.mem_append.mp hx with hx | hx
        · exact hdataAddrs x hx
        · rcases List.mem_append.mp hx with hx | hx
          · obtain rfl := List.mem_singleton.mp hx
            exact htable
          · have hcellsOf : (table.val.filterMap id).flatMap pageAddrs
                = cells'.flatMap pageAddrs := by
              rw [hslots, filterMap_slots]
            change x ∈ (table.val.filterMap id).flatMap pageAddrs at hx
            rw [hcellsOf] at hx
            exact addrs_of_samePage hsame hx
  · have hnone := hcopied.other (Bool.eq_false_of_not_eq_true h8x)
    unfold dupTable
    rw [if_neg h8x]
    refine .bind (.pure (Q := fun pages => pages = c.val.pages) rfl) fun pages hpages => ?_
    subst hpages
    refine .malloc fun addr haddr => ⟨⟨rfl, hdata, rfl⟩, ?_⟩
    intro x hx
    unfold linkAddrs FlashLink.slots at hx
    dsimp only at hx
    rw [hnone] at hx
    rcases List.mem_cons.mp hx with rfl | hx
    · exact haddr
    · rcases List.mem_append.mp hx with hx | hx
      · exact hdataAddrs x hx
      · simp at hx

/-- A chain whose contents are all copied as a whole is copied. -/
theorem allocates_dupChain {head : FlashLink} {chain : FlashChain}
    (hvalid : ∀ c ∈ chain, c.val.Valid) (hcopied : ∀ c ∈ chain, Copied head c.val) :
    Allocates lo (chain.mapM fun c => dupLink head c.val)
      (List.Forall₂ (fun c c' => SameContent c.val c'.val ∧ ∀ x ∈ linkAddrs c', lo ≤ x) chain) :=
  .mapM fun c hc => allocates_dupLink (hvalid c hc) (hcopied c hc)

end Copy

/-! ## copies that are whole -/

section Whole

theorem exec_dupBytes_ok {n : Nat} {src d : Option (Ptr (List UInt8))} {s t : Nat}
    (h : Proc.exec (dupBytes n src) s = (.ok d, t)) :
    if n = 0 then d = none else ∃ buffer, src = some buffer ∧ n ≤ buffer.val.length := by
  unfold dupBytes at h
  by_cases hn : n = 0
  · rw [if_pos hn] at h ⊢
    cases h
    rfl
  · rw [if_neg hn] at h ⊢
    cases src with
    | none => cases h
    | some buffer =>
        dsimp only at h
        by_cases hshort : buffer.val.length < n
        · rw [if_pos hshort] at h
          cases h
        · exact ⟨buffer, rfl, Nat.not_lt.mp hshort⟩

theorem toNat_add_one_of_ne_zero {n : UInt32} (h : (n + 1).toNat ≠ 0) :
    n.toNat + 1 < 2 ^ 32 := by
  rw [UInt32.toNat_add] at h
  have hlt := n.toNat_lt
  change (n.toNat + 1) % 2 ^ 32 ≠ 0 at h
  omega

/-- A data part that was copied as a whole. -/
theorem copied_data_of_exec {head c : FlashLink} {d : Option (Ptr (List UInt8))} {s t : Nat}
    (h : Proc.exec (dupDataPart head c) s = (.ok d, t))
    (hdata : (d.map fun d => d.val.take c.dataLength.toNat) = c.data)
    (hdisjoint : ∀ x ∈ d.map Ptr.addr, x ∉ c.dataPart.map Ptr.addr) :
    ∀ d ∈ c.dataPart, (tifilesCalcIsTi9x head.model || ticonvModelIsTiez80 head.model) = true
      ∧ c.dataLength.toNat + 1 < 2 ^ 32 ∧ c.dataLength.toNat + 1 ≤ d.val.length := by
  intro buffer hbuffer
  have hpart : c.dataPart = some buffer := hbuffer
  unfold dupDataPart at h
  rw [hpart] at h
  by_cases hmodel : (tifilesCalcIsTi9x head.model || ticonvModelIsTiez80 head.model) = true
  · rw [if_pos (by rw [hmodel]; rfl)] at h
    have hcopy := exec_dupBytes_ok h
    unfold FlashLink.data at hdata
    by_cases hzero : (c.dataLength + 1).toNat = 0
    · -- the size of the copy has overflowed, and the copy is a NULL pointer
      rw [if_pos hzero] at hcopy
      subst hcopy
      rw [hpart] at hdata
      cases hdata
    · rw [if_neg hzero] at hcopy
      obtain ⟨_, heq, hroom⟩ := hcopy
      cases heq
      have hmore := toNat_add_one_of_ne_zero hzero
      exact ⟨hmodel, hmore, by rw [← toNat_add_one hmore]; exact hroom⟩
  · rw [if_neg (by simp [hmodel])] at h
    cases h
    exact absurd (show buffer.addr ∈ c.dataPart.map Ptr.addr by rw [hpart]; rfl)
      (hdisjoint buffer.addr rfl)

theorem isSome_of_exec_dupPages {slots copies : List (Option (Ptr PageCell))} {s t : Nat}
    (h : Proc.exec (slots.mapM dupPage) s = (.ok copies, t)) : none ∉ slots := by
  have hall := forall₂_of_exec_mapM h
  induction hall generalizing s with
  | nil => exact List.not_mem_nil
  | cons hslot hrest ih =>
      rw [List.mapM_cons] at h
      obtain ⟨_, _, hpage, h⟩ := Proc.exec_bind_eq_ok_iff.mp h
      obtain ⟨_, _, hpages, h⟩ := Proc.exec_bind_eq_ok_iff.mp h
      cases h
      intro hmem
      rcases List.mem_cons.mp hmem with rfl | hmem
      · cases hpage
      · exact ih hpages hmem

/-- A table of pages that was copied as a whole has as many pages as the first content. -/
theorem copied_pages_of_exec {c : FlashLink} {count : Nat}
    {pages : Option (Ptr (List (Option (Ptr PageCell))))} {s t : Nat} (hvalid : c.Valid)
    (h : Proc.exec (dupPages count c) s = (.ok pages, t))
    (hpages : FlashLink.pageList { c with pages } = c.pageList) :
    c.numPages.toNat = count ∧ c.numPages.toNat + 1 < 2 ^ 32 := by
  obtain ⟨cells, hcells, hlength, -⟩ := hvalid.cells
  rw [pageList_of_cells hcells] at hpages
  unfold dupPages at h
  dsimp only at h
  split at h
  · cases h
  · next hnull =>
    split at h
    · cases h
    · next hbounds =>
      obtain ⟨copies, u, hcopies, h⟩ := Proc.exec_bind_eq_ok_iff.mp h
      have hcount : copies.length = count := by
        rw [← (forall₂_of_exec_mapM hcopies).length_eq, List.length_take]
        omega
      -- the NULL pointer behind the pages was not copied
      have hle : count ≤ c.numPages.toNat := by
        by_contra hmore
        have hsome : c.pages.isSome := by
          by_contra hnone
          refine hnull ⟨by omega, Or.inr ?_⟩
          rw [Option.not_isSome_iff_eq_none.mp hnone]
          rfl
        obtain ⟨cells', hslots, hlength', -⟩ := hvalid.pages hsome
        apply isSome_of_exec_dupPages hcopies
        rw [hslots, List.take_of_length_le (by
          rw [List.length_append, List.length_map, List.length_singleton]
          omega)]
        exact List.mem_append_right _ List.mem_cons_self
      by_cases hzero : (c.numPages + 1).toNat = 0
      · rw [if_pos hzero] at h
        cases h
        have hnil : FlashLink.pageList { c with pages := none } = [] := by
          unfold FlashLink.pageList FlashLink.slots
          dsimp only
          rw [Option.map_none, Option.getD_none, List.take_nil, List.map_nil]
        have hlengths := congrArg List.length (hnil.symm.trans hpages)
        rw [List.length_map, hlength, List.length_nil] at hlengths
        rw [UInt32.toNat_add, ← hlengths] at hzero
        cases hzero
      · have hplaces := toNat_add_one_of_ne_zero hzero
        rw [if_neg hzero, ← bind_pure_comp] at h
        obtain ⟨table, v, htable, h⟩ := Proc.exec_bind_eq_ok_iff.mp h
        cases htable
        cases h
        refine ⟨?_, hplaces⟩
        -- a slot that was not filled is a NULL pointer
        by_contra hne
        have hmem : none ∈ cells.map fun p => some p.val.toPage := by
          rw [← hpages]
          refine List.mem_map.mpr ⟨none, ?_, rfl⟩
          show none ∈ (copies ++ List.replicate ((c.numPages + 1).toNat - copies.length) none).take
            c.numPages.toNat
          rw [List.take_append, List.take_replicate, toNat_add_one hplaces, hcount]
          exact List.mem_append_right _ (List.mem_replicate.mpr ⟨by omega, rfl⟩)
        obtain ⟨p, -, hp⟩ := List.mem_map.mp hmem
        cases hp

/-- A content whose copy is the same and shares nothing with it was copied as a whole. -/
theorem copied_of_exec {head : FlashLink} {c c' : Ptr FlashLink} {s t : Nat}
    (hvalid : c.val.Valid) (h : Proc.exec (dupLink head c.val) s = (.ok c', t))
    (hsame : SameContent c.val c'.val) (hdisjoint : List.Disjoint (linkAddrs c') (linkAddrs c)) :
    Copied head c.val := by
  unfold dupLink at h
  obtain ⟨dataPart, u, hdataPart, h⟩ := Proc.exec_bind_eq_ok_iff.mp h
  obtain ⟨pages, v, htable, h⟩ := Proc.exec_bind_eq_ok_iff.mp h
  cases h
  have hdata := copied_data_of_exec hdataPart hsame.data fun x hx hx' =>
    hdisjoint (show x ∈ linkAddrs ⟨v, _⟩ from List.mem_cons_of_mem _
        (List.mem_append_left _ (Option.mem_toList.mpr hx)))
      (List.mem_cons_of_mem _ (List.mem_append_left _ (Option.mem_toList.mpr hx')))
  unfold dupTable at htable
  refine ⟨hdata, ?_, ?_⟩
  · intro h8x
    rw [if_pos h8x] at htable
    obtain ⟨hnum, hplaces⟩ := copied_pages_of_exec hvalid htable hsame.pages
    exact ⟨UInt32.toNat_inj.mp hnum, hplaces⟩
  · intro h8x
    rw [if_neg (by rw [h8x]; exact Bool.false_ne_true)] at htable
    cases htable
    -- the pointer to the table is the same
    by_contra hsome
    obtain ⟨table, hpages⟩ := Option.ne_none_iff_exists'.mp hsome
    refine hdisjoint (a := table.addr) ?_ ?_
    · unfold linkAddrs
      refine List.mem_cons_of_mem _ (List.mem_append_right _ (List.mem_append_left _ ?_))
      rw [hpages]
      exact List.mem_cons_self
    · unfold linkAddrs
      refine List.mem_cons_of_mem _ (List.mem_append_right _ (List.mem_append_left _ ?_))
      rw [hpages]
      exact List.mem_cons_self

/-- A chain is copied exactly when all of its contents are copied as a whole: those of a TI-Z80
model have as many pages as the first one, those of another have no table of pages, and a data part
is there only on the TI-68k and TI-eZ80 models, in a buffer of one byte more. -/
theorem tifilesContentDupFlash_isCopy_iff {head : Ptr FlashLink} {chain : FlashChain} {next : Nat}
    (hvalid : ∀ c ∈ head :: chain, c.val.Valid)
    (hnext : ∀ x ∈ chainAddrs (head :: chain), x < next) :
    (∃ dup next', Proc.exec (tifilesContentDupFlash (head :: chain)) next = (.ok dup, next')
        ∧ IsCopy (head :: chain) dup) ↔
      ∀ c ∈ head :: chain, Copied head.val c.val := by
  constructor
  · rintro ⟨dup, next', hrun, hsame, hdisjoint⟩ c hc
    have hall := List.Forall₂.mp (fun _ _ => And.intro) (forall₂_of_exec_mapM hrun) hsame
    obtain ⟨c', hc', ⟨s, t, hlink⟩, hcontent⟩ := (exists_of_forall₂ hall).1 c hc
    refine copied_of_exec (hvalid c hc) hlink hcontent ?_
    intro x hx hx'
    exact hdisjoint (List.mem_flatMap.mpr ⟨c', hc', hx⟩) (List.mem_flatMap.mpr ⟨c, hc, hx'⟩)
  · intro hcopied
    obtain ⟨dup, next', hrun, -, hall⟩ :=
      allocates_dupChain hvalid hcopied next le_rfl
    refine ⟨dup, next', hrun, hall.imp fun c c' h => h.1, ?_⟩
    intro x hx hx'
    have hfresh : next ≤ x := by
      obtain ⟨c', hc', hxc'⟩ := List.mem_flatMap.mp hx
      obtain ⟨c, -, -, haddrs⟩ := (exists_of_forall₂ hall).2 c' hc'
      exact haddrs x hxc'
    exact absurd (hnext x hx') (Nat.not_lt.mpr hfresh)

end Whole

/-! ## two contents -/

/-- A page of two bytes. -/
def pageAt (addr : Nat) : Ptr PageCell where
  addr := addr
  val := {
    addr := 0x4000
    page := 0
    flag := 0x80
    size := 2
    data := some ⟨addr + 1, [1, 2]⟩ }

/-- An application of a TI-83 Plus. -/
def linkAt (addr : Nat) (cells : List (Ptr PageCell)) : Ptr FlashLink where
  addr := addr
  val := {
    model := .ti83p
    modelDst := .ti83p
    revisionMajor := 1
    revisionMinor := 0
    flags := 0
    objectType := 0
    revisionDay := 0
    revisionMonth := 0
    revisionYear := 0
    name := .empty
    deviceType := 0x73
    dataType := 0x24
    hwId := 0
    dataLength := 0
    dataPart := none
    numPages := UInt32.ofNat cells.length
    pages := some ⟨addr + 1, cells.map some ++ [none]⟩ }

theorem valid_linkAt_one (addr page : Nat) : (linkAt addr [pageAt page]).val.Valid where
  data := nofun
  noPages := nofun
  pages _ := ⟨[pageAt page], rfl, rfl, fun p hp => by
    obtain rfl := List.mem_singleton.mp hp
    show 2 ≤ 2
    exact le_rfl⟩

theorem valid_linkAt_nil (addr : Nat) : (linkAt addr []).val.Valid where
  data := nofun
  noPages := nofun
  pages _ := ⟨[], rfl, rfl, nofun⟩

theorem tifilesContentDupFlash_isCopy_iff_two :
    ∃ dup next', Proc.exec (tifilesContentDupFlash [linkAt 0 [pageAt 2], linkAt 4 [pageAt 6]]) 8
        = (.ok dup, next') ∧ IsCopy [linkAt 0 [pageAt 2], linkAt 4 [pageAt 6]] dup :=
  (tifilesContentDupFlash_isCopy_iff
    (by
      intro c hc
      rcases List.mem_cons.mp hc with rfl | hc
      · exact valid_linkAt_one 0 2
      · obtain rfl := List.mem_singleton.mp hc
        exact valid_linkAt_one 4 6) (by decide)).mpr fun c hc => by
    rcases List.mem_cons.mp hc with rfl | hc
    · exact ⟨nofun, fun _ => ⟨rfl, by decide⟩, nofun⟩
    · obtain rfl := List.mem_singleton.mp hc
      exact ⟨nofun, fun _ => ⟨rfl, by decide⟩, nofun⟩

/-- The first content has no page, so the page of the second one is not copied. -/
theorem not_isCopy_of_fewer_pages :
    (∀ c ∈ [linkAt 0 [], linkAt 2 [pageAt 4]], c.val.Valid) ∧
      ∃ dup next', Proc.exec (tifilesContentDupFlash [linkAt 0 [], linkAt 2 [pageAt 4]]) 6
        = (.ok dup, next') ∧ ¬IsCopy [linkAt 0 [], linkAt 2 [pageAt 4]] dup := by
  constructor
  · intro c hc
    rcases List.mem_cons.mp hc with rfl | hc
    · exact valid_linkAt_nil 0
    · obtain rfl := List.mem_singleton.mp hc
      exact valid_linkAt_one 2 4
  · refine ⟨_, _, rfl, fun h => ?_⟩
    cases h.same with
    | cons _ hrest =>
        cases hrest with
        | cons hsame _ => exact absurd hsame.pages (by decide)

end Tilibs.Files
