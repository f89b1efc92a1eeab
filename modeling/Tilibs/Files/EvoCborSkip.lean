import Tilibs.Evo.Cbor

/-!
# Tilibs.Files.EvoCborSkip

The CBOR walker of the files of the TI-84 Evo (`files_evo.cc`), which goes over an item without
making a value of it.

`evo_cbor_skip` knows more items than the parser of the calculator library, goes less deep, and
wants every break.  On the items that the parser is for the two go the same way.
-/

namespace Tilibs.Files

open Lib Evo

/-! ## the walker -/

def sizeMax : Nat := 2 ^ 64 - 1
def evoCborSkipMaxDepth : Nat := 32

/-- A number of `k` bytes. -/
def evoCborReadBE (k : Nat) (data : List UInt8) : Option (Nat × List UInt8) :=
  if data.length < k then none else some (getBE (data.take k), data.drop k)

/-- `evo_cbor_read_uint_arg` -/
def evoCborReadUintArg (addl : Nat) (data : List UInt8) : Option (Nat × List UInt8) :=
  if addl < 24 then some (addl, data)
  else if addl = 24 then evoCborReadBE 1 data
  else if addl = 25 then evoCborReadBE 2 data
  else if addl = 26 then evoCborReadBE 4 data
  else if addl = 27 then evoCborReadBE 8 data
  else none

/-- `evo_cbor_skip_items`, with the walker of the items inside. -/
def evoCborSkipItems (skip : List UInt8 → Option (List UInt8)) :
    Nat → List UInt8 → Option (List UInt8)
  | 0, data => some data
  | count + 1, data => (skip data).bind (evoCborSkipItems skip count)

/-- The loops up to a break; every round goes forward, so `fuel` is the number of bytes left. -/
def evoCborSkipUntil (skip : List UInt8 → Option (List UInt8)) :
    Nat → List UInt8 → Option (List UInt8)
  | 0, _ => none
  | _ + 1, [] => none
  | fuel + 1, b :: data =>
      if b = evoCborBreak then some data
      else (skip (b :: data)).bind (evoCborSkipUntil skip fuel)

/-- A key and a value. -/
def evoCborSkipPair (skip : List UInt8 → Option (List UInt8)) (data : List UInt8) :
    Option (List UInt8) :=
  (skip data).bind skip

/-- What follows a head. -/
def evoCborSkipBody (skip : List UInt8 → Option (List UInt8)) (major len : Nat)
    (data : List UInt8) : Option (List UInt8) :=
  if major = 0 ∨ major = 1 ∨ major = 7 then some data
  else if major = 2 ∨ major = 3 then if data.length < len then none else some (data.drop len)
  else if major = 4 then evoCborSkipItems skip len data
  else if major = 5 then
    if (2 ^ 64 - 1) / 2 < len then none else evoCborSkipItems skip (len * 2) data
  else none

/-- One level of `evo_cbor_skip` in a buffer of `total` bytes. -/
def evoCborSkipLevel (total : Nat) (skip : List UInt8 → Option (List UInt8)) :
    List UInt8 → Option (List UInt8)
  | [] => none
  | head :: data =>
      let major := head.toNat / 32
      let addl := head.toNat % 32
      if head = evoCborBreak then none
      else if addl = 31 then
        if major ≠ 2 ∧ major ≠ 3 ∧ major ≠ 4 ∧ major ≠ 5 then none
        else evoCborSkipUntil (if major = 5 then evoCborSkipPair skip else skip)
          (data.length + 1) data
      else (evoCborReadUintArg addl data).bind fun len =>
        -- the offset is the number of bytes that are read
        if sizeMax - (total - len.2.length) < len.1 then none
        else evoCborSkipBody skip major len.1 len.2

/-- `evo_cbor_skip` at the depth that leaves so many levels. -/
def evoCborSkipAt (total : Nat) : Nat → List UInt8 → Option (List UInt8)
  | 0 => fun _ => none
  | levels + 1 => evoCborSkipLevel total (evoCborSkipAt total levels)

/-- `evo_cbor_skip` on a buffer: the offset behind the item. -/
def evoCborSkip (data : List UInt8) (off : Nat) : Option Nat :=
  (evoCborSkipAt data.length (evoCborSkipMaxDepth + 1) (data.drop off)).map fun rest =>
    data.length - rest.length

/-! ## loops -/

/-- On the values of `R` the walker goes to their end, if at all, and then they are in `R'`. -/
def SkipsTo {α : Type} (skip : List UInt8 → Option (List UInt8)) (R R' : α → List UInt8 → Prop) :
    Prop :=
  ∀ a item rest stop, R a item → skip (item ++ rest) = some stop → stop = rest ∧ R' a item

/-- On the values of `R` the walker fails. -/
def FailsOn {α : Type} (skip : List UInt8 → Option (List UInt8)) (R : α → List UInt8 → Prop) :
    Prop :=
  ∀ a data, R a data → skip data = none

section Loops

variable {α : Type} {skip : List UInt8 → Option (List UInt8)} {R R' S : α → List UInt8 → Prop}
variable {as : List α} {body rest stop : List UInt8} {fuel : Nat}

theorem evoCborSkipItems_pair (skip : List UInt8 → Option (List UInt8)) (count : Nat)
    (data : List UInt8) :
    evoCborSkipItems skip (count * 2) data = evoCborSkipItems (evoCborSkipPair skip) count data := by
  induction count generalizing data with
  | zero => rfl
  | succ count ih =>
      have hmore : evoCborSkipItems skip (count * 2) = evoCborSkipItems (evoCborSkipPair skip) count :=
        funext ih
      rw [Nat.succ_mul]
      show (skip data).bind (fun data => (skip data).bind (evoCborSkipItems skip (count * 2)))
        = ((skip data).bind skip).bind (evoCborSkipItems (evoCborSkipPair skip) count)
      rw [hmore, Option.bind_assoc]

theorem evoCborSkipItems_seq (hskip : SkipsTo skip R R') (h : Seq R as body)
    (hstop : evoCborSkipItems skip as.length (body ++ rest) = some stop) :
    stop = rest ∧ Seq R' as body := by
  induction h with
  | nil => exact ⟨(Option.some.inj hstop).symm, .nil⟩
  | cons ha _ ih =>
      rw [List.append_assoc] at hstop
      obtain ⟨mid, hmid, hstop⟩ := Option.bind_eq_some_iff.mp hstop
      obtain ⟨rfl, ha'⟩ := hskip _ _ _ _ ha hmid
      obtain ⟨hrest, has⟩ := ih hstop
      exact ⟨hrest, .cons ha' has⟩

theorem evoCborSkipItems_broken (hskip : SkipsTo skip R R') (hfail : FailsOn skip S)
    (h : LastBroken R S as body) : evoCborSkipItems skip as.length body = none := by
  induction h with
  | last ha =>
      show (skip _).bind _ = none
      rw [hfail _ _ ha]
      rfl
  | cons ha _ ih =>
      apply Option.eq_none_iff_forall_ne_some.mpr
      intro stop hstop
      obtain ⟨mid, hmid, hmore⟩ := Option.bind_eq_some_iff.mp hstop
      obtain ⟨rfl, -⟩ := hskip _ _ _ _ ha hmid
      rw [ih] at hmore
      cases hmore

/-- The loop goes over whole values to what follows them. -/
theorem evoCborSkipUntil_seq (hskip : SkipsTo skip R R')
    (hR : ∀ a item, R a item → Begins evoCborBreak item) (h : Seq R as body)
    (hstop : evoCborSkipUntil skip fuel (body ++ rest) = some stop) :
    Seq R' as body ∧ ∃ fuel', evoCborSkipUntil skip fuel' rest = some stop := by
  induction h generalizing fuel with
  | nil => exact ⟨.nil, fuel, hstop⟩
  | cons ha _ ih =>
      obtain ⟨b, items, rfl, hb⟩ := hR _ _ ha
      rw [List.append_assoc] at hstop
      cases fuel with
      | zero => cases hstop
      | succ fuel =>
          obtain ⟨mid, hmid, hstop⟩ := Option.bind_eq_some_iff.mp ((if_neg hb).symm.trans hstop)
          obtain ⟨rfl, ha'⟩ := hskip _ _ _ _ ha hmid
          obtain ⟨has, hmore⟩ := ih hstop
          exact ⟨.cons ha' has, hmore⟩

theorem evoCborSkipUntil_nil (fuel : Nat) : evoCborSkipUntil skip fuel [] = none := by
  cases fuel <;> rfl

theorem evoCborSkipUntil_stopped (hskip : SkipsTo skip R R')
    (hR : ∀ a item, R a item → Begins evoCborBreak item) (h : Stopped R evoCborBreak as body)
    (hstop : evoCborSkipUntil skip fuel (body ++ rest) = some stop) :
    stop = rest ∧ Stopped R' evoCborBreak as body := by
  obtain ⟨items, hseq, rfl⟩ := h
  rw [List.append_assoc] at hstop
  obtain ⟨hseq', fuel', hmore⟩ := evoCborSkipUntil_seq hskip hR hseq hstop
  cases fuel' with
  | zero => cases hmore
  | succ fuel' => exact ⟨(Option.some.inj hmore).symm, items, hseq', rfl⟩

theorem evoCborSkipUntil_lastBroken (hskip : SkipsTo skip R R') (hfail : FailsOn skip S)
    (hR : ∀ a item, R a item → Begins evoCborBreak item)
    (hS : ∀ a item, S a item → Begins evoCborBreak item) (h : LastBroken R S as body) :
    evoCborSkipUntil skip fuel body = none := by
  induction h generalizing fuel with
  | last ha =>
      obtain ⟨b, items, rfl, hb⟩ := hS _ _ ha
      cases fuel with
      | zero => rfl
      | succ fuel =>
          refine (if_neg hb).trans ?_
          rw [hfail _ _ ha]
          rfl
  | cons ha hlast ih =>
      apply Option.eq_none_iff_forall_ne_some.mpr
      intro stop hstop
      obtain ⟨b, items, rfl, hb⟩ := hR _ _ ha
      cases fuel with
      | zero => cases hstop
      | succ fuel =>
          obtain ⟨mid, hmid, hmore⟩ := Option.bind_eq_some_iff.mp ((if_neg hb).symm.trans hstop)
          obtain ⟨rfl, -⟩ := hskip _ _ _ _ ha hmid
          rw [ih] at hmore
          cases hmore

theorem evoCborSkipUntil_endBroken (hskip : SkipsTo skip R R') (hfail : FailsOn skip S)
    (hR : ∀ a item, R a item → Begins evoCborBreak item)
    (hS : ∀ a item, S a item → Begins evoCborBreak item) (h : EndBroken R S as body) :
    evoCborSkipUntil skip fuel body = none := by
  cases h with
  | inl hseq =>
      apply Option.eq_none_iff_forall_ne_some.mpr
      intro stop hstop
      rw [← List.append_nil body] at hstop
      obtain ⟨-, fuel', hmore⟩ := evoCborSkipUntil_seq hskip hR hseq hstop
      rw [evoCborSkipUntil_nil] at hmore
      cases hmore
  | inr hlast => exact evoCborSkipUntil_lastBroken hskip hfail hR hS hlast

end Loops

/-! ## one level -/

section Levels

variable {skip : List UInt8 → Option (List UInt8)} {whole whole' broken : EvoCborValue → List UInt8 → Prop}
variable {total : Nat}

/-- The lengths that the parser reads are the same for the walker. -/
theorem evoCborReadUintArg_of_cborLen {addl : Nat} {data : List UInt8} {len : Nat × List UInt8}
    (h : cborLen addl data = some len) : evoCborReadUintArg addl data = some len := by
  unfold cborLen at h
  unfold evoCborReadUintArg evoCborReadBE
  grind

theorem evoCborSkipLevel_head {major n : Nat} {head data stop : List UInt8} (hmajor : major < 6)
    (h : CborHead major n head)
    (hstop : evoCborSkipLevel total skip (head ++ data) = some stop) :
    evoCborSkipBody skip major n data = some stop := by
  obtain ⟨initial, ext, rfl, hdiv, hmod, hlen⟩ := exists_cborLen_of_head hmajor h data
  rw [List.cons_append] at hstop
  unfold evoCborSkipLevel at hstop
  dsimp only at hstop
  rw [evoCborReadUintArg_of_cborLen hlen] at hstop
  split_ifs at hstop with hbreak hindefinite hother
  · omega
  · omega
  · obtain ⟨len, hsome, hstop⟩ := Option.bind_eq_some_iff.mp hstop
    obtain rfl := Option.some.inj hsome
    split_ifs at hstop
    rw [hdiv] at hstop
    exact hstop

theorem skipsTo_pair (hskip : SkipsTo skip whole whole') :
    SkipsTo (evoCborSkipPair skip) (CborPair whole) (CborPair whole') := by
  intro pair item rest stop hpair hstop
  cases hpair with
  | mk hkey hvalue =>
      obtain ⟨str, hkey, hcstr⟩ := hkey
      rw [List.append_assoc] at hstop
      obtain ⟨mid, hmid, hmore⟩ := Option.bind_eq_some_iff.mp hstop
      obtain ⟨rfl, hkey'⟩ := hskip _ _ _ _ hkey hmid
      obtain ⟨hrest, hvalue'⟩ := hskip _ _ _ _ hvalue hmore
      exact ⟨hrest, .mk ⟨str, hkey', hcstr⟩ hvalue'⟩

theorem failsOn_pair (hskip : SkipsTo skip whole whole') (hfail : FailsOn skip broken) :
    FailsOn (evoCborSkipPair skip) (CborPairBroken whole broken) := by
  intro pair data hpair
  cases hpair with
  | mk hkey hvalue =>
      obtain ⟨str, hkey, -⟩ := hkey
      apply Option.eq_none_iff_forall_ne_some.mpr
      intro stop hstop
      obtain ⟨mid, hmid, hmore⟩ := Option.bind_eq_some_iff.mp hstop
      obtain ⟨rfl, -⟩ := hskip _ _ _ _ hkey hmid
      rw [hfail _ _ hvalue] at hmore
      cases hmore

/-- Bytes of a given length. -/
theorem skipString {body rest stop : List UInt8}
    (hstop : (if (body ++ rest).length < body.length then none
      else some ((body ++ rest).drop body.length)) = some stop) : stop = rest := by
  rw [if_neg (by rw [List.length_append]; omega), List.drop_left] at hstop
  exact (Option.some.inj hstop).symm

theorem evoCborSkipBody_whole (hskip : SkipsTo skip whole whole') {major n : Nat}
    {v : EvoCborValue} {body rest stop : List UInt8} (h : CborBody whole major n v body)
    (hstop : evoCborSkipBody skip major n (body ++ rest) = some stop) :
    stop = rest ∧ CborBody whole' major n v body := by
  cases h with
  | uint => exact ⟨(Option.some.inj hstop).symm, .uint⟩
  | neg => exact ⟨(Option.some.inj hstop).symm, .neg⟩
  | bytes => exact ⟨skipString hstop, .bytes⟩
  | text => exact ⟨skipString hstop, .text⟩
  | array hseq =>
      obtain ⟨hrest, hseq'⟩ := evoCborSkipItems_seq hskip hseq hstop
      exact ⟨hrest, .array hseq'⟩
  | map hseq =>
      rename_i pairs
      have hitems : (if (2 ^ 64 - 1) / 2 < pairs.length then none
        else evoCborSkipItems skip (pairs.length * 2) (body ++ rest)) = some stop := hstop
      split_ifs at hitems
      rw [evoCborSkipItems_pair] at hitems
      obtain ⟨hrest, hseq'⟩ := evoCborSkipItems_seq (skipsTo_pair hskip) hseq hitems
      exact ⟨hrest, .map hseq'⟩

theorem evoCborSkipBody_broken (hskip : SkipsTo skip whole whole') (hfail : FailsOn skip broken)
    {major n : Nat} {v : EvoCborValue} {body : List UInt8}
    (h : CborBodyBroken whole broken major n v body) :
    evoCborSkipBody skip major n body = none := by
  cases h with
  | array hlast => exact evoCborSkipItems_broken hskip hfail hlast
  | map hlast =>
      rename_i pairs
      show (if (2 ^ 64 - 1) / 2 < pairs.length then none
        else evoCborSkipItems skip (pairs.length * 2) body) = none
      split
      · rfl
      · rw [evoCborSkipItems_pair]
        exact evoCborSkipItems_broken (skipsTo_pair hskip) (failsOn_pair hskip hfail) hlast

/-- A level goes over the items of the grammar when that is so for the items inside. -/
theorem evoCborSkipLevel_whole (hskip : SkipsTo skip whole whole')
    (hwhole : ∀ v item, whole v item → Begins evoCborBreak item) :
    SkipsTo (evoCborSkipLevel total skip) (CborItemLevel whole) (CborItemLevel whole') := by
  intro v item rest stop hitem hstop
  cases hitem with
  | definite hhead hbody =>
      rw [List.append_assoc] at hstop
      obtain ⟨hrest, hbody'⟩ := evoCborSkipBody_whole hskip hbody
        (evoCborSkipLevel_head (lt_of_cborBody hbody) hhead hstop)
      exact ⟨hrest, .definite hhead hbody'⟩
  | openArray hbody =>
      obtain ⟨hrest, hbody'⟩ := evoCborSkipUntil_stopped hskip hwhole hbody hstop
      exact ⟨hrest, .openArray hbody'⟩
  | openMap hbody =>
      obtain ⟨hrest, hbody'⟩ := evoCborSkipUntil_stopped (skipsTo_pair hskip)
        (fun _ _ => begins_of_cborPair hwhole) hbody hstop
      exact ⟨hrest, .openMap hbody'⟩
  | simple hmem =>
      refine ⟨?_, .simple hmem⟩
      simp only [List.mem_cons, List.not_mem_nil, or_false] at hmem
      rcases hmem with rfl | rfl | rfl | rfl
      all_goals
        have hsize : ∃ len : Nat, (if sizeMax - (total - rest.length) < len then none
            else some rest) = some stop := ⟨_, hstop⟩
        obtain ⟨len, hsize⟩ := hsize
        split_ifs at hsize
        exact (Option.some.inj hsize).symm

/-- A level fails on an item that ends before a break. -/
theorem evoCborSkipLevel_broken (hskip : SkipsTo skip whole whole') (hfail : FailsOn skip broken)
    (hwhole : ∀ v item, whole v item → Begins evoCborBreak item)
    (hbroken : ∀ v item, broken v item → Begins evoCborBreak item) :
    FailsOn (evoCborSkipLevel total skip) (CborUnclosedLevel whole broken) := by
  intro v data hitem
  cases hitem with
  | definite hhead hbody =>
      apply Option.eq_none_iff_forall_ne_some.mpr
      intro stop hstop
      have hbody' := evoCborSkipLevel_head (lt_of_cborBodyBroken hbody) hhead hstop
      rw [evoCborSkipBody_broken hskip hfail hbody] at hbody'
      cases hbody'
  | openArray hbody => exact evoCborSkipUntil_endBroken hskip hfail hwhole hbroken hbody
  | openMap hbody =>
      exact evoCborSkipUntil_endBroken (skipsTo_pair hskip) (failsOn_pair hskip hfail)
        (fun _ _ => begins_of_cborPair hwhole) (fun _ _ => begins_of_cborPair hwhole) hbody

end Levels

/-! ## the two walkers -/

theorem evoCborSkipAt_whole (total levels levels' k : Nat) :
    SkipsTo (evoCborSkipAt total levels) (CborItem levels') (CborItem (levels + k)) := by
  induction levels generalizing levels' with
  | zero => exact nofun
  | succ levels ih =>
      cases levels' with
      | zero => exact nofun
      | succ levels' =>
          rw [Nat.add_right_comm]
          exact evoCborSkipLevel_whole (ih levels') (cborInside_parseAt levels').whole

theorem evoCborSkipAt_broken (total levels levels' : Nat) :
    FailsOn (evoCborSkipAt total levels) (CborUnclosed levels') := by
  induction levels generalizing levels' with
  | zero => exact fun _ _ _ => rfl
  | succ levels ih =>
      cases levels' with
      | zero => exact nofun
      | succ levels' =>
          exact evoCborSkipLevel_broken (evoCborSkipAt_whole total levels levels' 0) (ih levels')
            (cborInside_parseAt levels').whole (cborInside_parseAt levels').broken

/-- Where both succeed they end at the same offset, and the parser succeeds on an item that it is
for when the walker does. -/
theorem evoCborSkip_evoCborParse (data : List UInt8) (off : Nat) :
    (∀ v stop stop', evoCborParse data off = some (v, stop) → evoCborSkip data off = some stop' →
        stop = stop')
      ∧ ∀ stop, evoCborSkip data off = some stop →
        (∃ levels v, CborItem levels v (slice data (off, stop - off))) →
        ∃ v, evoCborParse data off = some (v, stop) := by
  have hmeets := (cborInside_parseAt (evoCborMaxDepth + 1)).meets
  constructor
  · intro v stop stop' hparse hskip
    obtain ⟨rest, rfl, hread⟩ := evoCborParse_eq_some_iff.mp hparse
    obtain ⟨rest', hrest', rfl⟩ := Option.map_eq_some_iff.mp hskip
    cases (hmeets _ _ _).mp hread with
    | whole item hitem hdata =>
        rw [hdata] at hrest'
        obtain ⟨rfl, -⟩ := evoCborSkipAt_whole _ _ _ 0 _ _ _ _ hitem hrest'
        rfl
    | broken hunclosed _ =>
        rw [evoCborSkipAt_broken _ _ _ _ _ hunclosed] at hrest'
        cases hrest'
  · rintro stop hskip ⟨levels, v, hitem⟩
    obtain ⟨rest, hrest, hstop⟩ := Option.map_eq_some_iff.mp hskip
    have hdata : data.drop off = slice data (off, stop - off) ++ data.drop (off + (stop - off)) := by
      rw [← List.drop_drop]
      exact (List.take_append_drop _ _).symm
    rw [hdata] at hrest
    obtain ⟨rfl, hitem'⟩ := evoCborSkipAt_whole _ _ _ 32 _ _ _ _ hitem hrest
    exact ⟨v, evoCborParse_eq_some_iff.mpr ⟨_, hstop.symm, hdata ▸ hmeets.read_whole hitem' _⟩⟩

/-- An array that a break closes, and a byte behind it. -/
theorem evoCborSkip_evoCborParse_array :
    ∃ v, evoCborParse [0x9F, 0x01, 0xFF, 0x00] 0 = some (v, 3) := by
  refine (evoCborSkip_evoCborParse [0x9F, 0x01, 0xFF, 0x00] 0).2 3 rfl ⟨2, .array [.uint 1], ?_⟩
  have hone : CborItem 1 (.uint 1) ([0x01] ++ []) :=
    CborItemLevel.definite (.direct (show 1 < 24 by decide)) .uint
  exact CborItemLevel.openArray ⟨[0x01] ++ [] ++ [], .cons hone .nil, rfl⟩

end Tilibs.Files
