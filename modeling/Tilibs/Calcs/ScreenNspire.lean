import Mathlib

/-!
# Tilibs.Calcs.ScreenNspire

The run-length encoding of Nspire screenshots.

A block is a header and its payload: a value to repeat, or values to copy.  The decoder compares
where a block ends in the output with the size of the output, and never where it ends in the
input; the position in the output is a 32-bit number.
-/

namespace Tilibs.Calcs

/-! ## the decoder -/

/-- `CalcPixelFormat`. -/
inductive CalcPixelFormat
  | mono
  | gray4
  | rgb565le
  deriving DecidableEq, Repr

/-- The errors of the conversions of screenshots. -/
inductive ScreenErr
  | invalidScreenshot
  | invalidParameter
  deriving DecidableEq, Repr

/-- The loop for `CALC_PIXFMT_GRAY_4`.  `src` is the input from `i` on, `out` what was written
to `dst`, up to `q`; `none` when the loop reads behind the input or writes behind the output. -/
def grayLoop (maxOutputSize : UInt32) (src : List UInt8) (j : UInt32) (out : List UInt8) :
    Option (Except ScreenErr (List UInt8)) :=
  match src with
  | [] => some (.ok out)
  | header :: src =>
      if header < 0x80 then
        -- "repeat 8-bit value" block; the value is read before the check
        let cnt := header + 1
        match src with
        | [] => none
        | val :: src =>
            if j + cnt.toUInt32 > maxOutputSize then some (.error .invalidScreenshot)
            else if maxOutputSize.toNat < out.length + cnt.toNat then none
            else grayLoop maxOutputSize src (j + cnt.toUInt32) (out ++ List.replicate cnt.toNat val)
      else
        -- "verbatim" block of 8-bit values
        let cnt := -header + 1
        if j + cnt.toUInt32 > maxOutputSize then some (.error .invalidScreenshot)
        else if maxOutputSize.toNat < out.length + cnt.toNat ∨ src.length < cnt.toNat then none
        else grayLoop maxOutputSize (src.drop cnt.toNat) (j + cnt.toUInt32) (out ++ src.take cnt.toNat)
termination_by src.length

/-- The loop for `CALC_PIXFMT_RGB_565_LE`. -/
def colorLoop (maxOutputSize : UInt32) (src : List UInt8) (j : UInt32) (out : List UInt8) :
    Option (Except ScreenErr (List UInt8)) :=
  match src with
  | [] => some (.ok out)
  | header :: src =>
      if header < 0x80 then
        -- "repeat 32-bit value" block
        let cnt := header + 1
        if j + cnt.toUInt32 * 4 > maxOutputSize then some (.error .invalidScreenshot)
        else if maxOutputSize.toNat < out.length + 4 * cnt.toNat ∨ src.length < 4 then none
        else
          let val := src.take 4
          colorLoop maxOutputSize (src.drop 4) (j + cnt.toUInt32 * 4)
            (out ++ (List.replicate cnt.toNat val).flatten)
      else
        -- "verbatim" block of 32-bit values
        let cnt := -header + 1
        if j + cnt.toUInt32 * 4 > maxOutputSize then some (.error .invalidScreenshot)
        else if maxOutputSize.toNat < out.length + 4 * cnt.toNat ∨ src.length < 4 * cnt.toNat then none
        else
          colorLoop maxOutputSize (src.drop (4 * cnt.toNat)) (j + cnt.toUInt32 * 4)
            (out ++ src.take (4 * cnt.toNat))
termination_by src.length

/-- `ticalcs_screen_nspire_rle_uncompress`: what is written to the output; `none` when it reads
behind the input or writes behind the output. -/
def ticalcsScreenNspireRleUncompress (format : CalcPixelFormat) (src : List UInt8)
    (maxOutputSize : UInt32) : Option (Except ScreenErr (List UInt8)) :=
  match format with
  | .gray4 => grayLoop maxOutputSize src 0 []
  | .rgb565le => colorLoop maxOutputSize src 0 []
  | .mono => some (.error .invalidParameter)

/-! ## blocks -/

/-- A run: a value so many times, or so many values as they are. -/
inductive RleBlock
  | repeated (count : Nat) (value : List UInt8)
  | verbatim (count : Nat) (values : List UInt8)

namespace RleBlock

def header : RleBlock → UInt8
  | repeated count _ => UInt8.ofNat (count - 1)
  | verbatim count _ => UInt8.ofNat (257 - count)

def payload : RleBlock → List UInt8
  | repeated _ value => value
  | verbatim _ values => values

/-- A block in the input. -/
def bytes (b : RleBlock) : List UInt8 := b.header :: b.payload

/-- A block in the output. -/
def expand : RleBlock → List UInt8
  | repeated count value => (List.replicate count value).flatten
  | verbatim _ values => values

/-- The counts that a header can give, and a payload of values of `w` bytes. -/
def WellFormed (w : Nat) : RleBlock → Prop
  | repeated count value => 1 ≤ count ∧ count ≤ 128 ∧ value.length = w
  | verbatim count values => 2 ≤ count ∧ count ≤ 129 ∧ values.length = w * count

end RleBlock

/-- How many values the block of a header stands for. -/
def runCount (header : UInt8) : Nat :=
  if header < 0x80 then header.toNat + 1 else 257 - header.toNat

/-- How many bytes of payload a header has. -/
def payloadLength (w : Nat) (header : UInt8) : Nat :=
  if header < 0x80 then w else w * runCount header

/-- The block of a header, with its payload taken from the input. -/
def blockAt (w : Nat) (header : UInt8) (src : List UInt8) : RleBlock :=
  if header < 0x80 then .repeated (runCount header) (src.take w)
  else .verbatim (runCount header) (src.take (w * runCount header))

theorem runCount_pos (header : UInt8) : 0 < runCount header := by
  unfold runCount
  have hlt := header.toNat_lt
  split
  · exact Nat.succ_pos _
  · omega

theorem runCount_le (header : UInt8) : runCount header ≤ 129 := by
  unfold runCount
  split
  · rename_i h
    have hlt : header.toNat < 128 := UInt8.lt_iff_toNat_lt.mp h
    omega
  · rename_i h
    have hge : ¬header.toNat < 128 := fun hlt => h (UInt8.lt_iff_toNat_lt.mpr hlt)
    omega

theorem payload_blockAt (w : Nat) (header : UInt8) (src : List UInt8) :
    (blockAt w header src).payload = src.take (payloadLength w header) := by
  unfold blockAt payloadLength
  split <;> rfl

theorem header_blockAt (w : Nat) (header : UInt8) (src : List UInt8) :
    (blockAt w header src).header = header := by
  unfold blockAt
  have hlt := header.toNat_lt
  split
  · rename_i h
    show UInt8.ofNat (runCount header - 1) = header
    rw [runCount, if_pos h, Nat.add_sub_cancel, UInt8.ofNat_toNat]
  · rename_i h
    show UInt8.ofNat (257 - runCount header) = header
    rw [runCount, if_neg h, Nat.sub_sub_self (by omega), UInt8.ofNat_toNat]

theorem bytes_blockAt (w : Nat) (header : UInt8) (src : List UInt8) :
    (blockAt w header src).bytes ++ src.drop (payloadLength w header) = header :: src := by
  rw [RleBlock.bytes, header_blockAt, payload_blockAt, List.cons_append, List.take_append_drop]

theorem wellFormed_blockAt {w : Nat} {header : UInt8} {src : List UInt8}
    (h : payloadLength w header ≤ src.length) : (blockAt w header src).WellFormed w := by
  unfold payloadLength at h
  unfold blockAt
  have hpos := runCount_pos header
  have hle := runCount_le header
  split
  · rename_i hheader
    rw [if_pos hheader] at h
    have hlt : header.toNat < 128 := UInt8.lt_iff_toNat_lt.mp hheader
    have hcount : runCount header = header.toNat + 1 := if_pos hheader
    exact ⟨hpos, by omega, by rw [List.length_take, Nat.min_eq_left h]⟩
  · rename_i hheader
    rw [if_neg hheader] at h
    have hlt := header.toNat_lt
    have hcount : runCount header = 257 - header.toNat := if_neg hheader
    exact ⟨by omega, hle, by rw [List.length_take, Nat.min_eq_left h]⟩

theorem length_expand_blockAt {w : Nat} {header : UInt8} {src : List UInt8}
    (h : payloadLength w header ≤ src.length) :
    (blockAt w header src).expand.length = w * runCount header := by
  unfold payloadLength at h
  unfold blockAt
  split
  · rename_i hheader
    rw [if_pos hheader] at h
    show ((List.replicate _ _).flatten).length = _
    rw [List.length_flatten, List.map_replicate, List.sum_replicate, List.length_take,
      Nat.min_eq_left h, smul_eq_mul, Nat.mul_comm]
  · rename_i hheader
    rw [if_neg hheader] at h
    show (src.take _).length = _
    rw [List.length_take, Nat.min_eq_left h]

/-- A block is the one that is found at its header. -/
theorem blockAt_header {w : Nat} {b : RleBlock} (h : b.WellFormed w) (src : List UInt8) :
    payloadLength w b.header = b.payload.length ∧ blockAt w b.header (b.payload ++ src) = b := by
  unfold blockAt payloadLength
  cases b with
  | repeated count value =>
      obtain ⟨hpos, hle, hlen⟩ := h
      have hnat : (UInt8.ofNat (count - 1)).toNat = count - 1 :=
        UInt8.toNat_ofNat_of_lt' (by show _ < 256; omega)
      have hheader : UInt8.ofNat (count - 1) < 0x80 :=
        UInt8.lt_iff_toNat_lt.mpr (by rw [hnat]; show _ < 128; omega)
      have hcount : runCount (UInt8.ofNat (count - 1)) = count := by
        rw [runCount, if_pos hheader, hnat]
        omega
      show (if UInt8.ofNat (count - 1) < 0x80 then _ else _) = value.length ∧
        (if UInt8.ofNat (count - 1) < 0x80 then _ else _) = _
      rw [if_pos hheader, if_pos hheader, ← hlen]
      refine ⟨rfl, ?_⟩
      show RleBlock.repeated (runCount (UInt8.ofNat (count - 1))) ((value ++ src).take value.length) = _
      rw [hcount, List.take_left]
  | verbatim count values =>
      obtain ⟨hge, hle, hlen⟩ := h
      have hnat : (UInt8.ofNat (257 - count)).toNat = 257 - count :=
        UInt8.toNat_ofNat_of_lt' (by show _ < 256; omega)
      have hheader : ¬UInt8.ofNat (257 - count) < 0x80 := by
        rw [UInt8.lt_iff_toNat_lt, hnat]
        show ¬_ < 128
        omega
      have hcount : runCount (UInt8.ofNat (257 - count)) = count := by
        rw [runCount, if_neg hheader, hnat]
        omega
      show (if UInt8.ofNat (257 - count) < 0x80 then _ else _) = values.length ∧
        (if UInt8.ofNat (257 - count) < 0x80 then _ else _) = _
      rw [if_neg hheader, if_neg hheader]
      show w * runCount (UInt8.ofNat (257 - count)) = _ ∧ RleBlock.verbatim
        (runCount (UInt8.ofNat (257 - count)))
        ((values ++ src).take (w * runCount (UInt8.ofNat (257 - count)))) = _
      rw [hcount, ← hlen, List.take_left]
      exact ⟨rfl, rfl⟩

/-! ## one turn of the loops -/

/-- A decoder of blocks of values of `w` bytes.  `needs` is how much of the payload it reads
before it compares the end of the block with the size of the output. -/
structure Unpacks (w : Nat) (needs : UInt8 → Nat) (maxOutputSize : UInt32)
    (loop : List UInt8 → UInt32 → List UInt8 → Option (Except ScreenErr (List UInt8))) : Prop where
  nil : ∀ j out, loop [] j out = some (.ok out)
  turn : ∀ header src j out, loop (header :: src) j out =
    if src.length < needs header then none
    else if j + UInt32.ofNat (w * runCount header) > maxOutputSize then
      some (.error .invalidScreenshot)
    else if maxOutputSize.toNat < out.length + w * runCount header
        ∨ src.length < payloadLength w header then none
    else loop (src.drop (payloadLength w header)) (j + UInt32.ofNat (w * runCount header))
      (out ++ (blockAt w header src).expand)
  needs_le : ∀ header, needs header ≤ payloadLength w header

/-- The gray decoder reads the value to repeat before the check. -/
def grayNeeds (header : UInt8) : Nat := if header < 0x80 then 1 else 0

/-- The count that the loops compute from a header. -/
theorem toNat_cnt (header : UInt8) :
    (if header < 0x80 then header + 1 else -header + 1).toNat = runCount header := by
  unfold runCount
  have hlt := header.toNat_lt
  split
  · rename_i h
    have hsmall : header.toNat < 128 := UInt8.lt_iff_toNat_lt.mp h
    rw [UInt8.toNat_add]
    show (header.toNat + 1) % 256 = _
    omega
  · rename_i h
    have hlarge : ¬header.toNat < 128 := fun hsmall => h (UInt8.lt_iff_toNat_lt.mpr hsmall)
    rw [UInt8.toNat_add, UInt8.toNat_neg]
    show ((256 - header.toNat) % 256 + 1) % 256 = _
    omega

theorem toUInt32_cnt {cnt : UInt8} {n : Nat} (h : cnt.toNat = n) : cnt.toUInt32 = UInt32.ofNat n := by
  rw [← h]
  exact UInt32.toNat.inj (by simp)

theorem grayLoop_unpacks (maxOutputSize : UInt32) :
    Unpacks 1 grayNeeds maxOutputSize (grayLoop maxOutputSize) := by
  constructor
  · intro j out
    rw [grayLoop]
  · intro header src j out
    have hcnt := toNat_cnt header
    rw [grayLoop]
    unfold grayNeeds payloadLength blockAt
    by_cases hheader : header < 0x80
    · simp only [if_pos hheader] at hcnt ⊢
      rw [Nat.one_mul, ← hcnt, ← toUInt32_cnt rfl]
      cases src with
      | nil => simp
      | cons val src => simp [RleBlock.expand]
    · simp only [if_neg hheader] at hcnt ⊢
      rw [Nat.one_mul, ← hcnt, ← toUInt32_cnt rfl]
      simp [RleBlock.expand]
  · intro header
    unfold grayNeeds payloadLength
    split
    · exact Nat.le_refl 1
    · exact Nat.zero_le _

theorem colorLoop_unpacks (maxOutputSize : UInt32) :
    Unpacks 4 (fun _ => 0) maxOutputSize (colorLoop maxOutputSize) := by
  constructor
  · intro j out
    rw [colorLoop]
  · intro header src j out
    have hcnt := toNat_cnt header
    have hmul : ∀ cnt : UInt8, UInt32.ofNat (4 * cnt.toNat) = cnt.toUInt32 * 4 := by
      intro cnt
      rw [Nat.mul_comm, UInt32.ofNat_mul, ← toUInt32_cnt rfl]
      rfl
    rw [colorLoop]
    unfold payloadLength blockAt
    by_cases hheader : header < 0x80
    · simp only [if_pos hheader] at hcnt ⊢
      rw [← hcnt, hmul]
      simp [RleBlock.expand]
    · simp only [if_neg hheader] at hcnt ⊢
      rw [← hcnt, hmul]
      simp [RleBlock.expand]
  · intro header
    exact Nat.zero_le _

/-! ## runs of the loops -/

/-- A block that would end behind the output, at a position that a 32-bit number still holds.
What the decoder reads of it before the check is there. -/
def Refused (w : Nat) (needs : UInt8 → Nat) (maxOutputSize : UInt32) (produced : Nat)
    (tail : List UInt8) : Prop :=
  ∃ header src, tail = header :: src ∧ needs header ≤ src.length
    ∧ maxOutputSize.toNat < produced + w * runCount header
    ∧ produced + w * runCount header < 2 ^ 32

/-- The input is a sequence of whole blocks that fit in the output, up to its end or up to a
block that is refused. -/
def Covered (w : Nat) (needs : UInt8 → Nat) (maxOutputSize : UInt32) (src : List UInt8) : Prop :=
  ∃ (blocks : List RleBlock) (tail : List UInt8),
    (∀ b ∈ blocks, b.WellFormed w) ∧ src = blocks.flatMap RleBlock.bytes ++ tail
    ∧ (blocks.flatMap RleBlock.expand).length ≤ maxOutputSize.toNat
    ∧ (tail = [] ∨ Refused w needs maxOutputSize (blocks.flatMap RleBlock.expand).length tail)

section Runs

variable {w : Nat} {needs : UInt8 → Nat} {maxOutputSize : UInt32}
  {loop : List UInt8 → UInt32 → List UInt8 → Option (Except ScreenErr (List UInt8))}

/-- The position behind a block that fits in the output. -/
theorem toNat_position {j : UInt32} {produced n : Nat} (hj : j.toNat = produced)
    (hfit : produced + n < 2 ^ 32) : (j + UInt32.ofNat n).toNat = produced + n := by
  rw [UInt32.toNat_add, hj, UInt32.toNat_ofNat_of_lt' (by show n < 2 ^ 32; omega),
    Nat.mod_eq_of_lt hfit]

theorem position_start : (0 : UInt32).toNat = ([] : List UInt8).length := rfl

/-- A whole block that fits in the output is expanded. -/
theorem Unpacks.block (hloop : Unpacks w needs maxOutputSize loop) {b : RleBlock}
    (hb : b.WellFormed w) (src : List UInt8) {out : List UInt8} {j : UInt32} (hj : j.toNat = out.length)
    (hfit : (out ++ b.expand).length ≤ maxOutputSize.toNat) :
    ∃ j', j'.toNat = (out ++ b.expand).length ∧ loop (b.bytes ++ src) j out
      = loop src j' (out ++ b.expand) := by
  obtain ⟨hpayload, hat⟩ := blockAt_header hb src
  have hwhole : payloadLength w b.header ≤ (b.payload ++ src).length := by
    rw [hpayload, List.length_append]
    exact Nat.le_add_right _ _
  have hlen := length_expand_blockAt hwhole
  rw [hat] at hlen
  have hmax := maxOutputSize.toNat_lt
  rw [List.length_append, hlen] at hfit
  have hposition := toNat_position hj (Nat.lt_of_le_of_lt hfit hmax)
  refine ⟨j + UInt32.ofNat (w * runCount b.header), ?_, ?_⟩
  · rw [hposition, List.length_append, hlen]
  · have hneeds := hloop.needs_le b.header
    rw [RleBlock.bytes, List.cons_append, hloop.turn, if_neg (by omega), if_neg, if_neg, hat,
      hpayload, List.drop_left]
    · rw [not_or]
      constructor <;> omega
    · rw [gt_iff_lt, UInt32.lt_iff_toNat_lt, hposition]
      exact Nat.not_lt.mpr hfit

/-- Whole blocks that fit in the output are expanded. -/
theorem Unpacks.blocks (hloop : Unpacks w needs maxOutputSize loop) {bs : List RleBlock}
    (hbs : ∀ b ∈ bs, b.WellFormed w) (src : List UInt8) {out : List UInt8} {j : UInt32}
    (hj : j.toNat = out.length)
    (hfit : (out ++ bs.flatMap RleBlock.expand).length ≤ maxOutputSize.toNat) :
    ∃ j', j'.toNat = (out ++ bs.flatMap RleBlock.expand).length
      ∧ loop (bs.flatMap RleBlock.bytes ++ src) j out
        = loop src j' (out ++ bs.flatMap RleBlock.expand) := by
  induction bs generalizing j out with
  | nil => exact ⟨j, by simpa using hj, by simp⟩
  | cons b bs ih =>
      obtain ⟨hb, hbs⟩ := List.forall_mem_cons.mp hbs
      rw [List.flatMap_cons, ← List.append_assoc] at hfit
      have hhead : (out ++ b.expand).length ≤ maxOutputSize.toNat := by
        rw [List.length_append] at hfit
        exact Nat.le_of_add_right_le hfit
      obtain ⟨j₁, hj₁, hfirst⟩ := hloop.block hb (bs.flatMap RleBlock.bytes ++ src) hj hhead
      obtain ⟨j₂, hj₂, hrest⟩ := ih hbs hj₁ hfit
      refine ⟨j₂, ?_, ?_⟩
      · rw [hj₂, List.flatMap_cons, List.append_assoc]
      · rw [List.flatMap_cons, List.flatMap_cons, List.append_assoc, hfirst, hrest,
          List.append_assoc]

/-- A block that is refused ends the loop with an error. -/
theorem Unpacks.refused (hloop : Unpacks w needs maxOutputSize loop) {tail out : List UInt8}
    {j : UInt32} (hj : j.toNat = out.length)
    (h : Refused w needs maxOutputSize out.length tail) :
    loop tail j out = some (.error .invalidScreenshot) := by
  obtain ⟨header, src, rfl, hneeds, hbehind, hholds⟩ := h
  rw [hloop.turn, if_neg (Nat.not_lt.mpr hneeds), if_pos]
  rw [gt_iff_lt, UInt32.lt_iff_toNat_lt, toNat_position hj hholds]
  exact hbehind

/-- What the loop does at a header: it is outside of its buffers, it refuses the block, or the
block is whole and fits, and the loop goes on behind it. -/
theorem Unpacks.turn_cases (hloop : Unpacks w needs maxOutputSize loop) (hw : w * 129 < 2 ^ 32)
    (header : UInt8) (src : List UInt8) {out : List UInt8} {j : UInt32} (hj : j.toNat = out.length)
    (hroom : out.length ≤ maxOutputSize.toNat) :
    loop (header :: src) j out = none
      ∨ Refused w needs maxOutputSize out.length (header :: src)
      ∨ (payloadLength w header ≤ src.length
        ∧ (out ++ (blockAt w header src).expand).length ≤ maxOutputSize.toNat
        ∧ ∃ j', j'.toNat = (out ++ (blockAt w header src).expand).length
          ∧ loop (header :: src) j out
            = loop (src.drop (payloadLength w header)) j' (out ++ (blockAt w header src).expand)) := by
  have hcount : w * runCount header ≤ w * 129 := Nat.mul_le_mul_left w (runCount_le header)
  have hmax := maxOutputSize.toNat_lt
  rw [hloop.turn]
  split
  · exact Or.inl rfl
  rename_i hneeds
  split
  · rename_i hcheck
    -- a sum of 2^32 or more would have wrapped to less than the size of a block
    rw [gt_iff_lt, UInt32.lt_iff_toNat_lt, UInt32.toNat_add, hj,
      UInt32.toNat_ofNat_of_lt' (Nat.lt_of_le_of_lt hcount hw)] at hcheck
    refine Or.inr (Or.inl ⟨header, src, rfl, Nat.not_lt.mp hneeds, ?_, ?_⟩) <;> omega
  split
  · exact Or.inl rfl
  rename_i hbehind
  rw [not_or, Nat.not_lt, Nat.not_lt] at hbehind
  obtain ⟨hfit, hwhole⟩ := hbehind
  have hlen : (out ++ (blockAt w header src).expand).length = out.length + w * runCount header := by
    rw [List.length_append, length_expand_blockAt hwhole]
  refine Or.inr (Or.inr ⟨hwhole, hlen ▸ hfit, _, ?_, rfl⟩)
  rw [toNat_position hj (Nat.lt_of_le_of_lt hfit hmax), hlen]

/-- The loop expands whole blocks that fit, and then it is at the end of the input, at a block
that it refuses, or outside of the input or the output. -/
theorem Unpacks.exists_run (hloop : Unpacks w needs maxOutputSize loop) (hw : w * 129 < 2 ^ 32)
    (src : List UInt8) {out : List UInt8} {j : UInt32} (hj : j.toNat = out.length)
    (hroom : out.length ≤ maxOutputSize.toNat) :
    ∃ (bs : List RleBlock) (tail : List UInt8), (∀ b ∈ bs, b.WellFormed w)
      ∧ src = bs.flatMap RleBlock.bytes ++ tail
      ∧ (out ++ bs.flatMap RleBlock.expand).length ≤ maxOutputSize.toNat
      ∧ (tail = [] ∨ Refused w needs maxOutputSize (out ++ bs.flatMap RleBlock.expand).length tail
        ∨ loop src j out = none) := by
  induction hn : src.length using Nat.strong_induction_on generalizing src j out with
  | _ n ih =>
      cases src with
      | nil => exact ⟨[], [], by simp, rfl, by simpa using hroom, Or.inl rfl⟩
      | cons header src =>
          rcases hloop.turn_cases hw header src hj hroom with hnone | hrefused | hblock
          · exact ⟨[], header :: src, by simp, rfl, by simpa using hroom, Or.inr (Or.inr hnone)⟩
          · exact ⟨[], header :: src, by simp, rfl, by simpa using hroom,
              Or.inr (Or.inl (by simpa using hrefused))⟩
          · obtain ⟨hwhole, hroom', j', hj', hrun⟩ := hblock
            have hless : (src.drop (payloadLength w header)).length < n := by
              rw [List.length_drop, ← hn, List.length_cons]
              omega
            obtain ⟨bs, tail, hbs, hsrc, hlast, hhalt⟩ := ih _ hless _ hj' hroom' rfl
            refine ⟨blockAt w header src :: bs, tail, ?_, ?_, ?_, ?_⟩
            · exact List.forall_mem_cons.mpr ⟨wellFormed_blockAt hwhole, hbs⟩
            · rw [List.flatMap_cons, List.append_assoc, ← hsrc, bytes_blockAt]
            · rw [List.flatMap_cons, ← List.append_assoc]
              exact hlast
            · rw [List.flatMap_cons, ← List.append_assoc, hrun]
              exact hhalt

/-- The loop stays inside exactly when whole blocks cover the input. -/
theorem Unpacks.isSome_iff (hloop : Unpacks w needs maxOutputSize loop) (hw : w * 129 < 2 ^ 32)
    (src : List UInt8) : (loop src 0 []).isSome ↔ Covered w needs maxOutputSize src := by
  constructor
  · intro hsome
    obtain ⟨bs, tail, hbs, hsrc, hroom, hhalt⟩ :=
      hloop.exists_run hw src position_start (Nat.zero_le _)
    refine ⟨bs, tail, hbs, hsrc, hroom, ?_⟩
    rcases hhalt with hnil | hrefused | hnone
    · exact Or.inl hnil
    · exact Or.inr hrefused
    · rw [hnone] at hsome
      cases hsome
  · rintro ⟨bs, tail, hbs, rfl, hroom, hend⟩
    obtain ⟨j, hj, hrun⟩ := hloop.blocks hbs tail position_start hroom
    rw [hrun]
    cases hend with
    | inl hnil =>
        rw [hnil, hloop.nil]
        rfl
    | inr hrefused =>
        rw [hloop.refused hj hrefused]
        rfl

/-- On success the whole input is blocks, and the output is what they expand to. -/
theorem Unpacks.ok (hloop : Unpacks w needs maxOutputSize loop) (hw : w * 129 < 2 ^ 32)
    {src out : List UInt8} (h : loop src 0 [] = some (.ok out)) :
    ∃ bs : List RleBlock, (∀ b ∈ bs, b.WellFormed w) ∧ src = bs.flatMap RleBlock.bytes
      ∧ out = bs.flatMap RleBlock.expand := by
  obtain ⟨bs, tail, hbs, hsrc, hroom, hhalt⟩ :=
    hloop.exists_run hw src position_start (Nat.zero_le _)
  obtain ⟨j, hj, hrun⟩ := hloop.blocks hbs tail position_start hroom
  rw [← hsrc] at hrun
  rcases hhalt with hnil | hrefused | hnone
  · rw [hnil] at hsrc hrun
    rw [hrun, hloop.nil] at h
    cases h
    exact ⟨bs, hbs, hsrc.trans (List.append_nil _), rfl⟩
  · rw [hrun, hloop.refused hj hrefused] at h
    cases h
  · rw [h] at hnone
    cases hnone

end Runs

/-! ## the decoder of a format -/

/-- The bytes of a value of a format. -/
def valueSize : CalcPixelFormat → Nat
  | .rgb565le => 4
  | _ => 1

/-- Nothing is read behind the input or written behind the output; on success the input is a
sequence of runs and the output is what they stand for. -/
structure NspireUncompresses (format : CalcPixelFormat) (src : List UInt8) (maxOutputSize : UInt32) :
    Prop where
  inside : (ticalcsScreenNspireRleUncompress format src maxOutputSize).isSome
  runs : ∀ out, ticalcsScreenNspireRleUncompress format src maxOutputSize = some (.ok out) →
    ∃ bs : List RleBlock, (∀ b ∈ bs, b.WellFormed (valueSize format))
      ∧ src = bs.flatMap RleBlock.bytes ∧ out = bs.flatMap RleBlock.expand

/-- Whole blocks cover the input; the monochrome format is never read. -/
def NspireCovered (format : CalcPixelFormat) (maxOutputSize : UInt32) (src : List UInt8) : Prop :=
  match format with
  | .gray4 => Covered 1 grayNeeds maxOutputSize src
  | .rgb565le => Covered 4 (fun _ => 0) maxOutputSize src
  | .mono => True

/-- The decoder is right exactly when whole blocks cover the input, up to its end or up to a
block that ends behind the output. -/
theorem nspireUncompresses_iff (format : CalcPixelFormat) (src : List UInt8)
    (maxOutputSize : UInt32) :
    NspireUncompresses format src maxOutputSize ↔ NspireCovered format maxOutputSize src := by
  cases format with
  | mono =>
      constructor
      · intro _
        trivial
      · intro _
        refine ⟨rfl, ?_⟩
        intro out hout
        cases hout
  | gray4 =>
      have hgray := grayLoop_unpacks maxOutputSize
      show _ ↔ Covered 1 grayNeeds maxOutputSize src
      rw [← hgray.isSome_iff (by decide) src]
      exact ⟨fun h => h.inside, fun h => ⟨h, fun out => hgray.ok (by decide)⟩⟩
  | rgb565le =>
      have hcolor := colorLoop_unpacks maxOutputSize
      show _ ↔ Covered 4 (fun _ => 0) maxOutputSize src
      rw [← hcolor.isSome_iff (by decide) src]
      exact ⟨fun h => h.inside, fun h => ⟨h, fun out => hcolor.ok (by decide)⟩⟩

/-- A header of a repeated value as the last byte of the input: the value is read behind it. -/
theorem not_nspireUncompresses_header :
    ¬∀ format src maxOutputSize, NspireUncompresses format src maxOutputSize := by
  intro h
  have hinside := (h .gray4 [0] 1).inside
  have hnone : ticalcsScreenNspireRleUncompress .gray4 [0] 1 = none := by
    show grayLoop 1 [0] 0 [] = none
    rw [grayLoop]
    rfl
  rw [hnone] at hinside
  cases hinside

end Tilibs.Calcs
