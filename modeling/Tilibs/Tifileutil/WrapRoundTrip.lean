import Mathlib
import Tilibs.Tifileutil.Wrap

/-!
# Tilibs.Tifileutil.WrapRoundTrip

Taking off the envelope that `wrap` has put around a file gives the file back, for each
kind of variable, with two exceptions: an empty 'other' variable, whose separator is
found right at the start of the data and then not used, and a variable whose length the
32-bit size of an entry cannot hold.
-/

namespace Tilibs.Tifileutil

open Lib Files

/-! ## buffers -/

theorem getD_at {i : Nat} {xs : List UInt8} (h : i = xs.length) (b : UInt8) (ys : List UInt8) :
    (xs ++ b :: ys).getD i 0 = b := by
  rw [h, List.getD_append_right _ _ _ _ (Nat.le_refl _), Nat.sub_self]
  rfl

/-- The middle of a buffer. -/
theorem slice_append {start stop : Nat} {xs ys zs : List UInt8} (hstart : start = xs.length)
    (hstop : stop = xs.length + ys.length) : slice (xs ++ (ys ++ zs)) start stop = ys := by
  subst hstart hstop
  rw [slice, ← List.append_assoc, List.take_left' (by rw [List.length_append]),
    List.drop_left' rfl]

theorem length_slice_le (data : List UInt8) (start stop : Nat) :
    (slice data start stop).length ≤ stop := by
  rw [slice, List.length_drop, List.length_take]
  omega

/-- The size of an entry, when it can hold the length of the data. -/
theorem size_of_fits {n : Nat} (h : n < 2 ^ 32) : (UInt32.ofNat n).toNat = n := by
  rw [UInt32.toNat_ofNat', Nat.mod_eq_of_lt h]

/-- And when it cannot. -/
theorem size_of_not_fits {n : Nat} (h : ¬n < 2 ^ 32) :
    (UInt32.ofNat n).toNat + 2 ^ 32 ≤ n ∧ (UInt32.ofNat n).toNat < 2 ^ 32 := by
  rw [UInt32.toNat_ofNat']
  omega

theorem dropTag_le (data : List UInt8) (start size : Nat) (tag : UInt8) :
    dropTag data start size tag ≤ size := by
  unfold dropTag
  split <;> omega

theorem dropTag_of_tag {data : List UInt8} {start size : Nat} {tag : UInt8} (hlt : start < size)
    (htag : data.getD (size - 1) 0 = tag) : dropTag data start size tag = size - 1 :=
  if_pos ⟨hlt, htag⟩

/-! ## text -/

/-- Every line ending is one carriage return. -/
def normaliseEol : List UInt8 → List UInt8
  | [] => []
  | 0x0D :: 0x0A :: cs => 0x0D :: normaliseEol cs
  | c :: cs => (if c = 0x0D ∨ c = 0x0A then 0x0D else c) :: normaliseEol cs

/-- How many lines start in a text with such line endings. -/
def lineStarts : Bool → List UInt8 → Nat
  | _, [] => 0
  | start, c :: cs => (if start then 1 else 0) + lineStarts (c = 0x0D) cs

/-- What is left of a line's type byte. -/
theorem unwrapLines_start (start : Bool) (c : UInt8) (cs : List UInt8) :
    unwrapLines start ((if start then [0x20] else []) ++ c :: cs) = unwrapLines false (c :: cs) := by
  cases start <;> rfl

theorem unwrapLines_char {c : UInt8} (hcr : c ≠ 0x0D) (hnul : c ≠ 0x00) (cs : List UInt8) :
    unwrapLines false (c :: cs) = c :: unwrapLines false cs := by
  rw [unwrapLines, if_neg hcr, if_neg hnul]

/-- The lines of a text, followed by the end of the file, give the text. -/
theorem unwrapLines_wrapLines (start : Bool) {input : List UInt8} (h : ∀ c ∈ input, c ≠ 0x00) :
    unwrapLines start (wrapLines start input ++ [0x00]) = normaliseEol input := by
  induction start, input using wrapLines.induct with
  | case1 start => cases start <;> rfl
  | case2 start cs ih =>
      rw [wrapLines, normaliseEol, List.append_assoc, List.cons_append, unwrapLines_start,
        unwrapLines, if_pos rfl, ih fun c hc => h c (by simp [hc])]
  | case3 start c cs hcrlf ih1 ih2 =>
      have hcs : ∀ d ∈ cs, d ≠ 0x00 := fun d hd => h d (List.mem_cons_of_mem c hd)
      rw [wrapLines.eq_3 _ _ _ hcrlf, normaliseEol.eq_3 _ _ hcrlf]
      by_cases heol : c = 0x0D ∨ c = 0x0A
      · rw [if_pos heol, if_pos heol, List.append_assoc, List.cons_append, unwrapLines_start,
          unwrapLines, if_pos rfl, ih1 hcs]
      · obtain ⟨hcr, -⟩ := not_or.1 heol
        rw [if_neg heol, if_neg heol, List.append_assoc, List.cons_append, unwrapLines_start,
          unwrapLines_char hcr (h c List.mem_cons_self), ih2 hcs]

theorem length_wrapLines (start : Bool) (input : List UInt8) :
    (wrapLines start input).length
      = (normaliseEol input).length + lineStarts start (normaliseEol input) := by
  have hbreak : decide ((0x0D : UInt8) = 0x0D) = true := rfl
  have htype : ∀ b : Bool, (if b then [0x20] else [] : List UInt8).length
      = if b then 1 else 0 := by
    intro b
    cases b <;> rfl
  induction start, input using wrapLines.induct with
  | case1 start => rfl
  | case2 start cs ih =>
      rw [wrapLines, normaliseEol, lineStarts, List.length_append, List.length_cons,
        List.length_cons, ih, htype, hbreak]
      omega
  | case3 start c cs hcrlf ih1 ih2 =>
      rw [wrapLines.eq_3 _ _ _ hcrlf, normaliseEol.eq_3 _ _ hcrlf, lineStarts, List.length_append,
        htype]
      by_cases heol : c = 0x0D ∨ c = 0x0A
      · rw [if_pos heol, if_pos heol, List.length_cons, List.length_cons, ih1, hbreak]
        omega
      · have hcr : decide (c = 0x0D) = false := decide_eq_false (not_or.1 heol).1
        rw [if_neg heol, if_neg heol, List.length_cons, List.length_cons, ih2, hcr]
        omega

theorem lineStarts_le (start : Bool) (cs : List UInt8) : lineStarts start cs ≤ cs.length := by
  induction cs generalizing start with
  | nil => exact Nat.le_refl 0
  | cons c cs ih =>
      have hrest := ih (c = 0x0D)
      rw [lineStarts, List.length_cons]
      split <;> omega

theorem length_unwrapLines_le (start : Bool) (cs : List UInt8) :
    (unwrapLines start cs).length ≤ cs.length := by
  induction cs generalizing start with
  | nil => exact Nat.le_of_eq rfl
  | cons c cs ih =>
      have htrue := ih true
      have hfalse := ih false
      cases start with
      | true =>
          rw [unwrapLines, List.length_cons]
          omega
      | false =>
          unfold unwrapLines
          split
          · simpa using htrue
          · split
            · simp
            · simpa using hfalse

theorem unwrapLines_start_take (start : Bool) (c : UInt8) (cs : List UInt8) (j : Nat) :
    unwrapLines start (((if start then [0x20] else []) ++ c :: cs).take j)
      = unwrapLines false ((c :: cs).take (j - if start then 1 else 0)) := by
  cases start with
  | false => rfl
  | true =>
      cases j with
      | zero => rfl
      | succ j => rfl

/-- A part of the lines gives less than the text. -/
theorem unwrapLines_take_lt (start : Bool) {input : List UInt8} (h : ∀ c ∈ input, c ≠ 0x00)
    {j : Nat} (hj : j < (wrapLines start input).length) :
    (unwrapLines start ((wrapLines start input).take j)).length < (normaliseEol input).length := by
  have htype : ∀ b : Bool, (if b then [0x20] else [] : List UInt8).length
      = if b then 1 else 0 := by
    intro b
    cases b <;> rfl
  induction start, input using wrapLines.induct generalizing j with
  | case1 start => exact absurd hj (Nat.not_lt_zero j)
  | case2 start cs ih =>
      have hcs : ∀ d ∈ cs, d ≠ 0x00 := fun d hd => h d (by simp [hd])
      rw [wrapLines, List.length_append, List.length_cons, htype] at hj
      rw [wrapLines, normaliseEol, unwrapLines_start_take, List.length_cons]
      cases hk : j - (if start then 1 else 0) with
      | zero => exact Nat.succ_pos _
      | succ k =>
          have hrest := ih hcs (j := k) (by omega)
          rw [List.take_succ_cons, unwrapLines, if_pos rfl, List.length_cons]
          omega
  | case3 start c cs hcrlf ih1 ih2 =>
      have hcs : ∀ d ∈ cs, d ≠ 0x00 := fun d hd => h d (List.mem_cons_of_mem c hd)
      rw [wrapLines.eq_3 _ _ _ hcrlf, List.length_append, htype] at hj
      rw [wrapLines.eq_3 _ _ _ hcrlf, normaliseEol.eq_3 _ _ hcrlf]
      by_cases heol : c = 0x0D ∨ c = 0x0A
      · rw [if_pos heol, List.length_cons] at hj
        rw [if_pos heol, if_pos heol, unwrapLines_start_take, List.length_cons]
        cases hk : j - (if start then 1 else 0) with
        | zero => exact Nat.succ_pos _
        | succ k =>
            have hrest := ih1 hcs (j := k) (by omega)
            rw [List.take_succ_cons, unwrapLines, if_pos rfl, List.length_cons]
            omega
      · obtain ⟨hcr, -⟩ := not_or.1 heol
        rw [if_neg heol, List.length_cons] at hj
        rw [if_neg heol, if_neg heol, unwrapLines_start_take, List.length_cons]
        cases hk : j - (if start then 1 else 0) with
        | zero => exact Nat.succ_pos _
        | succ k =>
            have hrest := ih2 hcs (j := k) (by omega)
            rw [List.take_succ_cons, unwrapLines_char hcr (h c List.mem_cons_self),
              List.length_cons]
            omega

/-! ## the envelopes of the TI-68k models -/

theorem unwrapTi68k_asm (input : List UInt8) {data : List UInt8}
    (hdata : data = putBE 2 (input.length + 1) ++ input ++ [0xF3]) :
    unwrapTi68k ti89Asm data (UInt32.ofNat data.length).toNat = input
      ↔ input.length + 3 < 2 ^ 32 := by
  have hlen : data.length = input.length + 3 := by
    rw [hdata]
    simp only [List.length_append, length_putBE, List.length_singleton]
    omega
  unfold unwrapTi68k
  dsimp only
  rw [if_pos rfl, hlen]
  by_cases hfits : input.length + 3 < 2 ^ 32
  · have htag : data.getD (input.length + 3 - 1) 0 = 0xF3 := by
      rw [hdata]
      exact getD_at (by rw [List.length_append, length_putBE]; omega) _ _
    have hstart : skipSize (input.length + 3) = 2 := if_pos (by omega)
    rw [size_of_fits hfits, hstart, dropTag_of_tag (by omega) htag]
    refine iff_of_true ?_ hfits
    rw [hdata, List.append_assoc]
    exact slice_append (length_putBE 2 _).symm (by rw [length_putBE]; omega)
  · obtain ⟨hshort, -⟩ := size_of_not_fits hfits
    refine iff_of_false (fun hout => ?_) hfits
    have hlt := length_slice_le data (skipSize (UInt32.ofNat (input.length + 3)).toNat)
      (dropTag data (skipSize (UInt32.ofNat (input.length + 3)).toNat)
        (UInt32.ofNat (input.length + 3)).toNat 0xF3)
    have htag := dropTag_le data (skipSize (UInt32.ofNat (input.length + 3)).toNat)
      (UInt32.ofNat (input.length + 3)).toNat 0xF3
    rw [hout] at hlt
    omega

theorem unwrapTi68k_str (input : List UInt8) {data : List UInt8}
    (hdata : data = putBE 2 (input.length + 3) ++ [0x00] ++ input ++ [0x00, 0x2D]) :
    unwrapTi68k ti89Str data (UInt32.ofNat data.length).toNat = input
      ↔ input.length + 5 < 2 ^ 32 := by
  have hlen : data.length = input.length + 5 := by
    rw [hdata]
    simp only [List.length_append, length_putBE, List.length_cons, List.length_nil]
    omega
  unfold unwrapTi68k
  dsimp only
  rw [if_neg (by decide), if_pos rfl, hlen]
  by_cases hfits : input.length + 5 < 2 ^ 32
  · have hfirst : data.getD 2 0 = 0x00 := by
      rw [hdata, List.append_assoc, List.append_assoc]
      exact getD_at (length_putBE 2 _).symm _ _
    have hzero : data.getD (input.length + 5 - 2) 0 = 0x00 := by
      rw [hdata]
      exact getD_at (by simp only [List.length_append, length_putBE, List.length_singleton]; omega)
        _ _
    have htag : data.getD (input.length + 5 - 1) 0 = 0x2D := by
      have hsplit : data = (putBE 2 (input.length + 3) ++ [0x00] ++ input ++ [0x00]) ++ [0x2D] := by
        rw [hdata]
        simp only [List.append_assoc, List.cons_append, List.nil_append]
      rw [hsplit]
      exact getD_at (by simp only [List.length_append, length_putBE, List.length_singleton]; omega)
        _ _
    have hstart : skipSize (input.length + 5) = 2 := if_pos (by omega)
    rw [size_of_fits hfits, hstart, if_pos ⟨by omega, hfirst⟩, if_pos ⟨by omega, hzero, htag⟩]
    refine iff_of_true ?_ hfits
    rw [hdata, List.append_assoc]
    exact slice_append (by rw [List.length_append, length_putBE, List.length_singleton])
      (by rw [List.length_append, length_putBE, List.length_singleton]; omega)
  · obtain ⟨hshort, -⟩ := size_of_not_fits hfits
    refine iff_of_false (fun hout => ?_) hfits
    have hlt := congrArg List.length hout
    rw [slice, List.length_drop, List.length_take] at hlt
    split at hlt <;> split at hlt <;> omega

/-- The separator is found for the right length only, because the extension has no NUL. -/
theorem othSeparatorAt_footer {pre ext : List UInt8} (hnul : ∀ c ∈ ext, c ≠ 0x00) {start : Nat}
    (hstart : start ≤ pre.length) {k : Nat} (hk : 1 ≤ k) (hle : k ≤ ext.length) :
    othSeparatorAt (pre ++ 0x00 :: (ext ++ [0x00, 0xF8])) start (pre.length + ext.length + 3) k
      = decide (k = ext.length) := by
  have hat : ∀ i, (pre ++ 0x00 :: (ext ++ [0x00, 0xF8])).getD (pre.length + i) 0
      = ((0x00 :: ext) ++ [0x00, 0xF8]).getD i 0 := by
    intro i
    rw [List.getD_append_right _ _ _ _ (Nat.le_add_right _ _), Nat.add_sub_cancel_left]
    rfl
  have htag : (pre ++ 0x00 :: (ext ++ [0x00, 0xF8])).getD (pre.length + ext.length + 3 - 1) 0
      = 0xF8 := by
    have hidx : pre.length + ext.length + 3 - 1 = pre.length + (ext.length + 2) := by omega
    rw [hidx, hat, List.getD_append_right _ _ _ _ (by simp), List.length_cons]
    simp
  have hzero : (pre ++ 0x00 :: (ext ++ [0x00, 0xF8])).getD (pre.length + ext.length + 3 - 2) 0
      = 0x00 := by
    have hidx : pre.length + ext.length + 3 - 2 = pre.length + (ext.length + 1) := by omega
    rw [hidx, hat, List.getD_append_right _ _ _ _ (by simp), List.length_cons]
    simp
  have hsep : ((pre ++ 0x00 :: (ext ++ [0x00, 0xF8])).getD (pre.length + ext.length + 3 - 3 - k) 0
      == 0x00) = decide (k = ext.length) := by
    have hidx : pre.length + ext.length + 3 - 3 - k = pre.length + (ext.length - k) := by omega
    rw [hidx, hat]
    by_cases heq : k = ext.length
    · rw [heq, Nat.sub_self]
      simp
    · obtain ⟨j, hj⟩ : ∃ j, ext.length - k = j + 1 := ⟨ext.length - k - 1, by omega⟩
      have hlt : j < ext.length := by omega
      rw [hj, List.cons_append, List.getD_cons_succ, List.getD_append _ _ _ _ hlt,
        List.getD_eq_getElem _ _ hlt, decide_eq_false heq, beq_eq_false_iff_ne]
      exact hnul _ (List.getElem_mem hlt)
  have hroom : decide (pre.length + ext.length + 3 ≥ start + 3 + k) = true :=
    decide_eq_true (by omega)
  unfold othSeparatorAt
  rw [hroom, htag, hzero, hsep]
  simp

/-- Where the data of an 'other' variable ends: at its separator, unless that stands at the
start. -/
theorem othEnd_of_footer {pre ext : List UInt8} (hne : ext ≠ []) (hfour : ext.length ≤ 4)
    (hnul : ∀ c ∈ ext, c ≠ 0x00) {start : Nat} (hstart : start ≤ pre.length) :
    othEnd (pre ++ 0x00 :: (ext ++ [0x00, 0xF8])) start (pre.length + ext.length + 3)
      = if pre.length > start then pre.length else pre.length + ext.length + 3 := by
  have hpos : 0 < ext.length := List.length_pos_iff.2 hne
  have hfind : [1, 2, 3, 4].find? (othSeparatorAt (pre ++ 0x00 :: (ext ++ [0x00, 0xF8])) start
      (pre.length + ext.length + 3)) = some ext.length := by
    rw [List.find?_eq_some_iff_append]
    refine ⟨?_, List.range' 1 (ext.length - 1), List.range' (ext.length + 1) (4 - ext.length),
      ?_, ?_⟩
    · rw [othSeparatorAt_footer hnul hstart hpos (Nat.le_refl _)]
      simp
    · have hcases : ext.length = 1 ∨ ext.length = 2 ∨ ext.length = 3 ∨ ext.length = 4 := by omega
      rcases hcases with h | h | h | h <;> rw [h] <;> rfl
    · intro k hk
      obtain ⟨i, hi, rfl⟩ := List.mem_range'.1 hk
      rw [othSeparatorAt_footer hnul hstart (by omega) (by omega)]
      simp
      omega
  have hidx : pre.length + ext.length + 3 - 3 - ext.length = pre.length := by omega
  unfold othEnd
  rw [hfind]
  dsimp only
  rw [hidx]

theorem othEnd_le (data : List UInt8) (start size : Nat) : othEnd data start size ≤ size := by
  unfold othEnd
  split
  · exact Nat.le_refl _
  · split <;> omega

theorem unwrapTi68k_oth (input : List UInt8) {ext data : List UInt8} (hne : ext ≠ [])
    (hfour : ext.length ≤ 4) (hnul : ∀ c ∈ ext, c ≠ 0x00) {n : Nat}
    (hdata : data = putBE 2 n ++ (input ++ [0x00] ++ ext ++ [0x00, 0xF8])) :
    unwrapTi68k ti89Oth data (UInt32.ofNat data.length).toNat = input
      ↔ input ≠ [] ∧ input.length + ext.length + 5 < 2 ^ 32 := by
  have hlen : data.length = input.length + ext.length + 5 := by
    rw [hdata]
    simp only [List.length_append, length_putBE, List.length_cons, List.length_nil]
    omega
  have hfooter : data = (putBE 2 n ++ input) ++ 0x00 :: (ext ++ [0x00, 0xF8]) := by
    rw [hdata]
    simp only [List.append_assoc, List.cons_append, List.nil_append]
  have hpre : (putBE 2 n ++ input).length = input.length + 2 := by
    rw [List.length_append, length_putBE, Nat.add_comm]
  unfold unwrapTi68k
  dsimp only
  rw [if_neg (by decide), if_neg (by decide), if_pos rfl, hlen]
  by_cases hfits : input.length + ext.length + 5 < 2 ^ 32
  · have hstart : skipSize (input.length + ext.length + 5) = 2 := if_pos (by omega)
    have hend := othEnd_of_footer hne hfour hnul (by rw [hpre]; omega : 2 ≤ (putBE 2 n ++ input).length)
    rw [hpre, ← hfooter] at hend
    have hsize : input.length + 2 + ext.length + 3 = input.length + ext.length + 5 := by omega
    rw [size_of_fits hfits, hstart, ← hsize, hend]
    by_cases hempty : input = []
    · subst hempty
      rw [if_neg (by decide)]
      refine iff_of_false (fun hout => ?_) (fun h => h.1 rfl)
      have hzero := congrArg List.length hout
      rw [slice, List.length_drop, List.length_take, hlen, List.length_nil] at hzero
      omega
    · have hpos : 0 < input.length := List.length_pos_iff.2 hempty
      rw [if_pos (by omega)]
      refine iff_of_true ?_ ⟨hempty, by omega⟩
      rw [hfooter, List.append_assoc]
      exact slice_append (length_putBE 2 _).symm (by rw [length_putBE]; omega)
  · obtain ⟨hshort, -⟩ := size_of_not_fits hfits
    refine iff_of_false (fun hout => ?_) (fun h => hfits h.2)
    have hlt := congrArg List.length hout
    have hend := othEnd_le data (skipSize (UInt32.ofNat (input.length + ext.length + 5)).toNat)
      (UInt32.ofNat (input.length + ext.length + 5)).toNat
    rw [slice, List.length_drop, List.length_take] at hlt
    omega

/-- The bytes of the variable that a text becomes. -/
def textLength (input : List UInt8) : Nat :=
  if input = [] then 5 else
    (normaliseEol input).length + lineStarts true (normaliseEol input) + 6

theorem wrapLines_eq_nil {start : Bool} {input : List UInt8} :
    wrapLines start input = [] ↔ input = [] := by
  constructor
  · intro h
    unfold wrapLines at h
    split at h
    · rfl
    · simp at h
    · split at h <;> split at h <;> simp at h
  · rintro rfl
    rfl

theorem unwrapTi68k_text {input : List UInt8} (hnul : ∀ c ∈ input, c ≠ 0x00)
    {data body : List UInt8}
    (hbody : body = [0x00, 0x01] ++ wrapLines true input
      ++ (if wrapLines true input ≠ [] then [0x00] else []) ++ [0xE0])
    (hdata : data = putBE 2 body.length ++ body) :
    unwrapTi68k ti89Text data (UInt32.ofNat data.length).toNat = normaliseEol input
      ↔ textLength input < 2 ^ 32 := by
  have hlines := length_wrapLines true input
  unfold unwrapTi68k
  dsimp only
  rw [if_neg (by decide), if_neg (by decide), if_neg (by decide), if_pos rfl]
  by_cases hempty : input = []
  · subst hempty
    have hlen : data.length = 5 := by
      rw [hdata, hbody]
      rfl
    rw [hlen, hdata, hbody]
    decide
  · have hne : wrapLines true input ≠ [] := fun h => hempty (wrapLines_eq_nil.1 h)
    have hsplit : data = (putBE 2 body.length ++ [0x00, 0x01])
        ++ ((wrapLines true input ++ [0x00]) ++ [0xE0]) := by
      rw [hdata, hbody, if_pos hne]
      simp only [List.append_assoc]
    have hlen : data.length = (wrapLines true input).length + 6 := by
      rw [hsplit]
      simp only [List.length_append, length_putBE, List.length_cons, List.length_nil]
      omega
    have htext : textLength input = (wrapLines true input).length + 6 := by
      rw [textLength, if_neg hempty, hlines]
    rw [htext, hlen]
    by_cases hfits : (wrapLines true input).length + 6 < 2 ^ 32
    · have hstart : skipSize ((wrapLines true input).length + 6) = 2 := if_pos (by omega)
      have htag : data.getD ((wrapLines true input).length + 6 - 1) 0 = 0xE0 := by
        rw [hsplit, ← List.append_assoc]
        refine getD_at ?_ _ _
        simp only [List.length_append, length_putBE, List.length_cons, List.length_nil]
        omega
      rw [size_of_fits hfits, hstart, if_pos (by omega), dropTag_of_tag (by omega) htag]
      refine iff_of_true ?_ hfits
      have hslice : slice data (2 + 2) ((wrapLines true input).length + 6 - 1)
          = wrapLines true input ++ [0x00] := by
        rw [hsplit]
        refine slice_append ?_ ?_
        · rw [List.length_append, length_putBE]
          rfl
        · simp only [List.length_append, length_putBE, List.length_cons, List.length_nil]
          omega
      rw [hslice, unwrapLines_wrapLines true hnul]
    · obtain ⟨hshort, hsmall⟩ := size_of_not_fits hfits
      generalize (UInt32.ofNat ((wrapLines true input).length + 6)).toNat = size at hshort hsmall ⊢
      refine iff_of_false (fun hout => ?_) hfits
      have hstarts := lineStarts_le true (normaliseEol input)
      by_cases hfour : 4 ≤ size
      · -- what is left of the lines lacks their end
        have hstart : skipSize size = 2 := if_pos (by omega)
        have hstop := dropTag_le data (2 + 2) size 0xE0
        have hlt : dropTag data (2 + 2) size 0xE0 - (2 + 2) < (wrapLines true input).length := by
          omega
        have hslice : slice data (2 + 2) (dropTag data (2 + 2) size 0xE0)
            = (wrapLines true input).take (dropTag data (2 + 2) size 0xE0 - (2 + 2)) := by
          have hdrop : data.drop (2 + 2) = wrapLines true input ++ ([0x00] ++ [0xE0]) := by
            have hfront : (putBE 2 body.length ++ [0x00, 0x01]).length = 2 + 2 := by
              rw [List.length_append, length_putBE]
              rfl
            rw [hsplit, List.drop_left' hfront, List.append_assoc]
          rw [slice, List.drop_take, hdrop, List.take_append_of_le_length (by omega)]
        have htake := unwrapLines_take_lt true hnul hlt
        rw [hstart, if_pos (by omega), hslice] at hout
        rw [hout] at htake
        exact absurd htake (Nat.lt_irrefl _)
      · have hlength := congrArg List.length hout
        have hle := length_unwrapLines_le true (slice data
          (if skipSize size + 2 ≤ size then skipSize size + 2 else skipSize size)
          (dropTag data (if skipSize size + 2 ≤ size then skipSize size + 2 else skipSize size)
            size 0xE0))
        have hslice := length_slice_le data
          (if skipSize size + 2 ≤ size then skipSize size + 2 else skipSize size)
          (dropTag data (if skipSize size + 2 ≤ size then skipSize size + 2 else skipSize size)
            size 0xE0)
        have hstop := dropTag_le data
          (if skipSize size + 2 ≤ size then skipSize size + 2 else skipSize size) size 0xE0
        omega

/-! ## pictures -/

/-- A fit whose rows hold the data and less than a row of padding. -/
structure PicFit.Good (dsize : Nat) (fit : PicFit) : Prop where
  rows : fit.height * ((fit.width + 7) / 8) = dsize + fit.padding
  padding : fit.padding < (fit.width + 7) / 8
  width : fit.width ≤ 240

theorem tryWidth_good {dsize w : Nat} (hw : 1 ≤ w) (hw' : w ≤ 240) {best : PicFit}
    (h : best.padding = 2 ^ 64 - 1 ∨ best.Good dsize) :
    (tryWidth dsize best w).padding = 2 ^ 64 - 1 ∨ (tryWidth dsize best w).Good dsize := by
  unfold tryWidth
  dsimp only
  split
  · right
    have hstride : 0 < (w + 7) / 8 := by omega
    have hdiv := Nat.div_add_mod (dsize + (w + 7) / 8 - 1) ((w + 7) / 8)
    have hmod := Nat.mod_lt (dsize + (w + 7) / 8 - 1) hstride
    rw [Nat.mul_comm] at hdiv
    constructor
    · dsimp only
      omega
    · dsimp only
      omega
    · exact hw'
  · exact h

/-- The widest picture holds any data that is not too large, so a fit is found. -/
theorem fitPic_good {dsize : Nat} (hpos : 0 < dsize) (hmax : dsize ≤ 3090) :
    (fitPic dsize).Good dsize := by
  have hfold : ∀ (ws : List Nat) (best : PicFit), (∀ w ∈ ws, 1 ≤ w ∧ w ≤ 240) →
      (best.padding = 2 ^ 64 - 1 ∨ best.Good dsize) →
      (ws.foldl (tryWidth dsize) best).padding = 2 ^ 64 - 1
        ∨ (ws.foldl (tryWidth dsize) best).Good dsize := by
    intro ws
    induction ws with
    | nil => exact fun best _ h => h
    | cons w ws ih =>
        intro best hws h
        obtain ⟨hw, hws⟩ := List.forall_mem_cons.1 hws
        exact ih _ hws (tryWidth_good hw.1 hw.2 h)
  have hsplit : List.range' 1 240 = List.range' 1 239 ++ [240] := List.range'_1_concat
  have hbefore := hfold (List.range' 1 239) { width := 1, height := 1, padding := 2 ^ 64 - 1 }
    (fun w hw => by
      rw [List.mem_range'_1] at hw
      omega) (Or.inl rfl)
  unfold fitPic
  rw [hsplit, List.foldl_append]
  generalize (List.range' 1 239).foldl (tryWidth dsize)
    { width := 1, height := 1, padding := 2 ^ 64 - 1 } = best at hbefore
  have hlast := tryWidth_good (by omega : 1 ≤ 240) (Nat.le_refl 240) hbefore
  cases hlast with
  | inr hgood => exact hgood
  | inl hnone =>
      -- 240 pixels always fit, with less than thirty bytes of padding
      exfalso
      have hheight : (dsize + (240 + 7) / 8 - 1) / ((240 + 7) / 8) ≥ 1
          ∧ (dsize + (240 + 7) / 8 - 1) / ((240 + 7) / 8) ≤ 103 := by
        omega
      have hpad : (dsize + (240 + 7) / 8 - 1) / ((240 + 7) / 8) * ((240 + 7) / 8) - dsize < 30 := by
        omega
      unfold tryWidth at hnone
      dsimp only at hnone
      split at hnone
      · dsimp only at hnone
        omega
      · rename_i hworse
        exact hworse ⟨hheight, Or.inl (by rw [hnone]; omega)⟩

theorem unwrapTi68k_pic {input : List UInt8} (hpos : 0 < input.length)
    (hmax : input.length ≤ 3090) {data : List UInt8}
    (hdata : data = putBE 2 (5 + input.length + (fitPic input.length).padding)
      ++ putBE 2 (fitPic input.length).height ++ putBE 2 (fitPic input.length).width ++ input
      ++ List.replicate (fitPic input.length).padding 0 ++ [0xDF]) :
    unwrapTi68k ti89Pic data (UInt32.ofNat data.length).toNat
      = input ++ List.replicate (fitPic input.length).padding 0 := by
  obtain ⟨-, hpad, hwidth⟩ := fitPic_good hpos hmax
  have hlen : data.length = input.length + (fitPic input.length).padding + 7 := by
    rw [hdata]
    simp only [List.length_append, length_putBE, List.length_replicate, List.length_singleton]
    omega
  have hfits : input.length + (fitPic input.length).padding + 7 < 2 ^ 32 := by omega
  have hstart : skipSize (input.length + (fitPic input.length).padding + 7) = 2 :=
    if_pos (by omega)
  have htag : data.getD (input.length + (fitPic input.length).padding + 7 - 1) 0 = 0xDF := by
    rw [hdata]
    refine getD_at ?_ _ _
    simp only [List.length_append, length_putBE, List.length_replicate]
    omega
  unfold unwrapTi68k
  dsimp only
  rw [if_neg (by decide), if_neg (by decide), if_neg (by decide), if_neg (by decide), if_pos rfl,
    hlen, size_of_fits hfits, hstart, if_pos (by omega), dropTag_of_tag (by omega) htag, hdata]
  have hsplit : putBE 2 (5 + input.length + (fitPic input.length).padding)
      ++ putBE 2 (fitPic input.length).height ++ putBE 2 (fitPic input.length).width ++ input
      ++ List.replicate (fitPic input.length).padding 0 ++ [0xDF]
      = (putBE 2 (5 + input.length + (fitPic input.length).padding)
        ++ putBE 2 (fitPic input.length).height ++ putBE 2 (fitPic input.length).width)
        ++ ((input ++ List.replicate (fitPic input.length).padding 0) ++ [0xDF]) := by
    simp only [List.append_assoc]
  rw [hsplit]
  refine slice_append ?_ ?_
  · simp only [List.length_append, length_putBE]
  · simp only [List.length_append, length_putBE, List.length_replicate]
    omega

/-! ## Python scripts -/

theorem length_skipMetadata {bs script : List UInt8} (h : skipMetadata bs = some script) :
    script.length < bs.length := by
  induction bs using skipMetadata.induct with
  | case1 =>
      rw [skipMetadata] at h
      cases h
  | case2 rest =>
      rw [skipMetadata] at h
      cases h
      exact Nat.lt_succ_self _
  | case3 b bs hb hnone =>
      rw [skipMetadata.eq_3 b bs hb] at h
      split at h
      · cases h
      · rename_i hsome
        cases hnone.symm.trans hsome
  | case4 b bs hb n rest hlength hbad =>
      rw [skipMetadata.eq_3 b bs hb] at h
      split at h
      · cases h
      · rename_i hsome
        cases hlength.symm.trans hsome
        rw [if_pos hbad] at h
        cases h
  | case5 b bs hb n rest hlength hgood ih =>
      have hrest := length_metadataLength hlength
      rw [skipMetadata.eq_3 b bs hb] at h
      split at h
      · cases h
      · rename_i hsome
        cases hlength.symm.trans hsome
        rw [if_neg hgood] at h
        have hlt := ih h
        rw [List.length_drop] at hlt
        omega

theorem unwrapDeepPython_script (script : List UInt8) {data : List UInt8} {n : Nat}
    (hdata : data = putLE 2 n ++ [0x50, 0x59, 0x43, 0x44, 0x00] ++ script) :
    unwrapDeepPython data (UInt32.ofNat data.length).toNat = some script
      ↔ script.length + 7 < 2 ^ 32 := by
  have hlen : data.length = script.length + 7 := by
    rw [hdata]
    simp only [List.length_append, length_putLE, List.length_cons, List.length_nil]
    omega
  unfold unwrapDeepPython
  dsimp only
  rw [hlen]
  by_cases hfits : script.length + 7 < 2 ^ 32
  · have hmagic : slice data 2 6 = [0x50, 0x59, 0x43, 0x44] := by
      have hsplit : data = putLE 2 n ++ ([0x50, 0x59, 0x43, 0x44] ++ (0x00 :: script)) := by
        rw [hdata]
        simp only [List.append_assoc, List.cons_append, List.nil_append]
      rw [hsplit]
      exact slice_append (length_putLE 2 n).symm (by rw [length_putLE]; rfl)
    have hrecords : slice data 6 (script.length + 7) = 0x00 :: script := by
      have hsplit : data = (putLE 2 n ++ [0x50, 0x59, 0x43, 0x44]) ++ ((0x00 :: script) ++ []) := by
        rw [hdata]
        simp only [List.append_assoc, List.cons_append, List.nil_append, List.append_nil]
      rw [hsplit]
      refine slice_append (by rw [List.length_append, length_putLE]; rfl) ?_
      simp only [List.length_append, length_putLE, List.length_cons, List.length_nil]
      omega
    rw [size_of_fits hfits, if_neg (by omega), hmagic, if_neg (by simp), hrecords, skipMetadata]
    exact iff_of_true rfl hfits
  · obtain ⟨hshort, -⟩ := size_of_not_fits hfits
    generalize (UInt32.ofNat (script.length + 7)).toNat = size at hshort ⊢
    refine iff_of_false (fun hout => ?_) hfits
    have hpass : data.take size ≠ script := by
      intro heq
      have hle := congrArg List.length heq
      rw [List.length_take, hlen] at hle
      omega
    split at hout
    · exact hpass (Option.some.inj hout)
    · split at hout
      · exact hpass (Option.some.inj hout)
      · have hlt := length_skipMetadata hout
        have hslice := length_slice_le data 6 size
        omega

/-! ## round trip -/

/-- The files that `wrap` makes one of these variables of: a Python script, or a TI-68k
string, program, text without NUL, picture or 'other' variable with an extension. -/
inductive WrapsTo (model : CalcModel) (opts : WrapOptions) (input : List UInt8) : UInt8 → Prop
  | python (typeId : UInt8) (h : opts.packpython = true) : WrapsTo model opts input typeId
  | asm (h : opts.packpython = false) (h68k : ticonvModelIsTi68k model = true) :
      WrapsTo model opts input ti89Asm
  | str (h : opts.packpython = false) (h68k : ticonvModelIsTi68k model = true) :
      WrapsTo model opts input ti89Str
  | text (h : opts.packpython = false) (h68k : ticonvModelIsTi68k model = true)
      (hnul : ∀ c ∈ input, c ≠ 0x00) : WrapsTo model opts input ti89Text
  | pic (h : opts.packpython = false) (h68k : ticonvModelIsTi68k model = true) :
      WrapsTo model opts input ti89Pic
  | oth (h : opts.packpython = false) (hmodel : typeIsTi68kOth model ti89Oth = true)
      (hne : opts.extensionstr ≠ []) (hfour : opts.extensionstr.length ≤ 4)
      (hnul : ∀ c ∈ opts.extensionstr, c ≠ 0x00) : WrapsTo model opts input ti89Oth

/-- What has to come back: the file, but for the byte order mark of a script, the line
endings of a text, and less than a row of zeros after a picture. -/
def Restored (typeId : UInt8) (opts : WrapOptions) (input out : List UInt8) : Prop :=
  if opts.packpython then out = stripBom input
  else if typeId = ti89Text then out = normaliseEol input
  else if typeId = ti89Pic then
    ∃ height width padding, out = input ++ List.replicate padding 0
      ∧ height * ((width + 7) / 8) = out.length ∧ padding < (width + 7) / 8
  else out = input

/-- The bytes of the variable that a file becomes; a picture is short. -/
def wrappedLength (typeId : UInt8) (opts : WrapOptions) (input : List UInt8) : Nat :=
  if opts.packpython then (stripBom input).length + 7
  else if typeId = ti89Asm then input.length + 3
  else if typeId = ti89Str then input.length + 5
  else if typeId = ti89Text then textLength input
  else if typeId = ti89Oth then input.length + opts.extensionstr.length + 5
  else 0

/-- When the file comes back. -/
def Unwrappable (typeId : UInt8) (opts : WrapOptions) (input : List UInt8) : Prop :=
  (opts.packpython = false → typeId = ti89Oth → input ≠ [])
    ∧ wrappedLength typeId opts input < 2 ^ 32

theorem python_not_ti68k {model : CalcModel}
    (h : (ticonvModelIsTiez80 model || model == .ti83p || model == .ti84p
      || model == .ti84pUsb) = true) : ticonvModelIsTi68k model = false := by
  cases model <;> first | exact absurd h (by decide) | rfl

/-- A TI-68k variable is its envelope. -/
theorem tifileutilWrap_ti68k {model : CalcModel} {typeId : UInt8} {opts : WrapOptions}
    {input : List UInt8} {ve : VarEntry} (hraw : opts.rawmode = false)
    (hpython : opts.packpython = false) (h68k : ticonvModelIsTi68k model = true)
    (hwrap : tifileutilWrap model typeId opts input = some ve) :
    ∃ data, wrapTi68k typeId opts.extensionstr
        (if opts.extensionstr ≠ [] ∧ typeIsTi68kOth model typeId then
          input ++ [0x00] ++ opts.extensionstr.take 4 ++ [0x00, 0xF8] else input) = some data
      ∧ ve.type = typeId ∧ ve.size = UInt32.ofNat data.length ∧ ve.data = some data := by
  have hlength : typeHasLength model typeId = false := by
    cases model <;> first | exact absurd h68k (by decide) | rfl
  unfold tifileutilWrap at hwrap
  simp only [hpython, hraw, hlength, h68k, Bool.false_and, Bool.not_false, Bool.true_and,
    Bool.false_eq_true, if_false, if_true] at hwrap
  rw [Option.map_eq_some_iff] at hwrap
  obtain ⟨data, hdata, hve⟩ := hwrap
  exact ⟨data, hdata, by rw [← hve], by rw [← hve], by rw [← hve]⟩

/-- A Python AppVar is the script after its header. -/
theorem tifileutilWrap_python {model : CalcModel} {typeId : UInt8} {opts : WrapOptions}
    {input : List UInt8} {ve : VarEntry} (hpython : opts.packpython = true)
    (hwrap : tifileutilWrap model typeId opts input = some ve) :
    ∃ data, data = putLE 2 ((stripBom input).length + 4 + 1)
        ++ [0x50, 0x59, 0x43, 0x44, 0x00] ++ stripBom input
      ∧ ticonvModelIsTi68k model = false
      ∧ ve.type = ti83pAppv ∧ ve.size = UInt32.ofNat data.length ∧ ve.data = some data := by
  unfold tifileutilWrap at hwrap
  split at hwrap
  · cases hwrap
  · rename_i hallowed
    have hmodel : (ticonvModelIsTiez80 model || model == .ti83p || model == .ti84p
        || model == .ti84pUsb) = true := by
      rw [hpython] at hallowed
      cases hraw : opts.rawmode <;> simp [hraw] at hallowed
      cases hez80 : ticonvModelIsTiez80 model <;> simp [hez80] at hallowed ⊢
      tauto
    have hnot68k := python_not_ti68k hmodel
    have hoth : typeIsTi68kOth model ti83pAppv = false := by
      rw [typeIsTi68kOth, Bool.and_eq_false_iff]
      exact Or.inr rfl
    simp only [hnot68k, hoth, Bool.and_false, Bool.false_eq_true, if_false, and_false,
      Option.map_some, Option.some.injEq] at hwrap
    exact ⟨_, rfl, hnot68k, by rw [← hwrap], by rw [← hwrap], by rw [← hwrap]⟩

theorem unwrapDeepEntry_ti68k (tokenize : CalcModel → VarName → UInt8 → List UInt8)
    {model : CalcModel} (h68k : ticonvModelIsTi68k model = true) {ve : VarEntry}
    {data : List UInt8} {typeId : UInt8} (hasm : typeId ≠ ti83pAsm) (htype : ve.type = typeId)
    (hsize : ve.size = UInt32.ofNat data.length) (hdata : ve.data = some data) :
    unwrapDeepEntry tokenize model ve
      = some (unwrapTi68k typeId data (UInt32.ofNat data.length).toNat) := by
  unfold unwrapDeepEntry
  rw [htype, if_neg hasm, h68k, if_pos rfl, hsize, hdata, Option.getD_some]

/-- `unwrap_deep_entry` gives back what `wrap` was given exactly when an 'other' variable is
not empty and the length of the variable fits the size of an entry. -/
theorem unwrapDeepEntry_wrap_iff (tokenize : CalcModel → VarName → UInt8 → List UInt8)
    {model : CalcModel} {typeId : UInt8} {opts : WrapOptions} {input : List UInt8}
    {ve : VarEntry} (hraw : opts.rawmode = false) (hkind : WrapsTo model opts input typeId)
    (hwrap : tifileutilWrap model typeId opts input = some ve) :
    (∃ out, unwrapDeepEntry tokenize model ve = some out ∧ Restored typeId opts input out)
      ↔ Unwrappable typeId opts input := by
  unfold Restored Unwrappable wrappedLength
  cases hkind with
  | python typeId h =>
      obtain ⟨data, hdata, h68k, htype, hsize, hve⟩ := tifileutilWrap_python h hwrap
      have hunwrap : unwrapDeepEntry tokenize model ve
          = unwrapDeepPython data (UInt32.ofNat data.length).toNat := by
        unfold unwrapDeepEntry
        rw [htype, if_neg (by decide), h68k, if_neg (by decide), if_pos rfl, hsize, hve,
          Option.getD_some]
      have hiff := unwrapDeepPython_script (stripBom input) hdata
      rw [hunwrap]
      simp only [h, if_true, exists_eq_right, Bool.true_eq_false, false_implies, true_and]
      exact hiff
  | asm h h68k =>
      obtain ⟨data, hdata, htype, hsize, hve⟩ := tifileutilWrap_ti68k hraw h h68k hwrap
      have hoth : typeIsTi68kOth model ti89Asm = false := by
        rw [typeIsTi68kOth, Bool.and_eq_false_iff]
        exact Or.inr rfl
      rw [hoth, if_neg (by simp), wrapTi68k] at hdata
      have hiff := unwrapTi68k_asm input (Option.some.inj hdata).symm
      rw [unwrapDeepEntry_ti68k tokenize h68k (by decide) htype hsize hve]
      simp only [h, Bool.false_eq_true, if_false, Option.some.injEq, exists_eq_left']
      rw [if_neg (by decide), if_neg (by decide), if_pos trivial, hiff]
      exact ⟨fun hfits => ⟨fun _ hfalse => absurd hfalse (by decide), hfits⟩, fun hall => hall.2⟩
  | str h h68k =>
      obtain ⟨data, hdata, htype, hsize, hve⟩ := tifileutilWrap_ti68k hraw h h68k hwrap
      have hoth : typeIsTi68kOth model ti89Str = false := by
        rw [typeIsTi68kOth, Bool.and_eq_false_iff]
        exact Or.inr rfl
      rw [hoth, if_neg (by simp), wrapTi68k, if_neg (by decide), if_pos rfl] at hdata
      have hiff := unwrapTi68k_str input (Option.some.inj hdata).symm
      rw [unwrapDeepEntry_ti68k tokenize h68k (by decide) htype hsize hve]
      simp only [h, Bool.false_eq_true, if_false, Option.some.injEq, exists_eq_left']
      rw [if_neg (by decide), if_neg (by decide), if_neg (by decide), if_pos trivial, hiff]
      exact ⟨fun hfits => ⟨fun _ hfalse => absurd hfalse (by decide), hfits⟩, fun hall => hall.2⟩
  | text h h68k hnul =>
      obtain ⟨data, hdata, htype, hsize, hve⟩ := tifileutilWrap_ti68k hraw h h68k hwrap
      have hoth : typeIsTi68kOth model ti89Text = false := by
        rw [typeIsTi68kOth, Bool.and_eq_false_iff]
        exact Or.inr rfl
      rw [hoth, if_neg (by simp), wrapTi68k, if_neg (by decide), if_neg (by decide),
        if_neg (by simp [ti89Text, ti89Oth]), if_pos rfl] at hdata
      have hiff := unwrapTi68k_text hnul rfl (Option.some.inj hdata).symm
      rw [unwrapDeepEntry_ti68k tokenize h68k (by decide) htype hsize hve]
      simp only [h, Bool.false_eq_true, if_false, Option.some.injEq, exists_eq_left']
      rw [if_pos trivial, if_neg (by decide), if_neg (by decide), if_pos trivial, hiff]
      exact ⟨fun hfits => ⟨fun _ hfalse => absurd hfalse (by decide), hfits⟩, fun hall => hall.2⟩
  | pic h h68k =>
      obtain ⟨data, hdata, htype, hsize, hve⟩ := tifileutilWrap_ti68k hraw h h68k hwrap
      have hoth : typeIsTi68kOth model ti89Pic = false := by
        rw [typeIsTi68kOth, Bool.and_eq_false_iff]
        exact Or.inr rfl
      rw [hoth, if_neg (by simp), wrapTi68k, if_neg (by decide), if_neg (by decide),
        if_neg (by simp [ti89Pic, ti89Oth]), if_neg (by decide), if_pos rfl] at hdata
      split at hdata
      · cases hdata
      · rename_i hrange
        have hpos : 0 < input.length := by omega
        have hmax : input.length ≤ 3090 := by omega
        obtain ⟨hrows, hpad, -⟩ := fitPic_good hpos hmax
        rw [unwrapDeepEntry_ti68k tokenize h68k (by decide) htype hsize hve,
          unwrapTi68k_pic hpos hmax (Option.some.inj hdata).symm]
        simp only [h, Bool.false_eq_true, if_false, Option.some.injEq, exists_eq_left']
        rw [if_neg (by decide), if_pos trivial, if_neg (by decide), if_neg (by decide),
          if_neg (by decide), if_neg (by decide)]
        have hlength : (fitPic input.length).height * (((fitPic input.length).width + 7) / 8)
            = (input ++ List.replicate (fitPic input.length).padding 0).length := by
          rw [hrows, List.length_append, List.length_replicate]
        exact iff_of_true ⟨_, _, _, rfl, hlength, hpad⟩
          ⟨fun _ hfalse => absurd hfalse (by decide), by decide⟩
  | oth h hmodel hne hfour hnul =>
      have h68k : ticonvModelIsTi68k model = true := by
        cases model <;> first | exact absurd hmodel (by decide) | rfl
      obtain ⟨data, hdata, htype, hsize, hve⟩ := tifileutilWrap_ti68k hraw h h68k hwrap
      rw [if_pos ⟨hne, hmodel⟩, List.take_of_length_le hfour, wrapTi68k, if_neg (by decide),
        if_neg (by decide), if_pos ⟨rfl, hne⟩] at hdata
      have hiff := unwrapTi68k_oth input hne hfour hnul (Option.some.inj hdata).symm
      rw [unwrapDeepEntry_ti68k tokenize h68k (by decide) htype hsize hve]
      simp only [h, Bool.false_eq_true, if_false, Option.some.injEq, exists_eq_left']
      rw [if_neg (by decide), if_neg (by decide), if_neg (by decide), if_neg (by decide),
        if_neg (by decide), if_pos trivial, hiff]
      exact ⟨fun hall => ⟨fun _ _ => hall.1, hall.2⟩, fun hall => ⟨hall.1 trivial trivial, hall.2⟩⟩

/-- A string for the TI-89 that holds the bytes of a string's tag. -/
theorem unwrapDeepEntry_wrap_iff_str :
    ∃ ve, tifileutilWrap .ti89 ti89Str ⟨false, false, []⟩ [0x00, 0x2D] = some ve
      ∧ ∃ out, unwrapDeepEntry (fun _ _ _ => []) .ti89 ve = some out
        ∧ Restored ti89Str ⟨false, false, []⟩ [0x00, 0x2D] out := by
  have hwrap : ∃ ve, tifileutilWrap .ti89 ti89Str ⟨false, false, []⟩ [0x00, 0x2D] = some ve :=
    ⟨_, rfl⟩
  obtain ⟨ve, hve⟩ := hwrap
  exact ⟨ve, hve, (unwrapDeepEntry_wrap_iff (fun _ _ _ => []) rfl (.str rfl rfl) hve).2
    ⟨nofun, by decide⟩⟩

/-- The round trip for every file and every kind of variable. -/
def AllUnwrap : Prop :=
  ∀ (tokenize : CalcModel → VarName → UInt8 → List UInt8) (model : CalcModel) (typeId : UInt8)
    (opts : WrapOptions) (input : List UInt8) (ve : VarEntry), opts.rawmode = false →
    WrapsTo model opts input typeId → tifileutilWrap model typeId opts input = some ve →
    ∃ out, unwrapDeepEntry tokenize model ve = some out ∧ Restored typeId opts input out

/-- An empty file as an 'other' variable comes back as the variable's footer. -/
theorem not_allUnwrap : ¬AllUnwrap := by
  intro h
  have hkind : WrapsTo .ti89 ⟨false, false, ascii "ZIP"⟩ [] ti89Oth :=
    .oth rfl rfl (by decide) (by decide) (by decide)
  obtain ⟨out, hout, hback⟩ := h (fun _ _ _ => []) .ti89 ti89Oth ⟨false, false, ascii "ZIP"⟩ [] _
    rfl hkind rfl
  have hfooter : out = [0x00] ++ ascii "ZIP" ++ [0x00, 0xF8] := by
    rw [← Option.some.inj hout]
    decide
  unfold Restored at hback
  rw [hfooter, if_neg (by decide), if_neg (by decide), if_neg (by decide)] at hback
  exact absurd hback (by decide)

end Tilibs.Tifileutil
