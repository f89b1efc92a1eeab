import Mathlib
import Tilibs.Lib.Fallible
import Tilibs.Lib.Offset
import Tilibs.Calcs.ScreenNspire

/-!
# Tilibs.Calcs.Screen84pcse

The run-length encoding of 84+CSE screenshots.

Behind a first byte 1 stand the codes, then a palette of two-byte colours, then a byte with the
number of colours.  The codes begin with two colours of four bits to a byte; a code of zeros
switches to colours of a byte, and a longer one there to pixels that are not in the palette.

`Stream` says what pixels the codes of a mode stand for; the loops are compared with it.
-/

namespace Tilibs.Calcs

open Lib

/-! ## the decoder -/

/-- How a decoder stops before its end: it returns an error, or it is outside of its buffers. -/
inductive ScreenStop
  | returns (e : ScreenErr)
  | outside
  deriving DecidableEq, Repr

/-- What stays the same in the loops: the source behind its first byte, how long the codes in
it are, the palette size, and the size of the destination. -/
structure Source84 where
  src : List UInt8
  codeLength : Nat
  paletteSize : UInt8
  dstLength : UInt32

/-- The destination: what was written before `dst`, and `dst_length`. -/
structure Dst84 where
  written : List UInt8
  left : UInt32

/-- The byte `palette[k]`, where `palette` is two bytes before the end of the codes. -/
def Source84.palette (s : Source84) (k : Nat) : Except ScreenStop UInt8 :=
  match readAt s.src ((s.codeLength : Int) - 2 + k) with
  | some b => .ok b
  | none => .error .outside

/-- A read of the codes. -/
def readCode (src : List UInt8) (i : Nat) : Except ScreenStop UInt8 :=
  match src[i]? with
  | some b => .ok b
  | none => .error .outside

/-- `dst[0]` and `dst[1]` are written and `dst` is moved on. -/
def putPixel (s : Source84) (a b : UInt8) (dst : Dst84) : Except ScreenStop Dst84 :=
  if s.dstLength.toNat < dst.written.length + 2 then .error .outside
  else .ok ⟨dst.written ++ [a, b], dst.left - 2⟩

/-- A colour of the palette is written. -/
def putColour (s : Source84) (c : UInt8) (dst : Dst84) : Except ScreenStop Dst84 := do
  let a ← s.palette (2 * c.toNat)
  let b ← s.palette (2 * c.toNat + 1)
  putPixel s a b dst

/-- The loop that writes a pixel `n` times. -/
def putRun (put : Dst84 → Except ScreenStop Dst84) : Nat → Dst84 → Except ScreenStop Dst84
  | 0, dst => .ok dst
  | n + 1, dst => do
      let dst ← put dst
      putRun put n dst

/-- A colour `n` times, behind the checks of the colour and of the room. -/
def putColours (s : Source84) (c n : UInt8) (dst : Dst84) : Except ScreenStop Dst84 :=
  if c > s.paletteSize then .error (.returns .invalidScreenshot)
  else if dst.left < 2 * n.toUInt32 then .error (.returns .invalidScreenshot)
  else putRun (putColour s c) n.toNat dst

/-- A pixel `n` times, behind the check of the room. -/
def putPixels (s : Source84) (a b n : UInt8) (dst : Dst84) : Except ScreenStop Dst84 :=
  if dst.left < 2 * n.toUInt32 then .error (.returns .invalidScreenshot)
  else putRun (putPixel s a b) n.toNat dst

/-- The loop over the two colours of a byte; a colour 0 ends it. -/
def putNibbles (s : Source84) : List UInt8 → Dst84 → Except ScreenStop Dst84
  | [], dst => .ok dst
  | c :: cs, dst =>
      if c = 0 then .ok dst
      else do
        let dst ← putColours s c 1 dst
        putNibbles s cs dst

/-- `finish`, where `src_length` is 0: the destination has to be full. -/
def finish84 (dst : Dst84) : Except ScreenStop (List UInt8) :=
  if dst.left ≠ 0 then .error (.returns .invalidScreenshot) else .ok dst.written

/-- The loop of `word_mode`. -/
def wordMode (s : Source84) (src : List UInt8) (dst : Dst84) : Except ScreenStop (List UInt8) :=
  match src with
  | [] => finish84 dst
  | first :: tail =>
      if (first :: tail).length < 2 then .error (.returns .invalidScreenshot)
      else do
        let second ← readCode tail 0
        if first ≠ 1 ∨ second ≠ 0 then
          let dst ← putPixels s first second 1 dst
          wordMode s (tail.drop 1) dst
        else if (first :: tail).length < 5 then .error (.returns .invalidScreenshot)
        else
          let n ← readCode tail 3
          let a ← readCode tail 1
          let b ← readCode tail 2
          let dst ← putPixels s a b n dst
          wordMode s (tail.drop 4) dst
termination_by src.length

/-- The loop of `byte_mode`. -/
def byteMode (s : Source84) (src : List UInt8) (dst : Dst84) : Except ScreenStop (List UInt8) :=
  match src with
  | [] => finish84 dst
  | first :: tail =>
      if first ≠ 0 then do
        let dst ← putColours s first 1 dst
        byteMode s tail dst
      else if (first :: tail).length < 3 then .error (.returns .invalidScreenshot)
      else do
        let second ← readCode tail 0
        let third ← readCode tail 1
        if second ≠ 0 then
          let dst ← putColours s second third dst
          byteMode s (tail.drop 2) dst
        else if third = 0 then wordMode s (tail.drop 2) dst
        else .error (.returns .invalidScreenshot)
termination_by src.length

/-- The first loop. -/
def nibbleMode (s : Source84) (src : List UInt8) (dst : Dst84) : Except ScreenStop (List UInt8) :=
  match src with
  | [] => finish84 dst
  | first :: tail =>
      if first &&& 0xf0 ≠ 0 then do
        let dst ← putNibbles s [first >>> 4, first &&& 0x0f] dst
        nibbleMode s tail dst
      else if (first :: tail).length < 2 then .error (.returns .invalidScreenshot)
      else do
        let second ← readCode tail 0
        if first &&& 0x0f ≠ 0 then
          let dst ← putColours s first second dst
          nibbleMode s (tail.drop 1) dst
        -- with both halves 0 the first byte is 0
        else if second = 0 then byteMode s (tail.drop 1) dst
        else .error (.returns .invalidScreenshot)
termination_by src.length

/-- `ticalcs_screen_84pcse_rle_uncompress`: what is written to a destination of `dstLength`
bytes. -/
def ticalcsScreen84pcseRleUncompress (src : List UInt8) (dstLength : UInt32) :
    Except ScreenStop (List UInt8) := do
  let first ← readCode src 0
  if first ≠ 1 then .error (.returns .invalidScreenshot)
  else
    let src := src.drop 1
    -- `src_length` is 0 here for a source of one byte, and `src_length - 1` is 2^32 - 1
    let paletteSize ← readCode src (if src.length = 0 then 2 ^ 32 - 1 else src.length - 1)
    if src.length ≤ paletteSize.toNat * 2 + 1 then .error (.returns .invalidScreenshot)
    else
      let codeLength := src.length - (paletteSize.toNat * 2 + 1)
      nibbleMode ⟨src, codeLength, paletteSize, dstLength⟩ (src.take codeLength) ⟨[], dstLength⟩

/-! ## the format -/

/-- The three ways that the codes are read. -/
inductive RleMode
  | nibble
  | byte
  | word

/-- A colour of a palette, from 1 on. -/
def colourOf (palette : List UInt8) (c : UInt8) : List UInt8 :=
  (palette.drop (2 * (c.toNat - 1))).take 2

/-- A pixel so many times. -/
def repeatPixel (n : UInt8) (pixel : List UInt8) : List UInt8 :=
  (List.replicate n.toNat pixel).flatten

/-- The codes of a mode, and the pixels that they stand for. -/
inductive Stream (paletteSize : UInt8) (palette : List UInt8) :
    RleMode → List UInt8 → List UInt8 → Prop
  | done (mode : RleMode) : Stream paletteSize palette mode [] []
  | pair {b : UInt8} {src out : List UInt8} : b &&& 0xf0 ≠ 0 → b &&& 0x0f ≠ 0 →
      b >>> 4 ≤ paletteSize → b &&& 0x0f ≤ paletteSize → Stream paletteSize palette .nibble src out →
      Stream paletteSize palette .nibble (b :: src)
        (colourOf palette (b >>> 4) ++ colourOf palette (b &&& 0x0f) ++ out)
  | single {b : UInt8} {src out : List UInt8} : b &&& 0xf0 ≠ 0 → b &&& 0x0f = 0 →
      b >>> 4 ≤ paletteSize → Stream paletteSize palette .nibble src out →
      Stream paletteSize palette .nibble (b :: src) (colourOf palette (b >>> 4) ++ out)
  | nibbleRun {c n : UInt8} {src out : List UInt8} : c &&& 0xf0 = 0 → c &&& 0x0f ≠ 0 →
      c ≤ paletteSize →
      Stream paletteSize palette .nibble src out →
      Stream paletteSize palette .nibble (c :: n :: src) (repeatPixel n (colourOf palette c) ++ out)
  | toByte {src out : List UInt8} : Stream paletteSize palette .byte src out →
      Stream paletteSize palette .nibble (0 :: 0 :: src) out
  | colour {c : UInt8} {src out : List UInt8} : c ≠ 0 → c ≤ paletteSize →
      Stream paletteSize palette .byte src out →
      Stream paletteSize palette .byte (c :: src) (colourOf palette c ++ out)
  | byteRun {c n : UInt8} {src out : List UInt8} : c ≠ 0 → c ≤ paletteSize →
      Stream paletteSize palette .byte src out →
      Stream paletteSize palette .byte (0 :: c :: n :: src) (repeatPixel n (colourOf palette c) ++ out)
  | toWord {src out : List UInt8} : Stream paletteSize palette .word src out →
      Stream paletteSize palette .byte (0 :: 0 :: 0 :: src) out
  | pixel {a b : UInt8} {src out : List UInt8} : a ≠ 1 ∨ b ≠ 0 →
      Stream paletteSize palette .word src out →
      Stream paletteSize palette .word (a :: b :: src) ([a, b] ++ out)
  | wordRun {a b n : UInt8} {src out : List UInt8} : Stream paletteSize palette .word src out →
      Stream paletteSize palette .word (1 :: 0 :: a :: b :: n :: src) (repeatPixel n [a, b] ++ out)

/-- A screenshot: 1, the codes (at least a byte), the palette and its size. -/
structure IsScreenshot (src out : List UInt8) (paletteSize : UInt8) (palette codes : List UInt8) :
    Prop where
  layout : src = 1 :: (codes ++ (palette ++ [paletteSize]))
  size : palette.length = 2 * paletteSize.toNat
  nonempty : codes ≠ []
  stream : Stream paletteSize palette .nibble codes out

/-! ## writes -/

/-- What was written and the room that is left make up the destination. -/
def Dst84.Fits (s : Source84) (dst : Dst84) : Prop :=
  dst.written.length + dst.left.toNat = s.dstLength.toNat

/-- Pixels are written when there is room for all of them, and refused when there is not. -/
structure Puts (s : Source84) (dst : Dst84) (pixels : List UInt8) (x : Except ScreenStop Dst84) :
    Prop where
  room : pixels.length ≤ dst.left.toNat →
    ∃ dst' : Dst84, x = .ok dst' ∧ dst'.written = dst.written ++ pixels ∧ dst'.Fits s
  full : dst.left.toNat < pixels.length → x = .error (.returns .invalidScreenshot)

theorem length_repeatPixel (n a b : UInt8) : (repeatPixel n [a, b]).length = 2 * n.toNat := by
  unfold repeatPixel
  rw [List.length_flatten, List.map_replicate, List.sum_replicate, smul_eq_mul, Nat.mul_comm]
  rfl

theorem repeatPixel_one (pixel : List UInt8) : repeatPixel 1 pixel = pixel := by
  simp [repeatPixel]

theorem putPixel_room {s : Source84} {dst : Dst84} (hdst : dst.Fits s) (a b : UInt8)
    (hroom : 2 ≤ dst.left.toNat) :
    ∃ dst' : Dst84, putPixel s a b dst = .ok dst' ∧ dst'.written = dst.written ++ [a, b]
      ∧ dst'.left.toNat = dst.left.toNat - 2 ∧ dst'.Fits s := by
  have hleft : (dst.left - 2).toNat = dst.left.toNat - 2 :=
    UInt32.toNat_sub_of_le _ _ (UInt32.le_iff_toNat_le.mpr hroom)
  unfold Dst84.Fits at hdst
  refine ⟨⟨dst.written ++ [a, b], dst.left - 2⟩, ?_, rfl, hleft, ?_⟩
  · unfold putPixel
    rw [if_neg (by omega)]
  · show (dst.written ++ [a, b]).length + (dst.left - 2).toNat = _
    rw [hleft, List.length_append, List.length_cons, List.length_singleton]
    omega

/-- The loop over a run stays in its room. -/
theorem putRun_room {s : Source84} {a b : UInt8} {put : Dst84 → Except ScreenStop Dst84}
    (hput : ∀ dst, put dst = putPixel s a b dst) (n : Nat) {dst : Dst84} (hdst : dst.Fits s)
    (hroom : 2 * n ≤ dst.left.toNat) :
    ∃ dst' : Dst84, putRun put n dst = .ok dst'
      ∧ dst'.written = dst.written ++ (List.replicate n [a, b]).flatten ∧ dst'.Fits s := by
  induction n generalizing dst with
  | zero => exact ⟨dst, rfl, by simp, hdst⟩
  | succ n ih =>
      obtain ⟨dst₁, hfirst, hwritten, hleft, hfits⟩ := putPixel_room hdst a b (by omega)
      obtain ⟨dst₂, hrest, hwritten', hfits'⟩ := ih hfits (by omega)
      refine ⟨dst₂, ?_, ?_, hfits'⟩
      · rw [putRun, hput, hfirst]
        exact hrest
      · rw [hwritten', hwritten, List.replicate_succ, List.flatten_cons, List.append_assoc]

theorem not_lt_two_mul {left : UInt32} {n : UInt8} :
    ¬left < 2 * n.toUInt32 ↔ 2 * n.toNat ≤ left.toNat := by
  have hn := n.toNat_lt
  have hmul : (2 * n.toUInt32).toNat = 2 * n.toNat := by
    rw [UInt32.toNat_mul, UInt8.toNat_toUInt32]
    exact Nat.mod_eq_of_lt (by show 2 * n.toNat < 2 ^ 32; omega)
  rw [UInt32.lt_iff_toNat_lt, hmul, Nat.not_lt]

/-- A run behind the check of the room. -/
theorem puts_run {s : Source84} {dst : Dst84} (hdst : dst.Fits s) {a b : UInt8} (n : UInt8)
    {put : Dst84 → Except ScreenStop Dst84} (hput : ∀ dst, put dst = putPixel s a b dst) :
    Puts s dst (repeatPixel n [a, b])
      (if dst.left < 2 * n.toUInt32 then .error (.returns .invalidScreenshot)
        else putRun put n.toNat dst) := by
  constructor
  · intro hroom
    rw [length_repeatPixel] at hroom
    rw [if_neg (not_lt_two_mul.mpr hroom)]
    exact putRun_room hput n.toNat hdst hroom
  · intro hfull
    rw [length_repeatPixel] at hfull
    refine if_pos (Decidable.not_not.mp fun hle => ?_)
    exact absurd (not_lt_two_mul.mp hle) (Nat.not_le.mpr hfull)

theorem puts_putPixels {s : Source84} {dst : Dst84} (hdst : dst.Fits s) (a b n : UInt8) :
    Puts s dst (repeatPixel n [a, b]) (putPixels s a b n dst) :=
  puts_run hdst n fun _ => rfl

/-! ## the palette -/

/-- The source behind its first byte: the codes, the palette, and its size. -/
structure Source84.Holds (s : Source84) (codes palette : List UInt8) : Prop where
  layout : s.src = codes ++ (palette ++ [s.paletteSize])
  codeLength : s.codeLength = codes.length
  size : palette.length = 2 * s.paletteSize.toNat

/-- The two bytes of a colour are read inside of the palette. -/
theorem putColour_eq {s : Source84} {codes palette : List UInt8} (hs : s.Holds codes palette)
    {c : UInt8} (hc : c ≠ 0) (hle : c ≤ s.paletteSize) :
    ∃ a b, colourOf palette c = [a, b] ∧ ∀ dst, putColour s c dst = putPixel s a b dst := by
  have hpos : c.toNat ≠ 0 := fun hzero => hc (UInt8.toNat.inj hzero)
  have hle' := UInt8.le_iff_toNat_le.mp hle
  have hsize := hs.size
  have hread : ∀ k, k < 2 * s.paletteSize.toNat → s.palette (k + 2) = .ok (palette.getD k 0) := by
    intro k hk
    have hindex : ((s.codeLength : Int) - 2 + (k + 2 : Nat)) = ((codes.length + k : Nat) : Int) := by
      rw [hs.codeLength]
      omega
    have hat : s.src[codes.length + k]? = some (palette.getD k 0) := by
      rw [hs.layout, List.getElem?_append_right (Nat.le_add_right _ _), Nat.add_sub_cancel_left,
        List.getElem?_append_left (by omega), List.getD_eq_getElem?_getD,
        List.getElem?_eq_getElem (by omega)]
      rfl
    unfold Source84.palette readAt
    rw [hindex, if_pos (Int.natCast_nonneg _), Int.toNat_natCast, hat]
  refine ⟨palette.getD (2 * (c.toNat - 1)) 0, palette.getD (2 * (c.toNat - 1) + 1) 0, ?_, ?_⟩
  · unfold colourOf
    have hfirst : 2 * (c.toNat - 1) < palette.length := by omega
    have hsecond : 2 * (c.toNat - 1) + 1 < palette.length := by omega
    rw [List.drop_eq_getElem_cons hfirst, List.drop_eq_getElem_cons hsecond, List.take_succ_cons,
      List.take_succ_cons, List.take_zero, List.getD_eq_getElem _ _ hfirst,
      List.getD_eq_getElem _ _ hsecond]
  · intro dst
    have hfirst := hread (2 * (c.toNat - 1)) (by omega)
    have hsecond := hread (2 * (c.toNat - 1) + 1) (by omega)
    rw [show 2 * (c.toNat - 1) + 2 = 2 * c.toNat by omega] at hfirst
    rw [show 2 * (c.toNat - 1) + 1 + 2 = 2 * c.toNat + 1 by omega] at hsecond
    unfold putColour
    rw [hfirst, hsecond]
    rfl

theorem puts_putColours {s : Source84} {codes palette : List UInt8} (hs : s.Holds codes palette)
    {dst : Dst84} (hdst : dst.Fits s) {c : UInt8} (hc : c ≠ 0) (hle : c ≤ s.paletteSize) (n : UInt8) :
    Puts s dst (repeatPixel n (colourOf palette c)) (putColours s c n dst) := by
  obtain ⟨a, b, hcolour, hput⟩ := putColour_eq hs hc hle
  unfold putColours
  rw [if_neg (UInt8.not_lt.mpr hle), hcolour]
  exact puts_run hdst n hput

theorem putColours_of_lt {s : Source84} {c : UInt8} (h : s.paletteSize < c) (n : UInt8) (dst : Dst84) :
    putColours s c n dst = .error (.returns .invalidScreenshot) := if_pos h

theorem Puts.nothing {s : Source84} {dst : Dst84} (hdst : dst.Fits s) : Puts s dst [] (.ok dst) := by
  constructor
  · intro _
    exact ⟨dst, rfl, (List.append_nil _).symm, hdst⟩
  · intro hfull
    exact absurd hfull (Nat.not_lt_zero _)

/-- Pixels behind one another. -/
theorem Puts.append {s : Source84} {dst : Dst84} {first second : List UInt8}
    {x : Except ScreenStop Dst84} {k : Dst84 → Except ScreenStop Dst84} (hx : Puts s dst first x)
    (hdst : dst.Fits s) (hk : ∀ dst' : Dst84, dst'.Fits s → Puts s dst' second (k dst')) :
    Puts s dst (first ++ second) (x >>= k) := by
  have hleft : ∀ dst' : Dst84, dst'.written = dst.written ++ first → dst'.Fits s →
      dst'.left.toNat + first.length = dst.left.toNat := by
    intro dst' hwritten hfits
    unfold Dst84.Fits at hdst hfits
    rw [hwritten, List.length_append] at hfits
    omega
  constructor
  · intro hroom
    rw [List.length_append] at hroom
    obtain ⟨dst₁, rfl, hwritten, hfits⟩ := hx.room (by omega)
    have hrest := hleft dst₁ hwritten hfits
    obtain ⟨dst₂, hsecond, hwritten', hfits'⟩ := (hk dst₁ hfits).room (by omega)
    exact ⟨dst₂, hsecond, by rw [hwritten', hwritten, List.append_assoc], hfits'⟩
  · intro hfull
    rw [List.length_append] at hfull
    by_cases hroom : first.length ≤ dst.left.toNat
    · obtain ⟨dst₁, rfl, hwritten, hfits⟩ := hx.room hroom
      have hrest := hleft dst₁ hwritten hfits
      exact (hk dst₁ hfits).full (by omega)
    · rw [hx.full (Nat.not_le.mp hroom)]
      rfl

/-! ## the loops -/

/-- A loop stays inside of its buffers; it succeeds when the codes stand for pixels that fill
the rest of the destination, and writes these. -/
structure Meets (s : Source84) (palette : List UInt8) (mode : RleMode) (src : List UInt8)
    (dst : Dst84) (r : Except ScreenStop (List UInt8)) : Prop where
  inside : r ≠ .error .outside
  ok_iff : ∀ out, r = .ok out ↔ ∃ pixels, Stream s.paletteSize palette mode src pixels
    ∧ pixels.length = dst.left.toNat ∧ out = dst.written ++ pixels

section Meets

variable {s : Source84} {palette : List UInt8} {mode mode' : RleMode} {src src' : List UInt8}
  {dst : Dst84}

/-- Codes that stand for nothing are refused. -/
theorem Meets.refused (h : ∀ pixels, ¬Stream s.paletteSize palette mode src pixels) :
    Meets s palette mode src dst (.error (.returns .invalidScreenshot)) := by
  constructor
  · simp
  · intro out
    constructor
    · intro hok
      cases hok
    · rintro ⟨pixels, hpixels, -⟩
      exact absurd hpixels (h pixels)

theorem Meets.finish (mode : RleMode) : Meets s palette mode [] dst (finish84 dst) := by
  unfold finish84
  constructor
  · split <;> simp
  · intro out
    constructor
    · intro hok
      split at hok
      · cases hok
      · rename_i hleft
        cases hok
        rw [Decidable.not_not.mp hleft]
        exact ⟨[], Stream.done mode, rfl, (List.append_nil _).symm⟩
    · rintro ⟨pixels, hpixels, hlen, rfl⟩
      cases hpixels
      have hleft : dst.left = 0 := UInt32.toNat.inj hlen.symm
      rw [if_neg (not_not_intro hleft), List.append_nil]

/-- Codes of the next mode. -/
theorem Meets.switch {r : Except ScreenStop (List UInt8)} (h : Meets s palette mode' src' dst r)
    (hstream : ∀ out, Stream s.paletteSize palette mode src out
      ↔ Stream s.paletteSize palette mode' src' out) : Meets s palette mode src dst r := by
  constructor
  · exact h.inside
  · intro out
    simp only [hstream]
    exact h.ok_iff out

/-- A code whose pixels are written, and the codes behind it. -/
theorem Meets.code {pixels : List UInt8} {x : Except ScreenStop Dst84}
    {k : Dst84 → Except ScreenStop (List UInt8)} (hdst : dst.Fits s) (hput : Puts s dst pixels x)
    (hstream : ∀ out, Stream s.paletteSize palette mode src out
      ↔ ∃ rest, Stream s.paletteSize palette mode' src' rest ∧ out = pixels ++ rest)
    (hrest : ∀ dst' : Dst84, dst'.Fits s → Meets s palette mode' src' dst' (k dst')) :
    Meets s palette mode src dst (x >>= k) := by
  by_cases hroom : pixels.length ≤ dst.left.toNat
  · obtain ⟨dst', rfl, hwritten, hfits⟩ := hput.room hroom
    obtain ⟨hinside, hok⟩ := hrest dst' hfits
    have hleft : dst'.left.toNat + pixels.length = dst.left.toNat := by
      unfold Dst84.Fits at hdst hfits
      rw [hwritten, List.length_append] at hfits
      omega
    refine ⟨hinside, ?_⟩
    intro out
    show k dst' = .ok out ↔ _
    rw [hok out]
    constructor
    · rintro ⟨rest, hstream', hlen, rfl⟩
      refine ⟨pixels ++ rest, (hstream _).mpr ⟨rest, hstream', rfl⟩, ?_, ?_⟩
      · rw [List.length_append, hlen, Nat.add_comm]
        exact hleft
      · rw [hwritten, List.append_assoc]
    · rintro ⟨all, hall, hlen, rfl⟩
      obtain ⟨rest, hstream', rfl⟩ := (hstream all).mp hall
      rw [List.length_append] at hlen
      refine ⟨rest, hstream', by omega, ?_⟩
      rw [hwritten, List.append_assoc]
  · rw [hput.full (Nat.not_le.mp hroom)]
    constructor
    · show (.error _ : Except ScreenStop (List UInt8)) ≠ _
      simp
    · intro out
      constructor
      · intro hok
        cases hok
      · rintro ⟨all, hall, hlen, -⟩
        obtain ⟨rest, -, rfl⟩ := (hstream all).mp hall
        rw [List.length_append] at hlen
        omega

end Meets

section Modes

variable {s : Source84} {codes palette : List UInt8}

theorem wordMode_meets (src : List UInt8) {dst : Dst84} (hdst : dst.Fits s) :
    Meets s palette .word src dst (wordMode s src dst) := by
  induction hn : src.length using Nat.strong_induction_on generalizing src dst with
  | _ n ih =>
      match src with
      | [] =>
          rw [wordMode]
          exact Meets.finish .word
      | [first] =>
          rw [wordMode, if_pos (by simp)]
          refine Meets.refused ?_
          intro pixels h
          cases h
      | first :: second :: tail =>
          rw [wordMode, if_neg (by simp)]
          show Meets s palette .word _ dst (if first ≠ 1 ∨ second ≠ 0 then _ else _)
          by_cases hraw : first ≠ 1 ∨ second ≠ 0
          · rw [if_pos hraw]
            have hput := puts_putPixels hdst first second 1
            rw [repeatPixel_one] at hput
            refine Meets.code hdst hput ?_ fun dst' hdst' =>
              ih tail.length (by rw [← hn]; simp) tail hdst' rfl
            intro out
            constructor
            · intro h
              cases h with
              | pixel _ hrest => exact ⟨_, hrest, rfl⟩
              | wordRun _ => simp at hraw
            · rintro ⟨rest, hrest, rfl⟩
              exact Stream.pixel hraw hrest
          · rw [if_neg hraw]
            rw [not_or, Decidable.not_not, Decidable.not_not] at hraw
            obtain ⟨rfl, rfl⟩ := hraw
            match tail with
            | [] | [_] | [_, _] =>
                rw [if_pos (by simp)]
                refine Meets.refused ?_
                intro pixels h
                cases h with
                | pixel hne _ => simp at hne
            | a :: b :: n :: tail =>
                rw [if_neg (by simp)]
                refine Meets.code hdst (puts_putPixels hdst a b n) ?_ fun dst' hdst' =>
                  ih tail.length (by rw [← hn]; simp; omega) tail hdst' rfl
                intro out
                constructor
                · intro h
                  cases h with
                  | pixel hne _ => simp at hne
                  | wordRun hrest => exact ⟨_, hrest, rfl⟩
                · rintro ⟨rest, hrest, rfl⟩
                  exact Stream.wordRun hrest

/-- A colour so many times, and the codes behind it. -/
theorem Meets.colours (hs : s.Holds codes palette) {mode mode' : RleMode} {src src' : List UInt8}
    {dst : Dst84} {c n : UInt8} {k : Dst84 → Except ScreenStop (List UInt8)} (hdst : dst.Fits s)
    (hc : c ≠ 0)
    (hstream : ∀ out, Stream s.paletteSize palette mode src out ↔ c ≤ s.paletteSize
      ∧ ∃ rest, Stream s.paletteSize palette mode' src' rest
        ∧ out = repeatPixel n (colourOf palette c) ++ rest)
    (hrest : ∀ dst' : Dst84, dst'.Fits s → Meets s palette mode' src' dst' (k dst')) :
    Meets s palette mode src dst (putColours s c n dst >>= k) := by
  by_cases hle : c ≤ s.paletteSize
  · refine Meets.code hdst (puts_putColours hs hdst hc hle n) ?_ hrest
    intro out
    rw [hstream out, and_iff_right hle]
  · rw [putColours_of_lt (UInt8.not_le.mp hle)]
    refine Meets.refused ?_
    intro pixels h
    exact hle ((hstream pixels).mp h).1

theorem stream_colour_iff {paletteSize c : UInt8} (hc : c ≠ 0) {src out : List UInt8} :
    Stream paletteSize palette .byte (c :: src) out ↔ c ≤ paletteSize
      ∧ ∃ rest, Stream paletteSize palette .byte src rest
        ∧ out = repeatPixel 1 (colourOf palette c) ++ rest := by
  rw [repeatPixel_one]
  constructor
  · intro h
    cases h with
    | colour _ hle hrest => exact ⟨hle, _, hrest, rfl⟩
    | byteRun => exact absurd rfl hc
    | toWord => exact absurd rfl hc
  · rintro ⟨hle, rest, hrest, rfl⟩
    exact Stream.colour hc hle hrest

theorem stream_byteRun_iff {paletteSize c n : UInt8} (hc : c ≠ 0) {src out : List UInt8} :
    Stream paletteSize palette .byte (0 :: c :: n :: src) out ↔ c ≤ paletteSize
      ∧ ∃ rest, Stream paletteSize palette .byte src rest
        ∧ out = repeatPixel n (colourOf palette c) ++ rest := by
  constructor
  · intro h
    cases h with
    | colour hne _ _ => exact absurd rfl hne
    | byteRun _ hle hrest => exact ⟨hle, _, hrest, rfl⟩
    | toWord => exact absurd rfl hc
  · rintro ⟨hle, rest, hrest, rfl⟩
    exact Stream.byteRun hc hle hrest

theorem stream_toWord_iff {paletteSize third : UInt8} {src out : List UInt8} :
    Stream paletteSize palette .byte (0 :: 0 :: third :: src) out
      ↔ third = 0 ∧ Stream paletteSize palette .word src out := by
  constructor
  · intro h
    cases h with
    | colour hne _ _ => exact absurd rfl hne
    | byteRun hne _ _ => exact absurd rfl hne
    | toWord hrest => exact ⟨rfl, hrest⟩
  · rintro ⟨rfl, hrest⟩
    exact Stream.toWord hrest

theorem byteMode_meets (hs : s.Holds codes palette) (src : List UInt8) {dst : Dst84}
    (hdst : dst.Fits s) : Meets s palette .byte src dst (byteMode s src dst) := by
  induction hn : src.length using Nat.strong_induction_on generalizing src dst with
  | _ n ih =>
      match src with
      | [] =>
          rw [byteMode]
          exact Meets.finish .byte
      | first :: tail =>
          rw [byteMode]
          by_cases hfirst : first ≠ 0
          · rw [if_pos hfirst]
            exact Meets.colours hs hdst hfirst (fun _ => stream_colour_iff hfirst) fun dst' hdst' =>
              ih tail.length (by rw [← hn]; simp) tail hdst' rfl
          · rw [if_neg hfirst]
            obtain rfl := Decidable.not_not.mp hfirst
            match tail with
            | [] | [_] =>
                rw [if_pos (by simp)]
                refine Meets.refused ?_
                intro pixels h
                cases h with
                | colour hne _ _ => exact hne rfl
            | second :: third :: tail =>
                rw [if_neg (by simp)]
                show Meets s palette .byte _ dst (if second ≠ 0 then _ else _)
                by_cases hsecond : second ≠ 0
                · rw [if_pos hsecond]
                  exact Meets.colours hs hdst hsecond (fun _ => stream_byteRun_iff hsecond)
                    fun dst' hdst' => ih tail.length (by rw [← hn]; simp; omega) tail hdst' rfl
                · rw [if_neg hsecond]
                  obtain rfl := Decidable.not_not.mp hsecond
                  by_cases hthird : third = 0
                  · rw [if_pos hthird]
                    refine (wordMode_meets tail hdst).switch ?_
                    intro out
                    rw [stream_toWord_iff, and_iff_right hthird]
                  · rw [if_neg hthird]
                    refine Meets.refused ?_
                    intro pixels h
                    exact hthird (stream_toWord_iff.mp h).1

/-! ### two colours to a byte -/

/-- A property of bytes is checked on the 256 of them. -/
private theorem forall_colour_byte {p : UInt8 → Prop} (h : ∀ n : Fin 256, p (UInt8.ofNat n))
    (b : UInt8) : p b := by
  simpa using h ⟨b.toNat, b.toNat_lt⟩

theorem shiftRight_ne_zero {b : UInt8} (h : b &&& 0xf0 ≠ 0) : b >>> 4 ≠ 0 := by
  revert b
  refine @(forall_colour_byte ?_)
  decide +kernel

theorem eq_zero_of_halves {b : UInt8} (hhigh : b &&& 0xf0 = 0) (hlow : b &&& 0x0f = 0) : b = 0 := by
  revert b
  refine @(forall_colour_byte ?_)
  decide +kernel

/-- The colours of a byte: two when the second is not 0. -/
def halfPixels (palette : List UInt8) (b : UInt8) : List UInt8 :=
  colourOf palette (b >>> 4) ++ if b &&& 0x0f = 0 then [] else colourOf palette (b &&& 0x0f)

theorem stream_halves_iff {paletteSize b : UInt8} (hb : b &&& 0xf0 ≠ 0) {src out : List UInt8} :
    Stream paletteSize palette .nibble (b :: src) out
      ↔ (b >>> 4 ≤ paletteSize ∧ b &&& 0x0f ≤ paletteSize)
      ∧ ∃ rest, Stream paletteSize palette .nibble src rest ∧ out = halfPixels palette b ++ rest := by
  unfold halfPixels
  constructor
  · intro h
    cases h with
    | pair _ hlow hle hle' hrest =>
        rw [if_neg hlow]
        exact ⟨⟨hle, hle'⟩, _, hrest, rfl⟩
    | single _ hlow hle hrest =>
        rw [if_pos hlow, List.append_nil, hlow]
        exact ⟨⟨hle, UInt8.zero_le⟩, _, hrest, rfl⟩
    | nibbleRun hhigh _ _ _ => exact absurd hhigh hb
    | toByte => exact absurd rfl hb
  · rintro ⟨⟨hle, hle'⟩, rest, hrest, rfl⟩
    by_cases hlow : b &&& 0x0f = 0
    · rw [if_pos hlow, List.append_nil]
      exact Stream.single hb hlow hle hrest
    · rw [if_neg hlow]
      exact Stream.pair hb hlow hle hle' hrest

theorem stream_nibbleRun_iff {paletteSize c n : UInt8} (hhigh : c &&& 0xf0 = 0) (hlow : c &&& 0x0f ≠ 0)
    {src out : List UInt8} :
    Stream paletteSize palette .nibble (c :: n :: src) out ↔ c ≤ paletteSize
      ∧ ∃ rest, Stream paletteSize palette .nibble src rest
        ∧ out = repeatPixel n (colourOf palette c) ++ rest := by
  constructor
  · intro h
    cases h with
    | pair hne _ _ _ _ => exact absurd hhigh hne
    | single hne _ _ _ => exact absurd hhigh hne
    | nibbleRun _ _ hle hrest => exact ⟨hle, _, hrest, rfl⟩
    | toByte => exact absurd rfl hlow
  · rintro ⟨hle, rest, hrest, rfl⟩
    exact Stream.nibbleRun hhigh hlow hle hrest

theorem stream_toByte_iff {paletteSize second : UInt8} {src out : List UInt8} :
    Stream paletteSize palette .nibble (0 :: second :: src) out
      ↔ second = 0 ∧ Stream paletteSize palette .byte src out := by
  constructor
  · intro h
    cases h with
    | pair hne _ _ _ _ => exact absurd rfl hne
    | single hne _ _ _ => exact absurd rfl hne
    | nibbleRun _ hne _ _ => exact absurd rfl hne
    | toByte hrest => exact ⟨rfl, hrest⟩
  · rintro ⟨rfl, hrest⟩
    exact Stream.toByte hrest

/-- The second colour of a byte is written unless it is 0. -/
theorem puts_low (hs : s.Holds codes palette) {dst : Dst84} (hdst : dst.Fits s) {c : UInt8}
    (hle : c ≤ s.paletteSize) :
    Puts s dst (if c = 0 then [] else colourOf palette c) (putNibbles s [c] dst) := by
  rw [putNibbles]
  by_cases hc : c = 0
  · rw [if_pos hc, if_pos hc]
    exact Puts.nothing hdst
  · rw [if_neg hc, if_neg hc, ← List.append_nil (colourOf palette c)]
    have hput := puts_putColours hs hdst hc hle 1
    rw [repeatPixel_one] at hput
    exact hput.append hdst fun dst' hdst' => Puts.nothing hdst'

/-- A second colour that is not in the palette is refused behind any first one. -/
theorem putNibbles_of_low_lt {low : UInt8} {x : Except ScreenStop Dst84} {dst : Dst84}
    {pixels : List UInt8} (hx : Puts s dst pixels x) (hlow : s.paletteSize < low) :
    (x >>= putNibbles s [low]) = .error (.returns .invalidScreenshot) := by
  have hne : low ≠ 0 := fun hzero => absurd (hzero ▸ hlow) (UInt8.not_lt.mpr UInt8.zero_le)
  by_cases hroom : pixels.length ≤ dst.left.toNat
  · obtain ⟨dst', rfl, -, -⟩ := hx.room hroom
    show putNibbles s [low] dst' = _
    rw [putNibbles, if_neg hne, putColours_of_lt hlow]
    rfl
  · rw [hx.full (Nat.not_le.mp hroom)]
    rfl

/-- The two colours of a byte are written, or both are refused. -/
theorem Meets.halves (hs : s.Holds codes palette) {src : List UInt8} {dst : Dst84} {b : UInt8}
    {k : Dst84 → Except ScreenStop (List UInt8)} (hdst : dst.Fits s) (hb : b &&& 0xf0 ≠ 0)
    (hrest : ∀ dst' : Dst84, dst'.Fits s → Meets s palette .nibble src dst' (k dst')) :
    Meets s palette .nibble (b :: src) dst (putNibbles s [b >>> 4, b &&& 0x0f] dst >>= k) := by
  have hhigh := shiftRight_ne_zero hb
  rw [putNibbles, if_neg hhigh]
  by_cases hle : b >>> 4 ≤ s.paletteSize
  · have hfirst := puts_putColours hs hdst hhigh hle 1
    rw [repeatPixel_one] at hfirst
    by_cases hle' : b &&& 0x0f ≤ s.paletteSize
    · have hputs : Puts s dst (halfPixels palette b)
          (putColours s (b >>> 4) 1 dst >>= putNibbles s [b &&& 0x0f]) :=
        hfirst.append hdst fun dst' hdst' => puts_low hs hdst' hle'
      refine Meets.code hdst hputs ?_ hrest
      intro out
      rw [stream_halves_iff hb, and_iff_right ⟨hle, hle'⟩]
    · show Meets s palette .nibble (b :: src) dst
        ((putColours s (b >>> 4) 1 dst >>= putNibbles s [b &&& 0x0f]) >>= k)
      rw [putNibbles_of_low_lt hfirst (UInt8.not_le.mp hle')]
      refine Meets.refused ?_
      intro pixels h
      exact hle' ((stream_halves_iff hb).mp h).1.2
  · rw [putColours_of_lt (UInt8.not_le.mp hle)]
    refine Meets.refused ?_
    intro pixels h
    exact hle ((stream_halves_iff hb).mp h).1.1

theorem nibbleMode_meets (hs : s.Holds codes palette) (src : List UInt8) {dst : Dst84}
    (hdst : dst.Fits s) : Meets s palette .nibble src dst (nibbleMode s src dst) := by
  induction hn : src.length using Nat.strong_induction_on generalizing src dst with
  | _ n ih =>
      match src with
      | [] =>
          rw [nibbleMode]
          exact Meets.finish .nibble
      | first :: tail =>
          rw [nibbleMode]
          by_cases hhigh : first &&& 0xf0 ≠ 0
          · rw [if_pos hhigh]
            exact Meets.halves hs hdst hhigh fun dst' hdst' =>
              ih tail.length (by rw [← hn]; simp) tail hdst' rfl
          · rw [if_neg hhigh]
            have hhigh := Decidable.not_not.mp hhigh
            match tail with
            | [] =>
                rw [if_pos (by simp)]
                refine Meets.refused ?_
                intro pixels h
                cases h with
                | pair hne _ _ _ _ => exact hne hhigh
                | single hne _ _ _ => exact hne hhigh
            | second :: tail =>
                rw [if_neg (by simp)]
                show Meets s palette .nibble _ dst (if first &&& 0x0f ≠ 0 then _ else _)
                by_cases hlow : first &&& 0x0f ≠ 0
                · rw [if_pos hlow]
                  have hfirst : first ≠ 0 := by
                    rintro rfl
                    exact hlow rfl
                  exact Meets.colours hs hdst hfirst (fun _ => stream_nibbleRun_iff hhigh hlow)
                    fun dst' hdst' => ih tail.length (by rw [← hn]; simp) tail hdst' rfl
                · rw [if_neg hlow]
                  obtain rfl := eq_zero_of_halves hhigh (Decidable.not_not.mp hlow)
                  by_cases hsecond : second = 0
                  · rw [if_pos hsecond]
                    refine (byteMode_meets hs tail hdst).switch ?_
                    intro out
                    rw [stream_toByte_iff, and_iff_right hsecond]
                  · rw [if_neg hsecond]
                    refine Meets.refused ?_
                    intro pixels h
                    exact hsecond (stream_toByte_iff.mp h).1

end Modes

/-! ## the whole source -/

/-- The source has one layout: its last byte says how long the palette is. -/
theorem IsScreenshot.unique {src out : List UInt8} {paletteSize paletteSize' : UInt8}
    {palette palette' codes codes' : List UInt8}
    (h : IsScreenshot src out paletteSize palette codes)
    (hlayout : src = 1 :: (codes' ++ (palette' ++ [paletteSize'])))
    (hsize : palette'.length = 2 * paletteSize'.toNat) :
    paletteSize = paletteSize' ∧ palette = palette' ∧ codes = codes' := by
  have hsame := (List.cons.inj (h.layout.symm.trans hlayout)).2
  rw [← List.append_assoc, ← List.append_assoc] at hsame
  obtain ⟨hbody, hlast⟩ := List.append_inj' hsame rfl
  have hpaletteSize : paletteSize = paletteSize' := (List.cons.inj hlast).1
  have hlen : palette.length = palette'.length := by rw [h.size, hsize, hpaletteSize]
  obtain ⟨hcodes, hpalette⟩ := List.append_inj' hbody hlen
  exact ⟨hpaletteSize, hpalette, hcodes⟩

/-- The decoder stays inside of the source and of the destination; it succeeds exactly when the
source is a screenshot whose pixels are as many bytes as the destination, and writes these. -/
structure CseUncompresses (src : List UInt8) (dstLength : UInt32) : Prop where
  inside : ticalcsScreen84pcseRleUncompress src dstLength ≠ .error .outside
  ok_iff : ∀ out, ticalcsScreen84pcseRleUncompress src dstLength = .ok out
    ↔ out.length = dstLength.toNat
      ∧ ∃ paletteSize palette codes, IsScreenshot src out paletteSize palette codes

/-- What is refused before the loops is not a screenshot. -/
theorem CseUncompresses.refused {src : List UInt8} {dstLength : UInt32}
    (h : ticalcsScreen84pcseRleUncompress src dstLength = .error (.returns .invalidScreenshot))
    (hno : ∀ out paletteSize palette codes, ¬IsScreenshot src out paletteSize palette codes) :
    CseUncompresses src dstLength := by
  constructor
  · rw [h]
    simp
  · intro out
    rw [h]
    constructor
    · intro hok
      cases hok
    · rintro ⟨-, paletteSize, palette, codes, hscreen⟩
      exact absurd hscreen (hno out paletteSize palette codes)

theorem ticalcsScreen84pcseRleUncompress_cons (first : UInt8) (rest : List UInt8) (paletteSize : UInt8)
    (dstLength : UInt32) :
    ticalcsScreen84pcseRleUncompress (first :: (rest ++ [paletteSize])) dstLength
      = if first ≠ 1 then .error (.returns .invalidScreenshot)
        else if rest.length ≤ paletteSize.toNat * 2 then .error (.returns .invalidScreenshot)
        else nibbleMode ⟨rest ++ [paletteSize], rest.length - paletteSize.toNat * 2, paletteSize,
          dstLength⟩ (rest.take (rest.length - paletteSize.toNat * 2)) ⟨[], dstLength⟩ := by
  unfold ticalcsScreen84pcseRleUncompress
  show (if first ≠ 1 then _ else _) = _
  by_cases hfirst : first ≠ 1
  · rw [if_pos hfirst, if_pos hfirst]
  · have hread : readCode (rest ++ [paletteSize]) rest.length = .ok paletteSize := by
      unfold readCode
      rw [List.getElem?_append_right (Nat.le_refl _), Nat.sub_self]
      rfl
    rw [if_neg hfirst, if_neg hfirst, List.drop_one, List.tail_cons, List.length_append,
      List.length_singleton, if_neg (Nat.succ_ne_zero _), Nat.add_sub_cancel, hread]
    show (if rest.length + 1 ≤ paletteSize.toNat * 2 + 1 then _ else _) = _
    by_cases hshort : rest.length ≤ paletteSize.toNat * 2
    · rw [if_pos (Nat.succ_le_succ hshort), if_pos hshort]
    · rw [if_neg (fun h => hshort (Nat.le_of_succ_le_succ h)), if_neg hshort]
      show nibbleMode _ ((rest ++ [paletteSize]).take (rest.length + 1 - (paletteSize.toNat * 2 + 1))) _
        = _
      rw [Nat.add_sub_add_right, List.take_append_of_le_length (Nat.sub_le _ _)]

/-- A source of two bytes or more. -/
theorem cseUncompresses_cons (first : UInt8) (rest : List UInt8) (paletteSize : UInt8)
    (dstLength : UInt32) : CseUncompresses (first :: (rest ++ [paletteSize])) dstLength := by
  have hrun := ticalcsScreen84pcseRleUncompress_cons first rest paletteSize dstLength
  by_cases hfirst : first ≠ 1
  · rw [if_pos hfirst] at hrun
    refine .refused hrun ?_
    intro out size palette codes hscreen
    exact hfirst (List.cons.inj hscreen.layout).1
  rw [if_neg hfirst] at hrun
  obtain rfl := Decidable.not_not.mp hfirst
  by_cases hshort : rest.length ≤ paletteSize.toNat * 2
  · rw [if_pos hshort] at hrun
    refine .refused hrun ?_
    intro out size palette codes hscreen
    have hsame := (List.cons.inj hscreen.layout).2
    rw [← List.append_assoc] at hsame
    obtain ⟨rfl, hlast⟩ := List.append_inj' hsame rfl
    have hsize : paletteSize = size := (List.cons.inj hlast).1
    have hpos := List.length_pos_iff.mpr hscreen.nonempty
    rw [List.length_append, hscreen.size, hsize] at hshort
    omega
  rw [if_neg hshort] at hrun
  have hlong := Nat.not_le.mp hshort
  let codes := rest.take (rest.length - paletteSize.toNat * 2)
  let palette := rest.drop (rest.length - paletteSize.toNat * 2)
  have hcodes : codes.length = rest.length - paletteSize.toNat * 2 :=
    List.length_take_of_le (Nat.sub_le _ _)
  have hpalette : palette.length = 2 * paletteSize.toNat := by
    show (rest.drop _).length = _
    rw [List.length_drop]
    omega
  have hlayout : rest ++ [paletteSize] = codes ++ (palette ++ [paletteSize]) := by
    rw [← List.append_assoc, List.take_append_drop]
  have hne : codes ≠ [] := by
    intro hnil
    rw [hnil, List.length_nil] at hcodes
    omega
  let s : Source84 :=
    ⟨rest ++ [paletteSize], rest.length - paletteSize.toNat * 2, paletteSize, dstLength⟩
  have hs : s.Holds codes palette := ⟨hlayout, hcodes.symm, hpalette⟩
  have hdst : Dst84.Fits s ⟨[], dstLength⟩ := Nat.zero_add _
  have hmeets := nibbleMode_meets hs codes hdst
  rw [← hrun] at hmeets
  refine ⟨hmeets.inside, ?_⟩
  intro out
  rw [hmeets.ok_iff out]
  constructor
  · rintro ⟨pixels, hstream, hlen, rfl⟩
    exact ⟨hlen, paletteSize, palette, codes, congrArg _ hlayout, hpalette, hne, hstream⟩
  · rintro ⟨hlen, size, palette', codes', hscreen⟩
    obtain ⟨rfl, rfl, rfl⟩ := hscreen.unique (congrArg _ hlayout) hpalette
    exact ⟨out, hscreen.stream, hlen, rfl⟩

/-- The decoder is right but for the empty source and the source of the single byte 1: it reads
the first byte, and the last of the rest, before it looks at the length. -/
theorem cseUncompresses_iff (src : List UInt8) (dstLength : UInt32) :
    CseUncompresses src dstLength ↔ src ≠ [] ∧ src ≠ [1] := by
  constructor
  · intro h
    constructor
    · rintro rfl
      exact h.inside rfl
    · rintro rfl
      exact h.inside rfl
  · rintro ⟨hne, hne'⟩
    obtain ⟨first, rest, rfl⟩ := List.exists_cons_of_ne_nil hne
    rcases List.eq_nil_or_concat' rest with rfl | ⟨rest, paletteSize, rfl⟩
    · have hfirst : first ≠ 1 := fun heq => hne' (by rw [heq])
      refine .refused (if_pos hfirst) ?_
      intro out size palette codes hscreen
      exact hfirst (List.cons.inj hscreen.layout).1
    · exact cseUncompresses_cons first rest paletteSize dstLength

/-- Without a source the first byte is read all the same. -/
theorem not_cseUncompresses_empty : ¬∀ src dstLength, CseUncompresses src dstLength := by
  intro h
  exact (h [] 0).inside rfl

end Tilibs.Calcs
