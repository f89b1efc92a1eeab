import Tilibs.Evo.Packet
import Tilibs.Lib.Fallible

/-!
# Tilibs.Evo.Chunks

The data packets of a PUT request (`evo_cmd.cc`): `evo_put_chunk_len` cuts the quoted payload at
places between two encoded elements, a byte with the prefixes before it.

What an element is is decided twice, by `evo_encoded_element_len` and by one round of
`evo_decode`.  For the prefixes that `evo_encode` writes the two agree at every place, and so it
does not matter whether the chunks are decoded one by one or together.
-/

namespace Tilibs.Evo

open Tilibs.Lib

/-! ## cutting -/

def evoPutChunkSize : Nat := 2000

/-- `evo_session_data_chunk_size` -/
def evoSessionDataChunkSize (session : EvoKermitSession) : Nat :=
  let overhead := session.checkType.size + 8
  if session.maxPacketLen ≤ overhead then 1
  else
    let available := session.maxPacketLen - overhead
    if available < evoPutChunkSize then available else evoPutChunkSize

/-- `evo_encoded_element_len` -/
def evoEncodedElementLen (data : List UInt8) (off : Nat) : Nat :=
  if data.length ≤ off then 0
  else if data.getD off 0 = evoRept ∧ off + 2 < data.length then
    let pos := off + 2
    if data.getD pos 0 = evoQctl ∧ pos + 1 < data.length then pos + 2 - off else pos + 1 - off
  else if data.getD off 0 = evoQctl ∧ off + 1 < data.length then 2
  else 1

theorem evoEncodedElementLen_pos {data : List UInt8} {off : Nat} (h : off < data.length) :
    0 < evoEncodedElementLen data off := by
  unfold evoEncodedElementLen
  dsimp only
  split_ifs <;> omega

theorem evoEncodedElementLen_le (data : List UInt8) (off : Nat) :
    evoEncodedElementLen data off ≤ 4 := by
  unfold evoEncodedElementLen
  dsimp only
  split_ifs <;> omega

/-- An element ends inside the data. -/
theorem evoEncodedElementLen_le_length {data : List UInt8} {off : Nat} (h : off ≤ data.length) :
    off + evoEncodedElementLen data off ≤ data.length := by
  unfold evoEncodedElementLen
  dsimp only
  split_ifs <;> omega

/-- The loop of `evo_put_chunk_len`. -/
def evoPutChunkLoop (wire : List UInt8) (off maxChunk len : Nat) : Nat :=
  if _h : off + len < wire.length ∧ len < maxChunk then
    let elem := evoEncodedElementLen wire (off + len)
    if elem = 0 then len
    else if 0 < len ∧ maxChunk < len + elem then len
    else evoPutChunkLoop wire off maxChunk (len + elem)
  else len
termination_by wire.length - (off + len)

/-- `evo_put_chunk_len` -/
def evoPutChunkLen (wire : List UInt8) (off maxChunk : Nat) : Nat :=
  let maxChunk := if maxChunk = 0 then 1 else maxChunk
  let len := evoPutChunkLoop wire off maxChunk 0
  if len ≠ 0 then len else wire.length - off

/-! ## places between elements -/

/-- Whole elements from one place of the wire to another. -/
inductive Elements (wire : List UInt8) : Nat → Nat → Prop
  | done {off : Nat} : Elements wire off off
  | step {off stop : Nat} : off < wire.length →
      Elements wire (off + evoEncodedElementLen wire off) stop → Elements wire off stop

section Cutting

variable {wire : List UInt8} {off mid stop maxChunk len : Nat}

theorem Elements.trans (h : Elements wire off mid) (h' : Elements wire mid stop) :
    Elements wire off stop := by
  induction h with
  | done => exact h'
  | step hlt _ ih => exact .step hlt (ih h')

theorem Elements.snoc (h : Elements wire off mid) (hlt : mid < wire.length) :
    Elements wire off (mid + evoEncodedElementLen wire mid) :=
  h.trans (.step hlt .done)

theorem Elements.le (h : Elements wire off stop) : off ≤ stop := by
  induction h with
  | done => exact le_rfl
  | step _ _ ih => exact le_trans (Nat.le_add_right _ _) ih

theorem Elements.le_length (h : Elements wire off stop) (hoff : off ≤ wire.length) :
    stop ≤ wire.length := by
  induction h with
  | done => exact hoff
  | step _ _ ih => exact ih (evoEncodedElementLen_le_length hoff)

/-- The loop goes over whole elements, and over more than one only below the maximum. -/
theorem elements_evoPutChunkLoop (h : Elements wire off (off + len)) (hlen : len ≤ max maxChunk 4) :
    Elements wire off (off + evoPutChunkLoop wire off maxChunk len)
      ∧ len ≤ evoPutChunkLoop wire off maxChunk len
      ∧ evoPutChunkLoop wire off maxChunk len ≤ max maxChunk 4 := by
  fun_induction evoPutChunkLoop wire off maxChunk len with
  | case1 len _ elem _ => exact ⟨h, le_rfl, hlen⟩
  | case2 len _ elem _ _ => exact ⟨h, le_rfl, hlen⟩
  | case3 len hmore elem helem hfits ih =>
      have hfour := evoEncodedElementLen_le wire (off + len)
      have hnext := ih (by rw [← Nat.add_assoc]; exact h.snoc hmore.1) (by omega)
      exact ⟨hnext.1, by omega, hnext.2.2⟩
  | case4 len _ => exact ⟨h, le_rfl, hlen⟩

/-- From every place but the end a chunk goes forward. -/
theorem evoPutChunkLoop_pos (hoff : off < wire.length) (hmax : 0 < maxChunk) :
    0 < evoPutChunkLoop wire off maxChunk 0 := by
  have helem := evoEncodedElementLen_pos hoff
  have hfour := evoEncodedElementLen_le wire off
  rw [evoPutChunkLoop, dif_pos ⟨hoff, hmax⟩]
  dsimp only
  rw [if_neg (by rw [Nat.add_zero]; omega), if_neg (by omega), Nat.add_zero, Nat.zero_add]
  have hrest := elements_evoPutChunkLoop
    (Elements.step hoff .done : Elements wire off (off + evoEncodedElementLen wire off))
    (show evoEncodedElementLen wire off ≤ max maxChunk 4 by omega)
  omega

theorem evoPutChunkLen_spec (hoff : off < wire.length) :
    0 < evoPutChunkLen wire off maxChunk
      ∧ Elements wire off (off + evoPutChunkLen wire off maxChunk)
      ∧ evoPutChunkLen wire off maxChunk ≤ max maxChunk 4 := by
  unfold evoPutChunkLen
  dsimp only
  generalize hmax : (if maxChunk = 0 then 1 else maxChunk) = chunk
  have hchunk : 0 < chunk ∧ max chunk 4 = max maxChunk 4 := by
    split at hmax <;> omega
  have hpos := evoPutChunkLoop_pos hoff hchunk.1
  have hloop := elements_evoPutChunkLoop (Elements.done : Elements wire off (off + 0))
    (show 0 ≤ max chunk 4 by omega)
  rw [if_pos (by omega), ← hchunk.2]
  exact ⟨hpos, hloop.1, hloop.2.2⟩

/-- The data fields that the loop of `evo_put_request` sends. -/
def evoPutChunks (wire : List UInt8) (maxChunk off : Nat) : List (List UInt8) :=
  if _h : off < wire.length then
    let chunk := evoPutChunkLen wire off maxChunk
    (wire.drop off).take chunk :: evoPutChunks wire maxChunk (off + chunk)
  else []
termination_by wire.length - off
decreasing_by
  have hspec := @evoPutChunkLen_spec wire off maxChunk _h
  omega

end Cutting

/-! ## decoding by elements -/

/-- The count and the byte that an element stands for. -/
def evoElement : List UInt8 → Nat × UInt8
  | [b] => (1, b)
  | [_, b] => (1, evoUnctl b)
  | [_, count, b] => (unchar count, b)
  | [_, count, _, b] => (unchar count, evoUnctl b)
  | _ => (0, 0)

/-- The length of the first element. -/
def firstElementLen (data : List UInt8) : Nat := evoEncodedElementLen data 0

section Decoding

variable {limit fuel : Nat} {out data : List UInt8}

theorem evoEncodedElementLen_eq (data : List UInt8) (off : Nat) :
    evoEncodedElementLen data off = firstElementLen (data.drop off) := by
  have hnil : (data.length - off ≤ 0) = (data.length ≤ off) := propext (by omega)
  have hmore (k : Nat) : (k < data.length - off) = (off + k < data.length) := propext (by omega)
  unfold firstElementLen evoEncodedElementLen
  simp only [List.length_drop, List.getD_eq_getElem?_getD, List.getElem?_drop, hnil, hmore,
    Nat.add_zero, Nat.zero_add, Nat.add_assoc, Nat.add_sub_cancel_left, Nat.sub_zero]

/-- One round of the decoder takes the first element off. -/
theorem evoDecodeLoop_element (hdata : data ≠ []) :
    evoDecodeLoop evoQctl none evoRept limit (fuel + 1) out data
      = if evoKermitSizeWithinLimit out.length (evoElement (data.take (firstElementLen data))).1
          limit
        then evoDecodeLoop evoQctl none evoRept limit fuel
          (out ++ List.replicate (evoElement (data.take (firstElementLen data))).1
            (evoElement (data.take (firstElementLen data))).2)
          (data.drop (firstElementLen data))
        else .error .invalidPacket := by
  have hne : evoQctl ≠ evoRept := by decide
  unfold firstElementLen evoEncodedElementLen
  match data with
  | [] => exact absurd rfl hdata
  | [x] => simp [evoDecodeLoop, evoElement]
  | [x, y] =>
      by_cases hx : x = evoQctl <;> simp [evoDecodeLoop, evoElement, hx]
  | [x, y, z] =>
      by_cases hx : x = evoRept
      · simp [evoDecodeLoop, evoElement, hx]
      · by_cases hq : x = evoQctl <;> simp [evoDecodeLoop, evoElement, hx, hq, hne]
  | x :: y :: z :: w :: rest =>
      by_cases hx : x = evoRept
      · by_cases hz : z = evoQctl <;> simp [evoDecodeLoop, evoElement, hx, hz]
      · by_cases hq : x = evoQctl <;> simp [evoDecodeLoop, evoElement, hx, hq, hne]

/-- An element stays one when what follows it is cut off. -/
theorem firstElementLen_append {elem more rest : List UInt8}
    (h : firstElementLen (elem ++ (more ++ rest)) = elem.length) :
    firstElementLen (elem ++ more) = elem.length := by
  have hne : evoQctl ≠ evoRept := by decide
  have hfour := evoEncodedElementLen_le (elem ++ (more ++ rest)) 0
  unfold firstElementLen evoEncodedElementLen at *
  match elem with
  | [] =>
      cases more with
      | nil => rfl
      | cons x more =>
          simp at h
          grind
  | [x] =>
      simp at h ⊢
      grind
  | [x, y] =>
      simp at h ⊢
      grind
  | [x, y, z] =>
      simp at h ⊢
      grind
  | [x, y, z, w] =>
      simp at h ⊢
      grind
  | x :: y :: z :: w :: v :: elem =>
      simp at h hfour
      omega

theorem firstElementLen_pos (hdata : data ≠ []) : 0 < firstElementLen data :=
  evoEncodedElementLen_pos (List.length_pos_iff.mpr hdata)

/-- Rounds behind the end of the data change nothing. -/
theorem evoDecodeLoop_fuel (hfuel : data.length ≤ fuel) :
    evoDecodeLoop evoQctl none evoRept limit fuel out data
      = evoDecodeLoop evoQctl none evoRept limit data.length out data := by
  induction hn : data.length using Nat.strong_induction_on generalizing data fuel out with
  | _ n ih =>
      by_cases hdata : data = []
      · subst hdata
        rw [evoDecodeLoop_nil, evoDecodeLoop_nil]
      · have hpos := firstElementLen_pos hdata
        have hlength := List.length_pos_iff.mpr hdata
        have hrest : (data.drop (firstElementLen data)).length < n := by
          rw [List.length_drop]
          omega
        obtain ⟨fuel, rfl⟩ : ∃ k, fuel = k + 1 := ⟨fuel - 1, by omega⟩
        obtain ⟨n, rfl⟩ : ∃ k, n = k + 1 := ⟨n - 1, by omega⟩
        rw [evoDecodeLoop_element hdata, evoDecodeLoop_element hdata,
          ih _ hrest (show _ ≤ fuel by omega) rfl, ih _ hrest (show _ ≤ n by omega) rfl]

/-- What `evo_decode` makes of a data field behind what is there. -/
def evoDecoded (decoder : Option EvoKermitSession) (limit : Nat) (out data : List UInt8) :
    Except EvoErr (List UInt8) :=
  (evoDecode out data decoder limit).map Prod.fst

theorem evoDecoded_default {decoder : Option EvoKermitSession}
    (h : ∀ s ∈ decoder, s.DefaultQuoting) :
    evoDecoded decoder limit out data = evoDecoded none limit out data := by
  cases decoder with
  | none => rfl
  | some s =>
      obtain ⟨hcontrol, hbinary, hrepeated⟩ := h s rfl
      show (evoDecodeLoop s.controlQuote s.binaryQuote s.repeatQuote limit data.length out data).map
        Prod.fst = _
      rw [hcontrol, hbinary, hrepeated]
      rfl

theorem evoDecoded_nil : evoDecoded none limit out [] = .ok out := rfl

/-- The decoder goes on behind the first element. -/
theorem evoDecoded_element (hdata : data ≠ []) :
    evoDecoded none limit out data
      = if evoKermitSizeWithinLimit out.length (evoElement (data.take (firstElementLen data))).1
          limit
        then evoDecoded none limit
          (out ++ List.replicate (evoElement (data.take (firstElementLen data))).1
            (evoElement (data.take (firstElementLen data))).2)
          (data.drop (firstElementLen data))
        else .error .invalidPacket := by
  have hpos := firstElementLen_pos hdata
  have hlength := List.length_pos_iff.mpr hdata
  obtain ⟨n, hn⟩ : ∃ k, data.length = k + 1 := ⟨data.length - 1, by omega⟩
  show (evoDecodeLoop evoQctl none evoRept limit data.length out data).map Prod.fst = _
  rw [hn, evoDecodeLoop_element hdata]
  split
  · rw [evoDecodeLoop_fuel (by rw [List.length_drop]; omega)]
    rfl
  · rfl

/-- Whole elements are decoded by themselves. -/
theorem evoDecoded_elements {wire : List UInt8} {off stop : Nat} (h : Elements wire off stop)
    (hoff : off ≤ wire.length) (out : List UInt8) :
    evoDecoded none limit out (wire.drop off) = (do
      let out ← evoDecoded none limit out ((wire.drop off).take (stop - off))
      evoDecoded none limit out (wire.drop stop)) := by
  induction h generalizing out with
  | done =>
      rw [Nat.sub_self, List.take_zero, evoDecoded_nil]
      rfl
  | step hlt hmore ih =>
      rename_i off stop
      have hstop := hmore.le
      have hin := evoEncodedElementLen_le_length hoff
      have hlen := evoEncodedElementLen_eq wire off
      have hpos := evoEncodedElementLen_pos hlt
      generalize evoEncodedElementLen wire off = n at *
      have hrest : wire.drop (off + n) = (wire.drop (off + n)).take (stop - (off + n))
          ++ wire.drop stop := by
        conv_lhs => rw [← List.take_append_drop (stop - (off + n)) (wire.drop (off + n))]
        rw [List.drop_drop, Nat.add_sub_cancel' hstop]
      have hsplit : wire.drop off = (wire.drop off).take n
          ++ ((wire.drop (off + n)).take (stop - (off + n)) ++ wire.drop stop) := by
        rw [← hrest, ← List.drop_drop, List.take_append_drop]
      have hchunk : (wire.drop off).take (stop - off)
          = (wire.drop off).take n ++ (wire.drop (off + n)).take (stop - (off + n)) := by
        rw [← List.drop_drop, show stop - off = n + (stop - (off + n)) by omega, List.take_add]
      have helem : ((wire.drop off).take n).length = n := by
        rw [List.length_take, List.length_drop]
        omega
      have hfirst : firstElementLen ((wire.drop off).take n
          ++ (wire.drop (off + n)).take (stop - (off + n))) = n :=
        (firstElementLen_append (by rw [helem, ← hsplit, hlen])).trans helem
      have hwire : wire.drop off ≠ [] := by
        intro hnil
        have := congrArg List.length hnil
        rw [List.length_drop, List.length_nil] at this
        omega
      have hchunkne : (wire.drop off).take n
          ++ (wire.drop (off + n)).take (stop - (off + n)) ≠ [] := by
        intro hnil
        have := congrArg List.length (List.append_eq_nil_iff.mp hnil).1
        rw [helem, List.length_nil] at this
        omega
      rw [evoDecoded_element hwire, ← hlen, hchunk, evoDecoded_element hchunkne, hfirst,
        List.take_left' helem, List.drop_left' helem, List.drop_drop]
      split
      · exact ih hin _
      · rfl

/-- Bytes that are there already only count against the limit. -/
theorem evoDecoded_before {before whole : List UInt8}
    (h : evoDecoded none limit (before ++ out) data = .ok whole) :
    ∃ part, evoDecoded none limit out data = .ok part ∧ whole = before ++ part := by
  induction hn : data.length using Nat.strong_induction_on generalizing data out with
  | _ n ih =>
      by_cases hdata : data = []
      · subst hdata
        rw [evoDecoded_nil] at h
        exact ⟨out, evoDecoded_nil, (Except.ok.inj h).symm⟩
      · have hpos := firstElementLen_pos hdata
        have hlength := List.length_pos_iff.mpr hdata
        rw [evoDecoded_element hdata] at h
        split at h
        · next hfits =>
          unfold evoKermitSizeWithinLimit at hfits
          rw [List.length_append] at hfits
          rw [List.append_assoc] at h
          obtain ⟨part, hpart, hwhole⟩ := ih _ (by rw [List.length_drop]; omega) h rfl
          refine ⟨part, ?_, hwhole⟩
          rw [evoDecoded_element hdata, if_pos, hpart]
          unfold evoKermitSizeWithinLimit
          grind
        · cases h

end Decoding

/-! ## the chunks of a payload -/

section Chunks

variable {wire : List UInt8} {maxChunk off limit : Nat} {out : List UInt8}

theorem flatten_evoPutChunks (wire : List UInt8) (maxChunk off : Nat) :
    (evoPutChunks wire maxChunk off).flatten = wire.drop off := by
  fun_induction evoPutChunks wire maxChunk off with
  | case1 off hoff len ih =>
      rw [List.flatten_cons, ih, ← List.drop_drop, List.take_append_drop]
  | case2 off hoff => rw [List.flatten_nil, List.drop_of_length_le (Nat.not_lt.mp hoff)]

/-- Every chunk begins and ends between elements, and is not empty. -/
theorem elements_evoPutChunks {chunk : List UInt8} (h : chunk ∈ evoPutChunks wire maxChunk off) :
    ∃ start stop, chunk = (wire.drop start).take (stop - start) ∧ chunk.length = stop - start
      ∧ start < stop ∧ stop - start ≤ max maxChunk 4 ∧ Elements wire off start
      ∧ Elements wire start stop := by
  fun_induction evoPutChunks wire maxChunk off with
  | case1 =>
      rename_i off hoff len ih
      obtain ⟨hpos, helements, hmax⟩ := @evoPutChunkLen_spec wire off maxChunk hoff
      have hin := helements.le_length (Nat.le_of_lt hoff)
      cases List.mem_cons.mp h with
      | inl h =>
          refine ⟨off, off + len, ?_, ?_, Nat.lt_add_of_pos_right hpos, ?_, .done, helements⟩
          · rw [h, Nat.add_sub_cancel_left]
          · rw [h, List.length_take, List.length_drop]
            omega
          · rw [Nat.add_sub_cancel_left]
            exact hmax
      | inr h =>
          obtain ⟨start, stop, hchunk, hlen, hlt, hshort, hbefore, hinside⟩ := ih h
          exact ⟨start, stop, hchunk, hlen, hlt, hshort, helements.trans hbefore, hinside⟩
  | case2 off hoff => cases h

/-- Decoding the chunks one behind the other is decoding them together. -/
theorem foldlM_evoPutChunks (hoff : off ≤ wire.length) :
    (evoPutChunks wire maxChunk off).foldlM (evoDecoded none limit) out
      = evoDecoded none limit out (wire.drop off) := by
  fun_induction evoPutChunks wire maxChunk off generalizing out with
  | case1 =>
      rename_i off hlt len ih
      obtain ⟨-, helements, -⟩ := @evoPutChunkLen_spec wire off maxChunk hlt
      rw [List.foldlM_cons, evoDecoded_elements helements hoff out, Nat.add_sub_cancel_left]
      apply bind_congr
      intro out
      exact ih (helements.le_length hoff)
  | case2 off hlt =>
      rw [List.drop_of_length_le (Nat.not_lt.mp hlt)]
      rfl

/-- What is decoded in parts are the parts, each decoded by itself. -/
theorem exists_parts_of_foldlM {chunks : List (List UInt8)} {whole : List UInt8}
    (h : chunks.foldlM (evoDecoded none limit) out = .ok whole) :
    ∃ parts, List.Forall₂ (fun chunk part => evoDecoded none limit [] chunk = .ok part) chunks parts
      ∧ whole = out ++ parts.flatten := by
  induction chunks generalizing out with
  | nil =>
      obtain rfl := Except.ok.inj h
      exact ⟨[], .nil, (List.append_nil _).symm⟩
  | cons chunk chunks ih =>
      rw [List.foldlM_cons] at h
      obtain ⟨next, hnext, h⟩ := bind_eq_ok_iff.mp h
      obtain ⟨part, hpart, rfl⟩ := evoDecoded_before ((congrArg (evoDecoded none limit · chunk)
        (List.append_nil out)).trans hnext)
      obtain ⟨parts, hparts, rfl⟩ := ih h
      exact ⟨part :: parts, .cons hpart hparts, by rw [List.flatten_cons, List.append_assoc]⟩

end Chunks

/-! ## what the encoder writes -/

/-- A byte with the prefixes that the encoder puts before it. -/
def PrefixSequence (elem : List UInt8) : Prop :=
  ∃ b, elem = encodeByte b ∨ ∃ count, elem = evoRept :: count :: encodeByte b

/-- Whole prefix sequences one after the other. -/
def WholeSequences (data : List UInt8) : Prop :=
  ∃ elems, (∀ elem ∈ elems, PrefixSequence elem) ∧ data = List.flatten elems

section Sequences

variable {wire : List UInt8} {off stop : Nat}

/-- A byte is written with the quote before it, or it is no prefix. -/
theorem encodeByte_cases (b : UInt8) : (∃ c, encodeByte b = [evoQctl, c])
    ∨ ∃ c, encodeByte b = [c] ∧ c ≠ evoQctl ∧ c ≠ evoRept := by
  unfold encodeByte
  split_ifs with hctl hquote
  · exact .inl ⟨_, rfl⟩
  · exact .inl ⟨_, rfl⟩
  · exact .inr ⟨b, rfl, not_or.mp hquote⟩

theorem firstElementLen_sequence {elem : List UInt8} (h : PrefixSequence elem)
    (rest : List UInt8) : firstElementLen (elem ++ rest) = elem.length := by
  have hne : evoQctl ≠ evoRept := by decide
  obtain ⟨b, h⟩ := h
  unfold firstElementLen evoEncodedElementLen
  cases h with
  | inl h =>
      cases encodeByte_cases b with
      | inl hquoted =>
          obtain ⟨c, hc⟩ := hquoted
          simp [h, hc, hne]
      | inr hplain =>
          obtain ⟨c, hc, hquote, hrept⟩ := hplain
          simp [h, hc, hquote, hrept]
  | inr h =>
      obtain ⟨count, h⟩ := h
      cases encodeByte_cases b with
      | inl hquoted =>
          obtain ⟨c, hc⟩ := hquoted
          simp [h, hc]
      | inr hplain =>
          obtain ⟨c, hc, hquote, hrept⟩ := hplain
          simp [h, hc, hquote]

theorem wholeSequences_append {data data' : List UInt8} (h : WholeSequences data)
    (h' : WholeSequences data') : WholeSequences (data ++ data') := by
  obtain ⟨elems, helems, rfl⟩ := h
  obtain ⟨elems', helems', rfl⟩ := h'
  refine ⟨elems ++ elems', ?_, List.flatten_append.symm⟩
  intro elem hmem
  cases List.mem_append.mp hmem with
  | inl hmem => exact helems elem hmem
  | inr hmem => exact helems' elem hmem

/-- The encoder writes prefix sequences. -/
theorem wholeSequences_evoEncodeLoop (fuel : Nat) (data : List UInt8) :
    WholeSequences (evoEncodeLoop fuel data) := by
  induction fuel generalizing data with
  | zero => exact ⟨[], nofun, rfl⟩
  | succ fuel ih =>
      cases data with
      | nil => exact ⟨[], nofun, rfl⟩
      | cons b rest =>
          unfold evoEncodeLoop
          dsimp only
          apply wholeSequences_append
          · split
            · exact ⟨[_], List.forall_mem_singleton.mpr ⟨b, .inr ⟨_, rfl⟩⟩,
                (List.flatten_singleton).symm⟩
            · exact ⟨_, fun elem hmem => ⟨b, .inl (List.eq_of_mem_replicate hmem)⟩, rfl⟩
          · exact ih _

/-- Elements are the prefix sequences that were written. -/
theorem exists_split_of_elements {elems : List (List UInt8)} (h : Elements wire off stop)
    (hwire : wire.drop off = elems.flatten) (helems : ∀ elem ∈ elems, PrefixSequence elem) :
    ∃ before after, elems = before ++ after ∧ stop = off + before.flatten.length := by
  induction h generalizing elems with
  | done => exact ⟨[], elems, rfl, rfl⟩
  | step hlt _ ih =>
      rename_i off _ _
      cases elems with
      | nil =>
          have := congrArg List.length hwire
          rw [List.length_drop, List.flatten_nil, List.length_nil] at this
          omega
      | cons elem elems =>
          rw [List.flatten_cons] at hwire
          have hlen : evoEncodedElementLen wire off = elem.length := by
            rw [evoEncodedElementLen_eq, hwire,
              firstElementLen_sequence (helems elem (List.mem_cons_self ..))]
          have hrest : wire.drop (off + evoEncodedElementLen wire off) = elems.flatten := by
            rw [← List.drop_drop, hwire, hlen, List.drop_left]
          obtain ⟨before, after, rfl, hstop⟩ := ih hrest
            fun elem hmem => helems elem (List.mem_cons_of_mem _ hmem)
          refine ⟨elem :: before, after, rfl, ?_⟩
          rw [hstop, hlen, List.flatten_cons, List.length_append, Nat.add_assoc]

/-- From one place between prefix sequences to another there are whole ones. -/
theorem wholeSequences_of_elements (hwire : WholeSequences wire) (h : Elements wire 0 off)
    (h' : Elements wire off stop) : WholeSequences ((wire.drop off).take (stop - off)) := by
  obtain ⟨elems, helems, rfl⟩ := hwire
  obtain ⟨before, after, rfl, hoff⟩ := exists_split_of_elements h rfl helems
  rw [Nat.zero_add] at hoff
  have hrest : (before ++ after).flatten.drop off = after.flatten := by
    rw [List.flatten_append, List.drop_left' hoff.symm]
  obtain ⟨chunk, rest, rfl, hstop⟩ := exists_split_of_elements h' hrest
    fun elem hmem => helems elem (List.mem_append_right _ hmem)
  refine ⟨chunk, fun elem hmem => helems elem (by simp [hmem]), ?_⟩
  rw [hrest, List.flatten_append, List.take_left' (by omega)]

end Sequences

/-! ## the data packets of a request -/

/-- How a wire string is cut into the data fields of packets. -/
structure Chunked (decoder : Option EvoKermitSession) (wire : List UInt8)
    (chunks : List (List UInt8)) : Prop where
  flatten : chunks.flatten = wire
  nonempty : ∀ chunk ∈ chunks, chunk ≠ []
  whole : ∀ payload, wire = evoEncode [] payload → ∀ chunk ∈ chunks, WholeSequences chunk
  together : ∀ limit out,
    chunks.foldlM (evoDecoded decoder limit) out = evoDecoded decoder limit out wire
  apart : ∀ limit decoded, evoDecoded decoder limit [] wire = .ok decoded →
    ∃ parts, List.Forall₂ (fun chunk part => evoDecoded decoder limit [] chunk = .ok part)
        chunks parts ∧ parts.flatten = decoded

section Request

theorem chunked_evoPutChunks (wire : List UInt8) (maxChunk : Nat) :
    Chunked none wire (evoPutChunks wire maxChunk 0) := by
  have htogether (limit : Nat) (out : List UInt8) :
      (evoPutChunks wire maxChunk 0).foldlM (evoDecoded none limit) out
        = evoDecoded none limit out wire :=
    foldlM_evoPutChunks (Nat.zero_le _)
  constructor
  · exact flatten_evoPutChunks wire maxChunk 0
  · intro chunk hmem hnil
    obtain ⟨start, stop, -, hlen, hlt, -⟩ := elements_evoPutChunks hmem
    rw [hnil, List.length_nil] at hlen
    omega
  · intro payload hwire chunk hmem
    obtain ⟨start, stop, hchunk, -, -, -, hbefore, hinside⟩ := elements_evoPutChunks hmem
    have hsequences : WholeSequences wire := by
      rw [hwire]
      exact wholeSequences_evoEncodeLoop _ _
    rw [hchunk]
    exact wholeSequences_of_elements hsequences hbefore hinside
  · exact htogether
  · intro limit decoded hdecoded
    obtain ⟨parts, hparts, hwhole⟩ := exists_parts_of_foldlM ((htogether limit []).trans hdecoded)
    exact ⟨parts, hparts, hwhole.symm⟩

theorem length_evoMakePacket_le (session : EvoKermitSession) (seq : Nat) (type : UInt8)
    (data : List UInt8) : (evoMakePacket session seq type data).length
      ≤ data.length + session.checkType.size + 8 := by
  unfold evoMakePacket evoPacketBody
  dsimp only
  split
  · simp
    omega
  · simp
    omega

/-- A session never takes less than 60 bytes for a maximum. -/
theorem maxPacketLen_update {session : EvoKermitSession} (h : 60 ≤ session.maxPacketLen)
    (reply : List UInt8) : 60 ≤ (evoSessionUpdateFromSinit session reply).maxPacketLen := by
  unfold evoSessionUpdateFromSinit
  dsimp only
  split
  · split_ifs with hsixty hmax
    · exact hsixty
    · decide
    · exact h
  · exact h

/-- The size of a chunk leaves room for the rest of a packet. -/
theorem evoSessionDataChunkSize_le {session : EvoKermitSession} (h : 60 ≤ session.maxPacketLen) :
    max (evoSessionDataChunkSize session) 4 + session.checkType.size + 8
      ≤ session.maxPacketLen := by
  have hsize : session.checkType.size ≤ 3 := by cases session.checkType <;> decide
  unfold evoSessionDataChunkSize evoPutChunkSize
  dsimp only
  split_ifs <;> omega

/-- Whatever maximum the reply to the S packet asks for, the payload is cut into packets of that
size, and at places where a decoder for the prefixes of the encoder does not notice it. -/
theorem evoPutChunks_whole {decoder : Option EvoKermitSession}
    (hdecoder : ∀ s ∈ decoder, s.DefaultQuoting) (reply wire : List UInt8) :
    (∀ maxChunk, Chunked decoder wire (evoPutChunks wire maxChunk 0))
      ∧ ∀ session, session = evoSessionUpdateFromSinit evoSessionInit reply →
        ∀ chunk ∈ evoPutChunks wire (evoSessionDataChunkSize session) 0, ∀ seq type,
          (evoMakePacket session seq type chunk).length ≤ session.maxPacketLen := by
  constructor
  · intro maxChunk
    obtain ⟨hflatten, hnonempty, hwhole, htogether, hapart⟩ := chunked_evoPutChunks wire maxChunk
    have hdefault : evoDecoded decoder = evoDecoded none := by
      funext limit out data
      exact evoDecoded_default hdecoder
    constructor
    · exact hflatten
    · exact hnonempty
    · exact hwhole
    · rw [hdefault]
      exact htogether
    · rw [hdefault]
      exact hapart
  · intro session hsession chunk hmem seq type
    obtain ⟨start, stop, -, hlen, -, hshort, -⟩ := elements_evoPutChunks hmem
    have hmax : 60 ≤ session.maxPacketLen := by
      rw [hsession]
      exact maxPacketLen_update (by decide) reply
    have hroom := evoSessionDataChunkSize_le hmax
    have hpacket := length_evoMakePacket_le session seq type chunk
    omega

/-- A reply that asks for packets of 60 bytes. -/
theorem evoPutChunks_whole_sixty :
    Chunked (some (evoSessionUpdateFromSinit evoSessionInit
        [0x7E, 0x30, 0x20, 0x40, 0x2D, 0x23, 0x59, 0x31, 0x7E, 0x20, 0x20, 0x20, 0x5C]))
      [0x41, 0x7E, 0x24, 0x23, 0x41] (evoPutChunks [0x41, 0x7E, 0x24, 0x23, 0x41] 2 0) := by
  refine (evoPutChunks_whole ?_ [] _).1 2
  intro s hs
  obtain rfl := Option.some_inj.mp hs
  exact defaultQuoting_update defaultQuoting_init
    ⟨by simp [evoQctl], by simp, by simp [evoRept]⟩

/-- With another prefix in the session: `&` is cut off from the byte that it changes. -/
theorem not_chunked_of_binary_quote :
    let session := evoSessionUpdateFromSinit evoSessionInit
      [0x7E, 0x30, 0x20, 0x40, 0x2D, 0x23, 0x26, 0x31, 0x7E, 0x20, 0x20, 0x20, 0x5C]
    let wire := evoEncode [] ((List.replicate 25 [0x41, 0x42]).flatten ++ [0x26, 0x41])
    ¬Chunked (some session) wire (evoPutChunks wire (evoSessionDataChunkSize session) 0) := by
  intro session wire h
  have htogether := h.together 100 []
  have hwhole : evoDecoded (some session) 100 [] wire
      = .ok ((List.replicate 25 [0x41, 0x42]).flatten ++ [0xC1]) := by decide
  have hchunks : (evoPutChunks wire (evoSessionDataChunkSize session) 0).foldlM
        (evoDecoded (some session) 100) []
      = .ok ((List.replicate 25 [0x41, 0x42]).flatten ++ [0x41]) := by decide +kernel
  rw [hwhole, hchunks] at htogether
  exact absurd (Except.ok.inj htogether) (by decide)

end Request

end Tilibs.Evo
