import Tilibs.Lib.Resync
import Tilibs.Nsp.NnseFrame

/-!
# Tilibs.Nsp.NnseResync

Finding the next NNSE message in what the cable delivers (`nsp_nnse.cc`).

While the receive buffer is shorter than a header, its front is dropped until
the rest can be the beginning of one.  The test is looser than the one of a
whole header: it knows no limit of the payload, and lets an acknowledgement ask
for one.
-/

namespace Tilibs.Nsp

open Tilibs.Lib

/-! ## The partial test -/

def nnsePartialHeaderPossible (header : List UInt8) : Bool :=
  let size := header.length
  if size = 0 then true
  else if header.getD 0 0 = 0 then
    if 2 ≤ size ∧ ¬ nnseServicePlausible (header.getD 1 0) then false
    else if 3 ≤ size ∧ header.getD 2 0 ≠ nspNnseAddrCalc then false
    else if 4 ≤ size ∧ ¬ nnseDestPlausible (header.getD 3 0) then false
    else if 5 ≤ size ∧ header.getD 4 0 ≠ 0 then false
    else if 6 ≤ size ∧ ¬ nnseReqackPlausible (header.getD 5 0) then false
    else if 8 ≤ size ∧ (getWord header 6).toNat < nspNnseHeaderSize then false
    else true
  else if header.getD 0 0 = nspNnseSrvStreamCtrl then
    if 3 ≤ size ∧ ¬ nnseDestPlausible (header.getD 2 0) then false
    else if 4 ≤ size ∧ header.getD 3 0 ≠ 0 then false
    else if 7 ≤ size ∧ (getWord header 5).toNat < nspNnseHeaderSize then false
    else true
  else false

/-- What is left of the receive buffer. -/
def nnseDiscardImpossiblePrefix : List UInt8 → List UInt8
  | [] => []
  | first :: rest =>
      if (first :: rest).length < nspNnseHeaderSize ∧ ¬ nnsePartialHeaderPossible (first :: rest)
      then nnseDiscardImpossiblePrefix rest
      else first :: rest

/-- The receive buffer after bytes have arrived: one of them in
`nnse_buffer_read_polled`, as many as are there in `nnse_prefetch_immediate`. -/
def nnseFeed (buffer arrived : List UInt8) : List UInt8 :=
  nnseDiscardImpossiblePrefix (buffer ++ arrived)

/-- What stays in the receive buffer. -/
def NnseKept (buffer : List UInt8) : Prop :=
  nspNnseHeaderSize ≤ buffer.length ∨ nnsePartialHeaderPossible buffer

instance : DecidablePred NnseKept := fun buffer =>
  inferInstanceAs (Decidable (nspNnseHeaderSize ≤ buffer.length ∨ nnsePartialHeaderPossible buffer))

theorem nnseDiscardImpossiblePrefix_eq (buffer : List UInt8) :
    nnseDiscardImpossiblePrefix buffer = resync NnseKept buffer := by
  induction buffer with
  | nil => rfl
  | cons first rest ih =>
      unfold nnseDiscardImpossiblePrefix resync
      split
      · rename_i h
        rw [if_neg, ih]
        rintro (hlong | hpossible)
        · omega
        · exact h.2 hpossible
      · rename_i h
        rw [if_pos]
        by_contra hnot
        exact h ⟨Nat.lt_of_not_le fun hlong => hnot (.inl hlong),
          fun hpossible => hnot (.inr hpossible)⟩

/-! ## Beginnings of headers -/

/-- The fields of a full header that the partial test looks at. -/
structure NnseHeaderShape (header : List UInt8) : Prop where
  misc : header.getD 0 0 = 0
  service : nnseServicePlausible (header.getD 1 0)
  src : header.getD 2 0 = nspNnseAddrCalc
  dest : nnseDestPlausible (header.getD 3 0)
  unknown : header.getD 4 0 = 0
  reqack : nnseReqackPlausible (header.getD 5 0)
  length : nspNnseHeaderSize ≤ (getWord header 6).toNat

/-- The fields of a compact header, which the partial test looks at all. -/
structure NnseCompactShape (header : List UInt8) : Prop where
  service : header.getD 0 0 = nspNnseSrvStreamCtrl
  dest : nnseDestPlausible (header.getD 2 0)
  unknown : header.getD 3 0 = 0
  length : nspNnseHeaderSize ≤ (getWord header 5).toNat

/-- The fields of a header the partial test looks at, in either form. -/
def NnseForm.Shape : NnseForm → List UInt8 → Prop
  | .full => NnseHeaderShape
  | .compact => NnseCompactShape

theorem nnseHeaderPlausible_iff (header : List UInt8) (maxpayload : Nat) :
    NnseForm.full.headerPlausible header maxpayload ↔
      NnseHeaderShape header ∧ (getWord header 6).toNat - nspNnseHeaderSize ≤ maxpayload ∧
        (header.getD 1 0 &&& nspNnseSrvAckFlag ≠ 0 →
          (getWord header 6).toNat - nspNnseHeaderSize = 0 ∧ header.getD 5 0 &&& 1 = 0) := by
  simp only [NnseForm.headerPlausible, nnseHeaderPlausible, nnseLengthPlausible, Bool.and_eq_true,
    decide_eq_true_eq, Bool.not_eq_true', Bool.and_eq_false_imp, Bool.or_eq_false_iff,
    decide_eq_false_iff_not, not_not]
  constructor
  · rintro ⟨⟨⟨⟨⟨⟨⟨hmisc, hunknown⟩, hservice⟩, hreqack⟩, hsrc⟩, hdest⟩, hlength, hmax⟩, hack⟩
    exact ⟨⟨hmisc, hservice, hsrc, hdest, hunknown, hreqack, hlength⟩, hmax, hack⟩
  · rintro ⟨⟨hmisc, hservice, hsrc, hdest, hunknown, hreqack, hlength⟩, hmax, hack⟩
    exact ⟨⟨⟨⟨⟨⟨⟨hmisc, hunknown⟩, hservice⟩, hreqack⟩, hsrc⟩, hdest⟩, hlength, hmax⟩, hack⟩

theorem nnseCompactPlausible_iff (header : List UInt8) (maxpayload : Nat) :
    NnseForm.compact.headerPlausible header maxpayload ↔
      NnseCompactShape header ∧ (getWord header 5).toNat - nspNnseHeaderSize ≤ maxpayload := by
  simp only [NnseForm.headerPlausible, nnseCompactStreamControlPlausible, nnseLengthPlausible,
    Bool.and_eq_true, decide_eq_true_eq]
  constructor
  · rintro ⟨⟨⟨hservice, hunknown⟩, hdest⟩, hlength, hmax⟩
    exact ⟨⟨hservice, hdest, hunknown, hlength⟩, hmax⟩
  · rintro ⟨⟨hservice, hdest, hunknown, hlength⟩, hmax⟩
    exact ⟨⟨⟨hservice, hunknown⟩, hdest⟩, hlength, hmax⟩

/-! ## What the partial test says -/

section Partial

variable {bytes : List UInt8}

theorem nnsePartial_full (hsome : 0 < bytes.length) (hmisc : bytes.getD 0 0 = 0) :
    nnsePartialHeaderPossible bytes ↔
      (2 ≤ bytes.length → nnseServicePlausible (bytes.getD 1 0)) ∧
      (3 ≤ bytes.length → bytes.getD 2 0 = nspNnseAddrCalc) ∧
      (4 ≤ bytes.length → nnseDestPlausible (bytes.getD 3 0)) ∧
      (5 ≤ bytes.length → bytes.getD 4 0 = 0) ∧
      (6 ≤ bytes.length → nnseReqackPlausible (bytes.getD 5 0)) ∧
      (8 ≤ bytes.length → nspNnseHeaderSize ≤ (getWord bytes 6).toNat) := by
  unfold nnsePartialHeaderPossible
  rw [if_neg (by omega), if_pos hmisc]
  grind

theorem nnsePartial_compact (hsome : 0 < bytes.length)
    (hservice : bytes.getD 0 0 = nspNnseSrvStreamCtrl) :
    nnsePartialHeaderPossible bytes ↔
      (3 ≤ bytes.length → nnseDestPlausible (bytes.getD 2 0)) ∧
      (4 ≤ bytes.length → bytes.getD 3 0 = 0) ∧
      (7 ≤ bytes.length → nspNnseHeaderSize ≤ (getWord bytes 5).toNat) := by
  unfold nnsePartialHeaderPossible
  rw [if_neg (by omega), if_neg (by rw [hservice]; decide), if_pos hservice]
  grind

theorem nnsePartial_first (h : nnsePartialHeaderPossible bytes) (hsome : 0 < bytes.length) :
    bytes.getD 0 0 = 0 ∨ bytes.getD 0 0 = nspNnseSrvStreamCtrl := by
  unfold nnsePartialHeaderPossible at h
  rw [if_neg (by omega)] at h
  grind

theorem toNat_getWord {offset : Nat} (h : offset + 2 ≤ bytes.length) :
    (getWord bytes offset).toNat
      = 256 * (bytes.getD offset 0).toNat + (bytes.getD (offset + 1) 0).toNat := by
  have htwo : (bytes.drop offset).take 2 = [bytes[offset], bytes[offset + 1]] := by
    rw [List.drop_eq_getElem_cons (by omega), List.drop_eq_getElem_cons (by omega)]
    rfl
  have hhigh := bytes[offset].toNat_lt
  have hlow := bytes[offset + 1].toNat_lt
  rw [getWord, htwo, List.getD_eq_getElem _ _ (by omega), List.getD_eq_getElem _ _ (by omega)]
  simp only [getBE, getLE, List.reverse_cons, List.reverse_nil, List.nil_append, List.cons_append,
    UInt16.toNat_ofNat']
  omega

theorem getWord_append_of_le {more : List UInt8} {offset : Nat} (h : offset + 2 ≤ bytes.length) :
    getWord (bytes ++ more) offset = getWord bytes offset := by
  rw [getWord, getWord, List.drop_append_of_le_length (by omega),
    List.take_append_of_le_length (by rw [List.length_drop]; omega)]

/-- Every beginning of a header passes. -/
theorem nnsePartial_of_shape {form : NnseForm} {header : List UInt8} (hshape : form.Shape header)
    (hbegin : bytes <+: header) : nnsePartialHeaderPossible bytes := by
  obtain ⟨more, rfl⟩ := hbegin
  cases hsize : bytes.length with
  | zero =>
      rw [List.length_eq_zero_iff.mp hsize]
      rfl
  | succ size =>
      have hsome : 0 < bytes.length := by omega
      cases form with
      | full =>
          obtain ⟨hmisc, hservice, hsrc, hdest, hunknown, hreqack, hlength⟩ := hshape
          rw [List.getD_append _ _ _ _ hsome] at hmisc
          rw [nnsePartial_full hsome hmisc]
          exact ⟨fun h => by rwa [List.getD_append _ _ _ _ (by omega)] at hservice,
            fun h => by rwa [List.getD_append _ _ _ _ (by omega)] at hsrc,
            fun h => by rwa [List.getD_append _ _ _ _ (by omega)] at hdest,
            fun h => by rwa [List.getD_append _ _ _ _ (by omega)] at hunknown,
            fun h => by rwa [List.getD_append _ _ _ _ (by omega)] at hreqack,
            fun h => by rwa [getWord_append_of_le (by omega)] at hlength⟩
      | compact =>
          obtain ⟨hservice, hdest, hunknown, hlength⟩ := hshape
          rw [List.getD_append _ _ _ _ hsome] at hservice
          rw [nnsePartial_compact hsome hservice]
          exact ⟨fun h => by rwa [List.getD_append _ _ _ _ (by omega)] at hdest,
            fun h => by rwa [List.getD_append _ _ _ _ (by omega)] at hunknown,
            fun h => by rwa [getWord_append_of_le (by omega)] at hlength⟩

/-- A header to go on with: one of an address request, or of a stream control message. -/
def NnseForm.template : NnseForm → List UInt8
  | .full => [0, nspNnseSrvAddrReq, nspNnseAddrCalc, nspNnseAddrPc, 0, 0, 0, 12, 0, 0, 0, 0]
  | .compact => [nspNnseSrvStreamCtrl, nspNnseAddrCalc, nspNnseAddrPc, 0, 0, 0, 12, 0, 0, 0, 0]

variable (bytes) in
/-- The bytes that have arrived, and the rest of a template. -/
def NnseForm.complete (form : NnseForm) : List UInt8 :=
  bytes ++ form.template.drop bytes.length

/-- A field of the header is one that has arrived, or the template's. -/
theorem getD_complete (P : UInt8 → Prop) {form : NnseForm} {i : Nat}
    (h : i + 1 ≤ bytes.length → P (bytes.getD i 0)) (htemplate : P (form.template.getD i 0)) :
    P ((form.complete bytes).getD i 0) := by
  unfold NnseForm.complete
  by_cases hi : i < bytes.length
  · rw [List.getD_append _ _ _ _ hi]
    exact h hi
  · rw [List.getD_append_right _ _ _ _ (by omega), List.getD_eq_getElem?_getD,
      List.getElem?_drop, Nat.add_sub_cancel' (by omega)]
    exact htemplate

theorem length_complete (form : NnseForm) :
    form.template.length ≤ (form.complete bytes).length := by
  rw [NnseForm.complete, List.length_append, List.length_drop]
  omega

/-- A length of which the low byte is still the one of the template is long enough. -/
theorem getWord_complete {form : NnseForm} {offset : Nat}
    (hfits : offset + 2 ≤ form.template.length) (hlow : form.template.getD (offset + 1) 0 = 12)
    (h : offset + 2 ≤ bytes.length → nspNnseHeaderSize ≤ (getWord bytes offset).toNat) :
    nspNnseHeaderSize ≤ (getWord (form.complete bytes) offset).toNat := by
  by_cases hwhole : offset + 2 ≤ bytes.length
  · rw [NnseForm.complete, getWord_append_of_le hwhole]
    exact h hwhole
  · have hnext : (form.complete bytes).getD (offset + 1) 0 = 12 :=
      getD_complete (· = 12) (by omega) hlow
    rw [toNat_getWord (hfits.trans (length_complete form)), hnext]
    simp [nspNnseHeaderSize]

/-- What passes is the beginning of a header. -/
theorem shape_complete (h : nnsePartialHeaderPossible bytes) :
    ∃ form : NnseForm, form.Shape (form.complete bytes) := by
  by_cases hsome : 0 < bytes.length
  · cases nnsePartial_first h hsome with
    | inl hmisc =>
        obtain ⟨hservice, hsrc, hdest, hunknown, hreqack, hlength⟩ :=
          (nnsePartial_full hsome hmisc).mp h
        exists .full
        exact ⟨getD_complete (· = 0) (fun _ => hmisc) rfl,
          getD_complete (nnseServicePlausible ·) hservice (by decide),
          getD_complete (· = nspNnseAddrCalc) hsrc rfl,
          getD_complete (nnseDestPlausible ·) hdest (by decide),
          getD_complete (· = 0) hunknown rfl,
          getD_complete (nnseReqackPlausible ·) hreqack (by decide),
          getWord_complete (by decide) rfl hlength⟩
    | inr hservice =>
        obtain ⟨hdest, hunknown, hlength⟩ := (nnsePartial_compact hsome hservice).mp h
        exists .compact
        exact ⟨getD_complete (· = nspNnseSrvStreamCtrl) (fun _ => hservice) rfl,
          getD_complete (nnseDestPlausible ·) hdest (by decide),
          getD_complete (· = 0) hunknown rfl,
          getWord_complete (by decide) rfl hlength⟩
  · rw [Nat.not_lt, Nat.le_zero, List.length_eq_zero_iff] at hsome
    subst hsome
    exists .full
    constructor <;> decide

end Partial

/-- The beginning of a header in either form, with any payload. -/
def NnseHeaderStart (bytes : List UInt8) : Prop :=
  ∃ (form : NnseForm) (header : List UInt8),
    nspNnseHeaderSize ≤ (form.expand header).length ∧ form.Shape header ∧ bytes <+: header

/-- The partial test holds of just the beginnings of headers. -/
theorem nnsePartialHeaderPossible_iff (bytes : List UInt8) :
    nnsePartialHeaderPossible bytes ↔ NnseHeaderStart bytes := by
  constructor
  · intro h
    obtain ⟨form, hshape⟩ := shape_complete h
    have hlength : form.template.length ≤ (form.complete bytes).length := length_complete form
    have htemplate : nspNnseHeaderSize ≤ form.template.length + form.shift := by
      cases form <;> decide
    have hsize : nspNnseHeaderSize ≤ (form.expand (form.complete bytes)).length := by
      rw [NnseForm.length_expand]
      omega
    exact ⟨form, form.complete bytes, hsize, hshape, List.prefix_append _ _⟩
  · rintro ⟨form, header, -, hshape, hbegin⟩
    exact nnsePartial_of_shape hshape hbegin

/-! ## Resynchronisation -/

/-- A message as it stands in the stream, in either form. -/
structure NnseForm.Valid (form : NnseForm) (maxpayload : Nat) (frame : List UInt8) : Prop where
  headerPlausible : form.headerPlausible frame maxpayload
  complete : frame.length = (form.wireLength frame).toNat
  verifies : form.verifies frame

theorem NnseForm.shape_of_headerPlausible {form : NnseForm} {header : List UInt8} {maxpayload : Nat}
    (h : form.headerPlausible header maxpayload) : form.Shape header := by
  cases form with
  | full => exact ((nnseHeaderPlausible_iff header maxpayload).mp h).1
  | compact => exact ((nnseCompactPlausible_iff header maxpayload).mp h).1

theorem foldl_nnseFeed (arrivals : List (List UInt8)) :
    arrivals.foldl nnseFeed [] = arrivals.foldl (resyncFeed NnseKept) [] := by
  have hfeed : nnseFeed = resyncFeed NnseKept := by
    funext buffer arrived
    exact nnseDiscardImpossiblePrefix_eq (buffer ++ arrived)
  rw [hfeed]

/-- Whatever has arrived of a message is in the receive buffer, behind some of the
junk before it. -/
theorem foldl_nnseFeed_eq {form : NnseForm} {maxpayload : Nat} {frame : List UInt8}
    (hvalid : form.Valid maxpayload frame) {arrivals : List (List UInt8)} {junk : List UInt8}
    {n : Nat} (harrived : arrivals.flatten = junk ++ frame.take n) :
    ∃ kept, kept <:+ junk ∧ arrivals.foldl nnseFeed [] = kept ++ frame.take n := by
  have hkeep : ∀ s, s <+: frame.take n → NnseKept s := by
    intro s hs
    right
    exact nnsePartial_of_shape (NnseForm.shape_of_headerPlausible hvalid.headerPlausible)
      (hs.trans (List.take_prefix n frame))
  have hframe : frame.take n <:+ arrivals.foldl nnseFeed [] := by
    rw [foldl_nnseFeed]
    exact suffix_foldl_resyncFeed (harrived ▸ List.suffix_append junk _) hkeep
  obtain ⟨kept, hkept⟩ := hframe
  have hsuffix : arrivals.foldl (resyncFeed NnseKept) [] <:+ arrivals.flatten :=
    foldl_resyncFeed_suffix arrivals
  rw [← foldl_nnseFeed, ← hkept, harrived, List.suffix_append_self_iff] at hsuffix
  exact ⟨kept, hsuffix, hkept.symm⟩

/-- A buffer shorter than a header is cut to its longest suffix that is the beginning
of one. -/
theorem nnseDiscardImpossiblePrefix_longest {buffer : List UInt8}
    (hshort : buffer.length < nspNnseHeaderSize) :
    nnseDiscardImpossiblePrefix buffer <:+ buffer ∧
      NnseHeaderStart (nnseDiscardImpossiblePrefix buffer) ∧
      ∀ t, t <:+ buffer → NnseHeaderStart t → t <:+ nnseDiscardImpossiblePrefix buffer := by
  have hsuffix : resync NnseKept buffer <:+ buffer := resync_suffix buffer
  have hkept : NnseKept (resync NnseKept buffer) := keep_resync (.inr rfl) buffer
  rw [nnseDiscardImpossiblePrefix_eq]
  constructor
  · exact hsuffix
  constructor
  · rw [← nnsePartialHeaderPossible_iff]
    cases hkept with
    | inl hlong =>
        have hle := hsuffix.length_le
        omega
    | inr hpossible => exact hpossible
  · intro t ht hstart
    exact suffix_resync ht (.inr ((nnsePartialHeaderPossible_iff t).mpr hstart))

theorem nnseDiscardImpossiblePrefix_of_long {buffer : List UInt8}
    (hlong : nspNnseHeaderSize ≤ buffer.length) : nnseDiscardImpossiblePrefix buffer = buffer := by
  rw [nnseDiscardImpossiblePrefix_eq]
  exact resync_of_keep (.inl hlong)

/-- Resynchronisation loses nothing of a message, and leaves the longest suffix that
can be the beginning of a header, as far as the partial test tells. -/
theorem nnseResync_lossless (maxpayload : Nat) :
    (∀ (form : NnseForm) (header : List UInt8), form.headerPlausible header maxpayload →
      ∀ n, nnsePartialHeaderPossible (header.take n)) ∧
    (∀ (form : NnseForm) (frame : List UInt8), form.Valid maxpayload frame →
      ∀ (arrivals : List (List UInt8)) (junk : List UInt8) (n : Nat),
        arrivals.flatten = junk ++ frame.take n →
          ∃ kept, kept <:+ junk ∧ arrivals.foldl nnseFeed [] = kept ++ frame.take n) ∧
    (∀ buffer : List UInt8, buffer.length < nspNnseHeaderSize →
      nnseDiscardImpossiblePrefix buffer <:+ buffer ∧
      NnseHeaderStart (nnseDiscardImpossiblePrefix buffer) ∧
      ∀ t, t <:+ buffer → NnseHeaderStart t → t <:+ nnseDiscardImpossiblePrefix buffer) ∧
    (∀ buffer : List UInt8, nspNnseHeaderSize ≤ buffer.length →
      nnseDiscardImpossiblePrefix buffer = buffer) := by
  constructor
  · intro form header haccepted n
    exact nnsePartial_of_shape (NnseForm.shape_of_headerPlausible haccepted) (List.take_prefix n header)
  constructor
  · intro form frame hvalid arrivals junk n harrived
    exact foldl_nnseFeed_eq hvalid harrived
  constructor
  · intro buffer hshort
    exact nnseDiscardImpossiblePrefix_longest hshort
  · intro buffer hlong
    exact nnseDiscardImpossiblePrefix_of_long hlong

/-- Two bytes of junk and the first three of a stream control reset. -/
theorem nnseResync_lossless_streamControlReset :
    ∃ kept, kept <:+ [0x41, 0x42] ∧
      List.foldl nnseFeed [] [[0x41], [0x42, 8], [1, 0xFE]] = kept ++ [8, 1, 0xFE] := by
  have hverifies : NnseForm.compact.verifies
      [8, 1, 0xFE, 0, 0, 0, 13, 0, 5, 0xFB, 0xE7, 2] := by
    rw [NnseForm.verifies, decide_eq_true_eq, NnseForm.checksum_eq_iff] <;> decide
  exact (nnseResync_lossless nspNnseMaxPayload).2.1 .compact
    [8, 1, 0xFE, 0, 0, 0, 13, 0, 5, 0xFB, 0xE7, 2] ⟨by decide, by decide, hverifies⟩
    [[0x41], [0x42, 8], [1, 0xFE]] [0x41, 0x42] 3 rfl

/-- An acknowledgement that asks for one stays in the buffer, though no header begins
so: the longest suffix with which one begins is its last two bytes. -/
theorem nnseDiscardImpossiblePrefix_keeps_ack :
    nnseDiscardImpossiblePrefix [0, 0x84, 1, 0xFE, 0, 1] = [0, 0x84, 1, 0xFE, 0, 1] ∧
      ∀ (form : NnseForm) (header : List UInt8) (maxpayload : Nat),
        [0, 0x84, 1, 0xFE, 0, 1] <+: header → ¬ form.headerPlausible header maxpayload := by
  constructor
  · decide
  · rintro form header maxpayload ⟨more, rfl⟩ haccepted
    cases form with
    | full =>
        have hack := ((nnseHeaderPlausible_iff _ _).mp haccepted).2.2
          (show (0x84 : UInt8) &&& nspNnseSrvAckFlag ≠ 0 by decide)
        exact absurd (show (1 : UInt8) &&& 1 = 0 from hack.2) (by decide)
    | compact =>
        have hservice := ((nnseCompactPlausible_iff _ _).mp haccepted).1.service
        exact absurd (show (0 : UInt8) = nspNnseSrvStreamCtrl from hservice) (by decide)

end Tilibs.Nsp
