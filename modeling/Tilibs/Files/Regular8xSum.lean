import Mathlib
import Tilibs.Files.Regular8xRoundTrip

/-!
# Tilibs.Files.Regular8xSum

The length and the checksum that a TI-8x regular file says, against the bytes between them.  The
writer computes both from the entries, where the TI-85 and the TI-86 take the length of a name
before its conversion, and adds the length of an entry's header as one number.
-/

namespace Tilibs.Files

open Lib Conv
open Dbus (tifilesChecksum)

/-- The length in the header. -/
def headerLength (bytes : List UInt8) : Nat := getLE ((bytes.drop 53).take 2)

/-- The bytes after the length and before the checksum. -/
def dataSection (bytes : List UInt8) : List UInt8 := (bytes.drop 55).take (bytes.length - 57)

/-- The checksum at the end. -/
def trailingChecksum (bytes : List UInt8) : Nat := getLE (bytes.drop (bytes.length - 2))

/-- The file says the length and the sum of its data section. -/
def SectionSummed (bytes : List UInt8) : Prop :=
  headerLength bytes = (dataSection bytes).length % 2 ^ 16
    ∧ trailingChecksum bytes = tifilesChecksum (dataSection bytes)

/-- The names of the TI-85 and the TI-86 are, together, as long before the conversion as after
it, and no entry header of the TI-85 is longer than a byte can say, or so many that it does not
matter. -/
def NamesAddUp (model : CalcModel) (raw : VarEntry → List UInt8) (es : List VarEntry) : Prop :=
  (isTi8586 model = true → (es.map fun e => e.name.chars.length).sum % 2 ^ 16
    = (es.map fun e => (raw e).length).sum % 2 ^ 16)
    ∧ (model = .ti85 → (es.map fun e => (4 + e.name.chars.length) / 256).sum % 2 ^ 16 = 0)

/-! ## one entry -/

theorem byteSum_fwriteWord (n : Nat) : byteSum (fwriteWord n) = wordSum n := by
  have hlt : byteSum (putLE 2 n) < 2 ^ 16 := by
    have h0 := (UInt8.ofNat n).toNat_lt
    have h1 := (UInt8.ofNat (n / 256)).toNat_lt
    simp only [putLE, byteSum_cons, byteSum_nil]
    omega
  unfold wordSum tifilesChecksum fwriteWord
  rw [Nat.mod_eq_of_lt hlt]

theorem wordSum_eq (n : Nat) : wordSum n = n % 256 + n / 256 % 256 := by
  rw [← byteSum_fwriteWord]
  unfold fwriteWord
  simp [putLE]

theorem byteSum_replicate (n : Nat) (b : UInt8) : byteSum (List.replicate n b) = n * b.toNat := by
  unfold byteSum
  rw [List.map_replicate, List.sum_replicate, smul_eq_mul]

/-- The length and the sum of a name field. -/
theorem nameField8x_facts {model : CalcModel} {raw name : List UInt8}
    (h : nameField8x model raw = .ok name) :
    raw.length < 256 ∧ (isTi8586 model = false → raw.length ≤ 8)
      ∧ name.length = (if model = .ti85 then 1 + raw.length else if model = .ti86 then 9 else 8)
      ∧ byteSum name = (if isTi8586 model then raw.length else 0) + byteSum raw
        + (if model = .ti86 then (8 - raw.length) * 0x20 else 0) := by
  have hbyte : (UInt8.ofNat raw.length).toNat = raw.length % 256 := UInt8.toNat_ofNat'
  unfold nameField8x fwriteNChars fwriteNChars2 at h
  by_cases h85 : model = .ti85
  · subst h85
    rw [if_pos rfl, hbyte] at h
    split at h
    · cases h
    · rename_i hle
      have hlt : raw.length < 256 := by omega
      cases h
      have hpad : padRight (raw.length % 256) 0 raw = raw := by
        rw [Nat.mod_eq_of_lt hlt]
        simp [padRight]
      rw [hpad]
      refine ⟨hlt, fun h => absurd h (by decide), ?_, ?_⟩
      · rw [List.length_append, length_fwriteByte, if_pos rfl]
      · rw [byteSum_append, show isTi8586 .ti85 = true from rfl, if_pos rfl, if_neg (by decide)]
        show byteSum [UInt8.ofNat raw.length] + _ = _
        rw [byteSum_cons, byteSum_nil, hbyte, Nat.mod_eq_of_lt hlt]
        omega
  · rw [if_neg h85] at h
    by_cases h86 : model = .ti86
    · subst h86
      rw [if_pos rfl] at h
      split at h
      · cases h
      · rename_i hle
        have hlt : raw.length < 256 := by omega
        cases h
        have hlen := length_padRight (n := 8) (c := 0x20) (Nat.not_lt.mp hle)
        refine ⟨hlt, fun h => absurd h (by decide), ?_, ?_⟩
        · rw [List.length_append, length_fwriteByte, hlen, if_neg (by decide), if_pos rfl]
        · rw [byteSum_append, show isTi8586 .ti86 = true from rfl, if_pos rfl, if_pos rfl,
            padRight, byteSum_append, byteSum_replicate]
          show byteSum [UInt8.ofNat raw.length] + _ = _
          rw [byteSum_cons, byteSum_nil, hbyte, Nat.mod_eq_of_lt hlt]
          show _ + 0 + (_ + _ * 32) = _
          omega
    · have hneither : isTi8586 model = false := by simp [isTi8586, h85, h86]
      rw [if_neg h86] at h
      split at h
      · cases h
      · rename_i hle
        cases h
        have hlen := length_padRight (n := 8) (c := 0) (Nat.not_lt.mp hle)
        refine ⟨by omega, fun _ => Nat.not_lt.mp hle, ?_, ?_⟩
        · rw [hlen, if_neg h85, if_neg h86]
        · rw [hneither, if_neg (by decide), if_neg h86, padRight, byteSum_append,
            byteSum_replicate]
          show _ + _ * 0 = _
          omega

/-- What a name of the TI-85 or the TI-86 adds to what the entry says of itself. -/
structure EntryCounted (model : CalcModel) (raw : List UInt8) (e : VarEntry)
    (bytes : List UInt8) : Prop where
  length : bytes.length + (if model = .ti85 then e.name.chars.length else 0)
    = entryLength8x model e + (if model = .ti85 then raw.length else 0)
  sum : byteSum bytes + (if isTi8586 model then e.name.chars.length else 0)
      + (if model = .ti85 then 255 * ((4 + e.name.chars.length) / 256) else 0)
    ≡ entrySum8x model raw e + (if isTi8586 model then raw.length else 0) [MOD 2 ^ 16]

theorem writeEntry8x_counted {conv : Converters} {content : FileContent} {e : VarEntry}
    {bytes : List UInt8} (h8x : tifilesCalcIsTi8x content.model = true) (hsized : e.Sized)
    (h : writeEntry8x conv content e = .ok bytes) :
    EntryCounted content.model (varnameToFile conv content.modelDst e) e bytes := by
  unfold writeEntry8x at h
  rw [bind_eq_ok_iff] at h
  obtain ⟨name, hname, h⟩ := h
  cases h
  obtain ⟨hlt, hshort, hlen, hsum⟩ := nameField8x_facts hname
  have hdata := length_bytes_of_sized hsized
  generalize varnameToFile conv content.modelDst e = raw at *
  constructor
  · simp only [List.length_append, length_fwriteWord, length_fwriteByte, hlen, hdata]
    unfold entryLength8x
    generalize content.model = model at *
    cases model <;> simp [isTi83p] <;> first | omega | exact absurd h8x (by decide)
  · have hnameLength : (if isTi8586 content.model then (UInt8.ofNat raw.length).toNat else 8)
        = if isTi8586 content.model then raw.length else 8 := by
      rw [UInt8.toNat_ofNat', Nat.mod_eq_of_lt hlt]
    have htake : raw.take (if isTi8586 content.model then raw.length else 8) = raw := by
      split
      · exact List.take_length
      · rename_i hneither
        exact List.take_of_length_le (hshort (Bool.eq_false_iff.mpr hneither))
    have hname := e.name.fits
    have hpacket : packetLength8x content.model e = wordSum (packetLength8x content.model e)
        + (if content.model = .ti85 then 255 * ((4 + e.name.chars.length) / 256) else 0) := by
      rw [wordSum_eq]
      unfold packetLength8x
      unfold varnameMax at hname
      split_ifs <;> omega
    have htype : byteSum (fwriteByte e.type) = e.type.toNat := by simp [fwriteByte]
    have hattr : byteSum (if isTi83p content.model then fwriteWord (attrWord e) else [])
        = if isTi83p content.model then wordSum (attrWord e) else 0 := by
      split
      · exact byteSum_fwriteWord _
      · rfl
    have hpadding : (if content.model = .ti86 then
          (8 - if isTi8586 content.model then raw.length else 8) * 0x20 else 0)
        = if content.model = .ti86 then (8 - raw.length) * 0x20 else 0 := by
      split
      · rename_i h86
        rw [h86]
        rfl
      · rfl
    unfold entrySum8x
    dsimp only
    rw [hnameLength, htake, hpadding]
    simp only [byteSum_append, byteSum_fwriteWord, htype, hattr, hsum]
    unfold tifilesChecksum Nat.ModEq
    generalize wordSum (packetLength8x content.model e) = packet at hpacket
    rw [hpacket]
    omega

/-! ## all of them -/

theorem sum_map_ite {α : Type} (p : Prop) [Decidable p] (f : α → Nat) (xs : List α) :
    (xs.map fun x => if p then f x else 0).sum = if p then (xs.map f).sum else 0 := by
  split <;> simp

/-- What the names add to what all of the entries say of themselves. -/
theorem writeEntries_counted {conv : Converters} {content : FileContent} {es : List VarEntry}
    {entries : List (List UInt8)} (h8x : tifilesCalcIsTi8x content.model = true)
    (hsized : ∀ e ∈ es, e.Sized) (h : es.mapM (writeEntry8x conv content) = .ok entries) :
    entries.flatten.length
        + (es.map fun e => if content.model = .ti85 then e.name.chars.length else 0).sum
      = (es.map (entryLength8x content.model)).sum
        + (es.map fun e => if content.model = .ti85 then
            (varnameToFile conv content.modelDst e).length else 0).sum
    ∧ byteSum entries.flatten
        + (es.map fun e => if isTi8586 content.model then e.name.chars.length else 0).sum
        + (es.map fun e => if content.model = .ti85 then
            255 * ((4 + e.name.chars.length) / 256) else 0).sum
      ≡ (es.map fun e => entrySum8x content.model (varnameToFile conv content.modelDst e) e).sum
        + (es.map fun e => if isTi8586 content.model then
            (varnameToFile conv content.modelDst e).length else 0).sum [MOD 2 ^ 16] := by
  induction es generalizing entries with
  | nil =>
      cases h
      exact ⟨rfl, rfl⟩
  | cons e es ih =>
      obtain ⟨bytes, rest, he, hrest, rfl⟩ := mapM_cons_eq_ok_iff.mp h
      obtain ⟨hlen, hsum⟩ := writeEntry8x_counted h8x (hsized e List.mem_cons_self) he
      obtain ⟨hlens, hsums⟩ := ih (fun e' he' => hsized e' (List.mem_cons_of_mem e he')) hrest
      simp only [List.flatten_cons, List.length_append, byteSum_append, List.map_cons,
        List.sum_cons]
      constructor
      · omega
      · unfold Nat.ModEq at *
        omega

/-! ## the file -/

/-- The parts of a file that was written. -/
theorem exists_of_ti8xFileWriteRegular {conv : Converters} {content written : FileContent}
    {es : List VarEntry} {bytes : List UInt8} (hes : content.entryList = some es)
    (h : ti8xFileWriteRegular conv content = .ok (some (bytes, written))) :
    ∃ header entries, header.length = 53
      ∧ es.mapM (writeEntry8x conv content) = .ok entries
      ∧ dataLength8x content < 2 ^ 16
      ∧ bytes = header ++ (fwriteWord (dataLength8x content) ++ (entries.flatten
        ++ fwriteWord (sum8x conv content es))) := by
  unfold ti8xFileWriteRegular at h
  rw [hes] at h
  split at h
  · cases h
  · rw [check_eq_ok_iff, map_eq_ok_iff] at h
    obtain ⟨hshort, bytes', hbytes, h⟩ := h
    cases h
    unfold writeEntries8x at hbytes
    split at hbytes
    · cases hbytes
    · rename_i sig hsig
      simp only [bind_eq_ok_iff] at hbytes
      obtain ⟨signature, hsignature, entries, hentries, hbytes⟩ := hbytes
      cases hbytes
      have hlen : signature.length = 8 := by
        unfold fwriteNChars at hsignature
        rw [check_eq_ok_iff] at hsignature
        obtain ⟨hle, hpad⟩ := hsignature
        cases hpad
        exact length_padRight (Nat.not_lt.mp hle)
      have hheader := length_header8x hlen content.model content.comment (dataLength8x content)
      refine ⟨signature ++ fsignature content.model ++ content.comment.val.take 42, entries, ?_,
        hentries, by omega, ?_⟩
      · simp only [List.length_append, length_fwriteWord] at hheader ⊢
        omega
      · simp only [List.append_assoc]

theorem parts_of_file {header data bytes : List UInt8} {n sum : Nat}
    (hheader : header.length = 53) (hn : n < 2 ^ 16) (hsum : sum < 2 ^ 16)
    (hbytes : bytes = header ++ (fwriteWord n ++ (data ++ fwriteWord sum))) :
    headerLength bytes = n ∧ dataSection bytes = data ∧ trailingChecksum bytes = sum := by
  have hword : ∀ k, (fwriteWord k).length = 2 := length_fwriteWord
  have hlen : bytes.length = 53 + (2 + (data.length + 2)) := by
    rw [hbytes]
    simp only [List.length_append, hheader, hword]
  have hafter : bytes.drop 55 = data ++ fwriteWord sum := by
    rw [hbytes, ← List.append_assoc]
    exact List.drop_left' (by rw [List.length_append, hheader, hword])
  refine ⟨?_, ?_, ?_⟩
  · unfold headerLength
    rw [hbytes, List.drop_left' hheader, List.take_left' (hword n)]
    exact getLE_putLE hn
  · unfold dataSection
    rw [hafter, List.take_left' (by omega)]
  · unfold trailingChecksum
    rw [show bytes.length - 2 = 55 + data.length by omega, ← List.drop_drop, hafter,
      List.drop_left' rfl]
    exact getLE_putLE hsum

/-- The file says the length and the sum of its data section when the names add up, and only
then. -/
theorem ti8xFileWriteRegular_section_iff (conv : Converters) {content written : FileContent}
    {es : List VarEntry} {bytes : List UInt8} (h8x : tifilesCalcIsTi8x content.model = true)
    (hes : content.entryList = some es) (hsized : ∀ e ∈ es, e.Sized)
    (hwrite : ti8xFileWriteRegular conv content = .ok (some (bytes, written))) :
    SectionSummed bytes
      ↔ NamesAddUp content.model (varnameToFile conv content.modelDst) es := by
  obtain ⟨header, entries, hheader, hentries, hfits, hbytes⟩ :=
    exists_of_ti8xFileWriteRegular hes hwrite
  have hsumlt : sum8x conv content es < 2 ^ 16 := Nat.mod_lt _ (by decide)
  obtain ⟨hlength, hdata, hchecksum⟩ := parts_of_file hheader hfits hsumlt hbytes
  obtain ⟨hlen, hsum⟩ := writeEntries_counted h8x hsized hentries
  have htotal := dataLength8x_eq hes
  unfold SectionSummed NamesAddUp
  rw [hlength, hdata, hchecksum]
  unfold sum8x tifilesChecksum
  simp only [sum_map_ite, List.sum_map_mul_left] at hlen hsum
  generalize (es.map fun e => e.name.chars.length).sum = before at *
  generalize (es.map fun e => (varnameToFile conv content.modelDst e).length).sum = after at *
  generalize (es.map fun e => (4 + e.name.chars.length) / 256).sum = large at *
  generalize (es.map fun e =>
    entrySum8x content.model (varnameToFile conv content.modelDst e) e).sum = counted at *
  generalize (es.map (entryLength8x content.model)).sum = predicted at *
  unfold Nat.ModEq at hsum
  by_cases h85 : content.model = .ti85
  · have h8586 : isTi8586 .ti85 = true := rfl
    simp only [h85, h8586, if_true, forall_const] at hlen hsum ⊢
    omega
  · simp only [h85, if_false, false_implies, and_true] at hlen hsum ⊢
    cases h8586 : isTi8586 content.model <;> simp [h8586] at hlen hsum ⊢ <;> omega

theorem ti8xFileWriteRegular_section_sample :
    SectionSummed (written8x "" sampleEntries8x).1
      ↔ NamesAddUp .ti83p (varnameToFile serialConverters .ti83p) sampleEntries8x :=
  @ti8xFileWriteRegular_section_iff serialConverters (sample8x "" sampleEntries8x)
    (written8x "" sampleEntries8x).2 sampleEntries8x (written8x "" sampleEntries8x).1 rfl
    (by decide) (by unfold VarEntry.Sized; decide) (by decide)

/-- A content for the TI-85 with an entry whose name has `n` characters. -/
def longName85 (n : Nat) : FileContent :=
  let name := VarName.ofChars (List.replicate n 0x41)
  { sampleContent "" [{ sampleEntry "" "" 0 0 with name }] with model := .ti85, modelDst := .ti85 }

/-- A name of 252 characters makes the length of the entry's header 256, and the sum counts that
number where the file has the bytes of it. -/
theorem not_sectionSummed_longName :
    ¬∀ (conv : Converters) (content written : FileContent) (es : List VarEntry)
      (bytes : List UInt8), tifilesCalcIsTi8x content.model = true →
      content.entryList = some es → (∀ e ∈ es, e.Sized) →
      ti8xFileWriteRegular conv content = .ok (some (bytes, written)) → SectionSummed bytes := by
  intro hall
  have hwrite : ∃ bytes written, ti8xFileWriteRegular serialConverters (longName85 252)
      = .ok (some (bytes, written))
        ∧ tifilesChecksum (dataSection bytes) ≠ trailingChecksum bytes := by
    have hsome : ((ti8xFileWriteRegular serialConverters (longName85 252)).toOption.join.map
        fun file => decide (tifilesChecksum (dataSection file.1) ≠ trailingChecksum file.1))
        = some true := by
      decide +kernel
    cases hfile : ti8xFileWriteRegular serialConverters (longName85 252) with
    | error err => simp [hfile, Except.toOption] at hsome
    | ok file =>
        cases file with
        | none => simp [hfile, Except.toOption] at hsome
        | some file =>
            refine ⟨file.1, file.2, rfl, ?_⟩
            simpa [hfile, Except.toOption] using hsome
  obtain ⟨bytes, written, hwrite, hne⟩ := hwrite
  have hes : ∃ es, (longName85 252).entryList = some es ∧ ∀ e ∈ es, e.Sized :=
    ⟨_, rfl, by unfold VarEntry.Sized; decide⟩
  obtain ⟨es, hes, hsized⟩ := hes
  exact hne (hall serialConverters (longName85 252) written es bytes rfl hes hsized hwrite).2.symm

end Tilibs.Files
