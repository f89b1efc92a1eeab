import Mathlib
import Tilibs.Conv.Varname
import Tilibs.Files.Tigroup

/-!
# Tilibs.Conv.Filename

Names of files made of names of variables (`filename.cc`).

Where the locale is not UTF-8, `ticonv_utf16_to_gfe` writes the Greek letters out.  Where it is,
the letters stay in the file name, and `ticonv_gfe_to_zfe` writes them out for the names in an
archive, from their bytes.  Its table has the second bytes of letters whose first byte is `0xCE`
only, so that the letters from pi on keep their bytes (`sameZipName_iff`).
-/

namespace Tilibs.Conv

open Lib Files

/-! ## GLib -/

def isSurrogate (u : Nat) : Bool := 0xD800 ≤ u && u ≤ 0xDFFF

/-- The UTF-8 of a unit that is a character. -/
def utf8Unit (u : Nat) : List UInt8 :=
  if u < 0x80 then [UInt8.ofNat u]
  else if u < 0x800 then [UInt8.ofNat (0xC0 + u / 0x40), UInt8.ofNat (0x80 + u % 0x40)]
  else [UInt8.ofNat (0xE0 + u / 0x1000), UInt8.ofNat (0x80 + u / 0x40 % 0x40),
    UInt8.ofNat (0x80 + u % 0x40)]

/-- The UTF-8 of a pair of surrogates. -/
def utf8Pair (high low : Nat) : List UInt8 :=
  let c := 0x10000 + (high - 0xD800) * 0x400 + (low - 0xDC00)
  [UInt8.ofNat (0xF0 + c / 0x40000), UInt8.ofNat (0x80 + c / 0x1000 % 0x40),
    UInt8.ofNat (0x80 + c / 0x40 % 0x40), UInt8.ofNat (0x80 + c % 0x40)]

/-- `g_utf16_to_utf8`: surrogates that are no pair are an error. -/
def gUtf16ToUtf8 : List Nat → Option (List UInt8)
  | [] => some []
  | [u] => if isSurrogate u then none else some (utf8Unit u)
  | u :: v :: rest =>
      if isSurrogate u then
        if u < 0xDC00 ∧ 0xDC00 ≤ v ∧ isSurrogate v then
          (gUtf16ToUtf8 rest).map (utf8Pair u v ++ ·)
        else none
      else (gUtf16ToUtf8 (v :: rest)).map (utf8Unit u ++ ·)

/-- The locale: whether it is UTF-8, whether file names are, and `g_filename_from_utf8`, which
keeps UTF-8 where file names are UTF-8 and keeps ASCII anywhere. -/
structure Environment where
  isUtf8 : Bool
  hasUtf8Filenames : Bool
  filenameFromUtf8 : List UInt8 → Option (List UInt8)
  filenameFromUtf8_utf8 : hasUtf8Filenames = true → ∀ units s, (∀ u ∈ units, u ≠ 0) →
    gUtf16ToUtf8 units = some s → filenameFromUtf8 s = some s
  filenameFromUtf8_ascii : ∀ s, (∀ b ∈ s, b ≠ 0 ∧ b < 0x80) → filenameFromUtf8 s = some s

/-! ## names of files -/

/-- How the Greek letters are written out. -/
def gfeNames : List (Nat × List UInt8) :=
  [(0x03bc, ascii "_mu_"), (0x03b1, ascii "_alpha_"), (0x03b2, ascii "_beta_"),
    (0x0393, ascii "_GAMMA_"), (0x03b3, ascii "_gamma_"), (0x0394, ascii "_DELTA_"),
    (0x03b4, ascii "_delta_"), (0x03b5, ascii "_epsilon_"), (0x03b6, ascii "_zeta_"),
    (0x03b8, ascii "_theta_"), (0x03bb, ascii "_lambda_"), (0x03be, ascii "_ksi_"),
    (0x03a0, ascii "_PI_"), (0x03c0, ascii "_pi_"), (0x03c1, ascii "_rho_"),
    (0x03a3, ascii "_SIGMA_"), (0x03c3, ascii "_sigma_"), (0x03c4, ascii "_tau_"),
    (0x03d5, ascii "_PHI_"), (0x03a8, ascii "_PSI_"), (0x03a9, ascii "_OMEGA_"),
    (0x03c9, ascii "_omega_")]

/-- The name of a letter, in units; nothing for a character without one. -/
def gfeName (u : Nat) : List Nat := ((gfeNames.lookup u).getD []).map UInt8.toNat

/-- A character of a TI-68k name. -/
def gfe68k (u : Nat) : List Nat := if u &&& 0xFF00 = 0 then [u &&& 0xFF] else gfeName u

/-- A character of a name of the other models, where subscripts become digits. -/
def gfeZ80 (u : Nat) : List Nat :=
  if u &&& 0xFF00 = 0 then [u &&& 0xFF]
  else if 0x2080 ≤ u ∧ u ≤ 0x2089 then [u - 0x2080 + 0x30]
  else gfeName u

/-- The units of a name, the Greek letters written out where the locale has none. -/
def gfeUnits (env : Environment) (model : CalcModel) (src : List Nat) : List Nat :=
  if ticonvModelIsTi68k model && !env.isUtf8 then src.flatMap gfe68k
  else if (ticonvModelIsTiz80 model || ticonvModelIsTiez80 model || ticonvModelIsTievo model)
      && !env.isUtf8 then src.flatMap gfeZ80
  else src

/-- '/' is not allowed in filenames. -/
def withoutSlash (u : Nat) : Nat := if u = 0x2F then 0x5F else u

/-- `ticonv_utf16_to_gfe` -/
def ticonvUtf16ToGfe (env : Environment) (model : CalcModel) (src : List Nat) :
    Option (List UInt8) :=
  (gUtf16ToUtf8 ((gfeUnits env model src).map withoutSlash)).bind env.filenameFromUtf8

/-! ## names in archives -/

/-- The loop of `ticonv_gfe_to_zfe` over a string in memory; it has no result when it reads
behind the string. -/
def zfeLoop : List UInt8 → Option (List UInt8)
  | [] => none
  | [b] => if b = 0 then some [] else none
  | b :: c :: rest =>
      if b = 0 then some []
      else if b = 0xCE then (zfeLoop rest).map ((zfeLetters.lookup c).getD [] ++ ·)
      else (zfeLoop (c :: rest)).map (b :: ·)

/-- `ticonv_gfe_to_zfe`, of a string in memory; a copy where file names are not UTF-8. -/
def ticonvGfeToZfe (env : Environment) (src : List UInt8) : Option (List UInt8) :=
  if env.hasUtf8Filenames then zfeLoop src
  else if 0 ∈ src then some (src.takeWhile (· ≠ 0)) else none

/-- Where the loop stays in memory it makes the names of members. -/
theorem zfeLoop_eq_some {src zfe : List UInt8} (hsrc : ∀ b ∈ src, b ≠ 0)
    (h : zfeLoop (src ++ [0]) = some zfe) : zfe = Files.ticonvGfeToZfe src := by
  induction src using List.twoStepInduction generalizing zfe with
  | nil =>
      cases h
      rfl
  | singleton b =>
      have hb : b ≠ 0 := hsrc b List.mem_cons_self
      rw [List.singleton_append, zfeLoop, if_neg hb] at h
      split at h
      · cases h
      · rename_i hlead
        cases h
        simp [Files.ticonvGfeToZfe, hlead]
  | cons_cons b c rest ihrest ihc =>
      have hb : b ≠ 0 := hsrc b List.mem_cons_self
      have hc : ∀ d ∈ c :: rest, d ≠ 0 := fun d hd => hsrc d (List.mem_cons_of_mem b hd)
      rw [List.cons_append, List.cons_append, zfeLoop, if_neg hb] at h
      split at h
      · rename_i hlead
        subst hlead
        obtain ⟨tail, htail, rfl⟩ := Option.map_eq_some_iff.mp h
        rw [ihrest (fun d hd => hc d (List.mem_cons_of_mem c hd)) htail, Files.ticonvGfeToZfe]
      · rename_i hlead
        obtain ⟨tail, htail, rfl⟩ := Option.map_eq_some_iff.mp h
        have hstep : Files.ticonvGfeToZfe (b :: (c :: rest))
            = (if b = 0xCE then [] else [b]) ++ Files.ticonvGfeToZfe (c :: rest) :=
          Files.ticonvGfeToZfe.eq_2 b (c :: rest) fun d r hcons => absurd hcons hlead
        rw [hstep, if_neg hlead, ihc c hc htail]
        rfl

/-! ## the names in question -/

/-- The Greek letters of the TI-68k characters. -/
def greekLetters : List Nat := (ti9xCharset.drop 0x80).take 21

/-- An ASCII character or a Greek letter of the calculator. -/
def PlainUnit (u : Nat) : Prop := (0 < u ∧ u < 0x80) ∨ u ∈ greekLetters

instance : DecidablePred PlainUnit := fun _ => inferInstanceAs (Decidable (_ ∨ _))

/-- The file name in one locale gives the name in an archive that the file has in the other. -/
def SameZipName (utf8Env env : Environment) (model : CalcModel) (name : List Nat) : Prop :=
  ∃ file zfe, ticonvUtf16ToGfe utf8Env model name = some file
    ∧ ticonvGfeToZfe utf8Env (file ++ [0]) = some zfe
    ∧ ticonvUtf16ToGfe env model name = some zfe

/-- The bytes of a character, its slash replaced. -/
def nameBytes (u : Nat) : List UInt8 := utf8Unit (withoutSlash u)

/-- A character of a name where the locale is not UTF-8. -/
def writtenOut (u : Nat) : List UInt8 :=
  if u < 0x80 then nameBytes u else (gfeNames.lookup u).getD []

/-- A character of a name in an archive. -/
def zfeUnit (u : Nat) : List UInt8 :=
  if u < 0x80 then nameBytes u
  else if u / 0x40 = 0x0E then (zfeLetters.lookup (UInt8.ofNat (0x80 + u % 0x40))).getD []
  else nameBytes u

theorem greekLetters_eq :
    greekLetters = [0x3B1, 0x3B2, 0x393, 0x3B3, 0x394, 0x3B4, 0x3B5, 0x3B6, 0x3B8, 0x3BB, 0x3BE,
      0x3A0, 0x3C0, 0x3C1, 0x3A3, 0x3C3, 0x3C4, 0x3C6, 0x3C8, 0x3A9, 0x3C9] := by
  rfl

theorem greek_table : ∀ u ∈ greekLetters,
    (0x80 ≤ u ∧ u < 0x800 ∧ u &&& 0xFF00 ≠ 0)
      ∧ (∀ b ∈ (gfeNames.lookup u).getD [], b ≠ 0 ∧ b < 0x80 ∧ b ≠ 0x2F)
      ∧ (if u < 0x3C0 then u / 0x40 = 0x0E ∧ zfeUnit u = (gfeNames.lookup u).getD []
        else u / 0x40 = 0x0F) := by
  rw [greekLetters_eq]
  decide

theorem greek_ge {u : Nat} (h : u ∈ greekLetters) : 0x80 ≤ u := (greek_table u h).1.1

theorem PlainUnit.ne_zero {u : Nat} (h : PlainUnit u) : u ≠ 0 := by
  rcases h with h | h
  · exact Nat.pos_iff_ne_zero.mp h.1
  · have := greek_ge h
    omega

theorem PlainUnit.lt {u : Nat} (h : PlainUnit u) : u < 0x800 := by
  rcases h with h | h
  · omega
  · exact (greek_table u h).1.2.1

theorem PlainUnit.ge_of_not_ascii {u : Nat} (h : PlainUnit u) (hu : ¬ u < 0x80) :
    u ∈ greekLetters := h.resolve_left fun hascii => hu hascii.2

/-! ## the name in the UTF-8 locale -/

theorem gUtf16ToUtf8_of_chars {units : List Nat} (h : ∀ u ∈ units, isSurrogate u = false) :
    gUtf16ToUtf8 units = some (units.flatMap utf8Unit) := by
  induction units with
  | nil => rfl
  | cons u units ih =>
      have hu : isSurrogate u = false := h u List.mem_cons_self
      have hunits := ih fun v hv => h v (List.mem_cons_of_mem u hv)
      cases units with
      | nil => simp [gUtf16ToUtf8, hu]
      | cons v rest =>
          rw [gUtf16ToUtf8, hu, if_neg (by decide), hunits]
          rfl

theorem isSurrogate_of_lt {u : Nat} (h : u < 0x800) : isSurrogate u = false := by
  simp only [isSurrogate, Bool.and_eq_false_iff, decide_eq_false_iff_not]
  omega

theorem withoutSlash_lt {u n : Nat} (hn : 0x5F < n) (h : u < n) : withoutSlash u < n := by
  unfold withoutSlash
  split <;> omega

theorem withoutSlash_ne_zero {u : Nat} (h : u ≠ 0) : withoutSlash u ≠ 0 := by
  unfold withoutSlash
  split <;> omega

section Names

variable {env utf8Env : Environment} {model : CalcModel} {name : List Nat}

theorem ticonvUtf16ToGfe_utf8 (hlocale : utf8Env.isUtf8 = true)
    (hfiles : utf8Env.hasUtf8Filenames = true) (hname : ∀ u ∈ name, PlainUnit u) :
    ticonvUtf16ToGfe utf8Env model name = some (name.flatMap nameBytes) := by
  have hunits : gfeUnits utf8Env model name = name := by simp [gfeUnits, hlocale]
  have hchars : ∀ u ∈ name.map withoutSlash, isSurrogate u = false := by
    intro u hu
    obtain ⟨v, hv, rfl⟩ := List.mem_map.mp hu
    exact isSurrogate_of_lt (withoutSlash_lt (by decide) (hname v hv).lt)
  have hnonzero : ∀ u ∈ name.map withoutSlash, u ≠ 0 := by
    intro u hu
    obtain ⟨v, hv, rfl⟩ := List.mem_map.mp hu
    exact withoutSlash_ne_zero (hname v hv).ne_zero
  have hutf8 := gUtf16ToUtf8_of_chars hchars
  unfold ticonvUtf16ToGfe
  rw [hunits, hutf8, Option.bind_some,
    utf8Env.filenameFromUtf8_utf8 hfiles _ _ hnonzero hutf8, List.flatMap_map]
  rfl

/-! ## the name in an archive -/

theorem nameBytes_ascii {u : Nat} (hpos : u ≠ 0) (h : u < 0x80) :
    ∃ b, nameBytes u = [b] ∧ b ≠ 0 ∧ b < 0x80 := by
  have hall : ∀ n < 0x80, n ≠ 0 → UInt8.ofNat n ≠ 0 ∧ UInt8.ofNat n < 0x80 := by decide
  have hlt : withoutSlash u < 0x80 := withoutSlash_lt (by decide) h
  exact ⟨UInt8.ofNat (withoutSlash u), if_pos hlt, hall _ hlt (withoutSlash_ne_zero hpos)⟩

theorem nameBytes_greek {u : Nat} (h : u ∈ greekLetters) :
    nameBytes u = [UInt8.ofNat (0xC0 + u / 0x40), UInt8.ofNat (0x80 + u % 0x40)] := by
  obtain ⟨hlow, hhigh, -⟩ := (greek_table u h).1
  have hslash : withoutSlash u = u := if_neg (by omega)
  rw [nameBytes, hslash, utf8Unit, if_neg (by omega), if_pos hhigh]

theorem zfeLoop_cons {b : UInt8} (hpos : b ≠ 0) (hlead : b ≠ 0xCE) (rest : List UInt8) :
    zfeLoop (b :: (rest ++ [0])) = (zfeLoop (rest ++ [0])).map (b :: ·) := by
  cases rest with
  | nil =>
      show zfeLoop [b, 0] = _
      rw [zfeLoop, if_neg hpos, if_neg hlead]
      rfl
  | cons c rest =>
      show zfeLoop (b :: c :: (rest ++ [0])) = _
      rw [zfeLoop, if_neg hpos, if_neg hlead]
      rfl

/-- The second byte of a letter. -/
theorem second_ne (u : Nat) : UInt8.ofNat (0x80 + u % 0x40) ≠ 0
    ∧ UInt8.ofNat (0x80 + u % 0x40) ≠ 0xCE := by
  have hall : ∀ n < 0x40, UInt8.ofNat (0x80 + n) ≠ 0 ∧ UInt8.ofNat (0x80 + n) ≠ 0xCE := by decide
  exact hall (u % 0x40) (Nat.mod_lt u (by decide))

/-- The archive's name, character by character. -/
theorem zfeLoop_nameBytes (hname : ∀ u ∈ name, PlainUnit u) :
    zfeLoop (name.flatMap nameBytes ++ [0]) = some (name.flatMap zfeUnit) := by
  induction name with
  | nil => rfl
  | cons u name ih =>
      have hu : PlainUnit u := hname u List.mem_cons_self
      have hrest := ih fun v hv => hname v (List.mem_cons_of_mem u hv)
      rw [List.flatMap_cons, List.flatMap_cons, List.append_assoc]
      by_cases hascii : u < 0x80
      · obtain ⟨b, hb, hpos, hlt⟩ := nameBytes_ascii hu.ne_zero hascii
        have hlead : b ≠ 0xCE := by
          rintro rfl
          exact absurd hlt (by decide)
        rw [zfeUnit, if_pos hascii, hb, List.singleton_append, zfeLoop_cons hpos hlead, hrest]
        rfl
      · have hgreek := hu.ge_of_not_ascii hascii
        have htable := (greek_table u hgreek).2.2
        obtain ⟨hpos, hlead⟩ := second_ne u
        rw [nameBytes_greek hgreek, List.cons_append, List.singleton_append, zfeUnit,
          if_neg hascii]
        by_cases hfirst : u / 0x40 = 0x0E
        · have hce : UInt8.ofNat (0xC0 + u / 0x40) = 0xCE := by rw [hfirst]; rfl
          rw [if_pos hfirst, hce, zfeLoop, if_neg (by decide), if_pos rfl, hrest]
          rfl
        · have hcf : u / 0x40 = 0x0F := by
            split at htable
            · exact absurd htable.1 hfirst
            · exact htable
          have hce : UInt8.ofNat (0xC0 + u / 0x40) ≠ 0xCE := by rw [hcf]; decide
          have hzero : UInt8.ofNat (0xC0 + u / 0x40) ≠ 0 := by rw [hcf]; decide
          rw [if_neg hfirst, nameBytes_greek hgreek, zfeLoop, if_neg hzero, if_neg hce,
            zfeLoop_cons hpos hlead, hrest]
          rfl

/-! ## the name in the other locale -/

theorem gfe68k_ascii {u : Nat} (h : u < 0x80) : gfe68k u = [u] := by
  have hall : ∀ n < 0x80, n &&& 0xFF00 = 0 ∧ n &&& 0xFF = n := by decide
  rw [gfe68k, if_pos (hall u h).1, (hall u h).2]

theorem gfe68k_greek {u : Nat} (h : u ∈ greekLetters) : gfe68k u = gfeName u :=
  if_neg (greek_table u h).1.2.2

/-- What becomes of a character: units of ASCII. -/
theorem gfe68k_plain {u : Nat} (h : PlainUnit u) :
    ∀ v ∈ (gfe68k u).map withoutSlash, v ≠ 0 ∧ v < 0x80 := by
  by_cases hascii : u < 0x80
  · rw [gfe68k_ascii hascii]
    simp only [List.map_cons, List.map_nil, List.mem_singleton, forall_eq]
    exact ⟨withoutSlash_ne_zero h.ne_zero, withoutSlash_lt (by decide) hascii⟩
  · have hgreek := h.ge_of_not_ascii hascii
    have hbytes := (greek_table u hgreek).2.1
    rw [gfe68k_greek hgreek, gfeName, List.map_map]
    intro v hv
    obtain ⟨b, hb, rfl⟩ := List.mem_map.mp hv
    obtain ⟨hpos, hlt, hslash⟩ := hbytes b hb
    have hne : b.toNat ≠ 0 := fun hzero => hpos (UInt8.toNat_inj.mp hzero)
    have hlt' : b.toNat < 0x80 := UInt8.lt_iff_toNat_lt.mp hlt
    exact ⟨withoutSlash_ne_zero hne, withoutSlash_lt (by decide) hlt'⟩

theorem gfe68k_writtenOut {u : Nat} (h : PlainUnit u) :
    ((gfe68k u).map withoutSlash).flatMap utf8Unit = writtenOut u := by
  by_cases hascii : u < 0x80
  · rw [gfe68k_ascii hascii, writtenOut, if_pos hascii]
    simp [nameBytes]
  · have hgreek := h.ge_of_not_ascii hascii
    have hbytes := (greek_table u hgreek).2.1
    rw [gfe68k_greek hgreek, writtenOut, if_neg hascii, gfeName, List.map_map, List.flatMap_map]
    generalize (gfeNames.lookup u).getD [] = bytes at hbytes ⊢
    induction bytes with
    | nil => rfl
    | cons b bs ih =>
        obtain ⟨hpos, hlt, hslash⟩ := hbytes b List.mem_cons_self
        have hkept : withoutSlash b.toNat = b.toNat :=
          if_neg fun heq => hslash (UInt8.toNat_inj.mp heq)
        have hlow : b.toNat < 0x80 := UInt8.lt_iff_toNat_lt.mp hlt
        have hbyte : utf8Unit b.toNat = [b] := by
          rw [utf8Unit, if_pos hlow, UInt8.ofNat_toNat]
        rw [List.flatMap_cons, ih fun c hc => hbytes c (List.mem_cons_of_mem b hc)]
        show utf8Unit (withoutSlash b.toNat) ++ bs = _
        rw [hkept, hbyte]
        rfl

theorem writtenOut_ascii {u : Nat} (h : PlainUnit u) :
    ∀ b ∈ writtenOut u, b ≠ 0 ∧ b < 0x80 := by
  unfold writtenOut
  split
  · rename_i hascii
    obtain ⟨b, hb, hbyte⟩ := nameBytes_ascii h.ne_zero hascii
    rw [hb]
    simpa using hbyte
  · rename_i hascii
    intro b hb
    obtain ⟨hpos, hlt, -⟩ := (greek_table u (h.ge_of_not_ascii hascii)).2.1 b hb
    exact ⟨hpos, hlt⟩

theorem ticonvUtf16ToGfe_writtenOut (hlocale : env.isUtf8 = false)
    (hmodel : ticonvModelIsTi68k model = true) (hname : ∀ u ∈ name, PlainUnit u) :
    ticonvUtf16ToGfe env model name = some (name.flatMap writtenOut) := by
  have hunits : gfeUnits env model name = name.flatMap gfe68k := by
    simp [gfeUnits, hlocale, hmodel]
  have hchars : ∀ u ∈ (name.flatMap gfe68k).map withoutSlash, isSurrogate u = false := by
    intro u hu
    rw [List.map_flatMap] at hu
    obtain ⟨v, hv, hmem⟩ := List.mem_flatMap.mp hu
    have hlt := (gfe68k_plain (hname v hv) u hmem).2
    exact isSurrogate_of_lt (by omega)
  have hbytes : ((name.flatMap gfe68k).map withoutSlash).flatMap utf8Unit
      = name.flatMap writtenOut := by
    rw [List.map_flatMap, List.flatMap_assoc]
    exact List.flatMap_congr fun u hu => gfe68k_writtenOut (hname u hu)
  have hascii : ∀ b ∈ name.flatMap writtenOut, b ≠ 0 ∧ b < 0x80 := by
    intro b hb
    obtain ⟨u, hu, hmem⟩ := List.mem_flatMap.mp hb
    exact writtenOut_ascii (hname u hu) b hmem
  unfold ticonvUtf16ToGfe
  rw [hunits, gUtf16ToUtf8_of_chars hchars, Option.bind_some, hbytes]
  exact env.filenameFromUtf8_ascii _ hascii

/-! ## comparison -/

theorem zfeUnit_of_lt {u : Nat} (h : PlainUnit u) (hlt : u < 0x3C0) : zfeUnit u = writtenOut u := by
  unfold writtenOut
  split
  · rename_i hascii
    rw [zfeUnit, if_pos hascii]
  · rename_i hascii
    have htable := (greek_table u (h.ge_of_not_ascii hascii)).2.2
    rw [if_pos hlt] at htable
    exact htable.2

/-- A letter from pi on keeps its bytes. -/
theorem mem_zfeUnit_of_ge {u : Nat} (h : PlainUnit u) (hge : ¬ u < 0x3C0) : 0xCF ∈ zfeUnit u := by
  have hascii : ¬ u < 0x80 := by omega
  have hgreek := h.ge_of_not_ascii hascii
  have htable := (greek_table u hgreek).2.2
  rw [if_neg hge] at htable
  rw [zfeUnit, if_neg hascii, if_neg (by omega), nameBytes_greek hgreek, htable]
  exact List.mem_cons_self

/-- The two names agree when every Greek letter comes before pi. -/
theorem sameZipName_iff (hlocale : utf8Env.isUtf8 = true)
    (hfiles : utf8Env.hasUtf8Filenames = true) (hother : env.isUtf8 = false)
    (hmodel : ticonvModelIsTi68k model = true) (hname : ∀ u ∈ name, PlainUnit u) :
    SameZipName utf8Env env model name ↔ ∀ u ∈ name, u < 0x3C0 := by
  have hfile : ticonvUtf16ToGfe utf8Env model name = some (name.flatMap nameBytes) :=
    ticonvUtf16ToGfe_utf8 hlocale hfiles hname
  have hgfe := ticonvUtf16ToGfe_writtenOut hother hmodel hname
  have hzfe : ticonvGfeToZfe utf8Env (name.flatMap nameBytes ++ [0])
      = some (name.flatMap zfeUnit) := by
    rw [ticonvGfeToZfe, if_pos hfiles]
    exact zfeLoop_nameBytes hname
  constructor
  · rintro ⟨file, zfe, h1, h2, h3⟩ u hu
    obtain rfl : name.flatMap nameBytes = file := Option.some.inj (hfile.symm.trans h1)
    have hsame : name.flatMap zfeUnit = name.flatMap writtenOut := by
      rw [hzfe] at h2
      rw [hgfe] at h3
      exact Option.some.inj (h2.trans h3.symm)
    by_contra hge
    have hmem : (0xCF : UInt8) ∈ name.flatMap writtenOut := by
      rw [← hsame]
      exact List.mem_flatMap.mpr ⟨u, hu, mem_zfeUnit_of_ge (hname u hu) hge⟩
    obtain ⟨v, hv, hbyte⟩ := List.mem_flatMap.mp hmem
    exact absurd (writtenOut_ascii (hname v hv) 0xCF hbyte).2 (by decide)
  · intro h
    have hsame : name.flatMap zfeUnit = name.flatMap writtenOut :=
      List.flatMap_congr fun u hu => zfeUnit_of_lt (hname u hu) (h u hu)
    exact ⟨_, _, hfile, hzfe, by rw [hgfe, hsame]⟩

end Names

/-- A locale of UTF-8. -/
def utf8Locale : Environment where
  isUtf8 := true
  hasUtf8Filenames := true
  filenameFromUtf8 := some
  filenameFromUtf8_utf8 _ _ _ _ _ := rfl
  filenameFromUtf8_ascii _ _ := rfl

/-- The locale of ASCII, where no other character has a file name. -/
def asciiLocale : Environment where
  isUtf8 := false
  hasUtf8Filenames := false
  filenameFromUtf8 s := if ∀ b ∈ s, b < 0x80 then some s else none
  filenameFromUtf8_utf8 h := absurd h (by decide)
  filenameFromUtf8_ascii _ h := if_pos fun b hb => (h b hb).2

/-- The angle theta, and a slash. -/
theorem sameZipName_iff_theta :
    SameZipName utf8Locale asciiLocale .ti89 [0x61, 0x2F, 0x3B8]
      ↔ ∀ u ∈ [0x61, 0x2F, 0x3B8], u < 0x3C0 :=
  sameZipName_iff rfl rfl rfl rfl (by decide)

/-- The letter pi keeps its bytes in the archive. -/
theorem not_sameZipName_pi :
    ¬ ∀ (utf8Env env : Environment) (model : CalcModel) (name : List Nat),
      utf8Env.isUtf8 = true → utf8Env.hasUtf8Filenames = true → env.isUtf8 = false →
      ticonvModelIsTi68k model = true → (∀ u ∈ name, PlainUnit u) →
      SameZipName utf8Env env model name := by
  intro h
  obtain ⟨file, zfe, hfile, hzfe, hgfe⟩ :=
    h utf8Locale asciiLocale .ti89 [0x3C0] rfl rfl rfl rfl (by decide)
  have hpi : ticonvUtf16ToGfe utf8Locale .ti89 [0x3C0] = some [0xCF, 0x80] := by decide
  have hwritten : ticonvUtf16ToGfe asciiLocale .ti89 [0x3C0] = some (ascii "_pi_") :=
    ticonvUtf16ToGfe_writtenOut rfl rfl (by decide)
  have hkept : ticonvGfeToZfe utf8Locale [0xCF, 0x80, 0] = some [0xCF, 0x80] := by decide
  obtain rfl : [0xCF, 0x80] = file := Option.some.inj (hpi.symm.trans hfile)
  obtain rfl : [0xCF, 0x80] = zfe := Option.some.inj (hkept.symm.trans hzfe)
  exact absurd (hwritten.symm.trans hgfe) (by decide)

end Tilibs.Conv
