import Tilibs.Files.Metadata
import Tilibs.Lib.TextLines

/-!
# Tilibs.Tifileutil.MetadataText

The metadata of a file as text, which `gather` prints and `apply` reads (`metadata.cc` of
tifileutil).

Values are printed as they are, between quotes.  A quote in a value does no harm, as the last one
of a line is taken; but a value that ends a line, or that has no room in the buffer for a line,
does not come back.
-/

namespace Tilibs.Tifileutil

open Lib Files Conv

/-! ## gather -/

/-- The end of a line. -/
def lineFeed : UInt8 := 0x0A

/-- A pair as it is printed, without the end of the line. -/
def gatherLine (pair : MetadataPair) : List UInt8 :=
  0x22 :: (pair.1 ++ ([0x22, 0x3A, 0x20, 0x22] ++ (pair.2 ++ [0x22])))

/-- What `tifileutil_metadata_gather` prints. -/
def gatherText (pairs : List MetadataPair) : List UInt8 :=
  joinLines lineFeed (pairs.map gatherLine)

/-! ## apply -/

def skipBlanks (s : List UInt8) : List UInt8 := s.dropWhile fun c => c = 0x20 ∨ c = 0x09

/-- What is behind a character that must be there. -/
def behind (c : UInt8) : List UInt8 → Option (List UInt8)
  | [] => none
  | b :: s => if b = c then some s else none

/-- What is before and behind the first quote, `strchr`. -/
def atFirstQuote (s : List UInt8) : Option (List UInt8 × List UInt8) :=
  if 0x22 ∈ s then some (s.takeWhile (· ≠ 0x22), (s.dropWhile (· ≠ 0x22)).tail) else none

/-- What is before the last quote, `strrchr`. -/
def beforeLastQuote (s : List UInt8) : Option (List UInt8) :=
  (atFirstQuote s.reverse).map fun parts => parts.2.reverse

/-- `tifileutil_metadata_parse_line` -/
def tifileutilMetadataParseLine (line : List UInt8) : Option MetadataPair := do
  let s ← behind 0x22 (skipBlanks line)
  let (key, s) ← atFirstQuote s
  let s ← behind 0x3A (skipBlanks s)
  let s ← behind 0x22 (skipBlanks s)
  let value ← beforeLastQuote s
  return (key, value)

inductive ApplyErr
  | cannotParse (lineno : Nat)
  | missingVersion
  | unsupportedVersion (value : List UInt8)
  | cannotAdd (key : List UInt8)
  deriving DecidableEq

/-- The variables of `tifileutil_metadata_apply`. -/
structure ApplyState where
  pairs : List MetadataPair
  lineno : Nat
  seenVersion : Bool
  deriving DecidableEq

/-- `tifiles_metadata_add_pair`, which refuses a key that is there. -/
def tifilesMetadataAddPair (pairs : List MetadataPair) (pair : MetadataPair) :
    Option (List MetadataPair) :=
  if pair.1 ∈ pairs.map Prod.fst then none else some (pairs ++ [pair])

/-- One line. -/
def applyLine (s : ApplyState) (line : List UInt8) : Except ApplyErr ApplyState :=
  let lineno := s.lineno + 1
  match tifileutilMetadataParseLine (cstr line) with
  | none => .error (.cannotParse lineno)
  | some pair =>
      if s.pairs = [] ∧ s.seenVersion = false then
        if pair.1 ≠ metadataVersion.1 then .error .missingVersion
        else if pair.2 ≠ metadataVersion.2 then .error (.unsupportedVersion pair.2)
        else .ok { s with lineno, seenVersion := true }
      else
        match tifilesMetadataAddPair s.pairs pair with
        | none => .error (.cannotAdd pair.1)
        | some pairs => .ok { s with pairs, lineno }

/-- `sizeof(line)`, without the NUL. -/
def lineCap : Nat := 4095

/-- The lines that `fgets` reads. -/
def applyLines (text : List UInt8) : List (List UInt8) := readLines lineFeed lineCap [] text

/-- The pairs that `tifileutil_metadata_apply` reads from a text. -/
def applyText (text : List UInt8) : Except ApplyErr (List MetadataPair) := do
  let s ← (applyLines text).foldlM applyLine ⟨[], 0, false⟩
  if s.seenVersion then .ok s.pairs else .error .missingVersion

/-- The lines that are printed parse to the pairs, and all but the version are applied. -/
def RoundTrips (pairs : List MetadataPair) : Prop :=
  (applyLines (gatherText pairs)).map (fun line => tifileutilMetadataParseLine (cstr line))
      = pairs.map some
    ∧ applyText (gatherText pairs) = .ok pairs.tail

/-! ## one line -/

/-- A key has no quote, does not end a line, and is short. -/
def isKey (key : List UInt8) : Bool :=
  key.all (fun c => c != 0x22 && c != lineFeed && c != 0) && key.length ≤ 32

/-- A pair whose line is one, and has room. -/
def FitsPair (pair : MetadataPair) : Prop := FitsLine lineFeed lineCap (gatherLine pair)

section Line

variable {key value : List UInt8}

theorem isKey_iff : isKey key = true ↔
    (∀ c ∈ key, c ≠ 0x22 ∧ c ≠ lineFeed ∧ c ≠ 0) ∧ key.length ≤ 32 := by
  simp [isKey, and_assoc]

/-- The characters of a line. -/
theorem mem_gatherLine {c : UInt8} :
    c ∈ gatherLine (key, value) ↔ c ∈ key ∨ c ∈ value ∨ c ∈ [0x22, 0x3A, 0x20] := by
  simp only [gatherLine, List.mem_cons, List.mem_append, List.not_mem_nil, or_false]
  tauto

theorem length_gatherLine : (gatherLine (key, value)).length = key.length + value.length + 6 := by
  simp only [gatherLine, List.length_cons, List.length_append, List.length_nil]
  omega

theorem fitsPair_iff (hkey : isKey key = true) :
    FitsPair (key, value) ↔ lineFeed ∉ value ∧ key.length + value.length + 6 < lineCap := by
  have hfeed : lineFeed ∉ key := fun h => ((isKey_iff.mp hkey).1 _ h).2.1 rfl
  have hmem : lineFeed ∈ gatherLine (key, value) ↔ lineFeed ∈ value := by
    rw [mem_gatherLine, or_iff_right hfeed]
    exact or_iff_left (by decide)
  unfold FitsPair FitsLine
  rw [hmem, length_gatherLine]

/-- Short values only must not end a line. -/
theorem fitsPair_short (hkey : isKey key = true) (hvalue : value.length ≤ 1024) :
    FitsPair (key, value) ↔ lineFeed ∉ value := by
  have hlength := (isKey_iff.mp hkey).2
  rw [fitsPair_iff hkey]
  refine and_iff_left ?_
  unfold lineCap
  omega

theorem atFirstQuote_append (hkey : 0x22 ∉ key) (rest : List UInt8) :
    atFirstQuote (key ++ 0x22 :: rest) = some (key, rest) := by
  have hall : ∀ c ∈ key, (decide (c ≠ 0x22)) = true := by
    intro c hc
    exact decide_eq_true fun h => hkey (h ▸ hc)
  unfold atFirstQuote
  rw [if_pos (List.mem_append_right _ List.mem_cons_self), List.takeWhile_append_of_pos hall,
    List.dropWhile_append_of_pos hall]
  simp

theorem beforeLastQuote_append (value : List UInt8) {rest : List UInt8} (hrest : 0x22 ∉ rest) :
    beforeLastQuote (value ++ 0x22 :: rest) = some value := by
  have hreverse : (value ++ 0x22 :: rest).reverse = rest.reverse ++ 0x22 :: value.reverse := by
    simp
  unfold beforeLastQuote
  rw [hreverse, atFirstQuote_append (mt List.mem_reverse.mp hrest), Option.map_some,
    List.reverse_reverse]

/-- A line parses to the pair it was printed from. -/
theorem parse_gatherLine (hkey : isKey key = true) (hvalue : 0 ∉ value) :
    tifileutilMetadataParseLine (cstr (gatherLine (key, value) ++ [lineFeed]))
      = some (key, value) := by
  have hchars := (isKey_iff.mp hkey).1
  have hquote : 0x22 ∉ key := fun h => (hchars _ h).1 rfl
  have hnul : ∀ c ∈ gatherLine (key, value) ++ [lineFeed], c ≠ 0 := by
    rintro c hc rfl
    rcases List.mem_append.mp hc with hline | hend
    · rcases mem_gatherLine.mp hline with h | h | h
      · exact (hchars _ h).2.2 rfl
      · exact hvalue h
      · exact absurd h (by decide)
    · exact absurd hend (by decide)
  have hcstr : cstr (gatherLine (key, value) ++ [lineFeed])
      = 0x22 :: (key ++ 0x22 :: 0x3A :: 0x20 :: 0x22 :: (value ++ 0x22 :: [lineFeed])) := by
    rw [cstr, List.takeWhile_eq_self_iff.mpr (fun c hc => decide_eq_true (hnul c hc))]
    simp [gatherLine]
  have hfirst := atFirstQuote_append hquote
    (0x3A :: 0x20 :: 0x22 :: (value ++ 0x22 :: [lineFeed]))
  have hlast : beforeLastQuote (value ++ 0x22 :: [lineFeed]) = some value :=
    beforeLastQuote_append value (by decide)
  unfold tifileutilMetadataParseLine
  rw [hcstr]
  show (atFirstQuote (key ++ 0x22 :: 0x3A :: 0x20 :: 0x22 :: (value ++ 0x22 :: [lineFeed]))).bind _
    = _
  rw [hfirst]
  show (beforeLastQuote (value ++ 0x22 :: [lineFeed])).bind _ = _
  rw [hlast]
  rfl

end Line

/-! ## all lines -/

/-- Pairs with keys and texts, which begin with the version and have each key once. -/
structure Printable (pairs : List MetadataPair) : Prop where
  keys : ∀ pair ∈ pairs, isKey pair.1 = true
  texts : ∀ pair ∈ pairs, 0 ∉ pair.2
  version : ∃ rest, pairs = metadataVersion :: rest
  distinct : (pairs.map Prod.fst).Nodup

/-- The line of a new pair behind the first line. -/
theorem applyLine_new {s : ApplyState} {pair : MetadataPair} (hseen : s.seenVersion = true)
    (hkey : isKey pair.1 = true) (htext : 0 ∉ pair.2) (hnew : pair.1 ∉ s.pairs.map Prod.fst) :
    applyLine s (gatherLine pair ++ [lineFeed])
      = .ok { s with pairs := s.pairs ++ [pair], lineno := s.lineno + 1 } := by
  have hparse := parse_gatherLine hkey htext
  unfold applyLine tifilesMetadataAddPair
  rw [hparse]
  dsimp only
  rw [if_neg (fun h => by rw [hseen] at h; cases h.2), if_neg hnew]

theorem foldlM_applyLine {rest : List MetadataPair} {s : ApplyState}
    (hseen : s.seenVersion = true) (hkeys : ∀ pair ∈ rest, isKey pair.1 = true)
    (htexts : ∀ pair ∈ rest, 0 ∉ pair.2) (hdistinct : ((s.pairs ++ rest).map Prod.fst).Nodup) :
    ∃ t, (rest.map fun pair => gatherLine pair ++ [lineFeed]).foldlM applyLine s = .ok t
      ∧ t.pairs = s.pairs ++ rest ∧ t.seenVersion = true := by
  induction rest generalizing s with
  | nil => exact ⟨s, rfl, (List.append_nil _).symm, hseen⟩
  | cons pair rest ih =>
      obtain ⟨hkey, hkeys⟩ := List.forall_mem_cons.mp hkeys
      obtain ⟨htext, htexts⟩ := List.forall_mem_cons.mp htexts
      have hnew : pair.1 ∉ s.pairs.map Prod.fst := by
        intro hold
        rw [List.map_append, List.map_cons] at hdistinct
        exact (List.nodup_append.mp hdistinct).2.2 _ hold _ List.mem_cons_self rfl
      rw [List.append_cons] at hdistinct
      obtain ⟨t, hrun, hpairs, hseen'⟩ := ih (s := { s with
        pairs := s.pairs ++ [pair], lineno := s.lineno + 1 }) hseen hkeys htexts hdistinct
      refine ⟨t, ?_, ?_, hseen'⟩
      · rw [List.map_cons, List.foldlM_cons, applyLine_new hseen hkey htext hnew]
        exact hrun
      · rw [hpairs, List.append_assoc, List.singleton_append]

/-- Printable pairs come back exactly when every line is one and has room. -/
theorem roundTrips_iff {pairs : List MetadataPair} (h : Printable pairs) :
    RoundTrips pairs ↔ ∀ pair ∈ pairs, FitsPair pair := by
  have hlines : (∀ line ∈ pairs.map gatherLine, FitsLine lineFeed lineCap line)
      ↔ ∀ pair ∈ pairs, FitsPair pair := List.forall_mem_map
  constructor
  · rintro ⟨hparse, -⟩
    have hlength := congrArg List.length hparse
    rw [List.length_map, List.length_map, ← List.length_map gatherLine] at hlength
    exact hlines.mp ((length_readLines_eq_iff (by decide) _).mp hlength)
  · intro hfits
    have hread : applyLines (gatherText pairs)
        = pairs.map fun pair => gatherLine pair ++ [lineFeed] := by
      unfold applyLines gatherText
      rw [readLines_of_forall_fits (hlines.mpr hfits), List.map_map]
      rfl
    refine ⟨?_, ?_⟩
    · rw [hread, List.map_map]
      exact List.map_congr_left fun pair hpair =>
        parse_gatherLine (h.keys pair hpair) (h.texts pair hpair)
    · obtain ⟨rest, rfl⟩ := h.version
      have hversion : applyLine ⟨[], 0, false⟩ (gatherLine metadataVersion ++ [lineFeed])
          = .ok ⟨[], 1, true⟩ := by decide
      have hdistinct := h.distinct
      rw [List.map_cons] at hdistinct
      obtain ⟨t, hrun, hpairs, hseen⟩ := foldlM_applyLine (s := ⟨[], 1, true⟩) rfl
        (fun pair hpair => h.keys pair (List.mem_cons_of_mem _ hpair))
        (fun pair hpair => h.texts pair (List.mem_cons_of_mem _ hpair))
        (List.nodup_cons.mp hdistinct).2
      unfold applyText
      rw [hread, List.map_cons, List.foldlM_cons, hversion]
      show (List.foldlM applyLine ⟨[], 1, true⟩ _).bind _ = _
      rw [hrun]
      show (if t.seenVersion then Except.ok t.pairs else .error ApplyErr.missingVersion) = _
      rw [if_pos hseen, hpairs]
      rfl

end Tilibs.Tifileutil
