import Mathlib
import Tilibs.Conv.Tokens

/-!
# Tilibs.Conv.TokensRoundTrip

Which names of the TI-84+ family come back from the calculator.  The two tables of characters
are inverse on most characters, and the tokenizer finds the numbered names of lists, pictures,
databases, strings and equations; it does not find those of matrices, sequences, statistics
and windows, and it takes every real list for one with a name.
-/

namespace Tilibs.Conv

open Lib Files

/-! ## characters that come back -/

/-- What a character becomes on the way through UTF-16. -/
def recodeChar (b : UInt8) : List UInt8 :=
  ticonvUtf16ToTi83p (utf16Units (ti83pCharset.getD b.toNat 0))

/-- A string on the way through UTF-16. -/
def recode (s : List UInt8) : List UInt8 :=
  ticonvUtf16ToTi83p (ticonvNonusbToUtf16 ti83pCharset s)

/-- The characters that come back. -/
def keptChar (b : UInt8) : Bool :=
  b = 1 || (32 ≤ b && b ≤ 126) || (128 ≤ b && b ≤ 181) || (187 ≤ b && b ≤ 202)

/-- Units that do not take what follows them. -/
def Closed : List Nat → Prop
  | [u] => ¬(0xD800 ≤ u ∧ u ≤ 0xDBFF)
  | [u, v] => (0xD800 ≤ u ∧ u ≤ 0xDBFF) ∨ ¬(0xD800 ≤ v ∧ v ≤ 0xDBFF)
  | _ => False

instance (units : List Nat) : Decidable (Closed units) := by
  unfold Closed
  split <;> infer_instance

theorem ticonvUtf16ToTi83p_cons {u : Nat} (h : ¬(0xD800 ≤ u ∧ u ≤ 0xDBFF)) (units : List Nat) :
    ticonvUtf16ToTi83p (u :: units) = ti83pChar u :: ticonvUtf16ToTi83p units := by
  cases units with
  | nil => rfl
  | cons v rest => rw [ticonvUtf16ToTi83p, if_neg h]

theorem ticonvUtf16ToTi83p_append {units : List Nat} (h : Closed units) (rest : List Nat) :
    ticonvUtf16ToTi83p (units ++ rest) = ticonvUtf16ToTi83p units ++ ticonvUtf16ToTi83p rest := by
  rcases units with _ | ⟨u, _ | ⟨v, _ | ⟨w, units⟩⟩⟩
  · exact h.elim
  · exact ticonvUtf16ToTi83p_cons h rest
  · by_cases hu : 0xD800 ≤ u ∧ u ≤ 0xDBFF
    · show ticonvUtf16ToTi83p (u :: v :: rest) = ticonvUtf16ToTi83p [u, v] ++ _
      rw [ticonvUtf16ToTi83p, if_pos hu, ticonvUtf16ToTi83p, if_pos hu]
      rfl
    · have hv : ¬(0xD800 ≤ v ∧ v ≤ 0xDBFF) := h.resolve_left hu
      show ticonvUtf16ToTi83p (u :: v :: rest) = ticonvUtf16ToTi83p [u, v] ++ _
      rw [ticonvUtf16ToTi83p_cons hu, ticonvUtf16ToTi83p_cons hv, ticonvUtf16ToTi83p_cons hu]
      rfl
  · exact h.elim

/-- The table, character by character: what does not come back becomes something else, that
is no `]`. -/
theorem recodeChar_table : ∀ n < 256,
    Closed (utf16Units (ti83pCharset.getD (UInt8.ofNat n).toNat 0))
      ∧ (if keptChar (UInt8.ofNat n) then recodeChar (UInt8.ofNat n) = [UInt8.ofNat n]
        else (recodeChar (UInt8.ofNat n)).getD 0 0 ∉ [0, UInt8.ofNat n, 0x5D]) := by
  decide +kernel

theorem recodeChar_facts (b : UInt8) :
    Closed (utf16Units (ti83pCharset.getD b.toNat 0))
      ∧ (if keptChar b then recodeChar b = [b] else (recodeChar b).getD 0 0 ∉ [0, b, 0x5D]) := by
  simpa only [UInt8.ofNat_toNat] using recodeChar_table b.toNat b.toNat_lt

theorem recodeChar_of_kept {b : UInt8} (h : keptChar b = true) : recodeChar b = [b] := by
  have hfacts := (recodeChar_facts b).2
  rwa [if_pos h] at hfacts

/-- Another character becomes something else, that does not begin with `]` either. -/
theorem recodeChar_of_not_kept {b : UInt8} (h : keptChar b = false) :
    ∃ c cs, recodeChar b = c :: cs ∧ c ≠ b ∧ c ≠ 0x5D := by
  obtain ⟨-, hfacts⟩ := recodeChar_facts b
  rw [if_neg (by rw [h]; decide)] at hfacts
  cases hchar : recodeChar b with
  | nil =>
      rw [hchar] at hfacts
      simp at hfacts
  | cons c cs =>
      rw [hchar] at hfacts
      grind

theorem recode_cons (b : UInt8) (s : List UInt8) : recode (b :: s) = recodeChar b ++ recode s := by
  unfold recode recodeChar
  rw [ticonvNonusbToUtf16_cons, ticonvUtf16ToTi83p_append (recodeChar_facts b).1]

theorem recode_cons_of_kept {b : UInt8} (h : keptChar b = true) (s : List UInt8) :
    recode (b :: s) = b :: recode s := by
  rw [recode_cons, recodeChar_of_kept h]
  rfl

/-- A string of characters that come back comes back. -/
theorem recode_of_kept {s : List UInt8} (h : ∀ b ∈ s, keptChar b = true) : recode s = s := by
  induction s with
  | nil => rfl
  | cons b s ih =>
      rw [recode_cons_of_kept (h b List.mem_cons_self),
        ih fun c hc => h c (List.mem_cons_of_mem b hc)]

/-- No other string has itself at the beginning of what it becomes. -/
theorem kept_of_prefix {s : List UInt8} (h : s <+: recode s) : ∀ b ∈ s, keptChar b = true := by
  induction s with
  | nil => nofun
  | cons b s ih =>
      have hb : keptChar b = true := by
        by_contra hb
        obtain ⟨c, cs, hchar, hne, -⟩ := recodeChar_of_not_kept (Bool.eq_false_of_not_eq_true hb)
        rw [recode_cons, hchar, List.cons_append] at h
        exact hne (List.cons_prefix_cons.mp h).1.symm
      rw [recode_cons_of_kept hb] at h
      intro c hc
      rcases List.mem_cons.mp hc with rfl | hc
      · exact hb
      · exact ih (List.cons_prefix_cons.mp h).2 c hc

theorem recode_eq_self_iff {s : List UInt8} : recode s = s ↔ ∀ b ∈ s, keptChar b = true := by
  constructor
  · intro h
    exact kept_of_prefix (by rw [h])
  · exact recode_of_kept

/-- No string becomes itself behind a `]`. -/
theorem recode_ne_cons (s : List UInt8) : recode s ≠ 0x5D :: s := by
  induction s with
  | nil => exact nofun
  | cons b s ih =>
      intro h
      cases hb : keptChar b with
      | false =>
          obtain ⟨c, cs, hchar, -, hc⟩ := recodeChar_of_not_kept hb
          rw [recode_cons, hchar, List.cons_append] at h
          exact hc (List.cons.inj h).1
      | true =>
          rw [recode_cons_of_kept hb] at h
          obtain ⟨hhead, hrest⟩ := List.cons.inj h
          rw [hhead] at hrest
          exact ih hrest

/-! ## names that are kept -/

/-- The names of the variables that there is only one of. -/
def uniqueNames : List (List UInt8) := (vartypes .ti84p).map Prod.snd

/-- The first bytes that the detokenizer takes for those of tokens. -/
def takenForToken (type b : UInt8) : Bool :=
  b ∈ [0x5C, 0x5D, 0x5E, 0x60, 0x61, 0x62, 0x63, 0xAA] || (b = 0x3C && type = 0x1A)

/-- The tokens that are found again: lists, pictures, databases and strings by number,
equations but for the sixth pair of parametric and the sixth polar ones, and images. -/
def keptToken (type t1 t2 : UInt8) : Bool :=
  (t1 ∈ [0x5D, 0x60, 0x61, 0xAA] && t2 ≤ 9)
    || (t1 = 0x5E && ((0x10 ≤ t2 && t2 ≤ 0x19) || (0x20 ≤ t2 && t2 ≤ 0x29)
      || (0x40 ≤ t2 && t2 ≤ 0x44)))
    || (t1 = 0x3C && type = 0x1A && t2 ≤ 9)

/-- The texts that the tokenizer takes for those of tokens. -/
def TextOfToken (type : UInt8) (s : List UInt8) : Prop :=
  (∃ c, s = [0x5B, c, 0x5D])
    ∨ (∃ d, (s = [0x4C, d] ∨ s = [0x59, d]) ∧ 0x80 ≤ d ∧ d ≤ 0x89)
    ∨ (∃ d e, (s = [0x58, d, e] ∨ s = [0x59, d, e]) ∧ 0x80 ≤ d ∧ d ≤ 0x85)
    ∨ (∃ d, s = [0x72, d] ∧ 0x80 ≤ d ∧ d ≤ 0x85)
    ∨ (s = [0x02] ∨ s = [0x03] ∨ s = [0x04])
    ∨ (∃ d, (s = ascii "Pic" ++ [d] ∨ s = ascii "GDB" ++ [d] ∨ s = ascii "Str" ++ [d])
        ∧ 0x30 ≤ d ∧ d ≤ 0x39)
    ∨ (type = 0x1A ∧ ∃ d rest, s = ascii "Image" ++ d :: rest ∧ 0x30 ≤ d ∧ d ≤ 0x39)

/-- The names of real lists that are kept: named ones, behind their token byte. -/
def KeptList (raw : List UInt8) : Prop :=
  ∃ name, raw = 0x5D :: name ∧ name ≠ [] ∧ (∀ b ∈ name, keptChar b = true)
    ∧ name.getD 0 0 ≠ 0x01 ∧ name.getD 0 0 ≠ 0x40 ∧ name ∉ uniqueNames

/-- The names that are kept. -/
def KeptName (type : UInt8) (raw : List UInt8) : Prop :=
  if type = 0x0F ∨ type = 0x10 ∨ type = 0x11 then raw = []
  else if type = 0x01 then KeptList raw
  else if takenForToken type (raw.getD 0 0) then
    ∃ t1 t2, raw = cstr [t1, t2] ∧ keptToken type t1 t2 = true
  else (∀ b ∈ raw, keptChar b = true) ∧ raw ∉ uniqueNames ∧ ¬TextOfToken type raw

/-! ## the way there and back -/

/-- Both models of files have the same names. -/
theorem ticonvVarnameDetokenize_ti84pc (src : List UInt8) (type : UInt8) :
    ticonvVarnameDetokenize .ti84pc src type = ticonvVarnameDetokenize .ti84p src type := by
  simp [ticonvVarnameDetokenize, detokenizeVartype, vartypes, detokenizeVarname, listName,
    sequenceName, numberedName]

theorem ticonvVarnameTokenize_ti84pc (src : List UInt8) (type : UInt8) :
    ticonvVarnameTokenize .ti84pc src type = ticonvVarnameTokenize .ti84p src type := by
  simp [ticonvVarnameTokenize, isVartype, isUsb84, vartypes, tokenOfText]

/-- A name on the way to the calculator and back. -/
def thereAndBack (type : UInt8) (raw : List UInt8) : List UInt8 :=
  ticonvVarnameTokenize .ti84p (recode (ticonvVarnameDetokenize .ti84p raw type)) type

/-- The types of variables that there is only one of. -/
def UniqueType (type : UInt8) : Prop := type = 0x0F ∨ type = 0x10 ∨ type = 0x11

theorem detokenize_of_not_unique {type : UInt8} (h : ¬UniqueType type) (raw : List UInt8) :
    ticonvVarnameDetokenize .ti84p raw type = detokenizeVarname .ti84p raw type := by
  have hlookup : (vartypes .ti84p).lookup type = none := by
    unfold UniqueType at h
    rw [List.lookup_eq_none_iff]
    simpa [vartypes] using h
  show (detokenizeVartype .ti84p type).getD _ = _
  rw [detokenizeVartype, hlookup]
  rfl

theorem isVartype_of_not_unique {type : UInt8} (h : ¬UniqueType type) (s : List UInt8) :
    isVartype .ti84p s type = decide (s ∈ uniqueNames) := by
  unfold UniqueType at h
  obtain ⟨h1, h2, h3⟩ : type ≠ 0x0F ∧ type ≠ 0x10 ∧ type ≠ 0x11 := by grind
  simp [isVartype, isUsb84, uniqueNames, vartypes, h1, h2, h3]

theorem tokenize_of_unique {type : UInt8} (h : UniqueType type) (s : List UInt8) :
    ticonvVarnameTokenize .ti84p s type = [] := by
  have hvartype : isVartype .ti84p s type = true := by
    rcases h with rfl | rfl | rfl <;> simp [isVartype, isUsb84, vartypes]
  unfold ticonvVarnameTokenize
  rw [if_neg (by decide), if_pos hvartype]

theorem tokenize_of_mem {type : UInt8} (h : ¬UniqueType type) {s : List UInt8}
    (hs : s ∈ uniqueNames) : ticonvVarnameTokenize .ti84p s type = [] := by
  unfold ticonvVarnameTokenize
  rw [if_neg (by decide), isVartype_of_not_unique h, if_pos (by simpa using hs)]

theorem tokenize_list {s : List UInt8} (hs : s ∉ uniqueNames) :
    ticonvVarnameTokenize .ti84p s 0x01 = 0x5D :: s.take 7 := by
  unfold ticonvVarnameTokenize
  rw [if_neg (by decide), isVartype_of_not_unique (by simp [UniqueType]),
    if_neg (by simpa using hs), if_pos (by decide)]

theorem tokenize_text {type : UInt8} (h : ¬UniqueType type) (hlist : type ≠ 0x01) {s : List UInt8}
    (hs : s ∉ uniqueNames) : ticonvVarnameTokenize .ti84p s type =
      ((tokenOfText .ti84p s type).map tokenString).getD s := by
  unfold ticonvVarnameTokenize
  rw [if_neg (by decide), isVartype_of_not_unique h, if_neg (by simpa using hs),
    if_neg (fun hand => hlist hand.1)]

/-! ## texts and tokens -/

theorem none_of_ite {α : Type} {c : Prop} [Decidable c] {x : α} {rest : Option α} :
    (if c then some x else rest) = none ↔ ¬c ∧ rest = none := by
  split <;> simp [*]

theorem singleton_iff {s : List UInt8} {a : UInt8} :
    s.getD 0 0 = a ∧ s.length = 1 ↔ s = [a] := by
  rcases s with _ | ⟨x, _ | ⟨y, s⟩⟩ <;> simp

theorem pair_iff {s : List UInt8} {a : UInt8} {P : UInt8 → Prop} :
    s.getD 0 0 = a ∧ P (s.getD 1 0) ∧ s.length = 2 ↔ ∃ d, s = [a, d] ∧ P d := by
  rcases s with _ | ⟨x, _ | ⟨y, _ | ⟨z, s⟩⟩⟩ <;> simp

theorem triple_iff {s : List UInt8} {a : UInt8} {P : UInt8 → Prop} :
    s.getD 0 0 = a ∧ P (s.getD 1 0) ∧ s.length = 3 ↔ ∃ d e, s = [a, d, e] ∧ P d := by
  rcases s with _ | ⟨x, _ | ⟨y, _ | ⟨z, _ | ⟨w, s⟩⟩⟩⟩ <;> simp

theorem matrix_iff {s : List UInt8} {a b : UInt8} :
    s.getD 0 0 = a ∧ s.getD 2 0 = b ∧ s.length = 3 ↔ ∃ c, s = [a, c, b] := by
  rcases s with _ | ⟨x, _ | ⟨y, _ | ⟨z, _ | ⟨w, s⟩⟩⟩⟩ <;> simp

theorem stem_iff {s stem : List UInt8} {P : UInt8 → Prop} (hstem : stem.length = 3) :
    s.take 3 = stem ∧ P (s.getD 3 0) ∧ s.length = 4 ↔ ∃ d, s = stem ++ [d] ∧ P d := by
  constructor
  · rintro ⟨rfl, hP, hlen⟩
    refine ⟨s.getD 3 0, ?_, hP⟩
    rcases s with _ | ⟨x, _ | ⟨y, _ | ⟨z, _ | ⟨w, s⟩⟩⟩⟩ <;> simp_all
  · rintro ⟨d, rfl, hP⟩
    rcases stem with _ | ⟨x, _ | ⟨y, _ | ⟨z, s⟩⟩⟩ <;> simp_all

theorem image_iff {s stem : List UInt8} {P : UInt8 → Prop} (hstem : stem.length = 5) (h0 : ¬P 0) :
    s.take 5 = stem ∧ P (s.getD 5 0) ↔ ∃ d rest, s = stem ++ d :: rest ∧ P d := by
  constructor
  · rintro ⟨rfl, hP⟩
    cases hrest : s.drop 5 with
    | nil =>
        rw [List.getD_eq_default _ _ (List.drop_eq_nil_iff.mp hrest)] at hP
        exact absurd hP h0
    | cons d rest =>
        have hs : s = s.take 5 ++ d :: rest := by rw [← hrest, List.take_append_drop]
        have hd : s.getD 5 0 = d := by simpa using congrArg (·.getD 0 0) hrest
        exact ⟨d, rest, hs, hd ▸ hP⟩
  · rintro ⟨d, rest, rfl, hP⟩
    rw [← hstem, List.take_left, List.getD_append_right _ _ _ _ (Nat.le_refl _), Nat.sub_self]
    exact ⟨rfl, hP⟩

/-- Where the tokenizer finds no token. -/
theorem tokenOfText_eq_none_iff {s : List UInt8} {type : UInt8} :
    tokenOfText .ti84p s type = none ↔ ¬TextOfToken type s := by
  unfold tokenOfText
  simp only [reduceCtorEq, if_false, false_and, none_of_ite]
  rw [matrix_iff, pair_iff (P := fun d => 0x80 ≤ d ∧ d ≤ 0x89),
    pair_iff (P := fun d => 0x80 ≤ d ∧ d ≤ 0x89), triple_iff (P := fun d => 0x80 ≤ d ∧ d ≤ 0x85),
    triple_iff (P := fun d => 0x80 ≤ d ∧ d ≤ 0x85), pair_iff (P := fun d => 0x80 ≤ d ∧ d ≤ 0x85),
    singleton_iff, singleton_iff, singleton_iff, stem_iff (P := fun d => 0x30 ≤ d ∧ d ≤ 0x39) rfl,
    stem_iff (P := fun d => 0x30 ≤ d ∧ d ≤ 0x39) rfl,
    stem_iff (P := fun d => 0x30 ≤ d ∧ d ≤ 0x39) rfl,
    image_iff (P := fun d => 0x30 ≤ d ∧ d ≤ 0x39) rfl (by decide)]
  unfold TextOfToken
  grind

theorem takenForToken_iff {type b : UInt8} : takenForToken type b = true ↔
    b = 0x5C ∨ b = 0x5D ∨ b = 0x5E ∨ b = 0x60 ∨ b = 0x61 ∨ b = 0x62 ∨ b = 0x63 ∨ b = 0xAA
      ∨ b = 0x3C ∧ type = 0x1A := by
  simp [takenForToken, or_assoc]

theorem forall_of_ite {α : Type} {c : Prop} [Decidable c] {x : α} {rest : Option α} {P : α → Prop}
    (hx : c → P x) (hrest : ∀ t, rest = some t → P t) :
    ∀ t, (if c then some x else rest) = some t → P t := by
  intro t h
  split at h
  · cases h
    exact hx ‹c›
  · exact hrest t h

/-- The second bytes that the rules for equations can give. -/
def equationRange (t2 : UInt8) : Bool :=
  (0x10 ≤ t2 && t2 ≤ 0x19) || (0x1E ≤ t2 && t2 ≤ 0x29) || (0x3F ≤ t2 && t2 ≤ 0x44)
    || (0x80 ≤ t2 && t2 ≤ 0x82)

/-- What the rules make of ten characters in a row. -/
theorem shift_table : ∀ n < 10,
    shift (UInt8.ofNat n) ≤ 9 ∧ equationRange (0x10 + shift (UInt8.ofNat n)) = true := by
  decide

/-- What the rules make of the subscripts of parametric and polar equations. -/
theorem equationRange_table : ∀ n < 6,
    equationRange (0x20 + 2 * (UInt8.ofNat n - 1)) = true
      ∧ equationRange (0x20 + 2 * (UInt8.ofNat n - 1) + 1) = true
      ∧ equationRange (0x40 + (UInt8.ofNat n - 1)) = true := by
  decide

theorem toNat_sub_lt {b c : UInt8} {n : Nat} (hle : b ≤ c) (hlt : c.toNat < b.toNat + n) :
    (c - b).toNat < n := by
  have hnat := UInt8.le_iff_toNat_le.mp hle
  rw [UInt8.toNat_sub_of_le _ _ hle]
  omega

theorem shift_row {b c : UInt8} (hle : b ≤ c) (hlt : c.toNat < b.toNat + 10) :
    shift (c - b) ≤ 9 ∧ equationRange (0x10 + shift (c - b)) = true := by
  have htable := shift_table (c - b).toNat (toNat_sub_lt hle hlt)
  rwa [UInt8.ofNat_toNat] at htable

theorem shift_digit {c : UInt8} (h : 0x30 ≤ c ∧ c ≤ 0x39) : shift (c - 0x30) ≤ 9 :=
  (shift_row h.1 (Nat.lt_succ_of_le (UInt8.le_iff_toNat_le.mp h.2))).1

theorem shift_subscript {c : UInt8} (h : 0x80 ≤ c ∧ c ≤ 0x89) :
    shift (c - 0x80) ≤ 9 ∧ equationRange (0x10 + shift (c - 0x80)) = true :=
  shift_row h.1 (Nat.lt_succ_of_le (UInt8.le_iff_toNat_le.mp h.2))

theorem equationRange_subscript {c : UInt8} (h : 0x80 ≤ c ∧ c ≤ 0x85) :
    equationRange (0x20 + 2 * (c - 0x81)) = true
      ∧ equationRange (0x20 + 2 * (c - 0x81) + 1) = true
      ∧ equationRange (0x40 + (c - 0x81)) = true := by
  have hone : c - 0x81 = c - 0x80 - 1 := by grind
  have htable := equationRange_table (c - 0x80).toNat
    (toNat_sub_lt h.1 (Nat.lt_succ_of_le (UInt8.le_iff_toNat_le.mp h.2)))
  rwa [UInt8.ofNat_toNat, ← hone] at htable

/-- What a token that is found for a text can be. -/
def Found (s : List UInt8) (type : UInt8) (token : UInt8 × UInt8) : Prop :=
  (token.1 = 0x5C ∧ s.getD 0 0 = 0x5B)
    ∨ (token.1 = 0x5D ∧ token.2 ≤ 9 ∧ s.length = 2 ∧ s.getD 0 0 = 0x4C)
    ∨ (token.1 = 0x5E ∧ equationRange token.2 = true)
    ∨ ((token.1 = 0x60 ∨ token.1 = 0x61 ∨ token.1 = 0xAA) ∧ token.2 ≤ 9)
    ∨ (token.1 = 0x3C ∧ type = 0x1A ∧ token.2 ≤ 9)

theorem tokenOfText_found {s : List UInt8} {type : UInt8} :
    ∀ token, tokenOfText .ti84p s type = some token → Found s type token := by
  unfold tokenOfText Found
  simp only [reduceCtorEq, if_false]
  repeat' apply forall_of_ite
  all_goals intro hc
  · exact Or.inl ⟨rfl, hc.1⟩
  · exact Or.inr (Or.inl ⟨rfl, (shift_subscript hc.2.1).1, hc.2.2, hc.1⟩)
  · exact Or.inr (Or.inr (Or.inl ⟨rfl, (shift_subscript hc.2.1).2⟩))
  · exact Or.inr (Or.inr (Or.inl ⟨rfl, (equationRange_subscript hc.2.1).1⟩))
  · exact Or.inr (Or.inr (Or.inl ⟨rfl, (equationRange_subscript hc.2.1).2.1⟩))
  · exact Or.inr (Or.inr (Or.inl ⟨rfl, (equationRange_subscript hc.2.1).2.2⟩))
  · exact absurd hc.1 id
  · exact Or.inr (Or.inr (Or.inl ⟨rfl, by decide⟩))
  · exact Or.inr (Or.inr (Or.inl ⟨rfl, by decide⟩))
  · exact Or.inr (Or.inr (Or.inl ⟨rfl, by decide⟩))
  · exact Or.inr (Or.inr (Or.inr (Or.inl ⟨Or.inl rfl, shift_digit hc.2.1⟩)))
  · exact Or.inr (Or.inr (Or.inr (Or.inl ⟨Or.inr (Or.inl rfl), shift_digit hc.2.1⟩)))
  · exact Or.inr (Or.inr (Or.inr (Or.inl ⟨Or.inr (Or.inr rfl), shift_digit hc.2.1⟩)))
  · exact Or.inr (Or.inr (Or.inr (Or.inr ⟨rfl, hc.1, shift_digit hc.2.2⟩)))
  · nofun

/-- Every token found is one that the detokenizer knows by its first byte. -/
theorem takenForToken_of_found {s : List UInt8} {type : UInt8} {token : UInt8 × UInt8}
    (h : Found s type token) : takenForToken type token.1 = true ∧ token.1 ≠ 0 := by
  unfold Found at h
  rw [takenForToken_iff]
  grind

/-- Only the text of an image depends on the type. -/
theorem tokenOfText_of_not_image {s : List UInt8} (h : s.take 5 ≠ ascii "Image") (type : UInt8) :
    tokenOfText .ti84p s type = tokenOfText .ti84p s 0 := by
  unfold tokenOfText
  simp only [h, false_and, and_false]

/-- The text of a token. -/
def tokenText (type t1 t2 : UInt8) : List UInt8 := recode (detokenizeVarname .ti84p [t1, t2] type)

/-- The tokens that are kept, and the equations that are not. -/
theorem tokenText_table :
    (∀ t1 ∈ [0x5D, 0x60, 0x61, 0xAA, 0x5E], ∀ n < 256, keptToken 0 t1 (UInt8.ofNat n) = true →
      tokenText 0 t1 (UInt8.ofNat n) ∉ uniqueNames
        ∧ (tokenText 0 t1 (UInt8.ofNat n)).take 5 ≠ ascii "Image"
        ∧ tokenOfText .ti84p (tokenText 0 t1 (UInt8.ofNat n)) 0 = some (t1, UInt8.ofNat n))
      ∧ ∀ n < 256, equationRange (UInt8.ofNat n) = true →
        keptToken 0 0x5E (UInt8.ofNat n) = false →
        (tokenText 0 0x5E (UInt8.ofNat n)).take 5 ≠ ascii "Image"
          ∧ tokenOfText .ti84p (tokenText 0 0x5E (UInt8.ofNat n)) 0
            ≠ some (0x5E, UInt8.ofNat n) := by
  constructor <;> decide +kernel

theorem tokenText_image_table : ∀ n < 10,
    tokenText 0x1A 0x3C (UInt8.ofNat n) ∉ uniqueNames
      ∧ tokenOfText .ti84p (tokenText 0x1A 0x3C (UInt8.ofNat n)) 0x1A
          = some (0x3C, UInt8.ofNat n) := by
  decide

/-- A string that does not begin with the two bytes of a token. -/
def Apart (s : List UInt8) (t1 t2 : UInt8) : Prop := ¬(s.getD 0 0 = t1 ∧ s.getD 1 0 = t2)

instance (s : List UInt8) (t1 t2 : UInt8) : Decidable (Apart s t1 t2) :=
  inferInstanceAs (Decidable (¬_))

theorem apart_lookup {table : List (UInt8 × List UInt8)} {t1 t2 : UInt8} {other : List UInt8}
    (h : ∀ v ∈ table, Apart (recode v.2) t1 v.1) (hother : Apart (recode other) t1 t2) :
    Apart (recode ((table.lookup t2).getD other)) t1 t2 := by
  cases hlookup : table.lookup t2 with
  | none => exact hother
  | some name =>
      obtain ⟨front, rest, rfl, -⟩ := List.lookup_eq_some_iff.mp hlookup
      exact h (t2, name) (by simp)

theorem apart_cons {b t1 : UInt8} (hb : keptChar b = true) (hne : b ≠ t1) (s : List UInt8)
    (t2 : UInt8) : Apart (recode (b :: s)) t1 t2 := by
  rw [recode_cons_of_kept hb]
  exact fun hand => hne hand.1

theorem apart_numbered {b t1 : UInt8} (hb : keptChar b = true) (hne : b ≠ t1) (s : List UInt8)
    (t2 : UInt8) : Apart (recode (numberedName .ti84p (b :: s) t2)) t1 t2 := by
  unfold numberedName
  rw [if_neg (by decide)]
  split <;> exact apart_cons hb hne _ _

/-- No text of a token begins with the bytes of the token. -/
theorem tokenText_apart {type t1 : UInt8} (t2 : UInt8) (h : takenForToken type t1 = true)
    (hlist : t1 = 0x5D → t2 ≤ 9) : Apart (tokenText type t1 t2) t1 t2 := by
  rcases takenForToken_iff.mp h with rfl | rfl | rfl | rfl | rfl | rfl | rfl | rfl | ⟨rfl, rfl⟩
  · exact apart_cons (by decide) (by decide) _ _
  · have hle : t2 ≤ 9 := hlist rfl
    show Apart (recode (listName .ti84p [0x5D, t2])) 0x5D t2
    unfold listName
    rw [if_neg (by decide)]
    split_ifs with h8 h9
    · exact apart_cons (by decide) (by decide) _ _
    · exact apart_cons (by decide) (by decide) _ _
    · exact apart_cons (by decide) (by decide) _ _
    · simp only [List.getD_cons_succ, List.getD_cons_zero] at h8 h9
      grind
  · refine apart_lookup (by decide) ?_
    unfold sequenceName
    simp only [reduceCtorEq, if_false, and_false]
    split_ifs <;> exact apart_cons (by decide) (by decide) _ _
  · exact apart_numbered (by decide) (by decide) _ _
  · exact apart_numbered (by decide) (by decide) _ _
  · exact apart_lookup (by decide) (apart_cons (by decide) (by decide) _ _)
  · exact apart_lookup (by decide) (apart_cons (by decide) (by decide) _ _)
  · exact apart_numbered (by decide) (by decide) _ _
  · show Apart (recode (if t2 ≠ 0x09 then ascii "Image" ++ decimal (t2.toNat + 1) else
      ascii "Image0")) 0x3C t2
    split_ifs <;> exact apart_cons (by decide) (by decide) _ _

/-! ## what is found -/

/-- No token of an equation is found for its text but those that are kept. -/
theorem equationRange_kept {type t2 : UInt8} (h : equationRange t2 = true)
    (htext : tokenOfText .ti84p (tokenText type 0x5E t2) type = some (0x5E, t2)) :
    keptToken type 0x5E t2 = true := by
  by_contra hkept
  have hnone := tokenText_table.2 t2.toNat t2.toNat_lt
  rw [UInt8.ofNat_toNat] at hnone
  have hkept0 : keptToken 0 0x5E t2 = false := by
    rw [keptToken] at hkept ⊢
    simpa using hkept
  obtain ⟨himage, hne⟩ := hnone h hkept0
  rw [show tokenText type 0x5E t2 = tokenText 0 0x5E t2 from rfl, tokenOfText_of_not_image himage]
    at htext
  exact hne htext

/-- A token that is found for its own text is one that is kept. -/
theorem keptToken_of_found {type t1 t2 : UInt8}
    (htext : tokenOfText .ti84p (tokenText type t1 t2) type = some (t1, t2)) :
    keptToken type t1 t2 = true := by
  rcases tokenOfText_found _ htext with ⟨h1, hhead⟩ | ⟨h1, h2, -⟩ | ⟨h1, h2⟩ | ⟨h1, h2⟩
    | ⟨h1, htype, h2⟩
  · subst h1
    have hmatrix : tokenText type 0x5C t2 = 0xC1 :: recode [if t2 ≤ 0x09 then t2 + 0x41 else 0x3F,
        0x5D] := recode_cons_of_kept (by decide) _
    rw [hmatrix] at hhead
    exact absurd hhead (show (0xC1 : UInt8) ≠ 0x5B by decide)
  · subst h1
    simpa [keptToken] using h2
  · subst h1
    exact equationRange_kept h2 htext
  · rcases h1 with h1 | h1 | h1 <;>
    · subst h1
      simpa [keptToken] using h2
  · subst h1 htype
    simpa [keptToken] using h2

/-- The token of a text is found again when it is one that is kept. -/
theorem tokenOfText_tokenText {type t1 t2 : UInt8} (h : keptToken type t1 t2 = true) :
    tokenText type t1 t2 ∉ uniqueNames
      ∧ tokenOfText .ti84p (tokenText type t1 t2) type = some (t1, t2) := by
  by_cases himage : t1 = 0x3C
  · subst himage
    have hand : type = 0x1A ∧ t2 ≤ 9 := by simpa [keptToken] using h
    obtain ⟨rfl, hle⟩ := hand
    have htable := tokenText_image_table t2.toNat (by
      have := UInt8.le_iff_toNat_le.mp hle
      exact Nat.lt_succ_of_le this)
    rwa [UInt8.ofNat_toNat] at htable
  · have hmem : t1 ∈ [0x5D, 0x60, 0x61, 0xAA, 0x5E] ∧ keptToken 0 t1 t2 = true := by
      simp [keptToken, himage] at h ⊢
      grind
    have htable := tokenText_table.1 t1 hmem.1 t2.toNat t2.toNat_lt
    rw [UInt8.ofNat_toNat] at htable
    obtain ⟨hunique, hnot, hsome⟩ := htable hmem.2
    have htext : tokenText type t1 t2 = tokenText 0 t1 t2 := by
      simp [tokenText, detokenizeVarname, himage]
    rw [htext]
    refine ⟨hunique, ?_⟩
    rw [tokenOfText_of_not_image hnot, hsome]

/-- Only the bytes of a token count for its text. -/
theorem detokenize_token {type t1 : UInt8} {raw : List UInt8} (ht1 : raw.getD 0 0 = t1)
    (h : takenForToken type t1 = true) (hlist : t1 = 0x5D → raw.getD 1 0 ≤ 9) :
    detokenizeVarname .ti84p raw type = detokenizeVarname .ti84p [t1, raw.getD 1 0] type := by
  have hname : t1 = 0x5D → listName .ti84p raw = listName .ti84p [t1, raw.getD 1 0] := by
    intro ht
    have hle := hlist ht
    unfold listName
    simp only [reduceCtorEq, if_false, List.getD_cons_zero, List.getD_cons_succ]
    split_ifs <;> first | rfl | grind
  unfold detokenizeVarname
  rw [ht1]
  rcases takenForToken_iff.mp h with rfl | rfl | rfl | rfl | rfl | rfl | rfl | rfl | ⟨rfl, rfl⟩
  case inr.inl => exact hname rfl
  all_goals rfl

theorem cstr_token {t1 : UInt8} (t2 : UInt8) (h1 : t1 ≠ 0) :
    (cstr [t1, t2]).getD 0 0 = t1 ∧ (cstr [t1, t2]).getD 1 0 = t2 := by
  by_cases h2 : t2 = 0 <;> simp [cstr, List.takeWhile, h1, h2]

theorem thereAndBack_token {type : UInt8} (htype : ¬UniqueType type) (hlist : type ≠ 0x01)
    {raw : List UInt8} (h : takenForToken type (raw.getD 0 0) = true)
    (hnum : raw.getD 0 0 = 0x5D → raw.getD 1 0 ≤ 9) :
    thereAndBack type raw = raw ↔
      ∃ t1 t2, raw = cstr [t1, t2] ∧ keptToken type t1 t2 = true := by
  have hback : thereAndBack type raw = ticonvVarnameTokenize .ti84p
      (tokenText type (raw.getD 0 0) (raw.getD 1 0)) type := by
    rw [thereAndBack, detokenize_of_not_unique htype, detokenize_token rfl h hnum]
    rfl
  rw [hback]
  constructor
  · intro heq
    have hne : raw ≠ [] := by
      rintro rfl
      simp [takenForToken] at h
    by_cases hs : tokenText type (raw.getD 0 0) (raw.getD 1 0) ∈ uniqueNames
    · rw [tokenize_of_mem htype hs] at heq
      exact absurd heq.symm hne
    · rw [tokenize_text htype hlist hs] at heq
      cases htoken : tokenOfText .ti84p (tokenText type (raw.getD 0 0) (raw.getD 1 0)) type with
      | none =>
          rw [htoken] at heq
          have htext : tokenText type (raw.getD 0 0) (raw.getD 1 0) = raw := heq
          have hapart := tokenText_apart (raw.getD 1 0) h hnum
          rw [htext] at hapart
          exact absurd ⟨rfl, rfl⟩ hapart
      | some token =>
          rw [htoken] at heq
          have hraw : cstr [token.1, token.2] = raw := heq
          have hfound := tokenOfText_found token htoken
          obtain ⟨h1, h2⟩ := cstr_token token.2 (takenForToken_of_found hfound).2
          rw [hraw] at h1 h2
          rw [h1, h2] at htoken
          exact ⟨token.1, token.2, hraw.symm, keptToken_of_found htoken⟩
  · rintro ⟨t1, t2, hraw, hkept⟩
    have hne : t1 ≠ 0 := by
      rintro rfl
      simp [keptToken] at hkept
    obtain ⟨h1, h2⟩ := cstr_token t2 hne
    rw [← hraw] at h1 h2
    rw [h1, h2]
    obtain ⟨hunique, hsome⟩ := tokenOfText_tokenText hkept
    rw [tokenize_text htype hlist hunique, hsome, hraw]
    rfl

/-- Behind the token of a list, what is no number is a name. -/
theorem detokenize_list {type : UInt8} {name : List UInt8} (hlen : name.length ≤ 7)
    (hnum : ¬name.getD 0 0 ≤ 9) : detokenizeVarname .ti84p (0x5D :: name) type =
      if name.getD 0 0 = 0x40 then ascii "IDList" else name := by
  show listName .ti84p (0x5D :: name) = _
  unfold listName
  simp only [reduceCtorEq, if_false, List.getD_cons_succ, List.drop_one, List.tail_cons,
    List.take_of_length_le hlen]
  rw [if_neg (by grind), if_neg (by grind)]

theorem recode_idList : recode (ascii "IDList") = ascii "IDList" :=
  recode_of_kept (List.all_eq_true.mp (by decide))

/-- Behind the token of a list, a name that is no number is lost when the type is another. -/
theorem thereAndBack_ne_list {type : UInt8} (htype : ¬UniqueType type) (hlist : type ≠ 0x01)
    {name : List UInt8} (hlen : name.length ≤ 7) (hnum : ¬name.getD 0 0 ≤ 9) :
    thereAndBack type (0x5D :: name) ≠ 0x5D :: name := by
  rw [thereAndBack, detokenize_of_not_unique htype, detokenize_list hlen hnum]
  split_ifs with hid
  · have hnone : tokenOfText .ti84p (ascii "IDList") 0 = none := by decide
    rw [recode_idList, tokenize_text htype hlist (by decide), tokenOfText_of_not_image (by decide),
      hnone]
    exact fun h => absurd (List.cons.inj h).1 (by decide)
  · intro h
    by_cases hs : recode name ∈ uniqueNames
    · rw [tokenize_of_mem htype hs] at h
      cases h
    · rw [tokenize_text htype hlist hs] at h
      cases htoken : tokenOfText .ti84p (recode name) type with
      | none =>
          rw [htoken] at h
          exact recode_ne_cons name h
      | some token =>
          rw [htoken] at h
          have hraw : cstr [token.1, token.2] = 0x5D :: name := h
          have hfound := tokenOfText_found token htoken
          obtain ⟨h1, h2⟩ := cstr_token token.2 (takenForToken_of_found hfound).2
          rw [hraw, List.getD_cons_zero] at h1
          rw [hraw, List.getD_cons_succ] at h2
          rcases hfound with ⟨hf, -⟩ | ⟨-, hf, -⟩ | ⟨hf, -⟩ | ⟨hf, -⟩ | ⟨hf, -⟩ <;> grind

/-- A real list comes back behind its token, whatever its name is. -/
theorem thereAndBack_list_eq {raw : List UInt8} :
    thereAndBack 0x01 raw = if recode (detokenizeVarname .ti84p raw 0x01) ∈ uniqueNames then []
      else 0x5D :: (recode (detokenizeVarname .ti84p raw 0x01)).take 7 := by
  rw [thereAndBack, detokenize_of_not_unique (by simp [UniqueType])]
  split_ifs with hs
  · exact tokenize_of_mem (by simp [UniqueType]) hs
  · exact tokenize_list hs

/-- The texts of the numbers of lists are no names. -/
theorem listNumber_text {name : List UInt8} (hnum : name.getD 0 0 ≤ 9) :
    ∃ b, recode (detokenizeVarname .ti84p (0x5D :: name) 0x01) = [0x4C, b] := by
  have hall : ∀ n < 10, ∃ b ∈ [0x80, 0x81, 0x82, 0x83, 0x84, 0x85, 0x86, 0x87, 0x88, 0x89],
      recode (listName .ti84p [0x5D, UInt8.ofNat n]) = [0x4C, b] := by decide
  obtain ⟨b, -, hb⟩ := hall (name.getD 0 0).toNat
    (Nat.lt_succ_of_le (UInt8.le_iff_toNat_le.mp hnum))
  rw [detokenize_token rfl rfl fun _ => hnum]
  rw [UInt8.ofNat_toNat] at hb
  exact ⟨b, hb⟩

/-- The names of real lists. -/
theorem thereAndBack_list {raw : List UInt8} (hlen : raw.length ≤ 8) :
    thereAndBack 0x01 raw = raw ↔ KeptList raw := by
  rw [thereAndBack_list_eq]
  constructor
  · intro heq
    split_ifs at heq with hs
    · subst heq
      exact absurd hs (by decide)
    · cases raw with
      | nil => cases heq
      | cons b name =>
          obtain ⟨rfl, hname⟩ := List.cons.inj heq
          by_cases hnum : name.getD 0 0 ≤ 9
          · obtain ⟨b, hb⟩ := listNumber_text hnum
            rw [hb] at hname
            subst hname
            exact absurd hnum (show ¬(0x4C : UInt8) ≤ 9 by decide)
          · rw [detokenize_list (Nat.le_of_succ_le_succ hlen) hnum] at hname hs
            split_ifs at hname hs with hid
            · rw [recode_idList] at hname
              subst hname
              exact absurd hid (by decide)
            · have hkept : ∀ b ∈ name, keptChar b = true := by
                have hpre := List.take_prefix 7 (recode name)
                rw [hname] at hpre
                exact kept_of_prefix hpre
              rw [recode_of_kept hkept] at hs
              refine ⟨name, rfl, ?_, hkept, ?_, hid, hs⟩
              · rintro rfl
                exact hnum (show (0 : UInt8) ≤ 9 by decide)
              · intro h1
                exact hnum (h1 ▸ show (1 : UInt8) ≤ 9 by decide)
  · rintro ⟨name, rfl, hne, hkept, h1, hid, hunique⟩
    have hnum : ¬name.getD 0 0 ≤ 9 := by
      cases name with
      | nil => exact absurd rfl hne
      | cons b name =>
          have hb := hkept b List.mem_cons_self
          simp [keptChar] at hb h1
          rw [List.getD_cons_zero]
          grind
    rw [detokenize_list (Nat.le_of_succ_le_succ hlen) hnum, if_neg hid, recode_of_kept hkept,
      if_neg hunique, List.take_of_length_le (Nat.le_of_succ_le_succ hlen)]

/-- The names that are characters. -/
theorem thereAndBack_plain {type : UInt8} (htype : ¬UniqueType type) (hlist : type ≠ 0x01)
    {raw : List UInt8} (hlen : raw.length ≤ 8) (h : takenForToken type (raw.getD 0 0) = false) :
    thereAndBack type raw = raw ↔
      (∀ b ∈ raw, keptChar b = true) ∧ raw ∉ uniqueNames
        ∧ ¬TextOfToken type raw := by
  rw [← tokenOfText_eq_none_iff]
  have hdetok : detokenizeVarname .ti84p raw type = raw := by
    rw [← Bool.not_eq_true, takenForToken_iff] at h
    simp only [not_or, not_and] at h
    obtain ⟨h5C, h5D, h5E, h60, h61, h62, h63, hAA, himage⟩ := h
    unfold detokenizeVarname
    simp only [h5C, h5D, h5E, h60, h61, h62, h63, hAA, if_false, List.take_of_length_le hlen]
    split
    · rename_i hhead
      exact if_neg (himage hhead)
    · rfl
  rw [thereAndBack, detokenize_of_not_unique htype, hdetok]
  constructor
  · intro heq
    by_cases hs : recode raw ∈ uniqueNames
    · rw [tokenize_of_mem htype hs] at heq
      subst heq
      exact absurd hs (by decide)
    · rw [tokenize_text htype hlist hs] at heq
      cases htoken : tokenOfText .ti84p (recode raw) type with
      | none =>
          rw [htoken] at heq
          have hself : recode raw = raw := heq
          rw [hself] at hs htoken
          exact ⟨recode_eq_self_iff.mp hself, hs, htoken⟩
      | some token =>
          rw [htoken] at heq
          have hraw : cstr [token.1, token.2] = raw := heq
          have htaken := takenForToken_of_found (tokenOfText_found token htoken)
          obtain ⟨h1, -⟩ := cstr_token token.2 htaken.2
          rw [hraw] at h1
          rw [h1, htaken.1] at h
          cases h
  · rintro ⟨hkept, hunique, hnone⟩
    have hself := recode_of_kept hkept
    rw [hself, tokenize_text htype hlist hunique, hnone]
    rfl

/-- The names that are kept, and no others, come back. -/
theorem thereAndBack_eq_iff {type : UInt8} {raw : List UInt8} (hlen : raw.length ≤ 8) :
    thereAndBack type raw = raw ↔ KeptName type raw := by
  unfold KeptName
  split_ifs with htype hlist htoken
  · rw [thereAndBack, tokenize_of_unique htype]
    exact eq_comm
  · subst hlist
    exact thereAndBack_list hlen
  · by_cases hnum : raw.getD 0 0 = 0x5D → raw.getD 1 0 ≤ 9
    · exact thereAndBack_token htype hlist htoken hnum
    · obtain ⟨hhead, hnum⟩ := Classical.not_imp.mp hnum
      cases raw with
      | nil => cases hhead
      | cons b name =>
          obtain rfl : b = 0x5D := hhead
          constructor
          · intro heq
            exact absurd heq (thereAndBack_ne_list htype hlist (Nat.le_of_succ_le_succ hlen) hnum)
          · rintro ⟨t1, t2, hraw, hkept⟩
            have hne : t1 ≠ 0 := by
              rintro rfl
              simp [keptToken] at hkept
            obtain ⟨h1, h2⟩ := cstr_token t2 hne
            rw [← hraw] at h1 h2
            subst h1
            rw [h2] at hnum
            simp [keptToken] at hkept
            exact absurd hkept hnum
  · exact thereAndBack_plain htype hlist hlen (Bool.eq_false_of_not_eq_true htoken)
/-! ## names of the USB models -/

/-- Where GLib decodes the text of a name to what it was, a name of the TI-84+ family comes
back from the calculator exactly when it is one that is kept. -/
theorem ticonvVarnameToTifile_fromTifile_iff (conv : Converters) {model : CalcModel}
    (hmodel : isUsb84 model = true) (type : UInt8) {raw s : List UInt8} (hlen : raw.length ≤ 8)
    (hto : conv.utf16ToUtf8 (ticonvNonusbToUtf16 ti83pCharset
      (ticonvVarnameDetokenize (fileModel model) raw type)) = some s)
    (hfrom : conv.utf8ToUtf16 s = some (ticonvNonusbToUtf16 ti83pCharset
      (ticonvVarnameDetokenize (fileModel model) raw type))) :
    ((ticonvVarnameFromTifile conv.withTokens model raw type).bind fun name =>
        ticonvVarnameToTifile conv.withTokens model name type) = some raw ↔
      KeptName type raw := by
  have hname : ticonvVarnameFromTifile conv.withTokens model raw type = some s := by
    unfold ticonvVarnameFromTifile
    rw [if_pos hmodel]
    exact hto
  have hback : ticonvVarnameToTifile conv.withTokens model s type
      = some (thereAndBack type raw) := by
    unfold ticonvVarnameToTifile
    rw [if_pos hmodel]
    show (conv.utf8ToUtf16 s).map (fun units =>
      ticonvVarnameTokenize (fileModel model) (ticonvUtf16ToTi83p units) type) = _
    rw [hfrom, Option.map_some, thereAndBack, recode]
    unfold fileModel
    split_ifs
    · rfl
    · rw [ticonvVarnameDetokenize_ti84pc, ticonvVarnameTokenize_ti84pc]
  rw [hname, Option.bind_some, hback, Option.some.injEq]
  exact thereAndBack_eq_iff hlen

/-- GLib's conversions of the characters that ASCII has. -/
def asciiConverters : Converters where
  utf16ToUtf8 := fun units => if units.all (· < 128) then some (units.map UInt8.ofNat) else none
  length_utf16ToUtf8 := by
    intro units s h
    split at h
    · cases h
      rw [List.length_map]
      omega
    · cases h
  utf8ToUtf16 := fun s => if s.all (· < 128) then some (s.map UInt8.toNat) else none
  toTifile84 := fun _ _ _ => none
  fromTifile84 := fun _ _ _ => none

/-- The first picture is kept. -/
theorem ticonvVarname_pic1 :
    ((ticonvVarnameFromTifile asciiConverters.withTokens .ti84pUsb [0x60] 0x07).bind fun name =>
        ticonvVarnameToTifile asciiConverters.withTokens .ti84pUsb name 0x07) = some [0x60] :=
  (ticonvVarnameToTifile_fromTifile_iff asciiConverters rfl 0x07 (s := ascii "Pic1") (by simp)
    (by decide) (by decide)).mpr (by
      unfold KeptName
      rw [if_neg (by decide), if_neg (by decide), if_pos (by decide)]
      exact ⟨0x60, 0, rfl, rfl⟩)

/-- The matrix [A] is not: its name begins with the `[` of the calculator, and the rule for
matrices expects that of ASCII. -/
theorem ticonvVarname_matrix_lost :
    ¬∀ (conv : Converters) (model : CalcModel) (type : UInt8) (raw s : List UInt8),
      isUsb84 model = true → raw.length ≤ 8 → (∀ b ∈ raw, b ≠ 0) →
      conv.utf16ToUtf8 (ticonvNonusbToUtf16 ti83pCharset
        (ticonvVarnameDetokenize (fileModel model) raw type)) = some s →
      conv.utf8ToUtf16 s = some (ticonvNonusbToUtf16 ti83pCharset
        (ticonvVarnameDetokenize (fileModel model) raw type)) →
      ((ticonvVarnameFromTifile conv.withTokens model raw type).bind fun name =>
        ticonvVarnameToTifile conv.withTokens model name type) = some raw := by
  intro h
  have hback := h asciiConverters .ti84pUsb 0x02 [0x5C] (ascii "[A]") rfl (by simp) (by simp)
    (by decide) (by decide)
  revert hback
  decide

end Tilibs.Conv
