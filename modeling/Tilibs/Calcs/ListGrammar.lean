import Mathlib
import Tilibs.Calcs.LabEquipmentList

/-!
# Tilibs.Calcs.ListGrammar

The grammar of list strings, and the state machine that reads them.

```
LIST: '{' BODY '}'
BODY: NUMBER | (NUMBER ',')+ NUMBER
NUMBER: [+-]? (DIGITS ['.' DIGITS*]? | '.' DIGITS) (('e'|'E') [+-]? DIGITS)?
```

The state machine wants a digit after every dot, and it stops at the closing brace.  So it
takes the lists of the grammar without a number that ends in a dot, whatever follows them.
-/

namespace Tilibs.Calcs

open Lib

/-! ## the grammar -/

/-- The exponent of a number. -/
structure ExponentText where
  letter : UInt8
  sign : Option UInt8
  digits : List UInt8

/-- A number, in its parts; `frac` is what follows the dot, when there is one. -/
structure Numeral where
  sign : Option UInt8
  int : List UInt8
  frac : Option (List UInt8)
  exp : Option ExponentText

/-- Plus or minus. -/
def IsSign (sign : Option UInt8) : Prop := ∀ c ∈ sign, c = 0x2D ∨ c = 0x2B

/-- Nothing but digits. -/
def AllDigits (ds : List UInt8) : Prop := ∀ c ∈ ds, isDigit c = true

structure ExponentText.WellFormed (e : ExponentText) : Prop where
  letter : e.letter = 0x65 ∨ e.letter = 0x45
  sign : IsSign e.sign
  digits : AllDigits e.digits
  digits_ne : e.digits ≠ []

theorem isSign_none : IsSign none := by simp [IsSign]

theorem allDigits_nil : AllDigits [] := by simp [AllDigits]

/-- What the grammar wants of a number. -/
structure Numeral.WellFormed (t : Numeral) : Prop where
  sign : IsSign t.sign
  int : AllDigits t.int
  frac : ∀ ds ∈ t.frac, AllDigits ds
  digits_ne : t.int ≠ [] ∨ ∃ ds ∈ t.frac, ds ≠ []
  exp : ∀ e ∈ t.exp, e.WellFormed

/-- The dot and what follows it. -/
def fracText : Option (List UInt8) → List UInt8
  | none => []
  | some ds => 0x2E :: ds

/-- The letter, the sign and the digits. -/
def expText : Option ExponentText → List UInt8
  | none => []
  | some e => e.letter :: (e.sign.toList ++ e.digits)

/-- The characters of a number. -/
def Numeral.chars (t : Numeral) : List UInt8 :=
  t.sign.toList ++ (t.int ++ (fracText t.frac ++ expText t.exp))

/-- The characters of a list. -/
def listChars (ts : List Numeral) : List UInt8 :=
  0x7B :: (joinTexts 0x2C (ts.map Numeral.chars) ++ [0x7D])

/-- A string is the list of some numbers. -/
structure IsListOf (ts : List Numeral) (string : List UInt8) : Prop where
  ne : ts ≠ []
  numbers : ∀ t ∈ ts, t.WellFormed
  chars : string = listChars ts

/-- The number ends in a dot, before its exponent. -/
def Numeral.EndsInDot (t : Numeral) : Prop := t.frac = some []

/-! ## the loop over the copy of the string -/

/-- The local `state`, with the two values at which the loop ends. -/
inductive ListState
  | reading (state : LexState)
  | success
  | error
  deriving DecidableEq

/-- The locals `state`, `items` and `ptr`, and the copy of the string. -/
structure ListLoop where
  state : ListState
  items : UInt32
  ptr : Nat
  copy : List UInt8

/-- One turn of the loop; the character may be behind the copy. -/
def listTurn (loop : ListLoop) (state : LexState) : Option ListLoop := do
  let c ← loop.copy[loop.ptr]?
  let items := if state = .number then loop.items + 1 else loop.items
  let ptr := loop.ptr + 1
  match lexStep state c with
  | .error => return { loop with state := .error, items, ptr }
  | .success => return { state := .success, items, ptr, copy := loop.copy.set loop.ptr 0 }
  | .separator =>
      return { state := .reading .number, items, ptr, copy := loop.copy.set loop.ptr 0x20 }
  | .next state' => return { loop with state := .reading state', items, ptr }

theorem listTurn_ptr {loop next : ListLoop} {state : LexState}
    (h : listTurn loop state = some next) :
    loop.ptr < loop.copy.length ∧ next.ptr = loop.ptr + 1 ∧ next.copy.length = loop.copy.length := by
  unfold listTurn at h
  cases hc : loop.copy[loop.ptr]? with
  | none => simp [hc] at h
  | some c =>
      obtain ⟨hlt, -⟩ := List.getElem?_eq_some_iff.mp hc
      rw [hc] at h
      refine ⟨hlt, ?_⟩
      cases hstep : lexStep state c with
      | error =>
          simp only [Option.bind_eq_bind, Option.bind_some, hstep] at h
          cases h
          exact ⟨rfl, rfl⟩
      | success =>
          simp only [Option.bind_eq_bind, Option.bind_some, hstep] at h
          cases h
          exact ⟨rfl, List.length_set⟩
      | separator =>
          simp only [Option.bind_eq_bind, Option.bind_some, hstep] at h
          cases h
          exact ⟨rfl, List.length_set⟩
      | next state' =>
          simp only [Option.bind_eq_bind, Option.bind_some, hstep] at h
          cases h
          exact ⟨rfl, rfl⟩

/-- `TIXX_PARSE_LAB_EQUIPMENT_DATA_LIST_STRING`: the locals at its end, or `none` when it
reads behind the copy. -/
def listLoop (loop : ListLoop) : Option ListLoop :=
  match loop.state with
  | .success => some loop
  | .error => some loop
  | .reading state =>
      match _hturn : listTurn loop state with
      | none => none
      | some next => listLoop next
  termination_by loop.copy.length - loop.ptr
  decreasing_by
    obtain ⟨hlt, hptr, hlen⟩ := listTurn_ptr _hturn
    omega

/-- The loop from its start, over a copy of the string and its NUL. -/
def parseListCopy (string : List UInt8) : Option ListLoop :=
  listLoop ⟨.reading .brace, 0, 0, string ++ [0]⟩

/-! ## the loop is the parser -/

/-- How the loop ends when the parser gives `result` for what is left of the string: the copy
has the tokens and a NUL behind what was read before, and the cursor is behind the NUL. -/
def EndsWith (items : UInt32) (read : List UInt8) (result : Option (Nat × List UInt8))
    (loop : ListLoop) : Prop :=
  match result with
  | none => loop.state = .error
  | some r => loop.state = .success ∧ loop.items = items + UInt32.ofNat r.1
      ∧ loop.ptr = read.length + r.2.length + 1
      ∧ ∃ rest, loop.copy = read ++ (r.2 ++ 0 :: rest)

theorem EndsWith.cons {items : UInt32} {item : Nat} {read : List UInt8} {c : UInt8}
    {result : Option (Nat × List UInt8)} {loop : ListLoop}
    (h : EndsWith (items + UInt32.ofNat item) (read ++ [c]) result loop) :
    EndsWith items read (result.map fun r => (item + r.1, c :: r.2)) loop := by
  cases result with
  | none => exact h
  | some r =>
      obtain ⟨hstate, hitems, hptr, rest, hcopy⟩ := h
      refine ⟨hstate, ?_, ?_, rest, ?_⟩
      · rw [hitems, UInt32.ofNat_add, UInt32.add_assoc]
      · rw [hptr, List.length_append, List.length_singleton, List.length_cons]
        omega
      · rw [hcopy, List.append_assoc]
        rfl

theorem lexStep_nul (state : LexState) : lexStep state 0 = .error := by
  cases state <;> rfl

/-- One turn at the character behind what was read. -/
theorem listTurn_append (state : LexState) (items : UInt32) (read : List UInt8) (c : UInt8)
    (tail : List UInt8) :
    let items' := items + UInt32.ofNat (if state = .number then 1 else 0)
    listTurn ⟨.reading state, items, read.length, read ++ c :: tail⟩ state
      = some (match lexStep state c with
        | .error => ⟨.error, items', read.length + 1, read ++ c :: tail⟩
        | .success => ⟨.success, items', read.length + 1, read ++ 0 :: tail⟩
        | .separator => ⟨.reading .number, items', read.length + 1, read ++ 0x20 :: tail⟩
        | .next state' => ⟨.reading state', items', read.length + 1, read ++ c :: tail⟩) := by
  intro items'
  have hget : (read ++ c :: tail)[read.length]? = some c := by simp
  have hset : ∀ b, (read ++ c :: tail).set read.length b = read ++ b :: tail := by
    intro b
    simp
  have hitems : (if state = .number then items + 1 else items) = items' := by
    unfold items'
    split
    · rfl
    · exact (UInt32.add_zero items).symm
  unfold listTurn
  rw [hget, Option.bind_eq_bind, Option.bind_some]
  dsimp only
  rw [hitems, hset, hset]
  cases lexStep state c <;> rfl

theorem listLoop_reading {loop : ListLoop} {state : LexState} (h : loop.state = .reading state) :
    listLoop loop = (listTurn loop state).bind listLoop := by
  rw [listLoop, h]
  dsimp only
  split
  · rename_i hnone
    rw [hnone, Option.bind_none]
  · rename_i next hnext
    rw [hnext, Option.bind_some]

theorem listLoop_done {loop : ListLoop} (h : loop.state = .success ∨ loop.state = .error) :
    listLoop loop = some loop := by
  rw [listLoop]
  cases h with
  | inl h => rw [h]
  | inr h => rw [h]

/-- From any state the loop ends inside the copy, as the parser says. -/
theorem listLoop_endsWith (state : LexState) (items : UInt32) (read cs : List UInt8) :
    ∃ loop, listLoop ⟨.reading state, items, read.length, read ++ (cs ++ [0])⟩ = some loop
      ∧ EndsWith items read (parseListString state cs) loop := by
  induction cs generalizing state items read with
  | nil =>
      rw [listLoop_reading rfl, List.nil_append, listTurn_append, lexStep_nul, Option.bind_some,
        listLoop_done (Or.inr rfl)]
      exact ⟨_, rfl, rfl⟩
  | cons c cs ih =>
      rw [listLoop_reading rfl, List.cons_append, listTurn_append, Option.bind_some]
      have hread : ∀ b, (read ++ [b]).length = read.length + 1 := fun b => List.length_append
      unfold parseListString
      cases hstep : lexStep state c with
      | error =>
          dsimp only
          rw [listLoop_done (Or.inr rfl)]
          exact ⟨_, rfl, rfl⟩
      | success =>
          dsimp only
          rw [listLoop_done (Or.inl rfl)]
          exact ⟨_, rfl, rfl, rfl, rfl, cs ++ [0], rfl⟩
      | separator =>
          obtain ⟨loop, hloop, hends⟩ := ih .number
            (items + UInt32.ofNat (if state = .number then 1 else 0)) (read ++ [0x20])
          rw [hread, List.append_assoc] at hloop
          exact ⟨loop, hloop, hends.cons⟩
      | next state' =>
          obtain ⟨loop, hloop, hends⟩ := ih state'
            (items + UInt32.ofNat (if state = .number then 1 else 0)) (read ++ [c])
          rw [hread, List.append_assoc] at hloop
          exact ⟨loop, hloop, hends.cons⟩

/-- The loop never reads behind the NUL. -/
theorem parseListCopy_endsWith (string : List UInt8) :
    ∃ loop, parseListCopy string = some loop
      ∧ EndsWith 0 [] (parseListString .brace string) loop :=
  listLoop_endsWith .brace 0 [] string

/-! ## the numbers that the parser takes -/

theorem lexes_sign {sign : Option UInt8} (h : IsSign sign) {cs : List UInt8} {c : UInt8}
    {state' : LexState} (hfirst : lexStep .number c = .next state')
    (hsigned : lexStep .afterSign c = .next state') (hrest : Lexes state' cs 0 state'') :
    Lexes .number (sign.toList ++ c :: cs) 1 state'' := by
  cases sign with
  | none => exact lexes_cons hfirst hrest
  | some b =>
      have hb : lexStep .number b = .next .afterSign := if_pos (h b rfl)
      exact lexes_cons hb (lexes_cons hsigned hrest)

theorem lexStep_digit {state : LexState} {c : UInt8} (hc : isDigit c = true)
    (h : state = .number ∨ state = .afterSign) : lexStep state c = .next .intDigits := by
  obtain ⟨-, hdot, -, -, hminus, hplus, -⟩ := isDigit_ne hc
  have hsign : ¬(c = 0x2D ∨ c = 0x2B) := fun hor => hor.elim hminus hplus
  rcases h with rfl | rfl
  · exact (if_neg hsign).trans ((if_neg hdot).trans (if_pos hc))
  · exact (if_neg hdot).trans (if_pos hc)

/-- The states in which the dot may come. -/
theorem lexes_to_dot {t : Numeral} (h : t.WellFormed) :
    Lexes .number (t.sign.toList ++ (t.int ++ [0x2E])) 1 .afterDot := by
  cases hint : t.int with
  | nil => exact lexes_sign h.sign rfl rfl (lexes_nil .afterDot)
  | cons c cs =>
      have hdigits := h.int
      rw [hint] at hdigits
      obtain ⟨hc, hcs⟩ := List.forall_mem_cons.mp hdigits
      have hrun := (lexes_digits lexStep_intDigits (by decide) hcs).append
        (lexes_cons (c := 0x2E) rfl (lexes_nil .afterDot))
      exact lexes_sign h.sign (lexStep_digit hc (Or.inl rfl)) (lexStep_digit hc (Or.inr rfl)) hrun

theorem lexes_mantissa {t : Numeral} (h : t.WellFormed) (hdot : ¬t.EndsInDot) :
    ∃ state, (state = .intDigits ∨ state = .fracDigits)
      ∧ Lexes .number (t.sign.toList ++ (t.int ++ fracText t.frac)) 1 state := by
  cases hfrac : t.frac with
  | none =>
      have hne : t.int ≠ [] := by
        cases h.digits_ne with
        | inl hint => exact hint
        | inr hds =>
            obtain ⟨ds, hmem, -⟩ := hds
            rw [hfrac] at hmem
            cases hmem
      obtain ⟨c, cs, hint⟩ := List.exists_cons_of_ne_nil hne
      have hdigits := h.int
      rw [hint] at hdigits
      obtain ⟨hc, hcs⟩ := List.forall_mem_cons.mp hdigits
      refine ⟨.intDigits, Or.inl rfl, ?_⟩
      rw [fracText, List.append_nil, hint]
      exact lexes_sign h.sign (lexStep_digit hc (Or.inl rfl)) (lexStep_digit hc (Or.inr rfl))
        (lexes_digits lexStep_intDigits (by decide) hcs)
  | some ds =>
      have hne : ds ≠ [] := fun hnil => hdot (hfrac.trans (congrArg some hnil))
      have hfirst : ∀ c, isDigit c = true → lexStep .afterDot c = .next .fracDigits :=
        fun c hc => if_pos hc
      have hrun := (lexes_to_dot h).append
        (lexes_digits_cons hfirst lexStep_fracDigits (by decide) hne (h.frac ds hfrac))
      refine ⟨.fracDigits, Or.inr rfl, ?_⟩
      rwa [List.append_assoc, List.append_assoc] at hrun

theorem lexes_exponent {state : LexState} (hstate : state = .intDigits ∨ state = .fracDigits)
    {exp : Option ExponentText} (h : ∀ e ∈ exp, e.WellFormed) :
    ∃ state', EndsNumber state' ∧ Lexes state (expText exp) 0 state' := by
  cases exp with
  | none => exact ⟨state, hstate.imp_right Or.inl, lexes_nil state⟩
  | some e =>
      obtain ⟨hletter, hsign, hdigits, hne⟩ := h e rfl
      have hstep : lexStep state e.letter = .next .afterExp := by
        rcases hstate with rfl | rfl <;> rcases hletter with hl | hl <;> rw [hl] <;> rfl
      have hfirst : ∀ c, isDigit c = true → lexStep .afterExpSign c = .next .expDigits :=
        fun c hc => if_pos hc
      have hfirst' : ∀ c, isDigit c = true → lexStep .afterExp c = .next .expDigits := by
        intro c hc
        obtain ⟨-, -, -, -, hminus, hplus, -⟩ := isDigit_ne hc
        exact (if_neg (fun hor => hor.elim hminus hplus)).trans (if_pos hc)
      have hnumber : state ≠ .number := by
        rcases hstate with rfl | rfl <;> decide
      refine ⟨.expDigits, Or.inr (Or.inr rfl), ?_⟩
      rw [expText]
      cases hes : e.sign with
      | none =>
          have hrun := lexes_cons hstep
            (lexes_digits_cons hfirst' lexStep_expDigits (by decide) hne hdigits)
          rwa [if_neg hnumber] at hrun
      | some b =>
          have hb : lexStep .afterExp b = .next .afterExpSign := if_pos (hsign b hes)
          have hrun := lexes_cons hstep (lexes_cons hb
            (lexes_digits_cons hfirst lexStep_expDigits (by decide) hne hdigits))
          rwa [if_neg hnumber] at hrun

/-- A number with a digit behind its dot is taken as one item. -/
theorem lexes_numeral {t : Numeral} (h : t.WellFormed) (hdot : ¬t.EndsInDot) :
    ∃ state, EndsNumber state ∧ Lexes .number t.chars 1 state := by
  obtain ⟨mid, hmid, hmantissa⟩ := lexes_mantissa h hdot
  obtain ⟨state, hends, hexp⟩ := lexes_exponent hmid h.exp
  refine ⟨state, hends, ?_⟩
  have hrun := hmantissa.append hexp
  rwa [List.append_assoc, List.append_assoc] at hrun

/-- What may come behind a number is refused behind a dot. -/
theorem parseListString_endsInDot {t : Numeral} (h : t.WellFormed) (hdot : t.EndsInDot)
    {c : UInt8} (hc : c = 0x2C ∨ c = 0x7D) (tail : List UInt8) :
    parseListString .number (t.chars ++ c :: tail) = none := by
  have hsplit : ∃ b bs, t.chars ++ c :: tail = (t.sign.toList ++ (t.int ++ [0x2E])) ++ b :: bs
      ∧ lexStep .afterDot b = .error := by
    unfold Numeral.EndsInDot at hdot
    unfold Numeral.chars
    rw [hdot]
    cases hexp : t.exp with
    | none =>
        refine ⟨c, tail, by simp [fracText, expText], ?_⟩
        rcases hc with rfl | rfl <;> rfl
    | some e =>
        refine ⟨e.letter, e.sign.toList ++ e.digits ++ c :: tail, by simp [fracText, expText], ?_⟩
        rcases (h.exp e hexp).letter with hl | hl <;> rw [hl] <;> rfl
  obtain ⟨b, bs, hchars, hstep⟩ := hsplit
  rw [hchars, lexes_to_dot h, parseListString, hstep]
  rfl

theorem EndsNumber.ne_number {state : LexState} (h : EndsNumber state) : state ≠ .number := by
  rcases h with rfl | rfl | rfl <;> decide

theorem EndsNumber.lexStep {state : LexState} (h : EndsNumber state) :
    lexStep state 0x2C = .separator ∧ lexStep state 0x7D = .success := by
  rcases h with rfl | rfl | rfl <;> exact ⟨rfl, rfl⟩

/-- The parser over a number and what may come behind it. -/
theorem parseListString_numeral {t : Numeral} (h : t.WellFormed) (hdot : ¬t.EndsInDot)
    (tail : List UInt8) :
    parseListString .number (t.chars ++ 0x2C :: tail)
      = (parseListString .number tail).map (fun r => (1 + r.1, t.chars ++ 0x20 :: r.2))
    ∧ parseListString .number (t.chars ++ 0x7D :: tail) = some (1, t.chars) := by
  obtain ⟨state, hends, hlex⟩ := lexes_numeral h hdot
  obtain ⟨hcomma, hbrace⟩ := hends.lexStep
  constructor
  · rw [hlex, parseListString, hcomma]
    simp only [if_neg hends.ne_number, Option.map_map]
    congr 1
    funext r
    simp
  · rw [hlex, parseListString, hbrace]
    simp [hends.ne_number]

/-- The parser over a list of the grammar and anything behind it. -/
theorem parseListString_listChars {ts : List Numeral} (hne : ts ≠ [])
    (h : ∀ t ∈ ts, t.WellFormed) (tail : List UInt8) :
    ((∀ t ∈ ts, ¬t.EndsInDot) → parseListString .brace (listChars ts ++ tail)
      = some (ts.length, 0x20 :: joinTexts 0x20 (ts.map Numeral.chars)))
    ∧ ((∃ t ∈ ts, t.EndsInDot) → parseListString .brace (listChars ts ++ tail) = none) := by
  have hbody : ((∀ t ∈ ts, ¬t.EndsInDot) →
        parseListString .number (joinTexts 0x2C (ts.map Numeral.chars) ++ 0x7D :: tail)
          = some (ts.length, joinTexts 0x20 (ts.map Numeral.chars)))
      ∧ ((∃ t ∈ ts, t.EndsInDot) →
        parseListString .number (joinTexts 0x2C (ts.map Numeral.chars) ++ 0x7D :: tail)
          = none) := by
    induction ts with
    | nil => exact absurd rfl hne
    | cons t ts ih =>
        obtain ⟨ht, hts⟩ := List.forall_mem_cons.mp h
        by_cases hnil : ts = []
        · subst hnil
          rw [List.map_singleton, joinTexts_singleton, joinTexts_singleton]
          constructor
          · intro hdots
            exact (parseListString_numeral ht (hdots t (List.mem_singleton_self t)) tail).2
          · intro hdots
            obtain ⟨t', hmem, hdot⟩ := hdots
            rw [List.mem_singleton.mp hmem] at hdot
            exact parseListString_endsInDot ht hdot (Or.inr rfl) tail
        · have hmap : ts.map Numeral.chars ≠ [] := by simpa using hnil
          obtain ⟨hplain, hends⟩ := ih hnil hts
          rw [List.map_cons, joinTexts_cons _ _ hmap, joinTexts_cons _ _ hmap, List.append_assoc,
            List.cons_append]
          constructor
          · intro hdots
            obtain ⟨hdot, hrest⟩ := List.forall_mem_cons.mp hdots
            rw [(parseListString_numeral ht hdot _).1, hplain hrest, Option.map_some,
              List.length_cons, Nat.add_comm]
          · intro hdots
            by_cases hdot : t.EndsInDot
            · exact parseListString_endsInDot ht hdot (Or.inl rfl) _
            · have hrest : ∃ t ∈ ts, t.EndsInDot := by
                obtain ⟨t', hmem, ht'⟩ := hdots
                cases List.mem_cons.mp hmem with
                | inl heq => exact absurd (heq ▸ ht') hdot
                | inr hin => exact ⟨t', hin, ht'⟩
              rw [(parseListString_numeral ht hdot _).1, hends hrest, Option.map_none]
  have hstart : parseListString .brace (listChars ts ++ tail)
      = (parseListString .number (joinTexts 0x2C (ts.map Numeral.chars) ++ 0x7D :: tail)).map
        fun r => (r.1, 0x20 :: r.2) := by
    unfold listChars
    rw [List.cons_append, List.append_assoc, List.singleton_append, parseListString]
    simp [lexStep]
  constructor
  · intro hdots
    rw [hstart, hbody.1 hdots, Option.map_some]
  · intro hdots
    rw [hstart, hbody.2 hdots, Option.map_none]

/-! ## what the parser takes is in the grammar -/

/-- The texts that bring a number to its end from a state. -/
def Completes : LexState → List UInt8 → Prop
  | .brace, _ => False
  | .number, u => ∃ t : Numeral, t.WellFormed ∧ ¬t.EndsInDot ∧ t.chars = u
  | .afterSign, u => ∃ t : Numeral, t.WellFormed ∧ ¬t.EndsInDot ∧ t.sign = none ∧ t.chars = u
  | .afterDot, u => ∃ ds exp, ds ≠ [] ∧ AllDigits ds
      ∧ (∀ e ∈ exp, ExponentText.WellFormed e) ∧ ds ++ expText exp = u
  | .intDigits, u => ∃ ds frac exp, AllDigits ds ∧ (∀ fs ∈ frac, fs ≠ [] ∧ AllDigits fs)
      ∧ (∀ e ∈ exp, ExponentText.WellFormed e) ∧ ds ++ (fracText frac ++ expText exp) = u
  | .fracDigits, u => ∃ ds exp, AllDigits ds
      ∧ (∀ e ∈ exp, ExponentText.WellFormed e) ∧ ds ++ expText exp = u
  | .afterExp, u => ∃ sign ds, IsSign sign ∧ ds ≠ [] ∧ AllDigits ds ∧ sign.toList ++ ds = u
  | .afterExpSign, u => u ≠ [] ∧ AllDigits u
  | .expDigits, u => AllDigits u

theorem AllDigits.cons {c : UInt8} {ds : List UInt8} (hc : isDigit c = true) (h : AllDigits ds) :
    AllDigits (c :: ds) :=
  List.forall_mem_cons.mpr ⟨hc, h⟩

/-- Digits of the integer part and what comes after them, as a number without sign. -/
theorem completes_afterSign_int {c : UInt8} {u : List UInt8} (hc : isDigit c = true)
    (h : Completes .intDigits u) : Completes .afterSign (c :: u) := by
  obtain ⟨ds, frac, exp, hds, hfrac, hexp, rfl⟩ := h
  refine ⟨⟨none, c :: ds, frac, exp⟩, ⟨isSign_none, hds.cons hc, fun fs hfs => (hfrac fs hfs).2,
    Or.inl (List.cons_ne_nil c ds), hexp⟩, fun hdot => ?_, rfl, rfl⟩
  exact (hfrac [] hdot).1 rfl

theorem completes_afterSign_dot {u : List UInt8} (h : Completes .afterDot u) :
    Completes .afterSign (0x2E :: u) := by
  obtain ⟨ds, exp, hne, hds, hexp, rfl⟩ := h
  refine ⟨⟨none, [], some ds, exp⟩, ⟨isSign_none, allDigits_nil, ?_, Or.inr ⟨ds, rfl, hne⟩, hexp⟩,
    fun hdot => hne (Option.some.inj hdot), rfl, rfl⟩
  intro fs hfs
  exact Option.some.inj hfs ▸ hds

/-- A number without sign is a number. -/
theorem completes_number_of_afterSign {u : List UInt8} (h : Completes .afterSign u) :
    Completes .number u := by
  obtain ⟨t, ht, hdot, -, hchars⟩ := h
  exact ⟨t, ht, hdot, hchars⟩

theorem completes_number_sign {c : UInt8} {u : List UInt8} (hc : c = 0x2D ∨ c = 0x2B)
    (h : Completes .afterSign u) : Completes .number (c :: u) := by
  obtain ⟨t, ht, hdot, hnone, rfl⟩ := h
  refine ⟨{ t with sign := some c }, ⟨?_, ht.int, ht.frac, ht.digits_ne, ht.exp⟩, hdot, ?_⟩
  · intro b hb
    exact Option.some.inj hb ▸ hc
  · unfold Numeral.chars
    rw [hnone]
    rfl

theorem lexSeparator_ne_next (c : UInt8) (state : LexState) : lexSeparator c ≠ .next state := by
  unfold lexSeparator
  split
  · simp
  · split <;> simp

/-- The exponent that a letter and what follows it make. -/
theorem wellFormed_exponent {c : UInt8} {sign : Option UInt8} {ds : List UInt8}
    (hc : c = 0x65 ∨ c = 0x45) (hsign : IsSign sign) (hne : ds ≠ []) (hds : AllDigits ds) :
    ∀ e ∈ some (ExponentText.mk c sign ds), e.WellFormed := by
  intro e he
  exact Option.some.inj he ▸ ⟨hc, hsign, hds, hne⟩

/-- One character and what completes the number behind it. -/
theorem completes_cons {state state' : LexState} {c : UInt8} {u : List UInt8}
    (hstep : lexStep state c = .next state') (h : Completes state' u) :
    Completes state (c :: u) := by
  cases state with
  | brace =>
      simp only [lexStep] at hstep
      split at hstep <;> cases hstep
  | number =>
      simp only [lexStep] at hstep
      split at hstep
      · rename_i hc
        cases hstep
        exact completes_number_sign hc h
      · split at hstep
        · rename_i hc
          cases hstep
          exact completes_number_of_afterSign (hc ▸ completes_afterSign_dot h)
        · split at hstep
          · rename_i hc
            cases hstep
            exact completes_number_of_afterSign (completes_afterSign_int hc h)
          · cases hstep
  | afterSign =>
      simp only [lexStep] at hstep
      split at hstep
      · rename_i hc
        cases hstep
        exact hc ▸ completes_afterSign_dot h
      · split at hstep
        · rename_i hc
          cases hstep
          exact completes_afterSign_int hc h
        · cases hstep
  | afterDot =>
      simp only [lexStep] at hstep
      split at hstep
      · rename_i hc
        cases hstep
        obtain ⟨ds, exp, hds, hexp, rfl⟩ := h
        exact ⟨c :: ds, exp, List.cons_ne_nil c ds, hds.cons hc, hexp, rfl⟩
      · cases hstep
  | intDigits =>
      simp only [lexStep] at hstep
      split at hstep
      · rename_i hc
        cases hstep
        obtain ⟨ds, frac, exp, hds, hfrac, hexp, rfl⟩ := h
        exact ⟨c :: ds, frac, exp, hds.cons hc, hfrac, hexp, rfl⟩
      · split at hstep
        · rename_i hc
          cases hstep
          obtain ⟨ds, exp, hne, hds, hexp, rfl⟩ := h
          refine ⟨[], some ds, exp, allDigits_nil, ?_, hexp, by rw [hc]; rfl⟩
          intro fs hfs
          exact Option.some.inj hfs ▸ ⟨hne, hds⟩
        · split at hstep
          · rename_i hc
            cases hstep
            obtain ⟨sign, ds, hsign, hne, hds, rfl⟩ := h
            exact ⟨[], none, some ⟨c, sign, ds⟩, allDigits_nil, by simp,
              wellFormed_exponent hc hsign hne hds, rfl⟩
          · exact absurd hstep (lexSeparator_ne_next c state')
  | fracDigits =>
      simp only [lexStep] at hstep
      split at hstep
      · rename_i hc
        cases hstep
        obtain ⟨ds, exp, hds, hexp, rfl⟩ := h
        exact ⟨c :: ds, exp, hds.cons hc, hexp, rfl⟩
      · split at hstep
        · rename_i hc
          cases hstep
          obtain ⟨sign, ds, hsign, hne, hds, rfl⟩ := h
          exact ⟨[], some ⟨c, sign, ds⟩, allDigits_nil, wellFormed_exponent hc hsign hne hds, rfl⟩
        · exact absurd hstep (lexSeparator_ne_next c state')
  | afterExp =>
      simp only [lexStep] at hstep
      split at hstep
      · rename_i hc
        cases hstep
        refine ⟨some c, u, ?_, h.1, h.2, rfl⟩
        intro b hb
        exact Option.some.inj hb ▸ hc
      · split at hstep
        · rename_i hc
          cases hstep
          exact ⟨none, c :: u, isSign_none, List.cons_ne_nil c u, AllDigits.cons hc h, rfl⟩
        · cases hstep
  | afterExpSign =>
      simp only [lexStep] at hstep
      split at hstep
      · rename_i hc
        cases hstep
        exact ⟨List.cons_ne_nil c u, AllDigits.cons hc h⟩
      · cases hstep
  | expDigits =>
      simp only [lexStep] at hstep
      split at hstep
      · rename_i hc
        cases hstep
        exact AllDigits.cons hc h
      · exact absurd hstep (lexSeparator_ne_next c state')

theorem lexSeparator_cases {c : UInt8} :
    (lexSeparator c = .separator → c = 0x2C) ∧ (lexSeparator c = .success → c = 0x7D) := by
  unfold lexSeparator
  split
  · rename_i hc
    exact ⟨fun _ => hc, by simp⟩
  · split
    · rename_i hc
      exact ⟨by simp, fun _ => hc⟩
    · exact ⟨by simp, by simp⟩

/-- A comma or a brace comes where a number is complete. -/
theorem lexStep_completes {state : LexState} {c : UInt8} (hstate : state ≠ .brace) :
    (lexStep state c = .separator → c = 0x2C ∧ Completes state [])
      ∧ (lexStep state c = .success → c = 0x7D ∧ Completes state []) := by
  have hint : Completes .intDigits [] := ⟨[], none, none, allDigits_nil, by simp, by simp, rfl⟩
  have hfrac : Completes .fracDigits [] := ⟨[], none, allDigits_nil, by simp, rfl⟩
  have hexp : Completes .expDigits [] := allDigits_nil
  obtain ⟨hcomma, hbrace⟩ := lexSeparator_cases (c := c)
  constructor
  · intro h
    cases state <;> grind [lexStep]
  · intro h
    cases state <;> grind [lexStep]

theorem joinTexts_cons_flatMap (sep : UInt8) (text : List UInt8) (texts : List (List UInt8)) :
    joinTexts sep (text :: texts) = text ++ texts.flatMap (sep :: ·) := by
  induction texts generalizing text with
  | nil => rw [joinTexts_singleton, List.flatMap_nil, List.append_nil]
  | cons text' texts ih =>
      rw [joinTexts_cons _ _ (List.cons_ne_nil text' texts), ih, List.flatMap_cons]
      rfl

/-- Where the parser succeeds, the number it is in comes to its end, then others do, and then
the closing brace comes. -/
theorem parseListString_sound {state : LexState} {cs : List UInt8} {r : Nat × List UInt8}
    (hstate : state ≠ .brace) (h : parseListString state cs = some r) :
    ∃ (u : List UInt8) (ts : List Numeral) (rest : List UInt8), Completes state u
      ∧ (∀ t ∈ ts, t.WellFormed ∧ ¬t.EndsInDot)
      ∧ cs = u ++ (ts.flatMap (fun t => 0x2C :: t.chars) ++ 0x7D :: rest) := by
  induction cs generalizing state r with
  | nil => cases h
  | cons c cs ih =>
      obtain ⟨hcomma, hbrace⟩ := lexStep_completes hstate (c := c)
      unfold parseListString at h
      cases hstep : lexStep state c with
      | error => simp [hstep] at h
      | success =>
          obtain ⟨rfl, hdone⟩ := hbrace hstep
          exact ⟨[], [], cs, hdone, by simp, rfl⟩
      | separator =>
          obtain ⟨rfl, hdone⟩ := hcomma hstep
          rw [hstep] at h
          obtain ⟨r', hr', -⟩ := Option.map_eq_some_iff.mp h
          obtain ⟨u, ts, rest, ⟨t, ht, hdot, rfl⟩, hts, rfl⟩ := ih (by decide) hr'
          refine ⟨[], t :: ts, rest, hdone, List.forall_mem_cons.mpr ⟨⟨ht, hdot⟩, hts⟩, ?_⟩
          simp
      | next state' =>
          have hstate' : state' ≠ .brace := by
            rintro rfl
            cases state <;> grind [lexStep, lexSeparator]
          rw [hstep] at h
          obtain ⟨r', hr', -⟩ := Option.map_eq_some_iff.mp h
          obtain ⟨u, ts, rest, hcompletes, hts, rfl⟩ := ih hstate' hr'
          exact ⟨c :: u, ts, rest, completes_cons hstep hcompletes, hts, rfl⟩

/-- What the parser takes starts with a list of the grammar in which no number ends in a dot. -/
theorem listChars_of_parseListString {string : List UInt8} {r : Nat × List UInt8}
    (h : parseListString .brace string = some r) :
    ∃ ts rest, ts ≠ [] ∧ (∀ t ∈ ts, Numeral.WellFormed t) ∧ (∀ t ∈ ts, ¬t.EndsInDot)
      ∧ string = listChars ts ++ rest := by
  cases string with
  | nil => cases h
  | cons c cs =>
      unfold parseListString at h
      by_cases hc : c = 0x7B
      · have hstep : lexStep .brace c = .separator := if_pos hc
        rw [hstep] at h
        obtain ⟨r', hr', -⟩ := Option.map_eq_some_iff.mp h
        obtain ⟨u, ts, rest, ⟨t, ht, hdot, rfl⟩, hts, rfl⟩ := parseListString_sound (by decide) hr'
        refine ⟨t :: ts, rest, List.cons_ne_nil t ts, ?_, ?_, ?_⟩
        · exact List.forall_mem_cons.mpr ⟨ht, fun t' ht' => (hts t' ht').1⟩
        · exact List.forall_mem_cons.mpr ⟨hdot, fun t' ht' => (hts t' ht').2⟩
        · rw [hc, listChars, List.map_cons, joinTexts_cons_flatMap, List.flatMap_map]
          simp
      · have hstep : lexStep .brace c = .error := if_neg hc
        simp [hstep] at h

/-! ## the language of the state machine -/

/-- What the state machine is to do with a string: it stays inside the copy, it succeeds for
the lists of the grammar and for nothing else, and it counts the numbers. -/
def ListAccepted (string : List UInt8) : Prop :=
  ∃ loop, parseListCopy string = some loop
    ∧ (loop.state = .success ↔ ∃ ts, IsListOf ts string)
    ∧ ∀ ts, IsListOf ts string → loop.items.toNat = ts.length

/-- The strings for which it does: no text stands behind a list, no number of the list ends in
a dot, and there are fewer numbers than 32 bits count. -/
structure PlainList (string : List UInt8) : Prop where
  ends : ∀ ts list rest, IsListOf ts list → (∀ t ∈ ts, ¬t.EndsInDot) → string = list ++ rest →
    rest = []
  dots : ∀ ts, IsListOf ts string → ∀ t ∈ ts, ¬t.EndsInDot
  count : ∀ ts, IsListOf ts string → ts.length < 2 ^ 32

theorem parseListString_isListOf {ts : List Numeral} {list : List UInt8} (h : IsListOf ts list)
    (hdots : ∀ t ∈ ts, ¬t.EndsInDot) (rest : List UInt8) :
    parseListString .brace (list ++ rest)
      = some (ts.length, 0x20 :: joinTexts 0x20 (ts.map Numeral.chars)) := by
  rw [h.chars]
  exact (parseListString_listChars h.ne h.numbers rest).1 hdots

theorem length_joinTexts (sep sep' : UInt8) (texts : List (List UInt8)) :
    (joinTexts sep texts).length = (joinTexts sep' texts).length := by
  cases texts with
  | nil => rfl
  | cons text texts => simp [joinTexts_cons_flatMap, List.length_flatMap]

/-- A list is two characters longer than its tokens. -/
theorem length_listChars (ts : List Numeral) :
    (listChars ts).length = (joinTexts 0x20 (ts.map Numeral.chars)).length + 2 := by
  rw [listChars, List.length_cons, List.length_append, length_joinTexts 0x2C 0x20]
  rfl

/-- A list of the grammar with text behind it is not one of the grammar. -/
theorem rest_eq_nil {ts ts' : List Numeral} {list rest : List UInt8} (h : IsListOf ts list)
    (hdots : ∀ t ∈ ts, ¬t.EndsInDot) (h' : IsListOf ts' (list ++ rest)) : rest = [] := by
  have hparse := parseListString_isListOf h hdots rest
  have hdots' : ∀ t ∈ ts', ¬t.EndsInDot := by
    intro t ht hdot
    have hnone := (parseListString_listChars h'.ne h'.numbers []).2 ⟨t, ht, hdot⟩
    rw [List.append_nil, ← h'.chars, hparse] at hnone
    cases hnone
  -- both have as many tokens
  have hparse' := parseListString_isListOf h' hdots' []
  rw [List.append_nil, hparse] at hparse'
  have htokens := congrArg List.length (congrArg Prod.snd (Option.some.inj hparse'))
  have hlen := congrArg List.length h'.chars
  rw [List.length_append, h.chars, length_listChars, length_listChars] at hlen
  rw [List.length_cons, List.length_cons] at htokens
  exact List.length_eq_zero_iff.mp (by omega)

theorem EndsWith.success_iff {items : UInt32} {read : List UInt8}
    {result : Option (Nat × List UInt8)} {loop : ListLoop} (h : EndsWith items read result loop) :
    loop.state = .success ↔ result.isSome := by
  cases result with
  | none =>
      have herror : loop.state = .error := h
      simp [herror]
  | some r => simp [h.1]

/-- The parser takes exactly the lists of the grammar when the state machine does. -/
theorem ListAccepted.parse_iff {string : List UInt8} (h : ListAccepted string) :
    (parseListString .brace string).isSome ↔ ∃ ts, IsListOf ts string := by
  obtain ⟨loop, hloop, hends⟩ := parseListCopy_endsWith string
  obtain ⟨loop', hloop', hiff, -⟩ := h
  cases hloop.symm.trans hloop'
  exact hends.success_iff.symm.trans hiff

/-- The state machine does what the grammar says for these strings and for no others. -/
theorem listAccepted_iff (string : List UInt8) : ListAccepted string ↔ PlainList string := by
  obtain ⟨loop, hloop, hends⟩ := parseListCopy_endsWith string
  have hsuccess := hends.success_iff
  constructor
  · intro haccepted
    have hiff := haccepted.parse_iff
    obtain ⟨loop', hloop', -, hitems⟩ := haccepted
    cases hloop.symm.trans hloop'
    have hdots : ∀ ts, IsListOf ts string → ∀ t ∈ ts, ¬t.EndsInDot := by
      intro ts hts t ht hdot
      have hnone := (parseListString_listChars hts.ne hts.numbers []).2 ⟨t, ht, hdot⟩
      rw [List.append_nil, ← hts.chars] at hnone
      have hsome := hiff.mpr ⟨ts, hts⟩
      rw [hnone] at hsome
      cases hsome
    refine ⟨?_, hdots, fun ts hts => hitems ts hts ▸ loop.items.toNat_lt⟩
    rintro ts list rest hts hplain rfl
    have hparse := parseListString_isListOf hts hplain rest
    obtain ⟨ts', hts'⟩ := hiff.mp (by rw [hparse]; rfl)
    exact rest_eq_nil hts hplain hts'
  · intro hplain
    refine ⟨loop, hloop, hsuccess.trans ?_, ?_⟩
    · constructor
      · intro hsome
        obtain ⟨r, hr⟩ := Option.isSome_iff_exists.mp hsome
        obtain ⟨ts, rest, hne, hnumbers, hdots, hchars⟩ := listChars_of_parseListString hr
        have hnil := hplain.ends ts (listChars ts) rest ⟨hne, hnumbers, rfl⟩ hdots hchars
        rw [hnil, List.append_nil] at hchars
        exact ⟨ts, hne, hnumbers, hchars⟩
      · rintro ⟨ts, hts⟩
        have hparse := parseListString_isListOf hts (hplain.dots ts hts) []
        rw [List.append_nil] at hparse
        rw [hparse]
        rfl
    · intro ts hts
      have hparse := parseListString_isListOf hts (hplain.dots ts hts) []
      rw [List.append_nil] at hparse
      rw [hparse] at hends
      rw [hends.2.1, UInt32.zero_add, UInt32.toNat_ofNat_of_lt' (hplain.count ts hts)]

/-- The list of one number that ends in a dot is in the grammar, and it is refused. -/
theorem not_listAccepted_dot : ¬∀ string, ListAccepted string := by
  intro h
  have hiff := (h [0x7B, 0x31, 0x2E, 0x7D]).parse_iff
  let t : Numeral := ⟨none, [0x31], some [], none⟩
  have ht : t.WellFormed := by
    refine ⟨isSign_none, by simp [AllDigits, t, isDigit], ?_, Or.inl (List.cons_ne_nil _ _), by simp⟩
    rintro ds ⟨⟩
    exact allDigits_nil
  have hlist : IsListOf [t] [0x7B, 0x31, 0x2E, 0x7D] := by
    refine ⟨List.cons_ne_nil t [], List.forall_mem_singleton.mpr ht, ?_⟩
    rw [listChars, List.map_singleton, joinTexts_singleton]
    rfl
  have hnone : (parseListString .brace [0x7B, 0x31, 0x2E, 0x7D]).isSome = false := by decide
  rw [hiff.mpr ⟨[t], hlist⟩] at hnone
  cases hnone

end Tilibs.Calcs
