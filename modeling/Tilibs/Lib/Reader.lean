import Mathlib.Data.List.Basic

/-!
# Tilibs.Lib.Reader

Readers take a value off the front of a list and return the rest.

A reader of a format says which lists hold a value, and often it also accepts a list that breaks
off inside one.  `Reads` keeps the two apart, and the rules say for loops of a reader what is read
when that of the reader is known.
-/

namespace Tilibs.Lib

/-- A value from the front of the input, and what follows it. -/
abbrev Reader (σ α : Type) := List σ → Option (α × List σ)

/-! ## what is read -/

/-- A whole value from the front, or all of an input that breaks off. -/
inductive Reads {σ α : Type} (whole broken : α → List σ → Prop) (a : α) (input rest : List σ) : Prop
  | whole (item : List σ) : whole a item → input = item ++ rest → Reads whole broken a input rest
  | broken : broken a input → rest = [] → Reads whole broken a input rest

/-- A reader takes the whole values, and accepts the broken ones. -/
def Reader.Meets {σ α : Type} (p : Reader σ α) (whole broken : α → List σ → Prop) : Prop :=
  ∀ input a rest, p input = some (a, rest) ↔ Reads whole broken a input rest

/-- Values one after the other. -/
inductive Seq {σ α : Type} (whole : α → List σ → Prop) : List α → List σ → Prop
  | nil : Seq whole [] []
  | cons {a : α} {as : List α} {item items : List σ} : whole a item → Seq whole as items →
      Seq whole (a :: as) (item ++ items)

/-- Values one after the other, of which the last breaks off. -/
inductive LastBroken {σ α : Type} (whole broken : α → List σ → Prop) : List α → List σ → Prop
  | last {a : α} {item : List σ} : broken a item → LastBroken whole broken [a] item
  | cons {a : α} {as : List α} {item items : List σ} : whole a item →
      LastBroken whole broken as items → LastBroken whole broken (a :: as) (item ++ items)

/-- Values one after the other, of which the last may break off. -/
def EndBroken {σ α : Type} (whole broken : α → List σ → Prop) (as : List α) (input : List σ) :
    Prop :=
  Seq whole as input ∨ LastBroken whole broken as input

/-- Values one after the other, and a stop behind them. -/
def Stopped {σ α : Type} (whole : α → List σ → Prop) (stop : σ) (as : List α) (input : List σ) :
    Prop :=
  ∃ items, Seq whole as items ∧ input = items ++ [stop]

section Lengths

variable {σ α : Type} {whole broken : α → List σ → Prop} {as : List α} {items : List σ} {k : Nat}

theorem Seq.length_le (hwhole : ∀ a item, whole a item → k ≤ item.length)
    (h : Seq whole as items) : as.length * k ≤ items.length := by
  induction h with
  | nil => simp
  | cons ha _ ih =>
      have hitem := hwhole _ _ ha
      rw [List.length_cons, List.length_append, Nat.succ_mul]
      omega

theorem LastBroken.length_le (hwhole : ∀ a item, whole a item → k ≤ item.length)
    (hbroken : ∀ a item, broken a item → k ≤ item.length) (h : LastBroken whole broken as items) :
    as.length * k ≤ items.length := by
  induction h with
  | last ha =>
      rw [List.length_singleton, Nat.one_mul]
      exact hbroken _ _ ha
  | cons ha _ ih =>
      have hitem := hwhole _ _ ha
      rw [List.length_cons, List.length_append, Nat.succ_mul]
      omega

/-- Values of which the last breaks off become whole with so many stops behind them, when the last
one does. -/
theorem LastBroken.close {stop : σ}
    (hclose : ∀ a item, broken a item → ∃ k, 0 < k ∧ whole a (item ++ List.replicate k stop))
    (h : LastBroken whole broken as items) :
    ∃ k, 0 < k ∧ Seq whole as (items ++ List.replicate k stop) := by
  induction h with
  | last ha =>
      rename_i a item
      obtain ⟨k, hk, hwhole⟩ := hclose a item ha
      refine ⟨k, hk, ?_⟩
      rw [← List.append_nil (item ++ List.replicate k stop)]
      exact .cons hwhole .nil
  | cons ha _ ih =>
      obtain ⟨k, hk, hseq⟩ := ih
      refine ⟨k, hk, ?_⟩
      rw [List.append_assoc]
      exact .cons ha hseq

/-- The same with the stop behind the values. -/
theorem EndBroken.close {stop : σ}
    (hclose : ∀ a item, broken a item → ∃ k, 0 < k ∧ whole a (item ++ List.replicate k stop))
    (h : EndBroken whole broken as items) :
    ∃ k, 0 < k ∧ Stopped whole stop as (items ++ List.replicate k stop) := by
  cases h with
  | inl hseq => exact ⟨1, Nat.one_pos, items, hseq, rfl⟩
  | inr hlast =>
      obtain ⟨k, hk, hseq⟩ := hlast.close hclose
      refine ⟨k + 1, Nat.succ_pos k, _, hseq, ?_⟩
      rw [List.replicate_succ', List.append_assoc]

end Lengths

section Readers

variable {σ α β : Type} {whole broken : α → List σ → Prop} {p : Reader σ α}
variable {wholeβ brokenβ : β → List σ → Prop} {q : Reader σ β} {input rest : List σ}

theorem Reader.Meets.read_whole (hp : p.Meets whole broken) {a : α} {item : List σ}
    (h : whole a item) (rest : List σ) : p (item ++ rest) = some (a, rest) :=
  (hp _ _ _).mpr (.whole item h rfl)

theorem Reader.Meets.read_broken (hp : p.Meets whole broken) {a : α} (h : broken a input) :
    p input = some (a, []) :=
  (hp _ _ _).mpr (.broken h rfl)

/-! ## the value of a reader -/

/-- A reader with a check of the value. -/
def Reader.choose (p : Reader σ α) (f : α → Option β) : Reader σ β := fun input =>
  (p input).bind fun read => (f read.1).map (·, read.2)

theorem choose_eq_some_iff {f : α → Option β} {b : β} : p.choose f input = some (b, rest)
    ↔ ∃ a, p input = some (a, rest) ∧ f a = some b := by
  unfold Reader.choose
  cases p input with
  | none => simp
  | some read => cases h : f read.1 <;> grind

/-- The reader takes what the other one takes, if the check lets the value pass. -/
theorem Reader.Meets.choose (hp : p.Meets whole broken) (f : α → Option β) :
    (p.choose f).Meets (fun b item => ∃ a, whole a item ∧ f a = some b)
      (fun b item => ∃ a, broken a item ∧ f a = some b) := by
  intro input b rest
  rw [choose_eq_some_iff]
  constructor
  · rintro ⟨a, hread, hb⟩
    cases (hp _ _ _).mp hread with
    | whole item h hinput => exact .whole item ⟨a, h, hb⟩ hinput
    | broken h hrest => exact .broken ⟨a, h, hb⟩ hrest
  · intro h
    cases h with
    | whole item h hinput =>
        obtain ⟨a, h, hb⟩ := h
        exact ⟨a, hinput ▸ hp.read_whole h rest, hb⟩
    | broken h hrest =>
        obtain ⟨a, h, hb⟩ := h
        exact ⟨a, hrest ▸ hp.read_broken h, hb⟩

/-! ## one reader behind the other -/

/-- A value and the value behind it. -/
def Reader.andThen (p : Reader σ α) (q : Reader σ β) : Reader σ (α × β) := fun input =>
  (p input).bind fun first => (q first.2).map fun second => ((first.1, second.1), second.2)

theorem andThen_eq_some_iff {ab : α × β} : p.andThen q input = some (ab, rest)
    ↔ ∃ mid, p input = some (ab.1, mid) ∧ q mid = some (ab.2, rest) := by
  unfold Reader.andThen
  cases p input with
  | none => simp
  | some first => cases h : q first.2 <;> grind

/-- Two values one behind the other. -/
inductive Both (whole : α → List σ → Prop) (wholeβ : β → List σ → Prop) : α × β → List σ → Prop
  | mk {a : α} {b : β} {item item' : List σ} : whole a item → wholeβ b item' →
      Both whole wholeβ (a, b) (item ++ item')

/-- Only the second value can break off, as nothing can be read behind a broken one. -/
theorem Reader.Meets.andThen (hp : p.Meets whole broken) (hq : q.Meets wholeβ brokenβ)
    (hnil : q [] = none) : (p.andThen q).Meets (Both whole wholeβ) (Both whole brokenβ) := by
  intro input ab rest
  rw [andThen_eq_some_iff]
  constructor
  · rintro ⟨mid, hfirst, hsecond⟩
    cases (hp _ _ _).mp hfirst with
    | whole item ha hinput =>
        cases (hq _ _ _).mp hsecond with
        | whole item' hb hmid =>
            exact .whole _ (.mk ha hb) (by rw [hinput, hmid, List.append_assoc])
        | broken hb hrest =>
            rw [hinput]
            exact .broken (.mk ha hb) hrest
    | broken ha hmid =>
        rw [hmid, hnil] at hsecond
        cases hsecond
  · intro h
    cases h with
    | whole item h hinput =>
        cases h with
        | mk ha hb =>
            rw [hinput, List.append_assoc]
            exact ⟨_, hp.read_whole ha _, hq.read_whole hb _⟩
    | broken h hrest =>
        cases h with
        | mk ha hb =>
            rw [hrest]
            exact ⟨_, hp.read_whole ha _, hq.read_broken hb⟩

/-! ## loops -/

/-- So many values. -/
def Reader.items (p : Reader σ α) : Nat → Reader σ (List α)
  | 0, input => some ([], input)
  | n + 1, input =>
      (p input).bind fun first => (p.items n first.2).map fun more =>
        (first.1 :: more.1, more.2)

theorem items_succ_eq_some_iff {n : Nat} {as : List α} : p.items (n + 1) input = some (as, rest)
    ↔ ∃ a more mid, as = a :: more ∧ p input = some (a, mid)
      ∧ p.items n mid = some (more, rest) := by
  rw [Reader.items]
  cases p input with
  | none => simp
  | some first => cases h : p.items n first.2 <;> grind

/-- Values up to a stop, or to the end of the input. -/
def Reader.itemsUntil [DecidableEq σ] (p : Reader σ α) (stop : σ) : Nat → Reader σ (List α)
  | 0, _ => none
  | _ + 1, [] => some ([], [])
  | fuel + 1, s :: input =>
      if s = stop then some ([], input)
      else (p (s :: input)).bind fun first => (p.itemsUntil stop fuel first.2).map fun more =>
        (first.1 :: more.1, more.2)

theorem itemsUntil_cons_eq_some_iff [DecidableEq σ] {stop s : σ} (hs : s ≠ stop) {fuel : Nat}
    {as : List α} : p.itemsUntil stop (fuel + 1) (s :: input) = some (as, rest)
    ↔ ∃ a more mid, as = a :: more ∧ p (s :: input) = some (a, mid)
      ∧ p.itemsUntil stop fuel mid = some (more, rest) := by
  rw [Reader.itemsUntil, if_neg hs]
  cases p (s :: input) with
  | none => simp
  | some first => cases h : p.itemsUntil stop fuel first.2 <;> grind

/-- Of so many values only the last can break off. -/
theorem Reader.Meets.items (hp : p.Meets whole broken) (hnil : p [] = none) {n : Nat}
    {as : List α} : p.items n input = some (as, rest)
      ↔ as.length = n ∧ Reads (Seq whole) (LastBroken whole broken) as input rest := by
  induction n generalizing input as with
  | zero =>
      constructor
      · intro h
        obtain ⟨rfl, rfl⟩ := Prod.mk.inj (Option.some.inj h)
        exact ⟨rfl, .whole [] .nil rfl⟩
      · rintro ⟨hlength, h⟩
        obtain rfl := List.length_eq_zero_iff.mp hlength
        cases h with
        | whole item h hinput =>
            cases h
            rw [hinput]
            rfl
        | broken h _ => cases h
  | succ n ih =>
      rw [items_succ_eq_some_iff]
      constructor
      · rintro ⟨a, more, mid, rfl, hfirst, hmore⟩
        obtain ⟨hlength, hreads⟩ := ih.mp hmore
        refine ⟨congrArg (· + 1) hlength, ?_⟩
        cases (hp _ _ _).mp hfirst with
        | whole item ha hinput =>
            cases hreads with
            | whole items has hmid =>
                exact .whole _ (.cons ha has) (by rw [hinput, hmid, List.append_assoc])
            | broken has hrest =>
                rw [hinput]
                exact .broken (.cons ha has) hrest
        | broken ha hmid =>
            cases n with
            | zero =>
                obtain ⟨rfl, rfl⟩ := Prod.mk.inj (Option.some.inj hmore)
                exact .broken (.last ha) hmid
            | succ n =>
                obtain ⟨_, _, _, -, hnext, -⟩ := items_succ_eq_some_iff.mp hmore
                rw [hmid, hnil] at hnext
                cases hnext
      · rintro ⟨hlength, h⟩
        cases h with
        | whole items h hinput =>
            cases h with
            | nil => cases hlength
            | cons ha has =>
                rw [hinput, List.append_assoc]
                exact ⟨_, _, _, rfl, hp.read_whole ha _,
                  ih.mpr ⟨Nat.succ.inj hlength, .whole _ has rfl⟩⟩
        | broken h hrest =>
            cases h with
            | last ha =>
                obtain rfl := Nat.succ.inj hlength
                rw [hrest]
                exact ⟨_, _, _, rfl, hp.read_broken ha, rfl⟩
            | cons ha has =>
                exact ⟨_, _, _, rfl, hp.read_whole ha _,
                  ih.mpr ⟨Nat.succ.inj hlength, .broken has hrest⟩⟩

/-- What a value begins with, when it is not the stop. -/
def Begins (stop : σ) (item : List σ) : Prop := ∃ s items, item = s :: items ∧ s ≠ stop

theorem length_lt_of_begins {stop : σ} {item : List σ} (h : Begins stop item)
    (hinput : input = item ++ rest) : rest.length < input.length := by
  obtain ⟨s, items, hitem, -⟩ := h
  rw [hinput, hitem, List.length_append, List.length_cons]
  omega

/-- One round of the loop at a value. -/
theorem itemsUntil_succ_of_begins [DecidableEq σ] {stop : σ} {item mid : List σ}
    (hbegins : Begins stop item) (hinput : input = item ++ mid) {fuel : Nat} {a : α} {as : List α}
    (hfirst : p input = some (a, rest)) {rest' : List σ}
    (hmore : p.itemsUntil stop fuel rest = some (as, rest')) :
    p.itemsUntil stop (fuel + 1) input = some (a :: as, rest') := by
  obtain ⟨s, items, hitem, hs⟩ := hbegins
  rw [hitem] at hinput
  subst hinput
  exact (itemsUntil_cons_eq_some_iff hs).mpr ⟨a, as, rest, rfl, hfirst, hmore⟩

/-- Up to a stop the last value can break off, and the stop can be missing. -/
theorem Reader.Meets.itemsUntil [DecidableEq σ] (hp : p.Meets whole broken) {stop : σ}
    (hwhole : ∀ a item, whole a item → Begins stop item)
    (hbroken : ∀ a item, broken a item → Begins stop item)
    {fuel : Nat} {as : List α} (hfuel : input.length < fuel) :
    p.itemsUntil stop fuel input = some (as, rest)
      ↔ Reads (Stopped whole stop) (EndBroken whole broken) as input rest := by
  induction fuel generalizing input as with
  | zero => exact absurd hfuel (Nat.not_lt_zero _)
  | succ fuel ih =>
      constructor
      · intro h
        cases input with
        | nil =>
            obtain ⟨rfl, rfl⟩ := Prod.mk.inj (Option.some.inj h)
            exact .broken (.inl .nil) rfl
        | cons s input =>
            by_cases hs : s = stop
            · rw [Reader.itemsUntil, if_pos hs] at h
              obtain ⟨rfl, rfl⟩ := Prod.mk.inj (Option.some.inj h)
              exact .whole [stop] ⟨[], .nil, rfl⟩ (by rw [hs]; rfl)
            · obtain ⟨a, more, mid, rfl, hfirst, hmore⟩ := (itemsUntil_cons_eq_some_iff hs).mp h
              cases (hp _ _ _).mp hfirst with
              | whole item ha hinput =>
                  have hlength : mid.length < fuel := Nat.lt_of_lt_of_le
                    (length_lt_of_begins (hwhole a item ha) hinput) (Nat.le_of_lt_succ hfuel)
                  rw [hinput]
                  cases (ih hlength).mp hmore with
                  | whole _ has hmid =>
                      obtain ⟨items, has, rfl⟩ := has
                      exact .whole _ ⟨_, .cons ha has, rfl⟩ (by rw [hmid]; simp)
                  | broken has hrest =>
                      cases has with
                      | inl has => exact .broken (.inl (.cons ha has)) hrest
                      | inr has => exact .broken (.inr (.cons ha has)) hrest
              | broken ha hmid =>
                  cases fuel with
                  | zero => cases hmore
                  | succ fuel =>
                      rw [hmid] at hmore
                      obtain ⟨rfl, rfl⟩ := Prod.mk.inj (Option.some.inj hmore)
                      exact .broken (.inr (.last ha)) rfl
      · intro h
        cases h with
        | whole _ h hinput =>
            obtain ⟨items, has, rfl⟩ := h
            cases has with
            | nil =>
                rw [hinput]
                exact if_pos rfl
            | cons ha has =>
                rename_i a as item items
                have hsplit : input = item ++ (items ++ [stop] ++ rest) := by
                  rw [hinput, List.append_assoc, List.append_assoc, List.append_assoc]
                have hbegins := hwhole a item ha
                have hlength := length_lt_of_begins hbegins hsplit
                exact itemsUntil_succ_of_begins hbegins hsplit (hsplit ▸ hp.read_whole ha _)
                  ((ih (by omega)).mpr (.whole _ ⟨items, has, rfl⟩ rfl))
        | broken h hrest =>
            subst hrest
            have hcons {a : α} {as : List α} {item items : List σ} (ha : whole a item)
                (has : EndBroken whole broken as items) (hinput : input = item ++ items) :
                p.itemsUntil stop (fuel + 1) input = some (a :: as, []) := by
              have hbegins := hwhole a item ha
              have hlength := length_lt_of_begins hbegins hinput
              exact itemsUntil_succ_of_begins hbegins hinput (hinput ▸ hp.read_whole ha _)
                ((ih (by omega)).mpr (.broken has rfl))
            cases h with
            | inl h =>
                cases h with
                | nil => rfl
                | cons ha has => exact hcons ha (.inl has) rfl
            | inr h =>
                cases h with
                | last ha =>
                    rename_i a
                    have hbegins := hbroken a input ha
                    have hlength := length_lt_of_begins hbegins (List.append_nil input).symm
                    exact itemsUntil_succ_of_begins hbegins (List.append_nil input).symm
                      (hp.read_broken ha) ((ih (by rw [List.length_nil] at *; omega)).mpr
                        (.broken (.inl .nil) rfl))
                | cons ha has => exact hcons ha (.inr has) rfl

end Readers

/-! ## readers that need whole values -/

/-- A reader takes the whole values, and nothing that breaks off. -/
def Reader.Takes {σ α : Type} (p : Reader σ α) (whole : α → List σ → Prop) : Prop :=
  ∀ input a rest, p input = some (a, rest) ↔ ∃ item, whole a item ∧ input = item ++ rest

/-- A reader, and one behind it that is made of its value. -/
def Reader.bind {σ α β : Type} (p : Reader σ α) (q : α → Reader σ β) : Reader σ β := fun input =>
  (p input).bind fun read => q read.1 read.2

/-- A value that nothing is read for. -/
def Reader.ret {σ α : Type} (a : α) : Reader σ α := fun input => some (a, input)

section Takes

variable {σ α β : Type} {whole : α → List σ → Prop} {p : Reader σ α} {input : List σ}

theorem Reader.Takes.read (hp : p.Takes whole) {a : α} {item : List σ} (h : whole a item)
    (rest : List σ) : p (item ++ rest) = some (a, rest) :=
  (hp _ _ _).mpr ⟨item, h, rfl⟩

/-- A reader succeeds on the inputs that begin with a value. -/
theorem Reader.Takes.isSome_iff (hp : p.Takes whole) :
    (p input).isSome ↔ ∃ a item rest, whole a item ∧ input = item ++ rest := by
  constructor
  · intro h
    obtain ⟨⟨a, rest⟩, hread⟩ := Option.isSome_iff_exists.mp h
    obtain ⟨item, hitem, hinput⟩ := (hp _ _ _).mp hread
    exact ⟨a, item, rest, hitem, hinput⟩
  · rintro ⟨a, item, rest, hitem, rfl⟩
    rw [hp.read hitem]
    rfl

/-- What stands behind a value decides whether a program that reads it goes on. -/
theorem Reader.Takes.isSome_bind_iff (hp : p.Takes whole) {f : α × List σ → Option β} :
    ((p input).bind f).isSome
      ↔ ∃ a item rest, whole a item ∧ input = item ++ rest ∧ (f (a, rest)).isSome := by
  constructor
  · intro h
    obtain ⟨b, hb⟩ := Option.isSome_iff_exists.mp h
    obtain ⟨⟨a, rest⟩, hread, hrest⟩ := Option.bind_eq_some_iff.mp hb
    obtain ⟨item, hitem, hinput⟩ := (hp _ _ _).mp hread
    exact ⟨a, item, rest, hitem, hinput, Option.isSome_iff_exists.mpr ⟨b, hrest⟩⟩
  · rintro ⟨a, item, rest, hitem, rfl, hrest⟩
    rw [hp.read hitem]
    exact hrest

theorem Reader.Takes.congr (hp : p.Takes whole) {whole' : α → List σ → Prop}
    (h : ∀ a item, whole a item ↔ whole' a item) : p.Takes whole' := by
  intro input a rest
  rw [hp input a rest]
  simp only [h]

theorem takes_ite {c : Prop} [Decidable c] {q : Reader σ α} {whole' : α → List σ → Prop}
    (hp : p.Takes whole) (hq : q.Takes whole') :
    (if c then p else q).Takes fun a item => (c ∧ whole a item) ∨ (¬c ∧ whole' a item) := by
  by_cases hc : c
  · rw [if_pos hc]
    exact hp.congr fun a item => by simp [hc]
  · rw [if_neg hc]
    exact hq.congr fun a item => by simp [hc]

theorem takes_ret (a : α) : (Reader.ret a : Reader σ α).Takes fun b item => b = a ∧ item = [] := by
  intro input b rest
  constructor
  · intro h
    obtain ⟨rfl, rfl⟩ := Prod.mk.inj (Option.some.inj h)
    exact ⟨[], ⟨rfl, rfl⟩, rfl⟩
  · rintro ⟨item, ⟨rfl, rfl⟩, rfl⟩
    rfl

/-- A value, and one behind it whose form can depend on the first. -/
theorem Reader.Takes.bind {q : α → Reader σ β} {whole' : α → β → List σ → Prop}
    (hp : p.Takes whole) (hq : ∀ a, (q a).Takes (whole' a)) :
    (p.bind q).Takes fun b item =>
      ∃ a front back, whole a front ∧ whole' a b back ∧ item = front ++ back := by
  intro input b rest
  unfold Reader.bind
  constructor
  · intro h
    obtain ⟨⟨a, mid⟩, hread, hrest⟩ := Option.bind_eq_some_iff.mp h
    obtain ⟨front, hfront, hinput⟩ := (hp _ _ _).mp hread
    have hmid : ∃ back, whole' a b back ∧ mid = back ++ rest := (hq a _ _ _).mp hrest
    obtain ⟨back, hback, hmid⟩ := hmid
    refine ⟨front ++ back, ⟨a, front, back, hfront, hback, rfl⟩, ?_⟩
    rw [hinput, hmid, List.append_assoc]
  · rintro ⟨_, ⟨a, front, back, hfront, hback, rfl⟩, rfl⟩
    rw [List.append_assoc, hp.read hfront]
    exact (hq a).read hback rest

/-- So many values one after the other. -/
theorem Reader.Takes.items (hp : p.Takes whole) (n : Nat) :
    (p.items n).Takes fun as item => as.length = n ∧ Seq whole as item := by
  induction n with
  | zero =>
      intro input as rest
      constructor
      · intro h
        obtain ⟨rfl, rfl⟩ := Prod.mk.inj (Option.some.inj h)
        exact ⟨[], ⟨rfl, .nil⟩, rfl⟩
      · rintro ⟨item, ⟨hlength, hseq⟩, rfl⟩
        obtain rfl := List.length_eq_zero_iff.mp hlength
        cases hseq
        rfl
  | succ n ih =>
      intro input as rest
      rw [items_succ_eq_some_iff]
      constructor
      · rintro ⟨a, more, mid, rfl, hfirst, hmore⟩
        obtain ⟨item, hitem, hinput⟩ := (hp _ _ _).mp hfirst
        obtain ⟨items, ⟨hlength, hseq⟩, hmid⟩ := (ih _ _ _).mp hmore
        refine ⟨item ++ items, ⟨congrArg (· + 1) hlength, .cons hitem hseq⟩, ?_⟩
        rw [hinput, hmid, List.append_assoc]
      · rintro ⟨item, ⟨hlength, hseq⟩, rfl⟩
        cases hseq with
        | nil => cases hlength
        | cons ha has =>
            rw [List.append_assoc]
            exact ⟨_, _, _, rfl, hp.read ha _, (ih _ _ _).mpr
              ⟨_, ⟨Nat.succ.inj hlength, has⟩, rfl⟩⟩

end Takes

end Tilibs.Lib
