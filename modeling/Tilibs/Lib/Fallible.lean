import Mathlib

/-!
# Tilibs.Lib.Fallible

Programs that may fail, in `Except` and in `Option`: a program that succeeds is taken
apart step by step, without unfolding what comes after the step.
-/

namespace Tilibs.Lib

variable {ε α β : Type}

/-- A sequence succeeds when both of its parts do. -/
theorem bind_eq_ok_iff {x : Except ε α} {f : α → Except ε β} {b : β} :
    (x >>= f) = .ok b ↔ ∃ a, x = .ok a ∧ f a = .ok b := by
  cases x with
  | error e => simp [bind, Except.bind]
  | ok a => simp [bind, Except.bind]

theorem map_eq_ok_iff {x : Except ε α} {f : α → β} {b : β} :
    x.map f = .ok b ↔ ∃ a, x = .ok a ∧ f a = b := by
  cases x with
  | error e => simp [Except.map]
  | ok a => simp [Except.map]

theorem mapError_eq_ok_iff {ε' : Type} {x : Except ε α} {f : ε → ε'} {a : α} :
    x.mapError f = .ok a ↔ x = .ok a := by
  cases x with
  | error e => simp [Except.mapError]
  | ok a => simp [Except.mapError]

/-- A check that fails stops the program. -/
theorem check_eq_ok_iff {p : Prop} [Decidable p] {e : ε} {x : Except ε α} {a : α} :
    (if p then .error e else x) = .ok a ↔ ¬ p ∧ x = .ok a := by
  by_cases h : p <;> simp [h]

/-- A guard in a program that may fail. -/
theorem guard_bind_eq_some_iff {p : Prop} [Decidable p] {f : Unit → Option α} {a : α} :
    ((guard p : Option Unit) >>= f) = some a ↔ p ∧ f () = some a := by
  by_cases h : p <;> simp [h]

/-! ## related lists -/

/-- In related lists every element has a partner. -/
theorem exists_of_forall₂ {R : α → β → Prop} {as : List α} {bs : List β}
    (h : List.Forall₂ R as bs) :
    (∀ a ∈ as, ∃ b ∈ bs, R a b) ∧ ∀ b ∈ bs, ∃ a ∈ as, R a b := by
  induction h with
  | nil => exact ⟨nofun, nofun⟩
  | cons hab _ ih =>
      constructor
      · intro a ha
        rcases List.mem_cons.mp ha with rfl | ha
        · exact ⟨_, List.mem_cons_self, hab⟩
        · obtain ⟨b, hb, hR⟩ := ih.1 a ha
          exact ⟨b, List.mem_cons_of_mem _ hb, hR⟩
      · intro b hb
        rcases List.mem_cons.mp hb with rfl | hb
        · exact ⟨_, List.mem_cons_self, hab⟩
        · obtain ⟨a, ha, hR⟩ := ih.2 b hb
          exact ⟨a, List.mem_cons_of_mem _ ha, hR⟩

theorem forall₂_comp {γ : Type} {R : α → β → Prop} {S : β → γ → Prop} {as : List α} {bs : List β}
    {cs : List γ} (h : List.Forall₂ R as bs) (h' : List.Forall₂ S bs cs) :
    List.Forall₂ (fun a c => ∃ b, R a b ∧ S b c) as cs := by
  induction h generalizing cs with
  | nil =>
      cases h'
      exact .nil
  | cons hab _ ih =>
      cases h' with
      | cons hbc hrest => exact .cons ⟨_, hab, hbc⟩ (ih hrest)

/-! ## loops -/

/-- A loop whose steps append to what they find appends what all of its steps do. -/
theorem foldlM_eq_append {σ ι : Type} {f : σ → ι → Except ε σ} (get : σ → List β)
    {out : ι → List β} {is : List ι} (hstep : ∀ i ∈ is, ∀ s s', f s i = .ok s' → get s' = get s ++ out i)
    {s s' : σ} (h : is.foldlM f s = .ok s') : get s' = get s ++ is.flatMap out := by
  induction is generalizing s with
  | nil =>
      cases h
      simp
  | cons i is ih =>
      obtain ⟨t, ht, hrest⟩ := bind_eq_ok_iff.mp h
      have hhead := hstep i List.mem_cons_self s t ht
      rw [ih (fun j hj => hstep j (List.mem_cons_of_mem i hj)) hrest, hhead, List.flatMap_cons,
        List.append_assoc]

/-- What every step keeps, the loop keeps. -/
theorem foldlM_invariant {σ ι : Type} {f : σ → ι → Except ε σ} {P : σ → Prop}
    (hstep : ∀ s i s', P s → f s i = .ok s' → P s') {is : List ι} {s s' : σ} (hs : P s)
    (h : is.foldlM f s = .ok s') : P s' := by
  induction is generalizing s with
  | nil =>
      cases h
      exact hs
  | cons i is ih =>
      obtain ⟨t, ht, hrest⟩ := bind_eq_ok_iff.mp h
      exact ih (hstep s i t hs ht) hrest

/-- What holds of the steps that are done, and is kept by one more, holds of all of them. -/
theorem foldlM_prefix {σ ι : Type} {f : σ → ι → Except ε σ} {P : List ι → σ → Prop}
    (hstep : ∀ done i s s', P done s → f s i = .ok s' → P (done ++ [i]) s') {done is : List ι}
    {s s' : σ} (hs : P done s) (h : is.foldlM f s = .ok s') : P (done ++ is) s' := by
  induction is generalizing done s with
  | nil =>
      cases h
      rw [List.append_nil]
      exact hs
  | cons i is ih =>
      obtain ⟨t, ht, hrest⟩ := bind_eq_ok_iff.mp h
      have hnext := ih (hstep done i s t hs ht) hrest
      rw [List.append_assoc] at hnext
      exact hnext

theorem mapM_cons_eq_ok_iff {ι : Type} {f : ι → Except ε β} {i : ι} {is : List ι} {bs : List β} :
    (i :: is).mapM f = .ok bs ↔ ∃ b rest, f i = .ok b ∧ is.mapM f = .ok rest ∧ bs = b :: rest := by
  rw [List.mapM_cons]
  constructor
  · intro h
    obtain ⟨b, hb, h⟩ := bind_eq_ok_iff.mp h
    obtain ⟨rest, hrest, h⟩ := bind_eq_ok_iff.mp h
    cases h
    exact ⟨b, rest, hb, hrest, rfl⟩
  · rintro ⟨b, rest, hb, hrest, rfl⟩
    rw [hb, hrest]
    rfl

theorem forall₂_of_mapM_eq_ok {ι : Type} {f : ι → Except ε β} {is : List ι} {bs : List β}
    (h : is.mapM f = .ok bs) : List.Forall₂ (fun i b => f i = .ok b) is bs := by
  induction is generalizing bs with
  | nil =>
      cases h
      exact .nil
  | cons i is ih =>
      obtain ⟨b, rest, hb, hrest, rfl⟩ := mapM_cons_eq_ok_iff.mp h
      exact .cons hb (ih hrest)

/-- In a loop that succeeds every step does. -/
theorem exists_of_mem_of_foldlM {σ ι : Type} {f : σ → ι → Except ε σ} {is : List ι} {s s' : σ}
    (h : is.foldlM f s = .ok s') {i : ι} (hi : i ∈ is) : ∃ t t', f t i = .ok t' := by
  induction is generalizing s with
  | nil => cases hi
  | cons j is ih =>
      obtain ⟨t, ht, hrest⟩ := bind_eq_ok_iff.mp h
      rcases List.mem_cons.mp hi with rfl | hi
      · exact ⟨s, t, ht⟩
      · exact ih hrest hi

/-! ## postconditions -/

/-- A program that fails with allowed errors only, and whose result meets `post`. -/
def Ensures (allowed : ε → Prop) (x : Except ε α) (post : α → Prop) : Prop :=
  match x with
  | .ok a => post a
  | .error e => allowed e

section Ensures

variable {allowed : ε → Prop} {x : Except ε α} {post post' : α → Prop}

theorem Ensures.pure {a : α} (h : post a) : Ensures allowed (Pure.pure a) post := h

theorem Ensures.error {e : ε} (h : allowed e) :
    Ensures allowed (.error e : Except ε α) post := h

theorem Ensures.bind {f : α → Except ε β} {post : β → Prop} {mid : α → Prop}
    (hx : Ensures allowed x mid) (hf : ∀ a, mid a → Ensures allowed (f a) post) :
    Ensures allowed (x >>= f) post := by
  cases x with
  | error e => exact hx
  | ok a => exact hf a hx

/-- A check in front of a program. -/
theorem Ensures.check {p : Prop} [Decidable p] {e : ε} (he : p → allowed e)
    (hx : ¬p → Ensures allowed x post) : Ensures allowed (if p then .error e else x) post := by
  by_cases hp : p
  · rw [if_pos hp]
    exact he hp
  · rw [if_neg hp]
    exact hx hp

/-- The result is one that the program really has. -/
theorem Ensures.strengthen (hx : Ensures allowed x post) :
    Ensures allowed x fun a => x = .ok a ∧ post a := by
  cases x with
  | error e => exact hx
  | ok a => exact ⟨rfl, hx⟩

theorem Ensures.mono (hx : Ensures allowed x post) (himp : ∀ a, post a → post' a) :
    Ensures allowed x post' := by
  cases x with
  | error e => exact hx
  | ok a => exact himp a hx

/-- What a program that succeeds guarantees. -/
theorem Ensures.of_ok {a : α} (hx : Ensures allowed x post) (h : x = .ok a) : post a := by
  rw [h] at hx
  exact hx

/-- An error that is not allowed does not occur. -/
theorem Ensures.ne_error {e : ε} (hx : Ensures allowed x post) (he : ¬ allowed e) :
    x ≠ .error e := by
  intro h
  rw [h] at hx
  exact he hx

end Ensures

end Tilibs.Lib
