import Mathlib

/-!
# Tilibs.Lib.Run

Runs of a system that takes one step after the other and puts something out at
each: the outputs of a run, the steps that meet a condition, and the rule that
what every step preserves holds of a run.
-/

namespace Tilibs.Lib

variable {ι σ α : Type}

/-- The outputs of the steps `is` from the state `s` on, and the last state. -/
def runSteps (step : ι → σ → List α × σ) : List ι → σ → List α × σ
  | [], s => ([], s)
  | i :: is, s =>
      ((step i s).1 ++ (runSteps step is (step i s).2).1, (runSteps step is (step i s).2).2)

/-- Every step of a run is taken in a state that meets its condition. -/
def EachStep (step : ι → σ → List α × σ) (ok : ι → σ → Prop) : List ι → σ → Prop
  | [], _ => True
  | i :: is, s => ok i s ∧ EachStep step ok is (step i s).2

/-- What holds of each step from a state with the invariant, and is transitive,
holds of a run. -/
theorem runSteps_rel {step : ι → σ → List α × σ} {ok : ι → σ → Prop} {inv : σ → Prop}
    (rel : List ι → σ → List α → σ → Prop) (hrefl : ∀ s, rel [] s [] s)
    (htrans : ∀ is js s t u out out', rel is s out t → rel js t out' u →
      rel (is ++ js) s (out ++ out') u)
    (hstep : ∀ i s, inv s → ok i s →
      rel [i] s (step i s).1 (step i s).2 ∧ inv (step i s).2)
    {is : List ι} {s : σ} (hinv : inv s) (hok : EachStep step ok is s) :
    rel is s (runSteps step is s).1 (runSteps step is s).2 ∧ inv (runSteps step is s).2 := by
  induction is generalizing s with
  | nil => exact ⟨hrefl s, hinv⟩
  | cons i is ih =>
      obtain ⟨hok, hrest⟩ := hok
      obtain ⟨hrel, hinv'⟩ := hstep i s hinv hok
      obtain ⟨hrel', hinv''⟩ := ih hinv' hrest
      exact ⟨htrans [i] is s _ _ _ _ hrel hrel', hinv''⟩

/-- When a step keeps `inv` in exactly the states that meet its condition, `inv`
holds of every state a run reaches exactly when every step meets its condition.
`keep` is what every step preserves. -/
theorem forall_scanl_iff {next : σ → ι → σ} {ok : ι → σ → Prop} {keep inv : σ → Prop}
    (hkeep : ∀ s i, keep s → keep (next s i))
    (hstep : ∀ s i, keep s → inv s → (inv (next s i) ↔ ok i s))
    {is : List ι} {s : σ} (hk : keep s) (hinv : inv s) :
    (∀ t ∈ is.scanl next s, inv t) ↔ ∀ p ∈ is.zip (is.scanl next s), ok p.1 p.2 := by
  induction is generalizing s with
  | nil => simpa using hinv
  | cons i is ih =>
      simp only [List.scanl_cons, List.zip_cons_cons, List.forall_mem_cons]
      constructor
      · intro h
        have hnext : inv (next s i) := h.2 _ (by cases is <;> simp)
        exact ⟨(hstep s i hk hinv).1 hnext, (ih (hkeep s i hk) hnext).1 h.2⟩
      · intro h
        have hnext : inv (next s i) := (hstep s i hk hinv).2 h.1
        exact ⟨hinv, (ih (hkeep s i hk) hnext).2 h.2⟩

/-- What every step preserves holds of every state a run reaches. -/
theorem forall_mem_scanl {next : σ → ι → σ} (keep : σ → Prop)
    (hkeep : ∀ s i, keep s → keep (next s i)) {is : List ι} {s : σ} (hk : keep s) :
    ∀ t ∈ is.scanl next s, keep t := by
  induction is generalizing s with
  | nil => simpa using hk
  | cons i is ih =>
      simp only [List.scanl_cons, List.forall_mem_cons]
      exact ⟨hk, ih (hkeep s i hk)⟩

end Tilibs.Lib
