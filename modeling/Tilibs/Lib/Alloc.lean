import Tilibs.Lib.Proc

/-!
# Tilibs.Lib.Alloc

Procedures that allocate: what a pointer points to has an address, and every allocation takes an
address that was not taken before.
-/

namespace Tilibs.Lib

/-- A pointer that is not NULL: an address, and what is there. -/
structure Ptr (α : Type) where
  addr : Nat
  val : α
  deriving DecidableEq

/-- A procedure that allocates; the addresses from a number on are free. -/
abbrev Alloc (ε α : Type) := Proc Nat ε α

variable {ε α β ι : Type}

/-- A new place that holds `a`. -/
def malloc (a : α) : Alloc ε (Ptr α) := do
  let next ← get
  set (next + 1)
  return ⟨next, a⟩

/-- The procedure returns something with `Q`, whatever is free, if at least `lo` is the first
address that is. -/
def Allocates (lo : Nat) (p : Alloc ε α) (Q : α → Prop) : Prop :=
  ∀ next, lo ≤ next → ∃ a next', Proc.exec p next = (.ok a, next') ∧ next ≤ next' ∧ Q a

namespace Allocates

variable {lo : Nat} {p : Alloc ε α} {f : α → Alloc ε β} {Q : α → Prop} {R : β → Prop}

theorem pure {a : α} (h : Q a) : Allocates lo (pure a : Alloc ε α) Q :=
  fun next _ => ⟨a, next, rfl, le_rfl, h⟩

theorem malloc {a : α} {Q : Ptr α → Prop} (h : ∀ addr, lo ≤ addr → Q ⟨addr, a⟩) :
    Allocates lo (Lib.malloc a : Alloc ε (Ptr α)) Q :=
  fun next hlo => ⟨⟨next, a⟩, next + 1, rfl, Nat.le_succ next, h next hlo⟩

theorem bind (hp : Allocates lo p Q) (hf : ∀ a, Q a → Allocates lo (f a) R) :
    Allocates lo (p >>= f) R := by
  intro next hlo
  obtain ⟨a, next', hrun, hle, ha⟩ := hp next hlo
  obtain ⟨b, next'', hrun', hle', hb⟩ := hf a ha next' (hlo.trans hle)
  exact ⟨b, next'', (Proc.exec_bind_ok hrun).trans hrun', hle.trans hle', hb⟩

/-- A loop returns what its turns return. -/
theorem mapM {is : List ι} {f : ι → Alloc ε β} {R : ι → β → Prop}
    (h : ∀ i ∈ is, Allocates lo (f i) (R i)) : Allocates lo (is.mapM f) (List.Forall₂ R is) := by
  induction is with
  | nil => exact pure .nil
  | cons i is ih =>
      rw [List.mapM_cons]
      obtain ⟨hi, his⟩ := List.forall_mem_cons.mp h
      exact bind hi fun b hb => bind (ih his) fun bs hbs => pure (.cons hb hbs)

end Allocates

/-- In a loop that returns, every turn does. -/
theorem forall₂_of_exec_mapM {σ : Type} {is : List ι} {f : ι → Proc σ ε β} {bs : List β} {s t : σ}
    (h : Proc.exec (is.mapM f) s = (.ok bs, t)) :
    List.Forall₂ (fun i b => ∃ s t, Proc.exec (f i) s = (.ok b, t)) is bs := by
  induction is generalizing s bs with
  | nil =>
      cases h
      exact .nil
  | cons i is ih =>
      rw [List.mapM_cons] at h
      obtain ⟨b, u, hb, h⟩ := Proc.exec_bind_eq_ok_iff.mp h
      obtain ⟨rest, v, hrest, h⟩ := Proc.exec_bind_eq_ok_iff.mp h
      cases h
      exact .cons ⟨s, u, hb⟩ (ih hrest)

end Tilibs.Lib
