import Mathlib

/-!
# Tilibs.Lib.Channel

Runs of a system whose parties take turns in any order, and the channel that two of them share:
what is read off it is what was written to it, in order.

A run is `Relation.ReflTransGen` of the steps, so nothing is said about who moves when.  A system
is tied to the channel by a view of its states: a step changes nothing that the view shows, or does
what the channel can do (`run_refines`).
-/

namespace Tilibs.Lib

open Relation

/-! ## runs -/

section Runs

variable {σ τ : Type*} {Step : σ → σ → Prop} {inv : σ → Prop} {s t : σ}

/-- What every step keeps holds at the end of a run. -/
theorem run_keeps (hstep : ∀ s t, inv s → Step s t → inv t) (hrun : ReflTransGen Step s t)
    (hs : inv s) : inv t := by
  induction hrun with
  | refl => exact hs
  | tail _ hlast ih => exact hstep _ _ ih hlast

/-- A run is a run of what the view shows, where each step is one of the other system or shows
nothing new. -/
theorem run_refines {Abs : τ → τ → Prop} (view : σ → τ)
    (hstep : ∀ s t, inv s → Step s t → inv t ∧ (view t = view s ∨ Abs (view s) (view t)))
    (hrun : ReflTransGen Step s t) (hs : inv s) : inv t ∧ ReflTransGen Abs (view s) (view t) := by
  induction hrun with
  | refl => exact ⟨hs, .refl⟩
  | tail _ hlast ih =>
      obtain ⟨hkeep, hview⟩ := hstep _ _ ih.1 hlast
      refine ⟨hkeep, ?_⟩
      rcases hview with hsame | habs
      · rw [hsame]
        exact ih.2
      · exact ih.2.tail habs

/-- The actions that are possible are taken, one after the other. -/
def acted {α : Type*} (act : σ → α → Option σ) (s : σ) (actions : List α) : σ :=
  actions.foldl (fun s a => (act s a).getD s) s

theorem run_acted {α : Type*} {act : σ → α → Option σ}
    (hact : ∀ s a t, act s a = some t → Step s t) (s : σ) (actions : List α) :
    ReflTransGen Step s (acted act s actions) := by
  induction actions generalizing s with
  | nil => exact .refl
  | cons a actions ih =>
      rw [acted, List.foldl_cons]
      cases hnext : act s a with
      | none => exact ih s
      | some t => exact .head (hact s a t hnext) (ih t)

/-- A run of so many steps. -/
inductive Steps (Step : σ → σ → Prop) : Nat → σ → σ → Prop
  | refl (s : σ) : Steps Step 0 s s
  | tail {n : Nat} {s t u : σ} (hrun : Steps Step n s t) (hlast : Step t u) : Steps Step (n + 1) s u

theorem Steps.run {n : Nat} (h : Steps Step n s t) : ReflTransGen Step s t := by
  induction h with
  | refl => exact .refl
  | tail _ hlast ih => exact ih.tail hlast

/-- Where every step has one less left to do, a run is as long as what it has done. -/
theorem Steps.length_eq {n : Nat} (left : σ → Nat)
    (hstep : ∀ s t, inv s → Step s t → inv t ∧ left t + 1 = left s) (h : Steps Step n s t)
    (hs : inv s) : inv t ∧ left t + n = left s := by
  induction h with
  | refl => exact ⟨hs, rfl⟩
  | tail _ hlast ih =>
      obtain ⟨hinv, hleft⟩ := ih hs
      obtain ⟨hnext, hless⟩ := hstep _ _ hinv hlast
      exact ⟨hnext, by omega⟩

end Runs

/-! ## two parties -/

/-- One of two parties. -/
inductive Side
  | zero
  | one
  deriving DecidableEq, Repr

namespace Side

def other : Side → Side
  | .zero => .one
  | .one => .zero

variable {p q : Side}

@[simp] theorem other_other (p : Side) : p.other.other = p := by cases p <;> rfl

theorem other_ne (p : Side) : p.other ≠ p := by cases p <;> decide

theorem eq_other_of_ne (h : q ≠ p) : q = p.other := by cases p <;> cases q <;> trivial

/-- What both parties have is what one of them has and the other has. -/
theorem add_other (f : Side → Nat) (p : Side) : f .zero + f .one = f p + f p.other := by
  cases p with
  | zero => rfl
  | one => exact Nat.add_comm _ _

end Side

/-! ## the channel -/

/-- What has been written since the channel was last cleared, what is on its way, and what has been
read. -/
@[ext] structure Channel (α : Type*) where
  written : List α
  queue : List α
  read : List α

namespace Channel

variable {α : Type*}

def empty : Channel α := ⟨[], [], []⟩

/-- What can happen to a channel. -/
inductive Step : Channel α → Channel α → Prop
  | push {c : Channel α} (a : α) :
      Step c { c with written := c.written ++ [a], queue := c.queue ++ [a] }
  | pop {c : Channel α} {a : α} {rest : List α} (h : c.queue = a :: rest) :
      Step c { c with queue := rest, read := c.read ++ [a] }
  | clear {c : Channel α} : Step c empty

/-- Nothing is lost, doubled or put in another order. -/
def Fifo (c : Channel α) : Prop := c.written = c.read ++ c.queue

theorem Step.fifo {c d : Channel α} (hc : c.Fifo) (hstep : Step c d) : d.Fifo := by
  cases hstep with
  | push a =>
      show c.written ++ [a] = c.read ++ (c.queue ++ [a])
      rw [show c.written = c.read ++ c.queue from hc, List.append_assoc]
  | @pop a rest h =>
      show c.written = c.read ++ [a] ++ rest
      rw [show c.written = c.read ++ c.queue from hc, h, List.append_assoc, List.singleton_append]
  | clear => rfl

/-- A channel that starts empty is first in, first out. -/
theorem fifo_of_run {c : Channel α} (hrun : ReflTransGen Step empty c) : c.Fifo :=
  run_keeps (fun _ _ hc hstep => hstep.fifo hc) hrun rfl

end Channel

end Tilibs.Lib
