import Tilibs.Lib.Proc

/-!
# Tilibs.Lib.Frame

Frame conditions of procedures: what relates the handle before a procedure to
the handle behind it, whether it returns or stops with an error.

A frame is a preorder on handles.  Procedures within it can be put together in
sequence, by cases and under `attempt`; `Keeps view` is the frame in which a
part of the handle does not change, and `bracket` is the shape in which it may
change in between.
-/

namespace Tilibs.Lib.Proc

variable {σ ε ε' α β τ : Type}

/-- Every run of the procedure stays in the frame. -/
def Within (R : σ → σ → Prop) (p : Proc σ ε α) : Prop := ∀ s, R s (exec p s).2

/-! ## rules -/

section Rules

variable {R : σ → σ → Prop}

theorem within_bind [IsTrans σ R] {p : Proc σ ε α} {f : α → Proc σ ε β} (hp : Within R p)
    (hf : ∀ a, Within R (f a)) : Within R (p >>= f) := by
  intro s
  rw [exec_bind]
  have hfirst := hp s
  cases hrun : exec p s with
  | mk r t =>
      rw [hrun] at hfirst
      cases r with
      | ok a => exact trans_of R hfirst (hf a t)
      | error e => exact hfirst

theorem within_modify {f : σ → σ} (h : ∀ s, R s (f s)) :
    Within R (modify f : Proc σ ε PUnit) := h

theorem within_ite {c : Prop} [Decidable c] {p q : Proc σ ε α} (hp : c → Within R p)
    (hq : ¬c → Within R q) : Within R (if c then p else q) := by
  split
  · rename_i h
    exact hp h
  · rename_i h
    exact hq h

theorem within_attempt {p : Proc σ ε α} (h : Within R p) : Within R (attempt p) := h

theorem Within.mono {R' : σ → σ → Prop} {p : Proc σ ε α} (h : Within R p)
    (himp : ∀ s t, R s t → R' s t) : Within R' p := fun s => himp s _ (h s)

variable [Std.Refl R]

theorem within_pure (a : α) : Within R (pure a : Proc σ ε α) := fun s => refl_of R s

theorem within_throw (e : ε) : Within R (throw e : Proc σ ε α) := fun s => refl_of R s

theorem within_get : Within R (get : Proc σ ε σ) := fun s => refl_of R s

theorem within_ofExcept (x : Except ε α) : Within R (ofExcept x : Proc σ ε α) := by
  intro s
  rw [exec_ofExcept]
  exact refl_of R s

end Rules

/-! ## keeping a part of the handle -/

/-- The frame in which a part of the handle is as it was. -/
def Same (view : σ → τ) (s t : σ) : Prop := view t = view s

instance (view : σ → τ) : Std.Refl (Same view) := ⟨fun _ => rfl⟩

instance (view : σ → τ) : IsTrans σ (Same view) := ⟨fun _ _ _ hst htu => htu.trans hst⟩

/-- A procedure that keeps a part of the handle. -/
abbrev Keeps (view : σ → τ) (p : Proc σ ε α) : Prop := Within (Same view) p

/-! ## procedures on a part of the handle -/

/-- Run a procedure on a part of the handle, for its result or its error. -/
def zoom (part : σ → τ) (put : τ → σ → σ) (p : Proc τ ε' α) : Proc σ ε (Except ε' α) := do
  let s ← get
  set (put (exec p (part s)).2 s)
  pure (exec p (part s)).1

theorem exec_zoom (part : σ → τ) (put : τ → σ → σ) (p : Proc τ ε' α) (s : σ) :
    exec (zoom part put p : Proc σ ε _) s
      = (.ok (exec p (part s)).1, put (exec p (part s)).2 s) := by
  rw [zoom, exec_bind_ok (exec_get s), exec_bind_ok (exec_set _ s), exec_pure]

/-- The rest of the handle stays, whatever happens to the part. -/
theorem within_zoom {R : σ → σ → Prop} {part : σ → τ} {put : τ → σ → σ} {p : Proc τ ε' α}
    (h : ∀ s, R s (put (exec p (part s)).2 s)) :
    Within R (zoom part put p : Proc σ ε _) := by
  intro s
  rw [exec_zoom]
  exact h s

/-! ## brackets -/

/-- Change the handle, run the body and change it back, also when the body
stops with an error. -/
def bracket (acquire : Proc σ ε τ) (release : τ → Proc σ ε Unit) (body : Proc σ ε α) :
    Proc σ ε α := do
  let saved ← acquire
  let ret ← attempt body
  release saved
  ofExcept ret

/-- What the release makes of any handle that the body can leave. -/
theorem exec_bracket {R : σ → σ → Prop} {acquire : Proc σ ε τ} {release : τ → Proc σ ε Unit}
    {body : Proc σ ε α} {P : σ → Prop} {s t : σ} {saved : τ}
    (hacquire : exec acquire s = (.ok saved, t)) (hbody : Within R body)
    (hrelease : ∀ u, R t u → ∃ v, exec (release saved) u = (.ok (), v) ∧ P v) :
    P (exec (bracket acquire release body) s).2 := by
  obtain ⟨v, hrun, hv⟩ := hrelease _ (hbody t)
  rw [bracket, exec_bind_ok hacquire, exec_bind_ok (exec_attempt body t), exec_bind_ok hrun,
    exec_ofExcept]
  exact hv

end Tilibs.Lib.Proc
