import Mathlib

/-!
# Tilibs.Lib.Proc

Procedures that work on a handle and may stop with an error code, and the
handle's end of a link.

A procedure is `ExceptT ε (StateM σ)`: the state survives an error, as the
fields of a C handle do.  `exec` runs one from a given handle; the `exec_*`
lemmas are the rules the protocol proofs step with, so no proof unfolds a
monad.

A `Port` holds what the peer will still deliver, what has been handed to the
link so far, and the number of writes after which the link refuses more.
-/

namespace Tilibs.Lib

/-- A procedure over a handle `σ` that returns `α` or stops with an error code. -/
abbrev Proc (σ ε α : Type) := ExceptT ε (StateM σ) α

namespace Proc

variable {σ ε α β : Type}

/-- Run a procedure from the handle `s`. -/
def exec (p : Proc σ ε α) (s : σ) : Except ε α × σ := p.run.run s

/-- A pure computation as a procedure that leaves the handle alone. -/
def ofExcept : Except ε α → Proc σ ε α
  | .ok a => pure a
  | .error e => throw e

/-- Run a procedure for its result or its error code. -/
def attempt (p : Proc σ ε α) : Proc σ ε (Except ε α) := ExceptT.mk (Except.ok <$> p.run)

/-! ## running the constructs -/

@[simp] theorem exec_ofExcept (x : Except ε α) (s : σ) : exec (ofExcept x) s = (x, s) := by
  cases x <;> rfl

@[simp] theorem exec_pure (a : α) (s : σ) : exec (pure a : Proc σ ε α) s = (.ok a, s) := rfl

@[simp] theorem exec_throw (e : ε) (s : σ) : exec (throw e : Proc σ ε α) s = (.error e, s) := rfl

@[simp] theorem exec_get (s : σ) : exec (get : Proc σ ε σ) s = (.ok s, s) := rfl

@[simp] theorem exec_set (t s : σ) : exec (set t : Proc σ ε PUnit) s = (.ok ⟨⟩, t) := rfl

@[simp] theorem exec_modify (f : σ → σ) (s : σ) :
    exec (modify f : Proc σ ε PUnit) s = (.ok ⟨⟩, f s) := rfl

theorem exec_bind (p : Proc σ ε α) (f : α → Proc σ ε β) (s : σ) :
    exec (p >>= f) s = match exec p s with
      | (.ok a, t) => exec (f a) t
      | (.error e, t) => (.error e, t) := by
  simp only [exec, ExceptT.run_bind, StateT.run_bind]
  rcases p.run.run s with ⟨_ | _, _⟩ <;> rfl

/-- A step that returns hands its result and its handle on. -/
theorem exec_bind_ok {p : Proc σ ε α} {f : α → Proc σ ε β} {s t : σ} {a : α}
    (h : exec p s = (.ok a, t)) : exec (p >>= f) s = exec (f a) t := by
  rw [exec_bind, h]

/-- A step that stops ends the whole procedure. -/
theorem exec_bind_error {p : Proc σ ε α} {f : α → Proc σ ε β} {s t : σ} {e : ε}
    (h : exec p s = (.error e, t)) : exec (p >>= f) s = (.error e, t) := by
  rw [exec_bind, h]

theorem exec_bind_fst_error {p : Proc σ ε α} {f : α → Proc σ ε β} {s : σ} {e : ε}
    (h : (exec p s).1 = .error e) : (exec (p >>= f) s).1 = .error e := by
  rw [exec_bind_error (Prod.ext h rfl : exec p s = (.error e, (exec p s).2))]

/-- A sequence returns when both of its steps do. -/
theorem exec_bind_eq_ok_iff {p : Proc σ ε α} {f : α → Proc σ ε β} {s u : σ} {b : β} :
    exec (p >>= f) s = (.ok b, u) ↔ ∃ a t, exec p s = (.ok a, t) ∧ exec (f a) t = (.ok b, u) := by
  rw [exec_bind]
  rcases exec p s with ⟨_ | a, t⟩
  · simp
  · constructor
    · exact fun h => ⟨a, t, rfl, h⟩
    · rintro ⟨a', t', heq, h⟩
      cases heq
      exact h

@[simp] theorem exec_attempt (p : Proc σ ε α) (s : σ) :
    exec (attempt p) s = (.ok (exec p s).1, (exec p s).2) := rfl

@[simp] theorem exec_map (f : α → β) (p : Proc σ ε α) (s : σ) :
    exec (f <$> p) s = ((exec p s).1.map f, (exec p s).2) := by
  rw [← bind_pure_comp, exec_bind]
  rcases exec p s with ⟨_ | _, _⟩ <;> rfl

@[simp] theorem exec_ite (c : Prop) [Decidable c] (p q : Proc σ ε α) (s : σ) :
    exec (if c then p else q) s = if c then exec p s else exec q s := by
  split <;> rfl

end Proc

/-! ## one end of a link -/

/-- One end of a link: the items still to arrive, the items sent, and after
how many more writes the link fails (`none`: it never does). -/
structure Port (α β : Type) where
  rx : List α
  tx : List β
  fault : Option Nat
  deriving DecidableEq, Repr

namespace Port

variable {α β : Type}

/-- Write one item; `none` when the link refuses it. -/
def send (p : Port α β) (b : β) : Option (Port α β) :=
  match p.fault with
  | none => some { p with tx := p.tx ++ [b] }
  | some 0 => none
  | some (k + 1) => some { p with tx := p.tx ++ [b], fault := some k }

/-- Write a block of items in one transfer. -/
def sendAll (p : Port α β) (bs : List β) : Option (Port α β) :=
  match p.fault with
  | none => some { p with tx := p.tx ++ bs }
  | some 0 => none
  | some (k + 1) => some { p with tx := p.tx ++ bs, fault := some k }

/-- Take the next item off the link. -/
def recv (p : Port α β) : Option (α × Port α β) :=
  match p.rx with
  | [] => none
  | a :: as => some (a, { p with rx := as })

/-- Take exactly `n` items off the link, or none at all. -/
def recvN (p : Port α β) (n : Nat) : Option (List α × Port α β) :=
  if n ≤ p.rx.length then some (p.rx.take n, { p with rx := p.rx.drop n }) else none

/-- A port that refuses no write, with the given traffic still to arrive. -/
def incoming (rx : List α) : Port α β := ⟨rx, [], none⟩

@[simp] theorem send_mk (rx : List α) (tx : List β) (b : β) :
    send ⟨rx, tx, none⟩ b = some ⟨rx, tx ++ [b], none⟩ := rfl

@[simp] theorem sendAll_mk (rx : List α) (tx bs : List β) :
    sendAll ⟨rx, tx, none⟩ bs = some ⟨rx, tx ++ bs, none⟩ := rfl

@[simp] theorem recv_cons (a : α) (as : List α) (tx : List β) (k : Option Nat) :
    recv ⟨a :: as, tx, k⟩ = some (a, ⟨as, tx, k⟩) := rfl

@[simp] theorem recv_nil (tx : List β) (k : Option Nat) :
    recv (⟨[], tx, k⟩ : Port α β) = none := rfl

/-- A block at the front of the traffic is read whole. -/
theorem recvN_append {n : Nat} {as : List α} (rest : List α) (tx : List β) (k : Option Nat)
    (h : as.length = n) :
    recvN ⟨as ++ rest, tx, k⟩ n = some (as, ⟨rest, tx, k⟩) := by
  subst h
  simp [recvN]

/-- A block longer than what is left is not read. -/
theorem recvN_short {n : Nat} {p : Port α β} (h : p.rx.length < n) : recvN p n = none := by
  simp [recvN, Nat.not_le.mpr h]

end Port

end Tilibs.Lib
