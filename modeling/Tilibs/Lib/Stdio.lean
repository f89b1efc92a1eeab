import Mathlib
import Tilibs.Lib.Proc

/-!
# Tilibs.Lib.Stdio

Reading a file as the C library does it: a file is its bytes and a position,
`fread` fails at the end of the file and `fseek` never does.

`Consumes p field a` says that the reader `p` takes exactly the bytes `field` and
returns `a`, whatever follows them.  A format's reader is put together with
`Consumes.bind`, one field after the other.
-/

namespace Tilibs.Lib

/-- An open file: its bytes and the position of the next read. -/
structure InFile where
  bytes : List UInt8
  pos : Nat

namespace InFile

/-- What is left to read. -/
def rest (f : InFile) : List UInt8 := f.bytes.drop f.pos

/-- The file `n` bytes further on. -/
def advance (f : InFile) (n : Nat) : InFile := { f with pos := f.pos + n }

@[simp] theorem advance_zero (f : InFile) : f.advance 0 = f := rfl

@[simp] theorem advance_advance (f : InFile) (m n : Nat) :
    (f.advance m).advance n = f.advance (m + n) := by
  simp [advance, Nat.add_assoc]

@[simp] theorem rest_advance (f : InFile) (n : Nat) : (f.advance n).rest = f.rest.drop n := by
  simp [advance, rest]

end InFile

variable {ε α β : Type}

/-- `fread` of `n` bytes; `err` is what the caller makes of a short read. -/
def fread (err : ε) (n : Nat) : Proc InFile ε (List UInt8) := do
  let f ← get
  if f.rest.length < n then throw err
  else
    set (f.advance n)
    pure (f.rest.take n)

/-- `fseek` from the current position -/
def fskip (n : Nat) : Proc InFile ε Unit := modify fun f => f.advance n

/-- `fseek` from the start of the file -/
def fseek (pos : Nat) : Proc InFile ε Unit := modify fun f => { f with pos := pos }

/-- `ftell` -/
def ftell : Proc InFile ε Nat := do return (← get).pos

/-! ## readers that take exactly their field -/

/-- The reader takes `field` from the front of what is left and returns `a`. -/
def Consumes (p : Proc InFile ε α) (field : List UInt8) (a : α) : Prop :=
  ∀ (f : InFile) (tail : List UInt8), f.rest = field ++ tail →
    Proc.exec p f = (.ok a, f.advance field.length)

theorem Consumes.pure (a : α) : Consumes (Pure.pure a : Proc InFile ε α) [] a :=
  fun _ _ _ => rfl

theorem Consumes.bind {p : Proc InFile ε α} {k : α → Proc InFile ε β} {xs ys : List UInt8}
    {a : α} {b : β} (hp : Consumes p xs a) (hk : Consumes (k a) ys b) :
    Consumes (p >>= k) (xs ++ ys) b := by
  intro f tail h
  rw [List.append_assoc] at h
  have hrest : (f.advance xs.length).rest = ys ++ tail := by simp [h]
  rw [Proc.exec_bind_ok (hp f _ h), hk _ tail hrest]
  simp

/-- A reader that is followed by a pure step. -/
theorem Consumes.bind_pure {p : Proc InFile ε α} {k : α → Proc InFile ε β} {xs : List UInt8}
    {a : α} {b : β} (hp : Consumes p xs a) (hk : Consumes (k a) [] b) :
    Consumes (p >>= k) xs b := by
  have h := hp.bind hk
  rwa [List.append_nil] at h

theorem Consumes.fread (err : ε) {n : Nat} {field : List UInt8} (h : field.length = n) :
    Consumes (Lib.fread err n) field field := by
  intro f tail hf
  have hlen : ¬f.rest.length < n := by simp [hf, h]
  unfold Lib.fread
  rw [Proc.exec_bind_ok (Proc.exec_get f), if_neg hlen, Proc.exec_bind_ok (Proc.exec_set _ f)]
  simp [hf, ← h]

theorem Consumes.fskip {n : Nat} {field : List UInt8} (h : field.length = n) :
    Consumes (Lib.fskip n : Proc InFile ε Unit) field () := by
  intro f tail _
  rw [h]
  rfl

/-- The step of a longer reader whose field is next. -/
theorem Consumes.exec_bind {p : Proc InFile ε α} {k : α → Proc InFile ε β} {field tail : List UInt8}
    {a : α} {f : InFile} (h : Consumes p field a) (hf : f.rest = field ++ tail) :
    Proc.exec (p >>= k) f = Proc.exec (k a) (f.advance field.length) :=
  Proc.exec_bind_ok (h f tail hf)

/-- What follows a field. -/
theorem InFile.rest_advance_append {f : InFile} {field tail : List UInt8} {n : Nat}
    (hf : f.rest = field ++ tail) (hlen : field.length = n) : (f.advance n).rest = tail := by
  simp [hf, ← hlen]

/-- A read that returns takes what it wants from the front of what is left. -/
theorem exec_fread_eq_ok_iff {err : ε} {n : Nat} {f f' : InFile} {field : List UInt8} :
    Proc.exec (Lib.fread err n) f = (.ok field, f')
      ↔ n ≤ f.rest.length ∧ field = f.rest.take n ∧ f' = f.advance n := by
  unfold Lib.fread
  rw [Proc.exec_bind_ok (Proc.exec_get f)]
  by_cases hshort : f.rest.length < n
  · rw [if_pos hshort]
    constructor
    · nofun
    · exact fun h => absurd h.1 (Nat.not_le.mpr hshort)
  · rw [if_neg hshort]
    constructor
    · intro h
      cases h
      exact ⟨Nat.not_lt.mp hshort, rfl, rfl⟩
    · rintro ⟨-, rfl, rfl⟩
      rfl

/-! ## readers that move on -/

/-- A reader that leaves the position where it is or further on. -/
def MovesOn (n : Nat) (p : Proc InFile ε α) : Prop :=
  ∀ f f' a, Proc.exec p f = (.ok a, f') → f.pos + n ≤ f'.pos

theorem MovesOn.pure (a : α) : MovesOn 0 (Pure.pure a : Proc InFile ε α) := by
  intro f f' b h
  cases h
  exact Nat.le_refl _

theorem MovesOn.throw (n : Nat) (e : ε) : MovesOn n (MonadExcept.throw e : Proc InFile ε α) := by
  intro f f' b h
  cases h

theorem MovesOn.bind {n : Nat} {p : Proc InFile ε α} {k : α → Proc InFile ε β}
    (hp : MovesOn n p) (hk : ∀ a, MovesOn 0 (k a)) : MovesOn n (p >>= k) := by
  intro f f' b h
  rw [Proc.exec_bind] at h
  cases hfirst : Proc.exec p f with
  | mk result mid =>
      rw [hfirst] at h
      cases result with
      | error e => cases h
      | ok a =>
          have hle := hp f mid a hfirst
          have hrest := hk a mid f' b h
          omega

theorem MovesOn.mono {m n : Nat} {p : Proc InFile ε α} (h : MovesOn n p) (hle : m ≤ n) :
    MovesOn m p := by
  intro f f' a hexec
  have hmoves := h f f' a hexec
  omega

theorem MovesOn.fskip (n : Nat) : MovesOn n (Lib.fskip n : Proc InFile ε Unit) := by
  intro f f' a h
  cases h
  exact Nat.le_refl _

theorem MovesOn.fread (err : ε) (n : Nat) : MovesOn n (Lib.fread err n) := by
  intro f f' a h
  unfold Lib.fread at h
  rw [Proc.exec_bind_ok (Proc.exec_get f)] at h
  split at h
  · cases h
  · cases h
    exact Nat.le_refl _

/-- A file that is the field alone. -/
theorem Consumes.exec_start {p : Proc InFile ε α} {field : List UInt8} {a : α}
    (h : Consumes p field a) :
    (Proc.exec p ⟨field, 0⟩).1 = .ok a := by
  rw [h ⟨field, 0⟩ [] (by simp [InFile.rest])]

end Tilibs.Lib
