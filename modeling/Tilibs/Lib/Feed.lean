import Tilibs.Lib.Proc

/-!
# Tilibs.Lib.Feed

Procedures with a fuel argument on an endless input.  A handle is fed a list of inputs, and a
procedure stops on a stream when it reads so many of them and then returns, whatever follows.
-/

namespace Tilibs.Lib

variable {σ ε α ι : Type}

/-- The first inputs of a stream. -/
def inputs (events : Nat → ι) (n : Nat) : List ι := (List.range n).map events

/-- The stream behind its first input. -/
def later (events : Nat → ι) : Nat → ι := fun i => events (i + 1)

@[simp] theorem inputs_zero (events : Nat → ι) : inputs events 0 = [] := rfl

@[simp] theorem length_inputs (events : Nat → ι) (n : Nat) : (inputs events n).length = n := by
  simp [inputs]

theorem inputs_succ (events : Nat → ι) (n : Nat) :
    inputs events (n + 1) = events 0 :: inputs (later events) n := by
  unfold inputs later
  rw [List.range_succ_eq_map, List.map_cons, List.map_map]
  rfl

/-- The procedure reads `n` inputs and returns, and does not look at what follows. -/
def StopsOn (feed : σ → List ι → σ) (p : Nat → Proc σ ε α) (s : σ) (events : Nat → ι) : Prop :=
  ∃ n r s', ∀ tail fuel, n < fuel →
    Proc.exec (p fuel) (feed s (inputs events n ++ tail)) = (r, feed s' tail)

/-- The procedure reads all that there is, if it is long enough. -/
def HangsOn (feed : σ → List ι → σ) (left : σ → List ι) (p : Nat → Proc σ ε α) (s : σ)
    (events : Nat → ι) : Prop :=
  ∃ k, ∀ m fuel, k ≤ m → m < fuel →
    left (Proc.exec (p fuel) (feed s (inputs events m))).2 = []

variable {feed : σ → List ι → σ} {left : σ → List ι} {p q : Nat → Proc σ ε α} {s s' : σ}
  {events : Nat → ι}

/-- A procedure that returns before it reads anything. -/
theorem StopsOn.now {r : Except ε α}
    (h : ∀ rx fuel, Proc.exec (p (fuel + 1)) (feed s rx) = (r, feed s' rx)) :
    StopsOn feed p s events := by
  refine ⟨0, r, s', fun tail fuel hfuel => ?_⟩
  cases fuel with
  | zero => omega
  | succ fuel => exact h tail fuel

/-- A procedure that returns after one input. -/
theorem StopsOn.once {r : Except ε α}
    (h : ∀ rx fuel, Proc.exec (p (fuel + 1)) (feed s (events 0 :: rx)) = (r, feed s' rx)) :
    StopsOn feed p s events := by
  refine ⟨1, r, s', fun tail fuel hfuel => ?_⟩
  cases fuel with
  | zero => omega
  | succ fuel =>
      rw [inputs_succ, inputs_zero]
      exact h tail fuel

/-- A procedure that goes on as another one after the first input. -/
theorem StopsOn.step
    (h : ∀ rx fuel, Proc.exec (p (fuel + 1)) (feed s (events 0 :: rx))
      = Proc.exec (q fuel) (feed s' rx))
    (hstops : StopsOn feed q s' (later events)) : StopsOn feed p s events := by
  obtain ⟨n, r, s'', hrun⟩ := hstops
  refine ⟨n + 1, r, s'', fun tail fuel hfuel => ?_⟩
  cases fuel with
  | zero => omega
  | succ fuel =>
      rw [inputs_succ, List.cons_append, h]
      exact hrun tail fuel (by omega)

theorem HangsOn.step
    (h : ∀ rx fuel, Proc.exec (p (fuel + 1)) (feed s (events 0 :: rx))
      = Proc.exec (q fuel) (feed s' rx))
    (hhangs : HangsOn feed left q s' (later events)) : HangsOn feed left p s events := by
  obtain ⟨k, hrun⟩ := hhangs
  refine ⟨k + 1, fun m fuel hm hfuel => ?_⟩
  cases m with
  | zero => omega
  | succ m =>
      cases fuel with
      | zero => omega
      | succ fuel =>
          rw [inputs_succ, h]
          exact hrun m fuel (by omega) (by omega)

/-- A procedure that hangs does not stop. -/
theorem HangsOn.not_stopsOn (hleft : ∀ s rx, left (feed s rx) = rx)
    (hhangs : HangsOn feed left p s events) : ¬StopsOn feed p s events := by
  rintro ⟨n, r, s', hrun⟩
  obtain ⟨k, hall⟩ := hhangs
  have hfirst : inputs events n ++ (inputs events (n + k + 1)).drop n = inputs events (n + k + 1) := by
    have htake : (inputs events (n + k + 1)).take n = inputs events n := by
      unfold inputs
      rw [← List.map_take, List.take_range, Nat.min_eq_left (by omega)]
    rw [← htake, List.take_append_drop]
  have hnone := hall (n + k + 1) (n + k + 2) (by omega) (by omega)
  rw [← hfirst, hrun _ (n + k + 2) (by omega), hleft] at hnone
  have hlen := congrArg List.length hnone
  rw [List.length_drop, length_inputs, List.length_nil] at hlen
  omega

end Tilibs.Lib
