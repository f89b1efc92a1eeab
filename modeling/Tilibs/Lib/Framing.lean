import Mathlib

/-!
# Tilibs.Lib.Framing

Machines that take a stream of items one by one, and are at home between its blocks.

A `Trip` is a run over one block that is not at home before its end.  A machine is `Synchronised`
with a list of blocks when it is at home at the bounds of the blocks and nowhere else; that is one
trip for each block.
-/

namespace Tilibs.Lib

variable {σ β : Type}

/-- A run over a block that is not at home in between. -/
inductive Trip (step : σ → β → Option σ) (home : σ → Prop) : σ → List β → σ → Prop
  | last {s t : σ} {b : β} : step s b = some t → Trip step home s [b] t
  | cons {s t u : σ} {b : β} {bs : List β} :
      step s b = some t → ¬home t → Trip step home t bs u → Trip step home s (b :: bs) u

/-- At each place of the stream the machine is at home exactly when a block ends there. -/
def Synchronised (step : σ → β → Option σ) (home : σ → Prop) (s : σ)
    (blocks : List (List β)) : Prop :=
  ∀ n ≤ blocks.flatten.length, ∃ t, (blocks.flatten.take n).foldlM step s = some t ∧
    (home t ↔ ∃ j, (blocks.take j).flatten.length = n)

section Trip

variable {step : σ → β → Option σ} {home : σ → Prop} {s t t' u : σ} {b : β} {xs ys : List β}

theorem Trip.ne_nil (h : Trip step home s xs t) : xs ≠ [] := by
  cases h <;> exact List.cons_ne_nil _ _

theorem Trip.run (h : Trip step home s xs t) : xs.foldlM step s = some t := by
  induction h with
  | last hstep =>
      rw [List.foldlM_cons, hstep]
      rfl
  | cons hstep _ _ ih =>
      rw [List.foldlM_cons, hstep]
      exact ih

/-- A run has one end. -/
theorem Trip.unique (h : Trip step home s xs t) (h' : Trip step home s xs t') : t = t' :=
  Option.some.inj (h.run.symm.trans h'.run)

/-- Only the first step depends on the state. -/
theorem Trip.of_step_eq {s' : σ} (h : Trip step home s (b :: xs) t)
    (heq : step s' b = step s b) : Trip step home s' (b :: xs) t := by
  cases h with
  | last hstep => exact .last (heq.trans hstep)
  | cons hstep hnot hrest => exact .cons (heq.trans hstep) hnot hrest

theorem Trip.append (h : Trip step home s xs t) (ht : ¬home t) (h' : Trip step home t ys u) :
    Trip step home s (xs ++ ys) u := by
  induction h with
  | last hstep => exact .cons hstep ht h'
  | cons hstep hnot _ ih => exact .cons hstep hnot (ih ht h')

/-- Before its end a trip is not at home. -/
theorem Trip.take (h : Trip step home s xs t) {n : Nat} (hpos : 0 < n) (hlt : n < xs.length) :
    ∃ u, (xs.take n).foldlM step s = some u ∧ ¬home u := by
  induction h generalizing n with
  | last hstep =>
      rw [List.length_singleton] at hlt
      omega
  | @cons s t _ b bs hstep hnot _ ih =>
      obtain ⟨n, rfl⟩ := Nat.exists_eq_succ_of_ne_zero hpos.ne'
      rw [List.take_succ_cons, List.foldlM_cons, hstep]
      rcases Nat.eq_zero_or_pos n with rfl | hpos
      · exact ⟨t, rfl, hnot⟩
      · exact ih hpos (by rw [List.length_cons] at hlt; omega)

/-- A run that is not at home before its end is a trip. -/
theorem trip_of_take (hne : xs ≠ []) (h : xs.foldlM step s = some t)
    (hnot : ∀ n, 0 < n → n < xs.length → ∃ u, (xs.take n).foldlM step s = some u ∧ ¬home u) :
    Trip step home s xs t := by
  induction xs generalizing s with
  | nil => exact absurd rfl hne
  | cons b bs ih =>
      rw [List.foldlM_cons] at h
      obtain ⟨v, hstep, h⟩ := Option.bind_eq_some_iff.mp h
      by_cases hbs : bs = []
      · subst hbs
        cases h
        exact .last hstep
      · have hlen := List.length_pos_iff.mpr hbs
        have hpeel (n : Nat) (hlt : n < bs.length) :
            ∃ u, (bs.take n).foldlM step v = some u ∧ ¬home u := by
          obtain ⟨u, hu, hhome⟩ := hnot (n + 1) (by omega) (by rw [List.length_cons]; omega)
          rw [List.take_succ_cons, List.foldlM_cons, hstep] at hu
          exact ⟨u, hu, hhome⟩
        obtain ⟨u, hu, hhome⟩ := hpeel 0 hlen
        cases hu
        exact .cons hstep hhome (ih hbs h fun n _ hlt => hpeel n hlt)

end Trip

section Synchronised

variable {step : σ → β → Option σ} {home : σ → Prop} {s : σ} {block : List β}
  {blocks : List (List β)}

theorem synchronised_nil (hs : home s) : Synchronised step home s [] := by
  intro n hn
  obtain rfl : n = 0 := Nat.le_zero.mp hn
  exact ⟨s, rfl, fun _ => ⟨0, rfl⟩, fun _ => hs⟩

/-- No block ends within the first one. -/
theorem length_le_of_take_cons {n j : Nat} (hpos : 0 < n)
    (hj : ((block :: blocks).take j).flatten.length = n) : block.length ≤ n := by
  cases j with
  | zero =>
      rw [List.take_zero, List.flatten_nil, List.length_nil] at hj
      omega
  | succ j =>
      rw [List.take_succ_cons, List.flatten_cons, List.length_append] at hj
      omega

/-- The bounds behind the first block are the others, moved. -/
theorem exists_take_cons (hne : block ≠ []) (m : Nat) :
    (∃ j, ((block :: blocks).take j).flatten.length = block.length + m)
      ↔ ∃ j, (blocks.take j).flatten.length = m := by
  constructor
  · rintro ⟨j, hj⟩
    cases j with
    | zero =>
        have hlen := List.length_pos_iff.mpr hne
        rw [List.take_zero, List.flatten_nil, List.length_nil] at hj
        omega
    | succ j =>
        rw [List.take_succ_cons, List.flatten_cons, List.length_append] at hj
        exact ⟨j, by omega⟩
  · rintro ⟨j, hj⟩
    refine ⟨j + 1, ?_⟩
    rw [List.take_succ_cons, List.flatten_cons, List.length_append, hj]

/-- A machine stays synchronised when it makes a trip over the first block and comes home. -/
theorem synchronised_cons (hs : home s) (hne : block ≠ []) :
    Synchronised step home s (block :: blocks)
      ↔ ∃ t, Trip step home s block t ∧ home t ∧ Synchronised step home t blocks := by
  have hlen := List.length_pos_iff.mpr hne
  have hflat : (block :: blocks).flatten.length = block.length + blocks.flatten.length := by
    rw [List.flatten_cons, List.length_append]
  have htake (m : Nat) : ((block :: blocks).flatten.take (block.length + m)).foldlM step s
      = (block.foldlM step s).bind fun t => (blocks.flatten.take m).foldlM step t := by
    rw [List.flatten_cons, List.take_length_add_append, List.foldlM_append]
    rfl
  have hinner (n : Nat) (hn : n ≤ block.length) :
      (block :: blocks).flatten.take n = block.take n := by
    rw [List.flatten_cons, List.take_append_of_le_length hn]
  constructor
  · intro h
    obtain ⟨t, ht, hhome⟩ := h block.length (by omega)
    rw [hinner _ le_rfl, List.take_length] at ht
    refine ⟨t, trip_of_take hne ht fun n hpos hlt => ?_, ?_, fun m hm => ?_⟩
    · obtain ⟨u, hu, hiff⟩ := h n (by omega)
      rw [hinner n hlt.le] at hu
      refine ⟨u, hu, fun hhome => ?_⟩
      obtain ⟨j, hj⟩ := hiff.mp hhome
      exact absurd (length_le_of_take_cons hpos hj) (Nat.not_le.mpr hlt)
    · exact hhome.mpr ((exists_take_cons hne 0).mpr ⟨0, rfl⟩)
    · obtain ⟨u, hu, hiff⟩ := h (block.length + m) (by omega)
      rw [htake, ht] at hu
      exact ⟨u, hu, hiff.trans (exists_take_cons hne m)⟩
  · rintro ⟨t, htrip, hhome, hrest⟩ n hn
    rcases Nat.eq_zero_or_pos n with rfl | hpos
    · exact ⟨s, rfl, fun _ => ⟨0, rfl⟩, fun _ => hs⟩
    · rcases Nat.lt_or_ge n block.length with hlt | hge
      · obtain ⟨u, hu, hnot⟩ := htrip.take hpos hlt
        refine ⟨u, (hinner n hlt.le).symm ▸ hu, fun hu => absurd hu hnot, ?_⟩
        rintro ⟨j, hj⟩
        exact absurd (length_le_of_take_cons hpos hj) (Nat.not_le.mpr hlt)
      · obtain ⟨m, rfl⟩ := Nat.exists_eq_add_of_le hge
        obtain ⟨u, hu, hiff⟩ := hrest m (by omega)
        refine ⟨u, ?_, hiff.trans (exists_take_cons hne m).symm⟩
        rw [htake, htrip.run]
        exact hu

end Synchronised

end Tilibs.Lib
