import Mathlib

/-!
# Tilibs.Lib.Keyed

Lists whose elements have distinct keys: what is found at a key is the only element there, so
that to replace it is a map over the list.
-/

namespace Tilibs.Lib

variable {α κ : Type} {key : α → κ} {k : κ} {xs : List α}

/-- The keys of the elements differ. -/
def DistinctKeys (key : α → κ) (xs : List α) : Prop := (xs.map key).Nodup

theorem DistinctKeys.tail {x : α} (h : DistinctKeys key (x :: xs)) : DistinctKeys key xs :=
  (List.nodup_cons.mp h).2

theorem DistinctKeys.ne_of_mem {x y : α} (h : DistinctKeys key (x :: xs)) (hy : y ∈ xs) :
    key x ≠ key y :=
  fun heq => (List.nodup_cons.mp h).1 (heq ▸ List.mem_map_of_mem hy)

/-- An element is the only one with its key. -/
theorem DistinctKeys.eq_of_mem {x y : α} (h : DistinctKeys key xs) (hx : x ∈ xs) (hy : y ∈ xs)
    (heq : key x = key y) : x = y :=
  List.inj_on_of_nodup_map h hx hy heq

/-- A map that keeps the keys keeps them distinct. -/
theorem DistinctKeys.map {f : α → α} (h : DistinctKeys key xs) (hf : ∀ x ∈ xs, key (f x) = key x) :
    DistinctKeys key (xs.map f) := by
  have hkeys : (xs.map f).map key = xs.map key := by
    rw [List.map_map]
    exact List.map_congr_left hf
  unfold DistinctKeys
  rw [hkeys]
  exact h

/-- The elements of a key take another key, which no other element has. -/
theorem DistinctKeys.map_replace [DecidableEq κ] {f : α → α} {k' : κ} (h : DistinctKeys key xs)
    (hf : ∀ x ∈ xs, key x = k → key (f x) = k') (hother : ∀ x ∈ xs, key x ≠ k → key x ≠ k') :
    DistinctKeys key (xs.map fun x => if key x = k then f x else x) := by
  unfold DistinctKeys
  rw [List.map_map]
  refine List.Nodup.map_on (fun x hx y hy heq => ?_) (List.Nodup.of_map _ h)
  dsimp only [Function.comp_apply] at heq
  by_cases hxk : key x = k
  · by_cases hyk : key y = k
    · exact h.eq_of_mem hx hy (hxk.trans hyk.symm)
    · rw [if_pos hxk, if_neg hyk, hf x hx hxk] at heq
      exact absurd heq.symm (hother y hy hyk)
  · by_cases hyk : key y = k
    · rw [if_neg hxk, if_pos hyk, hf y hy hyk] at heq
      exact absurd heq (hother x hx hxk)
    · rw [if_neg hxk, if_neg hyk] at heq
      exact h.eq_of_mem hx hy heq

theorem DistinctKeys.filter (h : DistinctKeys key xs) (p : α → Bool) :
    DistinctKeys key (xs.filter p) :=
  h.sublist (List.filter_sublist.map key)

/-- A list in front of another that has other keys. -/
theorem DistinctKeys.append {ys : List α} (hxs : DistinctKeys key xs) (hys : DistinctKeys key ys)
    (hdiffer : ∀ x ∈ xs, ∀ y ∈ ys, key x ≠ key y) : DistinctKeys key (xs ++ ys) := by
  unfold DistinctKeys
  rw [List.map_append]
  refine List.nodup_append.mpr ⟨hxs, hys, ?_⟩
  intro a ha b hb
  obtain ⟨x, hx, rfl⟩ := List.mem_map.mp ha
  obtain ⟨y, hy, rfl⟩ := List.mem_map.mp hb
  exact hdiffer x hx y hy

variable [DecidableEq κ]

/-- To replace what is found at a key is to replace all elements with this key. -/
theorem DistinctKeys.set_findIdx? (h : DistinctKeys key xs) {i : Nat}
    (hfound : xs.findIdx? (fun x => key x = k) = some i) :
    ∃ x, xs[i]? = some x ∧ key x = k
      ∧ ∀ y, xs.set i y = xs.map fun x => if key x = k then y else x := by
  induction xs generalizing i with
  | nil => cases hfound
  | cons x xs ih =>
      rw [List.findIdx?_cons] at hfound
      by_cases hx : key x = k
      · rw [if_pos (decide_eq_true hx)] at hfound
        cases hfound
        refine ⟨x, rfl, hx, fun y => ?_⟩
        have hothers : xs.map (fun x => if key x = k then y else x) = xs := by
          conv_rhs => rw [← List.map_id xs]
          refine List.map_congr_left fun z hz => ?_
          rw [if_neg (fun hzk => h.ne_of_mem hz (hx.trans hzk.symm))]
          rfl
        rw [List.map_cons, if_pos hx, hothers]
        rfl
      · rw [if_neg (by simpa using hx)] at hfound
        obtain ⟨j, hj, rfl⟩ := Option.map_eq_some_iff.mp hfound
        obtain ⟨z, hz, hzk, hset⟩ := ih h.tail hj
        refine ⟨z, hz, hzk, fun y => ?_⟩
        rw [List.map_cons, if_neg hx, ← hset]
        rfl

/-- To change what is found at a key is to change all elements with this key. -/
theorem DistinctKeys.modify_findIdx? (h : DistinctKeys key xs) {i : Nat}
    (hfound : xs.findIdx? (fun x => key x = k) = some i) (f : α → α) :
    xs.modify i f = xs.map fun x => if key x = k then f x else x := by
  obtain ⟨x, hx, hxk, hset⟩ := h.set_findIdx? hfound
  have hmodify : xs.modify i f = xs.set i (f x) := by
    refine List.ext_getElem? fun j => ?_
    rw [List.getElem?_modify, List.getElem?_set']
    by_cases hij : i = j
    · subst hij
      simp only [if_true, hx]
      rfl
    · simp only [hij, if_false]
      exact id_map _
  rw [hmodify, hset]
  refine List.map_congr_left fun y hy => ?_
  by_cases hyk : key y = k
  · rw [if_pos hyk, if_pos hyk, h.eq_of_mem hy (List.mem_of_getElem? hx) (hyk.trans hxk.symm)]
  · rw [if_neg hyk, if_neg hyk]

theorem notMem_of_findIdx?_eq_none (h : xs.findIdx? (fun x => key x = k) = none) :
    ∀ x ∈ xs, key x ≠ k := by
  intro x hx hk
  have hnone := List.findIdx?_eq_none_iff.mp h x hx
  rw [decide_eq_false_iff_not] at hnone
  exact hnone hk

end Tilibs.Lib
