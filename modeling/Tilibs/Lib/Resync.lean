import Mathlib

/-!
# Tilibs.Lib.Resync

Finding the start of a frame in a stream that arrives in pieces.

A reader that is not at a frame boundary drops bytes from the front of its
buffer while the buffer cannot be the beginning of a frame.  What it keeps is
the longest suffix that can, so that nothing of a frame is lost whose
beginnings it all keeps, however the stream is cut.
-/

namespace Tilibs.Lib

variable {α : Type} (keep : List α → Prop) [DecidablePred keep]

/-- Drop from the front what cannot be kept. -/
def resync : List α → List α
  | [] => []
  | a :: rest => if keep (a :: rest) then a :: rest else resync rest

variable {keep}

theorem resync_of_keep {buffer : List α} (h : keep buffer) : resync keep buffer = buffer := by
  cases buffer with
  | nil => rfl
  | cons a rest => rw [resync, if_pos h]

theorem resync_suffix (buffer : List α) : resync keep buffer <:+ buffer := by
  induction buffer with
  | nil => exact List.suffix_refl []
  | cons a rest ih =>
      unfold resync
      split
      · exact List.suffix_refl _
      · exact ih.trans (List.suffix_cons a rest)

theorem keep_resync (hnil : keep []) (buffer : List α) : keep (resync keep buffer) := by
  induction buffer with
  | nil => exact hnil
  | cons a rest ih =>
      unfold resync
      split
      · assumption
      · exact ih

/-- No longer suffix could have been kept. -/
theorem suffix_resync {buffer t : List α} (h : t <:+ buffer) (ht : keep t) :
    t <:+ resync keep buffer := by
  induction buffer with
  | nil => exact h
  | cons a rest ih =>
      cases List.suffix_cons_iff.mp h with
      | inl heq =>
          subst heq
          rw [resync_of_keep ht]
      | inr hrest =>
          unfold resync
          split
          · exact h
          · exact ih hrest

variable (keep) in
/-- The buffer after one more piece of the stream. -/
def resyncFeed (buffer piece : List α) : List α := resync keep (buffer ++ piece)

theorem foldl_resyncFeed_suffix (pieces : List (List α)) :
    pieces.foldl (resyncFeed keep) [] <:+ pieces.flatten := by
  induction pieces using List.reverseRecOn with
  | nil => exact List.suffix_refl []
  | append_singleton pieces piece ih =>
      rw [List.foldl_append, List.flatten_append, List.flatten_singleton]
      exact (resync_suffix _).trans (List.suffix_append_self_iff.mpr ih)

/-- A frame at the end of the stream whose beginnings are all kept is in the buffer. -/
theorem suffix_foldl_resyncFeed {pieces : List (List α)} {t : List α}
    (h : t <:+ pieces.flatten) (hkeep : ∀ s, s <+: t → keep s) :
    t <:+ pieces.foldl (resyncFeed keep) [] := by
  induction pieces using List.reverseRecOn generalizing t with
  | nil => exact h
  | append_singleton pieces piece ih =>
      rw [List.flatten_append, List.flatten_singleton] at h
      rw [List.foldl_append]
      have hbuffer : t <:+ pieces.foldl (resyncFeed keep) [] ++ piece := by
        obtain ⟨junk, hjunk⟩ := h
        cases List.append_eq_append_iff.mp hjunk with
        | inl hstarted =>
            -- the frame began before this piece
            obtain ⟨begun, hflatten, rfl⟩ := hstarted
            have hbegun := ih ⟨junk, hflatten.symm⟩
              (fun s hs => hkeep s (hs.trans (List.prefix_append begun piece)))
            exact List.suffix_append_self_iff.mpr hbegun
        | inr hinside =>
            obtain ⟨before, -, rfl⟩ := hinside
            exact List.suffix_append_of_suffix (List.suffix_append before t)
      exact suffix_resync hbuffer (hkeep t (List.prefix_refl t))

end Tilibs.Lib
