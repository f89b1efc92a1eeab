import Mathlib

/-!
# Tilibs.Cables.Summary

The tables of values that the log decompilers (`hex2dusb.cc`, `hex2nsp.cc`) print behind a log.

A value is searched for in the cells below the counter, but it is stored in the cell above it.  The
first cell stays zero, and the last value that was stored is neither found again nor printed; so
the list is right only for logs that settle on their last new value (`Settled`).
-/

namespace Tilibs.Cables

/-! ## the tables -/

/-- `ARRAY_SIZE` -/
def arraySize : Nat := 256

/-- A table and its counter; the warning is that of the first value that found no room. -/
structure FoundTable (α : Type) where
  found : List α
  count : Nat
  warning : Option String
  deriving DecidableEq

section Table

variable {α : Type} [DecidableEq α] [Zero α]

/-- The table at the start of the program. -/
def FoundTable.start : FoundTable α := ⟨List.replicate arraySize 0, 0, none⟩

/-- What the functions that add a value do, with what they return. -/
def FoundTable.add (noRoom : String) (table : FoundTable α) (value : α) : Nat × FoundTable α :=
  if value ∈ table.found.take table.count then (0, table)
  else if table.count < arraySize - 1 then
    (table.count + 1,
      { table with
        found := table.found.set (table.count + 1) value
        count := table.count + 1 })
  else (table.count, { table with warning := some noRoom })

/-- The values that are printed. -/
def FoundTable.printed (table : FoundTable α) : List α := table.found.take table.count

def addPktType (table : FoundTable UInt8) (type : UInt8) : Nat × FoundTable UInt8 :=
  table.add "DUSB protocol interpreter: no room left in pkt_type_found array." type

def addDataCode (table : FoundTable UInt16) (code : UInt16) : Nat × FoundTable UInt16 :=
  table.add "DUSB protocol interpreter: no room left in data_code_found array." code

def addSid (table : FoundTable UInt16) (id : UInt16) : Nat × FoundTable UInt16 :=
  table.add "NSP protocol interpreter: no room left in sid_found array." id

def addAddr (table : FoundTable UInt16) (addr : UInt16) : Nat × FoundTable UInt16 :=
  table.add "NSP protocol interpreter: no room left in addr_found array." addr

/-- The table with more values, one after the other. -/
def FoundTable.addAll (noRoom : String) (table : FoundTable α) (values : List α) : FoundTable α :=
  values.foldl (fun table value => (table.add noRoom value).2) table

/-! ## what they are to print -/

/-- Each value that occurred is in the list once, and no other value is. -/
def Exact (list occurred : List α) : Prop :=
  list.Nodup ∧ ∀ value, value ∈ list ↔ value ∈ occurred

/-- The last value that was new, in values that are given last first; zero is never new. -/
def lastNew : List α → α
  | [] => 0
  | value :: earlier => if value = 0 ∨ value ∈ earlier then lastNew earlier else value

/-- No value follows the last new one again before another new one comes. -/
def InOrder : List α → Prop
  | [] => True
  | value :: earlier => InOrder earlier ∧ value ≠ lastNew earlier

/-- The first value to be repeated so is the last new one, and nothing new follows. -/
def Settled : List α → Prop
  | [] => False
  | value :: earlier =>
      Settled earlier ∧ (value = 0 ∨ value ∈ earlier)
        ∨ InOrder earlier ∧ value = lastNew earlier

instance decidableInOrder : (values : List α) → Decidable (InOrder values)
  | [] => .isTrue trivial
  | _ :: earlier =>
      have := decidableInOrder earlier
      inferInstanceAs (Decidable (_ ∧ _))

instance decidableSettled : (values : List α) → Decidable (Settled values)
  | [] => .isFalse id
  | _ :: earlier =>
      have := decidableSettled earlier
      inferInstanceAs (Decidable (_ ∧ _ ∨ _ ∧ _))

/-! ## the cells that are used -/

/-- The cells up to the counter, after values that are given last first. -/
def cells : List α → List α
  | [] => [0]
  | value :: earlier =>
      if value ∈ (cells earlier).dropLast ∨ arraySize ≤ (cells earlier).length then cells earlier
      else cells earlier ++ [value]

variable {r : List α} {value : α} {M : List α} {last : α}

theorem cells_cons (hcells : cells r = M ++ [last]) :
    cells (value :: r) =
      if value ∈ M ∨ arraySize ≤ M.length + 1 then M ++ [last] else M ++ [last] ++ [value] := by
  rw [cells, hcells, List.dropLast_concat, List.length_append, List.length_singleton]

/-- The distinct values with zero, of which a list that has them once is made. -/
theorem length_eq_card {l : List α} (hnodup : l.Nodup) (hmem : ∀ v, v ∈ l ↔ v ∈ 0 :: r) :
    l.length = (0 :: r).toFinset.card := by
  rw [← List.toFinset_card_of_nodup hnodup]
  congr 1
  ext v
  rw [List.mem_toFinset, List.mem_toFinset]
  exact hmem v

theorem card_le_cons : (0 :: r).toFinset.card ≤ (0 :: value :: r).toFinset.card := by
  refine Finset.card_le_card fun v hv => ?_
  rw [List.mem_toFinset] at hv ⊢
  rcases List.mem_cons.mp hv with rfl | hv
  · exact List.mem_cons_self
  · exact List.mem_cons_of_mem _ (List.mem_cons_of_mem _ hv)

theorem card_cons_of_notMem (h : value ∉ 0 :: r) :
    (0 :: value :: r).toFinset.card = (0 :: r).toFinset.card + 1 := by
  have hcomm : (0 :: value :: r).toFinset = insert value (0 :: r).toFinset := by
    rw [List.toFinset_cons, List.toFinset_cons, List.toFinset_cons, Finset.insert_comm]
  rw [hcomm, Finset.card_insert_of_notMem (fun hmem => h (List.mem_toFinset.mp hmem))]

omit [DecidableEq α] in
theorem mem_cons_iff_of_mem (h : value ∈ 0 :: r) (v : α) : v ∈ 0 :: value :: r ↔ v ∈ 0 :: r := by
  rw [List.mem_cons] at h
  constructor
  · intro hv
    rcases List.mem_cons.mp hv with rfl | hv
    · exact List.mem_cons_self
    · rcases List.mem_cons.mp hv with rfl | hv
      · exact List.mem_cons.mpr h
      · exact List.mem_cons_of_mem _ hv
  · intro hv
    rcases List.mem_cons.mp hv with rfl | hv
    · exact List.mem_cons_self
    · exact List.mem_cons_of_mem _ (List.mem_cons_of_mem _ hv)

/-- In order the cells hold each value once, the last new one at the end. -/
theorem cells_of_inOrder (h : InOrder r) (hroom : (0 :: r).toFinset.card ≤ arraySize) :
    ∃ M, cells r = M ++ [lastNew r] ∧ (M ++ [lastNew r]).Nodup
      ∧ ∀ v, v ∈ M ++ [lastNew r] ↔ v ∈ 0 :: r := by
  induction r with
  | nil => exact ⟨[], rfl, List.nodup_singleton 0, fun v => Iff.rfl⟩
  | cons value r ih =>
      obtain ⟨hearlier, hne⟩ := h
      obtain ⟨M, hcells, hnodup, hmem⟩ := ih hearlier (card_le_cons.trans hroom)
      by_cases hold : value = 0 ∨ value ∈ r
      · have hlast : lastNew (value :: r) = lastNew r := if_pos hold
        have hfound : value ∈ M := by
          rcases List.mem_append.mp ((hmem value).mpr (List.mem_cons.mpr hold)) with hM | hlast
          · exact hM
          · exact absurd (List.mem_singleton.mp hlast) hne
        refine ⟨M, ?_, ?_, fun v => ?_⟩
        · rw [hlast, cells_cons hcells, if_pos (Or.inl hfound)]
        · rw [hlast]
          exact hnodup
        · rw [hlast, hmem, mem_cons_iff_of_mem (List.mem_cons.mpr hold)]
      · have hlast : lastNew (value :: r) = value := if_neg hold
        have hnew : value ∉ M ++ [lastNew r] := by
          rw [hmem, List.mem_cons]
          exact hold
        have hlength := length_eq_card hnodup hmem
        rw [card_cons_of_notMem (fun hmem => hold (List.mem_cons.mp hmem)), ← hlength,
          List.length_append, List.length_singleton] at hroom
        refine ⟨M ++ [lastNew r], ?_, ?_, fun v => ?_⟩
        · rw [hlast, cells_cons hcells, if_neg]
          rintro (hfound | hfull)
          · exact hnew (List.mem_append_left _ hfound)
          · omega
        · rw [hlast]
          exact List.nodup_append.mpr ⟨hnodup, List.nodup_singleton _, fun a ha b hb hab =>
            hnew (List.mem_singleton.mp hb ▸ hab ▸ ha)⟩
        · rw [hlast, List.mem_append, hmem, List.mem_singleton, List.mem_cons, List.mem_cons,
            List.mem_cons]
          tauto

/-- Settled cells hold each value once below the last cell, which holds one of them again. -/
theorem cells_of_settled (h : Settled r) (hroom : (0 :: r).toFinset.card < arraySize) :
    ∃ M last, cells r = M ++ [last] ∧ M.Nodup ∧ last ∈ M ∧ ∀ v, v ∈ M ↔ v ∈ 0 :: r := by
  induction r with
  | nil => exact absurd h id
  | cons value r ih =>
      rcases h with ⟨hearlier, hold⟩ | ⟨horder, rfl⟩
      · obtain ⟨M, last, hcells, hnodup, hlast, hmem⟩ := ih hearlier (card_le_cons.trans_lt hroom)
        refine ⟨M, last, ?_, hnodup, hlast, fun v => ?_⟩
        · rw [cells_cons hcells, if_pos (Or.inl ((hmem value).mpr (List.mem_cons.mpr hold)))]
        · rw [hmem, mem_cons_iff_of_mem (List.mem_cons.mpr hold)]
      · have hroom' := card_le_cons.trans_lt hroom
        obtain ⟨M, hcells, hnodup, hmem⟩ := cells_of_inOrder horder hroom'.le
        have hlast : lastNew r ∈ M ++ [lastNew r] :=
          List.mem_append_right _ (List.mem_singleton_self _)
        have hlength := length_eq_card hnodup hmem
        rw [List.length_append, List.length_singleton] at hlength
        refine ⟨M ++ [lastNew r], lastNew r, ?_, hnodup, hlast, fun v => ?_⟩
        · rw [cells_cons hcells, if_neg]
          rintro (hfound | hfull)
          · exact (List.nodup_append.mp hnodup).2.2 _ hfound _ (List.mem_singleton_self _) rfl
          · omega
        · rw [hmem, mem_cons_iff_of_mem ((hmem _).mp hlast)]

/-- Otherwise a value is printed twice. -/
theorem not_nodup_of_not_settled (horder : ¬InOrder r) (hsettled : ¬Settled r)
    (hroom : (0 :: r).toFinset.card < arraySize) : ¬(cells r).dropLast.Nodup := by
  induction r with
  | nil => exact absurd trivial horder
  | cons value r ih =>
      have hroom' := card_le_cons.trans_lt hroom
      by_cases hearlier : Settled r
      · have hnew : ¬(value = 0 ∨ value ∈ r) := fun hold => hsettled (Or.inl ⟨hearlier, hold⟩)
        obtain ⟨M, last, hcells, hnodup, hlast, hmem⟩ := cells_of_settled hearlier hroom'
        have hlength := length_eq_card hnodup hmem
        rw [card_cons_of_notMem (fun hmem => hnew (List.mem_cons.mp hmem)), ← hlength] at hroom
        rw [cells_cons hcells, if_neg, List.dropLast_concat]
        · intro hboth
          exact (List.nodup_append.mp hboth).2.2 _ hlast _ (List.mem_singleton_self _) rfl
        · rintro (hfound | hfull)
          · exact hnew (List.mem_cons.mp ((hmem value).mp hfound))
          · omega
      · by_cases hearly : InOrder r
        · have hlast : value ≠ lastNew r := fun heq => hsettled (Or.inr ⟨hearly, heq⟩)
          exact absurd ⟨hearly, hlast⟩ horder
        · have htwice := ih hearly hearlier hroom'
          rw [cells]
          split
          · exact htwice
          · rw [List.dropLast_concat]
            exact fun hnodup => htwice (hnodup.sublist (List.dropLast_sublist _))

/-- Zero is printed when there is a value. -/
theorem zero_mem_printed (hne : r ≠ []) : 0 ∈ (cells r).dropLast := by
  induction r with
  | nil => exact absurd rfl hne
  | cons value r ih =>
      rw [cells]
      cases r with
      | nil =>
          rw [if_neg (by simp [cells, arraySize]), List.dropLast_concat]
          exact List.mem_singleton_self _
      | cons value' r =>
          have hzero := ih (List.cons_ne_nil _ _)
          split
          · exact hzero
          · rw [List.dropLast_concat]
            exact (List.dropLast_sublist _).subset hzero

/-- The last new value is one that occurred. -/
theorem lastNew_mem (hne : r ≠ []) (h : InOrder r) : lastNew r ∈ r := by
  induction r with
  | nil => exact absurd rfl hne
  | cons value r ih =>
      obtain ⟨hearlier, hlast⟩ := h
      rw [lastNew]
      split
      · next hold =>
        cases r with
        | nil => exact absurd (hold.resolve_right List.not_mem_nil) hlast
        | cons value' r => exact List.mem_cons_of_mem _ (ih (List.cons_ne_nil _ _) hearlier)
      · exact List.mem_cons_self

/-- The printed list is exact when nothing occurred, or when the values settled and zero
occurred. -/
theorem exact_printed_iff {occurred : List α} (hsub : ∀ v ∈ r, v ∈ occurred)
    (hroom : occurred.toFinset.card < arraySize) :
    Exact (cells r).dropLast occurred ↔
      r = [] ∧ occurred = []
        ∨ Settled r ∧ 0 ∈ occurred ∧ ∀ v ∈ occurred, v = 0 ∨ v ∈ r := by
  have hcard (hzero : 0 ∈ occurred) : (0 :: r).toFinset.card < arraySize := by
    refine (Finset.card_le_card fun v hv => ?_).trans_lt hroom
    rw [List.mem_toFinset] at hv ⊢
    rcases List.mem_cons.mp hv with rfl | hv
    · exact hzero
    · exact hsub v hv
  constructor
  · rintro ⟨hnodup, hmem⟩
    by_cases hne : r = []
    · subst hne
      refine Or.inl ⟨rfl, List.eq_nil_iff_forall_not_mem.mpr fun v hv => ?_⟩
      exact List.not_mem_nil ((hmem v).mpr hv)
    · right
      have hzero : (0 : α) ∈ occurred := (hmem 0).mp (zero_mem_printed hne)
      have hsettled : Settled r := by
        by_contra hnot
        by_cases horder : InOrder r
        · obtain ⟨M, hcells, hboth, -⟩ := cells_of_inOrder horder (hcard hzero).le
          have hlast := (hmem _).mpr (hsub _ (lastNew_mem hne horder))
          rw [hcells, List.dropLast_concat] at hlast
          exact (List.nodup_append.mp hboth).2.2 _ hlast _ (List.mem_singleton_self _) rfl
        · exact not_nodup_of_not_settled horder hnot (hcard hzero) hnodup
      obtain ⟨M, last, hcells, -, -, hM⟩ := cells_of_settled hsettled (hcard hzero)
      refine ⟨hsettled, hzero, fun v hv => List.mem_cons.mp ?_⟩
      have hbelow : (cells r).dropLast = M := by rw [hcells, List.dropLast_concat]
      rw [← hM, ← hbelow]
      exact (hmem v).mpr hv
  · rintro (⟨rfl, rfl⟩ | ⟨hsettled, hzero, hall⟩)
    · exact ⟨List.nodup_nil, fun v => Iff.rfl⟩
    · obtain ⟨M, last, hcells, hnodup, -, hM⟩ := cells_of_settled hsettled (hcard hzero)
      rw [hcells, List.dropLast_concat]
      refine ⟨hnodup, fun v => ?_⟩
      rw [hM, List.mem_cons]
      constructor
      · rintro (rfl | hv)
        · exact hzero
        · exact hsub v hv
      · exact hall v

/-! ## the code -/

variable {noRoom : String} {table : FoundTable α}

/-- A table with these values in its cells. -/
structure FoundTable.Holds (table : FoundTable α) (r : List α) : Prop where
  size : table.found.length = arraySize
  used : table.found.take (table.count + 1) = cells r
  length : (cells r).length = table.count + 1

theorem FoundTable.Holds.printed (h : table.Holds r) : table.printed = (cells r).dropLast := by
  unfold FoundTable.printed
  rw [List.dropLast_eq_take, h.length, Nat.add_sub_cancel, ← h.used, List.take_take,
    Nat.min_eq_left (Nat.le_succ _)]

theorem FoundTable.start_holds : FoundTable.Holds (FoundTable.start : FoundTable α) [] where
  size := List.length_replicate
  used := rfl
  length := rfl

/-- A value is added to the cells. -/
theorem FoundTable.Holds.add (h : table.Holds r) (value : α) :
    (table.add noRoom value).2.Holds (value :: r) := by
  have hprinted := h.printed
  unfold FoundTable.printed at hprinted
  unfold FoundTable.add
  rw [hprinted]
  by_cases hfound : value ∈ (cells r).dropLast
  · have hcells : cells (value :: r) = cells r := if_pos (Or.inl hfound)
    rw [if_pos hfound]
    exact ⟨h.size, hcells.symm ▸ h.used, hcells.symm ▸ h.length⟩
  · rw [if_neg hfound]
    by_cases hroom : table.count < arraySize - 1
    · have hcells : cells (value :: r) = cells r ++ [value] := by
        refine if_neg ?_
        rintro (hmem | hfull)
        · exact hfound hmem
        · rw [h.length] at hfull
          unfold arraySize at hroom hfull
          omega
      rw [if_pos hroom]
      refine ⟨?_, ?_, ?_⟩
      · exact List.length_set.trans h.size
      · rw [hcells, ← h.used]
        have hlt : table.count + 1 < table.found.length := by
          rw [h.size]
          unfold arraySize at hroom ⊢
          omega
        dsimp only
        rw [List.take_set, List.take_succ_eq_append_getElem hlt, List.set_append_right _ _ (by
          rw [List.length_take]
          omega), List.length_take, Nat.min_eq_left hlt.le, Nat.sub_self]
        rfl
      · rw [hcells, List.length_append, h.length]
        rfl
    · have hcells : cells (value :: r) = cells r := by
        refine if_pos (Or.inr ?_)
        rw [h.length]
        unfold arraySize at hroom ⊢
        omega
      rw [if_neg hroom]
      exact ⟨h.size, hcells.symm ▸ h.used, hcells.symm ▸ h.length⟩

theorem FoundTable.Holds.addAll (h : table.Holds r) (values : List α) :
    (table.addAll noRoom values).Holds (values.reverse ++ r) := by
  induction values generalizing table r with
  | nil => exact h
  | cons value values ih =>
      rw [List.reverse_cons, List.append_assoc]
      exact ih (h.add value)

/-- The list behind a log is exact when no value occurred, or when zero did and the values settled
on the last new one. -/
theorem FoundTable.exact_addAll_iff {values occurred : List α} (hsub : ∀ v ∈ values, v ∈ occurred)
    (hroom : occurred.toFinset.card < arraySize) :
    Exact (FoundTable.start.addAll noRoom values).printed occurred ↔
      values = [] ∧ occurred = []
        ∨ Settled values.reverse ∧ 0 ∈ occurred ∧ ∀ v ∈ occurred, v = 0 ∨ v ∈ values := by
  have hholds : (FoundTable.start.addAll noRoom values).Holds (values.reverse ++ []) :=
    FoundTable.start_holds.addAll values
  rw [List.append_nil] at hholds
  rw [hholds.printed, exact_printed_iff (fun v hv => hsub v (List.mem_reverse.mp hv)) hroom,
    List.reverse_eq_nil_iff]
  simp only [List.mem_reverse]

end Table

end Tilibs.Cables
