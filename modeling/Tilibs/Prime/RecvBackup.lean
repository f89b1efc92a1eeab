import Tilibs.Prime.File

/-!
# Tilibs.Prime.RecvBackup

The reception of a backup, `calc_prime_r_recv_backup` of `prime_cmd.c`, with the array of
`hpfiles.c` that it grows.

The array is a block of slots; a `realloc` that succeeds moves it.  The caller has the block that
was published before the last reception, and it is to end in NULL whatever failed.  That is so
exactly when every `realloc` succeeds: the one that fails leaves the array full of entries.
-/

namespace Tilibs.Prime

/-! ## a file -/

/-- A slot of the array; what `realloc` adds holds nothing yet. -/
inductive Slot
  | garbage
  | null
  | entry (file : PrimeFile)
  deriving DecidableEq

/-- What a call of `calc_prime_r_recv_file` meets: the packet that is read and inflated, or the
error of that, and whether there is memory for the entry. -/
structure FileEvent where
  message : Except PrimeErr (List UInt8)
  created : Bool

/-- `calc_prime_r_recv_file` with a slot to put the file in: what it returns, and the slot. -/
def calcPrimeRRecvFileInto (slot : Slot) (event : FileEvent) : Option PrimeErr × Slot :=
  match event.message with
  | .error e => (some e, slot)
  | .ok packet =>
      match readFilePacket packet with
      | .error e => (some e, .null)
      | .ok none => (none, .null)
      | .ok (some file) => if event.created then (none, .entry file) else (some .malloc, .null)

/-- The file that is received, if one is. -/
def FileEvent.file (event : FileEvent) : Option PrimeFile :=
  match calcPrimeRRecvFileInto .null event with
  | (none, .entry file) => some file
  | _ => none

/-! ## the array -/

/-- What the loop keeps: the block that `entries` points to, its slots, the block that `*out_vars`
points to, and the number of entries. -/
structure BackupState where
  live : Nat
  slots : List Slot
  out : Option Nat
  count : Nat

/-- What the function returns, and what the caller finds. -/
structure BackupResult where
  error : Option PrimeErr
  out : Option Nat
  live : Nat
  slots : List Slot

def BackupState.stop (st : BackupState) (error : Option PrimeErr) : BackupResult :=
  ⟨error, st.out, st.live, st.slots⟩

/-- `element_count + 1`, in 32 bits. -/
def slotCount (elementCount : Nat) : Nat := (elementCount + 1) % 2 ^ 32

/-- The slots of a block after a `realloc` that succeeds. -/
def resized (slots : List Slot) (n : Nat) : List Slot :=
  slots.take n ++ List.replicate (n - slots.length) .garbage

/-- What is done with an entry; `mem` is which sizes of the array there is memory for.  A `realloc`
to no slots frees the block. -/
def backupResize (mem : Nat → Bool) (st : BackupState) : Except BackupResult BackupState :=
  let count := (st.count + 1) % 2 ^ 32
  let n := slotCount count
  if n = 0 then .error { st.stop (some .undefinedBehaviour) with slots := [] }
  else if mem n = false then .error (st.stop (some .malloc))
  else .ok { st with live := st.live + 1, slots := (resized st.slots n).set count .null, count }

/-- A turn of the loop. -/
def backupTurn (mem : Nat → Bool) (event : FileEvent) (st : BackupState) :
    Except BackupResult BackupState :=
  let st := { st with out := some st.live }
  match st.slots[st.count]? with
  | none => .error (st.stop (some .undefinedBehaviour))
  | some slot =>
      let (error, slot) := calcPrimeRRecvFileInto slot event
      let st := { st with slots := st.slots.set st.count slot }
      match error with
      | some e => .error (st.stop (some e))
      | none => if slot = .null then .error (st.stop none) else backupResize mem st

/-- The loop; when nothing more is sent, the reception fails. -/
def backupLoop (mem : Nat → Bool) : List FileEvent → BackupState → BackupResult
  | [], st => { st with out := some st.live }.stop (some .cableRead)
  | event :: events, st =>
      match backupTurn mem event st with
      | .error result => result
      | .ok st => backupLoop mem events st

/-- `calc_prime_r_recv_backup`; the handle and `out_vars` are there. -/
def calcPrimeRRecvBackup (mem : Nat → Bool) (events : List FileEvent) : BackupResult :=
  if mem (slotCount 0) = false then ⟨some .malloc, none, 0, []⟩
  else backupLoop mem events ⟨0, [.null], none, 0⟩

/-! ## the array that the caller has -/

/-- The files that are received until something else is, or the array cannot grow. -/
def received (mem : Nat → Bool) : List FileEvent → Nat → List PrimeFile
  | [], _ => []
  | event :: events, count =>
      match event.file with
      | none => []
      | some file => file :: if mem (count + 2) then received mem events (count + 1) else []

/-- The caller has the block with these files in their order and NULL behind them. -/
def BackupResult.Holds (result : BackupResult) (files : List PrimeFile) : Prop :=
  result.out = some result.live ∧ ∃ rest, result.slots = files.map .entry ++ .null :: rest

/-- The state in front of a reception. -/
structure BackupState.Holds (st : BackupState) (files : List PrimeFile) : Prop where
  slots : st.slots = files.map .entry ++ [.null]
  count : st.count = files.length
  small : st.count < 2 ^ 32 - 1

section Loop

variable {mem : Nat → Bool} {event : FileEvent} {events : List FileEvent} {st st' : BackupState}
  {files : List PrimeFile} {file : PrimeFile}

/-- What a reception does to a slot that is NULL. -/
theorem recvFileInto_cases (event : FileEvent) :
    (∃ file, event.file = some file ∧ calcPrimeRRecvFileInto .null event = (none, .entry file))
      ∨ event.file = none ∧ ∃ error, calcPrimeRRecvFileInto .null event = (error, .null) := by
  obtain ⟨message, created⟩ := event
  unfold FileEvent.file calcPrimeRRecvFileInto
  cases message with
  | error e => exact .inr ⟨rfl, _, rfl⟩
  | ok packet =>
      dsimp only
      cases readFilePacket packet with
      | error e => exact .inr ⟨rfl, _, rfl⟩
      | ok result =>
          cases result with
          | none => exact .inr ⟨rfl, _, rfl⟩
          | some file =>
              cases created with
              | false => exact .inr ⟨rfl, _, rfl⟩
              | true => exact .inl ⟨file, rfl, rfl⟩

/-- The slot in front of a reception is the last one. -/
theorem BackupState.Holds.set (hst : st.Holds files) (slot : Slot) :
    st.slots.set st.count slot = files.map .entry ++ [slot] := by
  rw [hst.slots, hst.count, List.set_append_right _ _ (by rw [List.length_map]), List.length_map,
    Nat.sub_self]
  rfl

theorem BackupState.Holds.getElem? (hst : st.Holds files) :
    st.slots[st.count]? = some .null := by
  rw [hst.slots, hst.count, List.getElem?_append_right (by rw [List.length_map]), List.length_map,
    Nat.sub_self]
  rfl

/-- When no file is received, the array stays. -/
theorem backupTurn_stop (hst : st.Holds files) (h : event.file = none) :
    ∃ error, backupTurn mem event st
      = .error ⟨error, some st.live, st.live, files.map .entry ++ [.null]⟩ := by
  obtain ⟨file, hfile, -⟩ | ⟨-, error, hrecv⟩ := recvFileInto_cases event
  · rw [h] at hfile
    cases hfile
  · refine ⟨error, ?_⟩
    unfold backupTurn
    dsimp only
    rw [hst.getElem?]
    dsimp only
    rw [hrecv, hst.set]
    cases error with
    | none => rfl
    | some e => rfl

/-- A file is put at the end of the array, which then grows. -/
theorem backupTurn_file (hst : st.Holds files) (h : event.file = some file) :
    backupTurn mem event st = backupResize mem
      ⟨st.live, (files ++ [file]).map .entry, some st.live, st.count⟩ := by
  obtain ⟨file', hfile, hrecv⟩ | ⟨hfile, -⟩ := recvFileInto_cases event
  · rw [h] at hfile
    cases hfile
    unfold backupTurn
    dsimp only
    rw [hst.getElem?]
    dsimp only
    rw [hrecv, hst.set, List.map_append]
    rfl
  · rw [h] at hfile
    cases hfile

/-- The array grows by a NULL when there is memory for it. -/
theorem backupResize_ok (hst : st.Holds files) (hsmall : st.count + 1 < 2 ^ 32 - 1)
    (hmem : mem (st.count + 2) = true) :
    ∃ st', backupResize mem ⟨st.live, (files ++ [file]).map .entry, some st.live, st.count⟩
        = .ok st' ∧ st'.Holds (files ++ [file]) ∧ st'.count = st.count + 1 := by
  have hcount : (st.count + 1) % 2 ^ 32 = st.count + 1 := Nat.mod_eq_of_lt (by omega)
  have hslots : slotCount (st.count + 1) = st.count + 2 := Nat.mod_eq_of_lt (by omega)
  unfold backupResize
  dsimp only
  rw [hcount, hslots, if_neg (by omega), if_neg (by rw [hmem]; decide)]
  refine ⟨_, rfl, ⟨?_, ?_, hsmall⟩, rfl⟩
  · have hlength : ((files ++ [file]).map Slot.entry).length = st.count + 1 := by
      rw [List.length_map, List.length_append, hst.count]
      rfl
    unfold resized
    dsimp only
    rw [List.take_of_length_le (by omega), hlength, show st.count + 2 - (st.count + 1) = 1 by omega,
      List.set_append_right _ _ (by omega), hlength, Nat.sub_self]
    rfl
  · rw [List.length_append, hst.count]
    rfl

/-- When there is not, the array is full of entries. -/
theorem backupResize_error (hst : st.Holds files)
    (h : st.count + 1 = 2 ^ 32 - 1 ∨ mem (st.count + 2) = false) :
    ∃ result, backupResize mem ⟨st.live, (files ++ [file]).map .entry, some st.live, st.count⟩
      = .error result ∧ ∀ fs : List PrimeFile, files.length < fs.length → ¬result.Holds fs := by
  have hsmall := hst.small
  have hcount : (st.count + 1) % 2 ^ 32 = st.count + 1 := Nat.mod_eq_of_lt (by omega)
  unfold backupResize
  dsimp only
  rw [hcount]
  by_cases hfull : st.count + 1 = 2 ^ 32 - 1
  · rw [if_pos (by rw [hfull]; rfl)]
    refine ⟨_, rfl, ?_⟩
    rintro fs - ⟨-, rest, hslots⟩
    exact absurd hslots (List.append_ne_nil_of_right_ne_nil _ (List.cons_ne_nil _ _)).symm
  · have hslots : slotCount (st.count + 1) = st.count + 2 := Nat.mod_eq_of_lt (by omega)
    have hmem := h.resolve_left hfull
    rw [hslots, if_neg (by omega), if_pos hmem]
    refine ⟨_, rfl, ?_⟩
    rintro fs hlonger ⟨-, rest, hslots⟩
    have hlength := congrArg List.length hslots
    simp only [BackupState.stop, List.length_map, List.length_append, List.length_cons,
      List.length_nil] at hlength
    omega

/-- From a state in front of a reception on. -/
theorem backupLoop_holds_iff (hst : st.Holds files) :
    (backupLoop mem events st).Holds (files ++ received mem events st.count)
      ↔ (∀ i, st.count + 1 < i → i ≤ st.count + 1 + (received mem events st.count).length →
          mem i = true) ∧ st.count + (received mem events st.count).length < 2 ^ 32 - 1 := by
  induction events generalizing st files with
  | nil =>
      refine iff_of_true ⟨rfl, [], ?_⟩ ⟨fun i hlt hle => ?_, hst.small⟩
      · change st.slots = _
        rw [hst.slots, received, List.append_nil]
      · change i ≤ st.count + 1 + 0 at hle
        omega
  | cons event events ih =>
      unfold backupLoop received
      cases hfile : event.file with
      | none =>
          obtain ⟨error, hturn⟩ := @backupTurn_stop mem _ _ _ hst hfile
          rw [hturn]
          refine iff_of_true ⟨rfl, [], ?_⟩ ⟨fun i hlt hle => ?_, hst.small⟩
          · rw [List.append_nil]
          · change i ≤ st.count + 1 + 0 at hle
            omega
      | some file =>
          rw [backupTurn_file hst hfile]
          dsimp only
          by_cases hgrows : st.count + 1 < 2 ^ 32 - 1 ∧ mem (st.count + 2) = true
          · obtain ⟨st', hturn, hst', hcount⟩ := @backupResize_ok mem _ _ file hst hgrows.1 hgrows.2
            have hrest := ih hst'
            rw [hturn, if_pos hgrows.2]
            dsimp only
            rw [hcount, List.append_assoc] at hrest
            refine hrest.trans ?_
            rw [List.length_cons]
            constructor
            · rintro ⟨hmem, hsmall⟩
              refine ⟨fun i hlt hle => ?_, by omega⟩
              rcases Nat.eq_or_lt_of_le hlt with rfl | hlt
              · exact hgrows.2
              · exact hmem i hlt (by omega)
            · rintro ⟨hmem, hsmall⟩
              exact ⟨fun i hlt hle => hmem i (by omega) (by omega), by omega⟩
          · have hsmall := hst.small
            have hfails : st.count + 1 = 2 ^ 32 - 1 ∨ mem (st.count + 2) = false := by
              by_cases hmem : mem (st.count + 2) = true
              · have hwraps := not_and'.mp hgrows hmem
                exact .inl (by omega)
              · exact .inr (Bool.eq_false_iff.mpr hmem)
            obtain ⟨result, hturn, hnot⟩ := @backupResize_error mem _ _ file hst hfails
            rw [hturn]
            refine iff_of_false (hnot _ (by simp)) ?_
            rintro ⟨hmem, hfew⟩
            rw [List.length_cons] at hmem hfew
            rcases hfails with hfull | hmem'
            · omega
            · rw [hmem (st.count + 2) (by omega) (by omega)] at hmem'
              cases hmem'

end Loop

/-- The array of the caller holds the files that were received, and NULL behind them, exactly when
every `realloc` succeeded and its size did not wrap. -/
theorem calcPrimeRRecvBackup_holds_iff {mem : Nat → Bool} {events : List FileEvent}
    (h : (calcPrimeRRecvBackup mem events).out ≠ none) :
    (calcPrimeRRecvBackup mem events).Holds (received mem events 0)
      ↔ (∀ i, 1 < i → i ≤ 1 + (received mem events 0).length → mem i = true)
        ∧ (received mem events 0).length < 2 ^ 32 - 1 := by
  unfold calcPrimeRRecvBackup at h ⊢
  split at h
  · exact absurd rfl h
  · next hcreated =>
    rw [if_neg hcreated]
    have hstart : BackupState.Holds ⟨0, [.null], none, 0⟩ [] := ⟨rfl, rfl, by decide⟩
    have hloop := @backupLoop_holds_iff mem events _ _ hstart
    rw [List.nil_append] at hloop
    simpa only [Nat.zero_add] using hloop

/-! ## a file that the array has no room behind -/

/-- The packet of a file without name and data, as it is received. -/
def emptyFile : FileEvent := ⟨.ok [cmdPrimeRecvFile, 0x03, 0, 0, 0, 4, 0x06, 0, 0, 0, 0], true⟩

/-- The file is received, and then nothing more. -/
theorem calcPrimeRRecvBackup_holds_iff_file :
    (calcPrimeRRecvBackup (fun _ => true) [emptyFile]).Holds
      (received (fun _ => true) [emptyFile] 0) := by
  refine (calcPrimeRRecvBackup_holds_iff ?_).mpr ⟨fun _ _ _ => rfl, ?_⟩
  · decide
  · decide

/-- The array of the caller always holds the files that were received and NULL behind them. -/
def AllBackupsHold : Prop :=
  ∀ (mem : Nat → Bool) (events : List FileEvent),
    (calcPrimeRRecvBackup mem events).out ≠ none →
      (calcPrimeRRecvBackup mem events).Holds (received mem events 0)

/-- The first `realloc` fails, and the array of one slot has the file in it. -/
theorem not_allBackupsHold : ¬AllBackupsHold := by
  intro h
  obtain ⟨-, rest, hslots⟩ := h (fun n => n == 1) [emptyFile] (by decide)
  have hfull : (calcPrimeRRecvBackup (fun n => n == 1) [emptyFile]).slots.length = 1 := by decide
  have hfile : (received (fun n => n == 1) [emptyFile] 0).length = 1 := by decide
  rw [hslots, List.length_append, List.length_map, hfile, List.length_cons] at hfull
  omega

end Tilibs.Prime
