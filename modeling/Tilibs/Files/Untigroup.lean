import Tilibs.Files.TigroupFiles

/-!
# Tilibs.Files.Untigroup

The files of a tigroup, `tifiles_untigroup_file` of `tigroup.cc`: the members are written one by
one, the variables first, and the names of the files go to an array for the caller.

The array is reached through the address of the caller's pointer, so that its memory and that of
the caller are part of the state.  The readers and the writers of the formats are parameters.
-/

namespace Tilibs.Files

open Lib

/-! ## pointers -/

/-- A `char *`: NULL, a string, or what was never set. -/
inductive CharPtr
  | null
  | str (s : List UInt8)
  | wild
  deriving DecidableEq, Repr

/-- What a writer leaves in `*real_fname`: what was there, NULL when it skips a content, or the
name of the file that it writes. -/
inductive RealName
  | kept
  | null
  | file (name : List UInt8)
  deriving DecidableEq, Repr

/-- `real_name` behind a call of a writer. -/
def RealName.update : RealName → CharPtr → CharPtr
  | .kept, p => p
  | .null, _ => .null
  | .file name, _ => .str name

/-- A word of the caller's memory: a `char *`, the address of another word, or the address of the
array of names. -/
inductive CallerWord
  | chars (p : CharPtr)
  | cell (i : Nat)
  | names
  deriving DecidableEq, Repr

/-- The caller's memory, before there is an array; `dst_filenames` is the address of a word. -/
structure Caller where
  words : List CallerWord
  dst : Nat
  inside : dst < words.length
  before : .names ∉ words

/-- The caller's memory and the array. -/
structure NameMem where
  words : List CallerWord
  dst : Nat
  names : List CharPtr
  deriving DecidableEq, Repr

/-- What `g_malloc` leaves in the slots of the array: they are not cleared, and `zero` says which
of them happen to be NULL. -/
def freshSlots (zero : Nat → Bool) (n : Nat) : List CharPtr :=
  (List.range n).map fun i => if zero i then .null else .wild

/-- `*dst_filenames = g_malloc(..)` for so many members, which are counted with 32 bits. -/
def Caller.allocate (caller : Caller) (zero : Nat → Bool) (members : Nat) : NameMem where
  words := caller.words.set caller.dst .names
  dst := caller.dst
  names := freshSlots zero ((members + 1) % 2 ^ 32)

/-- `*dst_filenames[k] = real_name`: the index goes to the caller's memory, and the name to the
first word of what is found there. -/
def NameMem.store (mem : NameMem) (k : Nat) (realName : CharPtr) : Except TigFilesErr NameMem :=
  match mem.words[mem.dst + k]? with
  | some .names =>
      match mem.names with
      | [] => .error .nullPointer
      | _ :: slots => .ok { mem with names := realName :: slots }
  | some (.cell i) =>
      if i < mem.words.length then .ok { mem with words := mem.words.set i (.chars realName) }
      else .error .outOfBounds
  | some (.chars .null) => .error .nullPointer
  | some (.chars _) | none => .error .outOfBounds

/-! ## writing the members -/

/-- The writers of the formats, for a content and no name of a file. -/
structure UntigWriters where
  evoWriteRegular : FileContent → Except TigErr RealName
  ti8xWriteRegular : FileContent → Except TigErr RealName
  ti9xWriteRegular : FileContent → Except TigErr RealName
  tnspWriteRegular : FileContent → Except TigErr RealName
  ti8xWriteFlash : FlashChain → Except TigErr RealName
  ti9xWriteFlash : FlashChain → Except TigErr RealName
  tnspWriteFlash : FlashChain → Except TigErr RealName

/-- `tifiles_file_write_regular` -/
def UntigWriters.fileWriteRegular (writers : UntigWriters) :
    Option FileContent → Except TigErr RealName
  | none => .error .invalidFile
  | some content =>
      if ticonvModelIsTievo content.model then writers.evoWriteRegular content
      else if tifilesCalcIsTi8x content.model then writers.ti8xWriteRegular content
      else if tifilesCalcIsTi9x content.model then writers.ti9xWriteRegular content
      else if ticonvModelIsTinspire content.model then writers.tnspWriteRegular content
      else .error .badCalc

/-- `tifiles_file_write_flash2`; a chain without contents is NULL. -/
def UntigWriters.fileWriteFlash2 (writers : UntigWriters) :
    FlashChain → Except TigErr RealName
  | [] => .error .invalidFile
  | c :: cs =>
      if tifilesCalcIsTi8x c.val.model then writers.ti8xWriteFlash (c :: cs)
      else if tifilesCalcIsTi9x c.val.model then writers.ti9xWriteFlash (c :: cs)
      else if ticonvModelIsTinspire c.val.model then writers.tnspWriteFlash (c :: cs)
      else .error .badCalc

/-- `real_name`, and the memory when there is a destination. -/
structure NameState where
  realName : CharPtr
  mem : Option NameMem
  deriving DecidableEq, Repr

/-- A turn of a loop over the members, with what the writer returns in it. -/
def nameTurn (k : Nat) (written : Except TigErr RealName) (st : NameState) :
    Except TigFilesErr NameState := do
  let real ← written.mapError TigFilesErr.lib
  let realName := real.update st.realName
  match st.mem with
  | none => return { st with realName }
  | some mem => return ⟨realName, some (← mem.store k realName)⟩

/-- A loop over the members, from the index `k` of the array on. -/
def nameLoop : Nat → List (Except TigErr RealName) → NameState → Except TigFilesErr NameState
  | _, [], st => .ok st
  | k, written :: rest, st => nameTurn k written st >>= nameLoop (k + 1) rest

/-- `tifiles_untigroup_content` -/
def tifilesUntigroupContent (content : Tigroup FileContent FlashChain) :
    TigProc (List (Option FileContent) × List FlashChain) := do
  let dst1 ← Proc.ofExcept (content.varEntries.mapM fun te =>
    match te.content.bind Sum.getLeft? with
    | none => .ok none
    | some c => tifilesContentDupRegular c)
  let dst2 ← content.appEntries.mapM fun te =>
    ExceptT.adapt TigFilesErr.ofDup
      (tifilesContentDupFlash ((te.content.bind Sum.getRight?).getD []))
  return (dst1, dst2)

/-- `tifiles_untigroup_file` -/
def tifilesUntigroupFile (lib : TigFormats FileContent FlashChain) (writers : UntigWriters)
    (archive : Archive) (caller : Option Caller) (zero : Nat → Bool) :
    TigProc (Option NameMem) := do
  let content ← Proc.ofExcept ((lib.fileReadTigroup archive).mapError TigFilesErr.lib)
  let (dst1, dst2) ← tifilesUntigroupContent content
  let mem := caller.map fun caller => caller.allocate zero (dst1.length + dst2.length)
  let st ← Proc.ofExcept (nameLoop 0 (dst1.map writers.fileWriteRegular) ⟨.wild, mem⟩)
  let st ← Proc.ofExcept (nameLoop dst1.length (dst2.map writers.fileWriteFlash2) st)
  return st.mem

/-! ## the names -/

/-- What the writers return for the members, the variables first. -/
def UntigWriters.written (writers : UntigWriters) (dst1 : List (Option FileContent))
    (dst2 : List FlashChain) : List (Except TigErr RealName) :=
  dst1.map writers.fileWriteRegular ++ dst2.map writers.fileWriteFlash2

/-- The caller's pointer is to an array of these names, with NULL behind them. -/
def NameMem.Lists (mem : NameMem) (files : List (List UInt8)) : Prop :=
  mem.words[mem.dst]? = some .names ∧ mem.names = files.map CharPtr.str ++ [.null]

/-- The function returns, and the caller has the names of the files that were written for the
members. -/
def ReportsEveryFile (lib : TigFormats FileContent FlashChain) (writers : UntigWriters)
    (archive : Archive) (caller : Caller) (zero : Nat → Bool) (next : Nat)
    (written : List (Except TigErr RealName)) : Prop :=
  ∃ mem next' files,
    Proc.exec (tifilesUntigroupFile lib writers archive (some caller) zero) next
        = (.ok (some mem), next')
      ∧ List.Forall₂ (fun w name => w = .ok (.file name)) written files ∧ mem.Lists files

section Names

variable {mem mem' : NameMem} {k : Nat} {realName : CharPtr} {written : Except TigErr RealName}
  {ws : List (Except TigErr RealName)} {st st' : NameState}

/-- Only the first slot of the array is ever written. -/
theorem NameMem.tail_store (h : mem.store k realName = .ok mem') :
    mem'.names.tail = mem.names.tail := by
  unfold store at h
  split at h
  · split at h
    · cases h
    · rename_i hnames
      cases h
      rw [hnames]
      rfl
  · split at h
    · cases h
      rfl
    · cases h
  all_goals cases h

theorem tail_nameTurn (h : nameTurn k written ⟨realName, some mem⟩ = .ok st') :
    ∃ mem', st'.mem = some mem' ∧ mem'.names.tail = mem.names.tail := by
  unfold nameTurn at h
  cases written with
  | error e => cases h
  | ok real =>
      cases hstore : mem.store k (real.update realName) with
      | error e =>
          simp only [Except.mapError, bind, Except.bind, hstore] at h
          cases h
      | ok mem' =>
          simp only [Except.mapError, bind, Except.bind, hstore] at h
          cases h
          exact ⟨mem', rfl, mem.tail_store hstore⟩

theorem tail_nameLoop (hmem : st.mem = some mem) (h : nameLoop k ws st = .ok st') :
    ∃ mem', st'.mem = some mem' ∧ mem'.names.tail = mem.names.tail := by
  induction ws generalizing k st mem with
  | nil =>
      cases h
      exact ⟨mem, hmem, rfl⟩
  | cons w ws ih =>
      obtain ⟨realName, mem?⟩ := st
      obtain rfl : mem? = some mem := hmem
      cases hturn : nameTurn k w ⟨realName, some mem⟩ with
      | error e =>
          simp only [nameLoop, hturn, bind, Except.bind] at h
          cases h
      | ok st₁ =>
          simp only [nameLoop, hturn, bind, Except.bind] at h
          obtain ⟨mem₁, hmem₁, htail₁⟩ := tail_nameTurn hturn
          obtain ⟨mem', hmem', htail⟩ := ih hmem₁ h
          exact ⟨mem', hmem', htail.trans htail₁⟩

/-- One loop behind the other is a loop over all members. -/
theorem nameLoop_append (ws₁ ws₂ : List (Except TigErr RealName)) :
    nameLoop k (ws₁ ++ ws₂) st = nameLoop k ws₁ st >>= nameLoop (k + ws₁.length) ws₂ := by
  induction ws₁ generalizing k st with
  | nil => rfl
  | cons w ws₁ ih =>
      rw [List.cons_append, nameLoop, nameLoop]
      cases nameTurn k w st with
      | error e => rfl
      | ok st₁ =>
          change nameLoop (k + 1) (ws₁ ++ ws₂) st₁ = _
          rw [ih, List.length_cons, Nat.add_assoc, Nat.add_comm 1]
          rfl

end Names

section Run

variable {lib : TigFormats FileContent FlashChain} {writers : UntigWriters} {archive : Archive}
  {content : Tigroup FileContent FlashChain} {dst1 : List (Option FileContent)}
  {dst2 : List FlashChain} {next next' : Nat}

/-- Behind the reader and the copies, the names are stored in one loop. -/
theorem exec_tifilesUntigroupFile (caller : Option Caller) (zero : Nat → Bool)
    (hread : lib.fileReadTigroup archive = .ok content)
    (hdup : Proc.exec (tifilesUntigroupContent content) next = (.ok (dst1, dst2), next')) :
    Proc.exec (tifilesUntigroupFile lib writers archive caller zero) next
      = ((nameLoop 0 (writers.written dst1 dst2)
          ⟨.wild, caller.map fun caller => caller.allocate zero (dst1.length + dst2.length)⟩).map
            NameState.mem, next') := by
  unfold tifilesUntigroupFile UntigWriters.written
  rw [hread, nameLoop_append, List.length_map, Nat.zero_add]
  rw [Proc.exec_bind_ok (show Proc.exec (Proc.ofExcept _) next = (.ok content, next) from rfl),
    Proc.exec_bind_ok hdup]
  dsimp only
  cases nameLoop 0 (dst1.map writers.fileWriteRegular) _ with
  | error e => rfl
  | ok st =>
      rw [Proc.exec_bind_ok (Proc.exec_ofExcept _ _)]
      cases hsecond : nameLoop dst1.length (dst2.map writers.fileWriteFlash2) st with
      | error e =>
          rw [Proc.exec_bind_error (Proc.exec_ofExcept _ _)]
          simp only [bind, Except.bind, hsecond]
          rfl
      | ok st' =>
          rw [Proc.exec_bind_ok (Proc.exec_ofExcept _ _)]
          simp only [bind, Except.bind, hsecond]
          rfl

/-- No slot of the array is a name before the loops. -/
theorem str_notMem_freshSlots (zero : Nat → Bool) (n : Nat) (s : List UInt8) :
    CharPtr.str s ∉ freshSlots zero n := by
  intro hmem
  obtain ⟨i, -, hi⟩ := List.mem_map.mp hmem
  split at hi <;> cases hi

/-- With two members or more, a name would have to be in the second slot. -/
theorem length_le_one_of_lists {caller : Caller} {zero : Nat → Bool} {n : Nat}
    {ws : List (Except TigErr RealName)} {st : NameState} {mem : NameMem}
    {files : List (List UInt8)}
    (hloop : nameLoop 0 ws ⟨.wild, some (caller.allocate zero n)⟩ = .ok st)
    (hmem : st.mem = some mem) (hlists : mem.Lists files) : files.length ≤ 1 := by
  obtain ⟨mem', hmem', htail⟩ := tail_nameLoop rfl hloop
  obtain rfl : mem' = mem := Option.some.inj (hmem'.symm.trans hmem)
  match files, hlists.2 with
  | [], _ => exact Nat.zero_le 1
  | [_], _ => exact le_refl 1
  | _ :: second :: rest, hnames =>
      rw [hnames] at htail
      have hin : CharPtr.str second ∈ (caller.allocate zero n).names.tail := by
        rw [← htail]
        exact List.mem_cons_self
      exact absurd (List.mem_of_mem_tail hin) (str_notMem_freshSlots zero _ second)

/-- The first word of the destination is the array. -/
theorem Caller.words_allocate (caller : Caller) (zero : Nat → Bool) (n : Nat) :
    (caller.allocate zero n).words[caller.dst]? = some .names :=
  List.getElem?_set_self caller.inside

/-- A single name is stored in the first slot. -/
theorem nameLoop_single (caller : Caller) (zero : Nat → Bool) (real : RealName) :
    nameLoop 0 [.ok real] ⟨.wild, some (caller.allocate zero 1)⟩
      = .ok ⟨real.update .wild, some {
          caller.allocate zero 1 with
          names := [real.update .wild, if zero 1 then .null else .wild] }⟩ := by
  have hstore : (caller.allocate zero 1).store 0 (real.update .wild)
      = .ok {
          caller.allocate zero 1 with
          names := [real.update .wild, if zero 1 then .null else .wild] } := by
    have hword : (caller.allocate zero 1).words[(caller.allocate zero 1).dst + 0]?
        = some .names := caller.words_allocate zero 1
    unfold NameMem.store
    rw [hword]
    rfl
  rw [nameLoop, nameTurn]
  simp only [Except.mapError, bind, Except.bind, hstore]
  rfl

/-- A tigroup that is read and whose members are all written has its files reported exactly when
it has one member at most, a file is written for it, and the slot of the array behind its name
happens to be NULL. -/
theorem reportsEveryFile_iff {caller : Caller} {zero : Nat → Bool}
    (hread : lib.fileReadTigroup archive = .ok content)
    (hdup : Proc.exec (tifilesUntigroupContent content) next = (.ok (dst1, dst2), next'))
    (hwritten : ∀ w ∈ writers.written dst1 dst2, ∃ real, w = .ok real) :
    ReportsEveryFile lib writers archive caller zero next (writers.written dst1 dst2)
      ↔ dst1.length + dst2.length ≤ 1
        ∧ (∀ w ∈ writers.written dst1 dst2, ∃ name, w = .ok (.file name))
        ∧ zero (dst1.length + dst2.length) = true := by
  have hlength : (writers.written dst1 dst2).length = dst1.length + dst2.length := by
    unfold UntigWriters.written
    rw [List.length_append, List.length_map, List.length_map]
  unfold ReportsEveryFile
  rw [exec_tifilesUntigroupFile (some caller) zero hread hdup]
  generalize writers.written dst1 dst2 = ws at hwritten hlength
  rw [← hlength]
  match ws with
  | [] =>
      have hslots : (caller.allocate zero 0).names = [if zero 0 then .null else .wild] := rfl
      constructor
      · rintro ⟨mem, next'', files, hrun, hfiles, -, hnames⟩
        cases hfiles
        cases hrun
        refine ⟨Nat.zero_le 1, by simp, ?_⟩
        by_contra hzero
        rw [List.length_nil] at hzero hnames
        rw [hslots, if_neg hzero] at hnames
        cases hnames
      · rintro ⟨-, -, hzero⟩
        rw [List.length_nil] at hzero
        refine ⟨_, next', [], rfl, .nil, caller.words_allocate zero 0, ?_⟩
        exact hslots.trans (by rw [if_pos hzero]; rfl)
  | [w] =>
      obtain ⟨real, rfl⟩ := hwritten w List.mem_cons_self
      have hloop := nameLoop_single caller zero real
      rw [List.length_singleton, Option.map_some, hloop]
      constructor
      · rintro ⟨mem, next'', files, hrun, hfiles, -, hnames⟩
        cases hrun
        obtain ⟨name, rest, hname, hrest, rfl⟩ := List.forall₂_cons_left_iff.mp hfiles
        cases hrest
        refine ⟨le_refl 1, fun w hw => ⟨name, by rw [List.mem_singleton.mp hw, hname]⟩, ?_⟩
        by_contra hzero
        cases hname
        rw [if_neg hzero] at hnames
        cases hnames
      · rintro ⟨-, hfile, hzero⟩
        obtain ⟨name, hname⟩ := hfile _ List.mem_cons_self
        cases hname
        refine ⟨_, next', [name], rfl, .cons rfl .nil, caller.words_allocate zero 1, ?_⟩
        rw [if_pos hzero]
        rfl
  | w :: w' :: ws =>
      refine iff_of_false ?_ fun h => absurd h.1 (by simp)
      rintro ⟨mem, next'', files, hrun, hfiles, hlists⟩
      obtain ⟨hst, -⟩ := Prod.mk.inj hrun
      have hshort : files.length ≤ 1 := by
        cases hloop : nameLoop 0 (w :: w' :: ws)
            ⟨.wild, some (caller.allocate zero (w :: w' :: ws).length)⟩ with
        | error e =>
            rw [Option.map_some, hloop] at hst
            cases hst
        | ok st =>
            rw [Option.map_some, hloop] at hst
            exact length_le_one_of_lists hloop (Except.ok.inj hst) hlists
      have htwo := hfiles.length_eq
      simp only [List.length_cons] at htwo
      omega

end Run

/-! ## two numbers -/

/-- The writer of the TI-83+ for variables. -/
def ti8xRealName (content : FileContent) : RealName :=
  match content.entries with
  | none => .kept
  | some (some e :: _) => .file (e.name.chars ++ ascii ".8xn")
  | some _ => .null

def ti83pWriters : UntigWriters where
  evoWriteRegular := fun _ => .error .badCalc
  ti8xWriteRegular := fun content => .ok (ti8xRealName content)
  ti9xWriteRegular := fun _ => .error .badCalc
  tnspWriteRegular := fun _ => .error .badCalc
  ti8xWriteFlash := fun _ => .error .badCalc
  ti9xWriteFlash := fun _ => .error .badCalc
  tnspWriteFlash := fun _ => .error .badCalc

/-- Behind the caller's pointer is another one, which points to a third word. -/
def threeWords : Caller := ⟨[.chars .wild, .cell 2, .chars .null], 0, by decide, by decide⟩

/-- The copies of what is read from an archive. -/
def ti83pCopies (archive : Archive) : Option (List (Option FileContent) × List FlashChain) :=
  match ti83pFormats.fileReadTigroup archive with
  | .error _ => none
  | .ok content => (Proc.exec (tifilesUntigroupContent content) 0).1.toOption

/-- The names of the files that are written for them. -/
def ti83pNames (archive : Archive) : Option (List (Option RealName)) :=
  (ti83pCopies archive).map fun copies =>
    (ti83pWriters.written copies.1 copies.2).map Except.toOption

theorem eq_map_ok_of_map_toOption {ε α : Type} {ws : List (Except ε α)} {xs : List α}
    (h : ws.map Except.toOption = xs.map some) : ws = xs.map Except.ok := by
  induction ws generalizing xs with
  | nil =>
      obtain rfl := List.map_eq_nil_iff.mp h.symm
      rfl
  | cons w ws ih =>
      obtain ⟨x, xs, rfl, hw, hws⟩ := List.map_eq_cons_iff.mp h.symm
      cases w with
      | error e => cases hw
      | ok y =>
          cases hw
          rw [List.map_cons, ih hws.symm]

theorem exists_of_ti83pNames {archive : Archive} {names : List RealName}
    (h : ti83pNames archive = some (names.map some)) :
    ∃ content dst1 dst2 next', ti83pFormats.fileReadTigroup archive = .ok content
      ∧ Proc.exec (tifilesUntigroupContent content) 0 = (.ok (dst1, dst2), next')
      ∧ ti83pWriters.written dst1 dst2 = names.map Except.ok := by
  unfold ti83pNames ti83pCopies at h
  cases hread : ti83pFormats.fileReadTigroup archive with
  | error e =>
      rw [hread] at h
      cases h
  | ok content =>
      rw [hread] at h
      dsimp only at h
      rcases hrun : Proc.exec (tifilesUntigroupContent content) 0 with ⟨e | ⟨dst1, dst2⟩, next'⟩
      · rw [hrun] at h
        cases h
      · rw [hrun] at h
        exact ⟨content, dst1, dst2, next', rfl, hrun,
          eq_map_ok_of_map_toOption (Option.some.inj h)⟩

/-- A single number, in memory that happens to be zero. -/
theorem reportsEveryFile_iff_single :
    ∃ dst1 dst2, ReportsEveryFile ti83pFormats ti83pWriters [(ascii "A.8xn", numberFile83)]
      threeWords (fun _ => true) 0 (ti83pWriters.written dst1 dst2) := by
  obtain ⟨content, dst1, dst2, next', hread, hdup, hwritten⟩ :=
    @exists_of_ti83pNames [(ascii "A.8xn", numberFile83)] [.file (ascii "A.8xn")]
      (by decide +kernel)
  have hlength : dst1.length + dst2.length = 1 := by
    have := congrArg List.length hwritten
    unfold UntigWriters.written at this
    rwa [List.length_append, List.length_map, List.length_map] at this
  refine ⟨dst1, dst2, (reportsEveryFile_iff hread hdup ?_).mpr ⟨hlength.le, ?_, rfl⟩⟩
  · rw [hwritten]
    exact fun w hw => ⟨.file (ascii "A.8xn"), List.mem_singleton.mp hw⟩
  · rw [hwritten]
    exact fun w hw => ⟨ascii "A.8xn", List.mem_singleton.mp hw⟩

/-- Two numbers: the second name goes to the third word of the caller, and the array has the
first name only. -/
theorem not_reportsEveryFile_of_two :
    ¬∀ (lib : TigFormats FileContent FlashChain) (writers : UntigWriters) (archive : Archive)
        (caller : Caller) (zero : Nat → Bool) (content : Tigroup FileContent FlashChain)
        (dst1 : List (Option FileContent)) (dst2 : List FlashChain) (next next' : Nat)
        (mem : NameMem),
      lib.fileReadTigroup archive = .ok content
      → Proc.exec (tifilesUntigroupContent content) next = (.ok (dst1, dst2), next')
      → Proc.exec (tifilesUntigroupFile lib writers archive (some caller) zero) next
          = (.ok (some mem), next')
      → ∃ files, List.Forall₂ (fun w name => w = .ok (.file name)) (writers.written dst1 dst2) files
          ∧ mem.Lists files := by
  intro hall
  obtain ⟨content, dst1, dst2, next', hread, hdup, hwritten⟩ :=
    @exists_of_ti83pNames [(ascii "A.8xn", numberFile83), (ascii "B.8xn", numberFile83)]
      [.file (ascii "A.8xn"), .file (ascii "A.8xn")] (by decide +kernel)
  have hlength : dst1.length + dst2.length = 2 := by
    have := congrArg List.length hwritten
    unfold UntigWriters.written at this
    rwa [List.length_append, List.length_map, List.length_map] at this
  have hrun := @exec_tifilesUntigroupFile ti83pFormats ti83pWriters _ content dst1 dst2 0 next'
    (some threeWords) (fun _ => false) hread hdup
  rw [hwritten, hlength] at hrun
  obtain ⟨files, hfiles, -, hnames⟩ := hall _ _ _ _ _ _ _ _ _ _
    ⟨[.names, .cell 2, .chars (.str (ascii "A.8xn"))], 0, [.str (ascii "A.8xn"), .wild, .wild]⟩
    hread hdup hrun
  have htwo := hfiles.length_eq
  rw [hwritten] at htwo
  match files, htwo with
  | [f, g], _ => cases hnames

end Tilibs.Files
