import Tilibs.Dusb.Raw
import Tilibs.Lib.Offset

/-!
# Tilibs.Dusb.Dissect

What the dissection of a DUSB packet reads (`dusb_rpkt.cc`, `dusb_cmd.cc`).

A function has no result when it reads outside the buffer it was given.  The
text it prints is left out.

Behind the first fragment of a virtual packet, `dusb_dissect` goes back by the
size that the packet claims, not by the number of bytes it has printed, so that
its command data are read from another place than where they are
(`dusbDissect_inBounds_iff`).
-/

namespace Tilibs.Dusb

open Tilibs.Lib

/-! ## Virtual packet types -/

inductive DusbVpktType
  | ping | osBegin | osAck | osHeader | osData | eotAck
  | parmReq | parmData | dirReq | varHdr | rts | varReq | varCnts | parmSet | modifVar | execute
  | modeSet | dataAck | delayAck | eot | error | unknown
  deriving DecidableEq, Repr

def DusbVpktType.ofCode (code : Nat) : DusbVpktType :=
  match code with
  | 0x0001 => .ping
  | 0x0002 => .osBegin
  | 0x0003 => .osAck
  | 0x0004 => .osHeader
  | 0x0005 => .osData
  | 0x0006 => .eotAck
  | 0x0007 => .parmReq
  | 0x0008 => .parmData
  | 0x0009 => .dirReq
  | 0x000A => .varHdr
  | 0x000B => .rts
  | 0x000C => .varReq
  | 0x000D => .varCnts
  | 0x000E => .parmSet
  | 0x0010 => .modifVar
  | 0x0011 => .execute
  | 0x0012 => .modeSet
  | 0xAA00 => .dataAck
  | 0xBB00 => .delayAck
  | 0xDD00 => .eot
  | 0xEE00 => .error
  | _ => .unknown

def errInvalidPacket : Int := 266

/-! ## Words -/

section Words

variable (data : List UInt8) (i : Int)

/-- A big-endian word in the buffer. -/
def wordAt : Option Nat := do
  let high ← readAt data i
  let low ← readAt data (i + 1)
  pure (256 * high.toNat + low.toNat)

def longAt : Option Nat := do
  let high ← wordAt data i
  let low ← wordAt data (i + 2)
  pure (65536 * high + low)

/-- The word that is there, or would be. -/
def word : Nat := 256 * (peek data i).toNat + (peek data (i + 1)).toNat

def long : Nat := 65536 * word data i + word data (i + 2)

end Words

/-! ## Checking command data -/

section Check

variable (model : CalcModel) (data : List UInt8) (len nparams : Nat)

/-- `2U + 3 * nparams + additional_size`, an unsigned sum. -/
def paramsSize (additionalSize : Nat) : Nat := (2 + 3 * nparams + additionalSize) % 2 ^ 32

/-- The loop over the records of a list of parameter values. -/
def dusbCheckParams : Nat → Int → Nat → Option Bool
  | 0, _, additionalSize => some (len = paramsSize nparams additionalSize)
  | n + 1, pos, additionalSize => do
      let flag ← readAt data (pos + 2)
      if flag = 0 then
        let size ← wordAt data (pos + 3)
        let additionalSize := additionalSize + (size + 2)
        if len < paramsSize nparams additionalSize then pure false
        else dusbCheckParams n (pos + 3 + (size + 2 : Nat)) additionalSize
      else if len < paramsSize nparams additionalSize then pure false
      else dusbCheckParams n (pos + 3) additionalSize

/-- `dusb_check_cmd_data`, of the data at an offset of the buffer. -/
def dusbCheckCmdData (pos : Int) : DusbVpktType → Option Bool
  | .ping => some (len = 10)
  | .parmReq =>
      if 2 ≤ len then do
        let npids ← wordAt data pos
        pure (len = 2 + npids * 2)
      else some false
  | .parmData =>
      if 2 ≤ len then do
        let nparams ← wordAt data pos
        if 2 + 3 * nparams ≤ len then dusbCheckParams data len nparams nparams (pos + 2) 0
        else pure false
      else some false
  | .parmSet =>
      if 4 < len then do
        let size ← wordAt data (pos + 2)
        pure (len = 4 + size)
      else some false
  | .osBegin => some (len = 11)
  | .osAck => some (4 ≤ len)
  | .osHeader | .osData => if model = .ti89tUsb then some (0 < len) else some (4 < len)
  | .delayAck => some (len = 4)
  | .error => some (len = 2)
  | .varCnts | .modeSet | .eotAck | .dataAck | .eot => some true
  | .dirReq | .varHdr | .rts | .varReq | .modifVar | .execute => some true
  | .unknown => some false

/-! ## Dissecting command data -/

/-- The parameter IDs of a request. -/
def dusbDissectPids : Nat → Int → Option Unit
  | 0, _ => some ()
  | n + 1, pos => do
      let _ ← wordAt data pos
      dusbDissectPids n (pos + 2)

/-- The loop over the records that have been checked, whose sum does not wrap. -/
def dusbDissectParams : Nat → Int → Nat → Option Unit
  | 0, _, _ => some ()
  | n + 1, pos, additionalSize => do
      let _ ← wordAt data pos
      let flag ← readAt data (pos + 2)
      if flag = 0 then
        let size ← wordAt data (pos + 3)
        let additionalSize := additionalSize + (size + 2)
        if len < 2 + 3 * nparams + additionalSize then pure ()
        else
          readRun data (pos + 5) size
          dusbDissectParams n (pos + 5 + size) additionalSize
      else dusbDissectParams n (pos + 3) additionalSize

/-- The value of a parameter; the index is advanced twice for each byte. -/
def dusbDissectValue : Nat → Int → Option Unit
  | 0, _ => some ()
  | 1, pos => do
      let _ ← readAt data pos
  | n + 2, pos => do
      let _ ← readAt data pos
      dusbDissectValue n (pos + 1)

/-- What `dusb_dissect_cmd_data` reads of data that have passed the check. -/
def dusbDissectChecked (pos : Int) : DusbVpktType → Option Unit
  | .ping => readRun data pos 10
  | .parmReq => do
      let npids ← wordAt data pos
      if len = 2 + npids * 2 then dusbDissectPids data npids (pos + 2) else pure ()
  | .parmData => do
      let nparams ← wordAt data pos
      if 2 + 3 * nparams ≤ len then dusbDissectParams data len nparams nparams (pos + 2) 0
      else pure ()
  | .parmSet => do
      let _ ← wordAt data pos
      let size ← wordAt data (pos + 2)
      if len = 4 + size then dusbDissectValue data size (pos + 4) else pure ()
  | .osBegin => readRun data (pos + 7) 4
  | .osAck => readRun data pos 4
  | .osHeader | .osData => if model = .ti89tUsb then pure () else readRun data pos 4
  | .delayAck => readRun data pos 4
  | .error => readRun data pos 2
  | _ => pure ()

def dusbDissectCmdData (pos : Int) (type : DusbVpktType) : Option Int := do
  if ← dusbCheckCmdData model data len pos type then
    dusbDissectChecked model data len pos type
    pure 0
  else pure errInvalidPacket

end Check

/-! ## Dissecting a packet -/

section Dissect

variable (model : CalcModel) (data : List UInt8)

/-- The least size of the data of a raw packet. -/
def dusbRpktData (type : UInt8) : Nat :=
  if type = dusbRpktBufSizeReq ∨ type = dusbRpktBufSizeAlloc then 4
  else if type = dusbRpktVirtData ∨ type = dusbRpktVirtDataLast then 6
  else 2

/-- The first fragment of a virtual packet. -/
def dusbDissectFirst : Option Int := do
  let vtlSize ← longAt data 5
  let vtlType ← wordAt data 9
  if vtlSize = 0 then pure 0
  else
    let len := data.length - 11
    readRun data 11 len
    -- back by the size in the packet, not by the length that was read
    dusbDissectCmdData model data len (11 + len - vtlSize : Int) (.ofCode vtlType)

/-- A later fragment. -/
def dusbDissectNext : Option Int := do
  readRun data 5 3
  readRun data 8 (data.length - 8)
  pure 0

/-- The code that is returned, and the new value of `first`. -/
def dusbDissect (first : Bool) : Option (Int × Bool) := do
  if data.length < 5 ∨ dusbDataSize < data.length then pure (errInvalidPacket, first)
  else
    let rawSize ← longAt data 0
    let rawType ← readAt data 4
    if dusbDataSize - 5 < rawSize then pure (errInvalidPacket, first)
    else if rawType < 1 ∨ 5 < rawType then pure (errInvalidPacket, first)
    else if data.length < 5 + dusbRpktData rawType then pure (errInvalidPacket, first)
    else if rawType = dusbRpktBufSizeReq ∨ rawType = dusbRpktBufSizeAlloc then
      let _ ← longAt data 5
      pure (0, first)
    else if rawType = dusbRpktVirtData ∨ rawType = dusbRpktVirtDataLast then
      let ret ← (if first then dusbDissectFirst model data else dusbDissectNext data)
      pure (ret, rawType ≠ dusbRpktVirtData)
    else
      let _ ← wordAt data 5
      pure (0, first)

end Dissect

/-! ## Words in the buffer -/

section Reads

variable {data : List UInt8} {i : Int}

theorem wordAt_of_inside (h : Inside data i 2) : wordAt data i = some (word data i) := by
  have hhigh : Inside data i 1 := by unfold Inside at h ⊢; omega
  have hlow : Inside data (i + 1) 1 := by unfold Inside at h ⊢; omega
  rw [wordAt, readAt_of_inside hhigh, readAt_of_inside hlow]
  rfl

theorem wordAt_of_not_inside (h : ¬ Inside data i 2) : wordAt data i = none := by
  unfold wordAt
  by_cases hhigh : Inside data i 1
  · have hlow : ¬ Inside data (i + 1) 1 := by unfold Inside at h hhigh ⊢; omega
    rw [readAt_of_inside hhigh, readAt_of_not_inside hlow]
    rfl
  · rw [readAt_of_not_inside hhigh]
    rfl

theorem longAt_of_inside (h : Inside data i 4) : longAt data i = some (long data i) := by
  have hhigh : Inside data i 2 := by unfold Inside at h ⊢; omega
  have hlow : Inside data (i + 2) 2 := by unfold Inside at h ⊢; omega
  rw [longAt, wordAt_of_inside hhigh, wordAt_of_inside hlow]
  rfl

theorem isSome_dusbDissectPids_iff {n : Nat} :
    (dusbDissectPids data n i).isSome ↔ n = 0 ∨ Inside data i (2 * n) := by
  induction n generalizing i with
  | zero => simp [dusbDissectPids]
  | succ n ih =>
      unfold dusbDissectPids
      by_cases hfirst : Inside data i 2
      · rw [wordAt_of_inside hfirst, Option.bind_eq_bind, Option.bind_some, ih]
        unfold Inside at hfirst ⊢
        omega
      · rw [wordAt_of_not_inside hfirst]
        unfold Inside at hfirst ⊢
        simp
        omega

/-- Every other byte of a value is not read. -/
theorem isSome_dusbDissectValue_iff {n : Nat} :
    (dusbDissectValue data n i).isSome ↔ n = 0 ∨ Inside data i ((n + 1) / 2) := by
  fun_induction dusbDissectValue data n i with
  | case1 i => simp
  | case2 i =>
      by_cases hfirst : Inside data i 1
      · rw [readAt_of_inside hfirst]
        simpa using hfirst
      · rw [readAt_of_not_inside hfirst]
        simpa using hfirst
  | case3 n i ih =>
      by_cases hfirst : Inside data i 1
      · rw [readAt_of_inside hfirst, Option.bind_eq_bind, Option.bind_some, ih]
        unfold Inside at hfirst ⊢
        omega
      · rw [readAt_of_not_inside hfirst]
        unfold Inside at hfirst ⊢
        simp
        omega

end Reads

/-! ## Lists of parameter values -/

section Params

variable (data : List UInt8) (pos : Int)

/-- The bytes behind the first three of a record: a size and a value, if it is
marked as good. -/
def paramExtra : Nat := if peek data (pos + 2) = 0 then word data (pos + 3) + 2 else 0

/-- The bytes of a record up to its value. -/
def paramHead : Nat := if peek data (pos + 2) = 0 then 5 else 3

/-- Where a record of a list starts. -/
def paramPos : Nat → Nat
  | 0 => 2
  | i + 1 => paramPos i + 3 + paramExtra data (pos + paramPos i)

/-- The heads of the records from the `i`-th on that are checked are there.  A record is
checked when those in front of it have left three bytes for it and for each that
follows. -/
def ParamHeadsFit (len nparams i : Nat) : Prop :=
  ∀ j, i ≤ j → j < nparams → paramPos data pos j + 3 * (nparams - j) ≤ len →
    Inside data (pos + paramPos data pos j) (paramHead data (pos + paramPos data pos j))

/-- The heads that are checked are there, and so is a whole list of the right
length. -/
def ParamsFit (len nparams : Nat) : Prop :=
  ParamHeadsFit data pos len nparams 0 ∧ (paramPos data pos nparams = len → Inside data pos len)

variable {data pos}

theorem paramPos_le_succ (i : Nat) : paramPos data pos i + 3 ≤ paramPos data pos (i + 1) := by
  rw [paramPos]
  omega

theorem paramPos_mono {i j : Nat} (h : i ≤ j) :
    paramPos data pos i + 3 * (j - i) ≤ paramPos data pos j := by
  induction j, h using Nat.le_induction with
  | base => simp
  | succ j hij ih =>
      have hstep : paramPos data pos j + 3 ≤ paramPos data pos (j + 1) := paramPos_le_succ j
      omega

variable {len nparams : Nat}

/-- Behind a record that leaves too little, nothing is checked. -/
theorem paramHeadsFit_of_overrun {i : Nat}
    (h : len < paramPos data pos i + 3 * (nparams - i)) : ParamHeadsFit data pos len nparams i := by
  intro j hij hj hreached
  have hmono : paramPos data pos i + 3 * (j - i) ≤ paramPos data pos j := paramPos_mono hij
  omega

/-! ### Records that are checked -/

variable (data pos) in
/-- What the records in front of the `k`-th take, and three bytes for it and for each that
follows. -/
def paramsEnd (nparams k : Nat) : Nat := paramPos data pos k + 3 * (nparams - k)

variable (data pos) in
/-- The loop comes from the `i`-th record to the `j`-th one: no sum on the way is above the
length. -/
def ComesTo (len nparams i j : Nat) : Prop :=
  ∀ k, i < k → k ≤ j → paramsEnd data pos nparams k % 2 ^ 32 ≤ len

variable (data pos) in
/-- The heads of the records that the loop comes to are there. -/
def CheckedHeadsFit (len nparams i : Nat) : Prop :=
  ∀ j, i ≤ j → j < nparams → ComesTo data pos len nparams i j →
    Inside data (pos + paramPos data pos j) (paramHead data (pos + paramPos data pos j))

theorem comesTo_step {i j : Nat} (hij : i < j) :
    ComesTo data pos len nparams i j ↔
      paramsEnd data pos nparams (i + 1) % 2 ^ 32 ≤ len ∧ ComesTo data pos len nparams (i + 1) j := by
  constructor
  · intro h
    exact ⟨h (i + 1) (by omega) (by omega), fun k hk hkj => h k (by omega) hkj⟩
  · rintro ⟨hnext, hrest⟩ k hk hkj
    cases Nat.eq_or_lt_of_le hk with
    | inl heq =>
        subst heq
        exact hnext
    | inr hlt => exact hrest k hlt hkj

theorem checkedHeadsFit_step {i : Nat} (hi : i < nparams) :
    CheckedHeadsFit data pos len nparams i ↔
      Inside data (pos + paramPos data pos i) (paramHead data (pos + paramPos data pos i)) ∧
        (paramsEnd data pos nparams (i + 1) % 2 ^ 32 ≤ len →
          CheckedHeadsFit data pos len nparams (i + 1)) := by
  constructor
  · intro h
    refine ⟨h i le_rfl hi fun k hk hki => by omega, fun hnext j hij hj hcomes => ?_⟩
    exact h j (by omega) hj ((comesTo_step hij).mpr ⟨hnext, hcomes⟩)
  · rintro ⟨hhead, hrest⟩ j hij hj hcomes
    cases Nat.eq_or_lt_of_le hij with
    | inl heq =>
        subst heq
        exact hhead
    | inr hlt =>
        obtain ⟨hnext, hcomes⟩ := (comesTo_step hlt).mp hcomes
        exact hrest hnext j hlt hj hcomes

/-- The next record, by what the head of this one says. -/
theorem paramPos_succ_of_good {i : Nat} (h : peek data (pos + paramPos data pos i + 2) = 0) :
    paramPos data pos (i + 1)
      = paramPos data pos i + 3 + (word data (pos + paramPos data pos i + 3) + 2) := by
  rw [paramPos, paramExtra, if_pos h]

theorem paramPos_succ_of_bad {i : Nat} (h : peek data (pos + paramPos data pos i + 2) ≠ 0) :
    paramPos data pos (i + 1) = paramPos data pos i + 3 := by
  rw [paramPos, paramExtra, if_neg h]

section Loops

variable {n additionalSize : Nat} {record : Int}

theorem dusbCheckParams_good (hflag : Inside data (record + 2) 1)
    (hgood : peek data (record + 2) = 0) (hword : Inside data (record + 3) 2) :
    dusbCheckParams data len nparams (n + 1) record additionalSize =
      if len < paramsSize nparams (additionalSize + (word data (record + 3) + 2)) then some false
      else dusbCheckParams data len nparams n (record + 3 + (word data (record + 3) + 2 : Nat))
        (additionalSize + (word data (record + 3) + 2)) := by
  rw [dusbCheckParams, readAt_of_inside hflag, Option.bind_eq_bind, Option.bind_some, if_pos hgood,
    wordAt_of_inside hword, Option.bind_eq_bind, Option.bind_some]
  rfl

theorem dusbCheckParams_bad (hflag : Inside data (record + 2) 1)
    (hbad : peek data (record + 2) ≠ 0) :
    dusbCheckParams data len nparams (n + 1) record additionalSize =
      if len < paramsSize nparams additionalSize then some false
      else dusbCheckParams data len nparams n (record + 3) additionalSize := by
  rw [dusbCheckParams, readAt_of_inside hflag, Option.bind_eq_bind, Option.bind_some, if_neg hbad]
  rfl

/-- One turn of the loop, where the head of the record is there. -/
theorem dusbCheckParams_step {i : Nat} (hi : i < nparams)
    (hinside : Inside data (pos + paramPos data pos i)
      (paramHead data (pos + paramPos data pos i)))
    (hsize : paramPos data pos i = 2 + 3 * i + additionalSize) :
    dusbCheckParams data len nparams (n + 1) (pos + paramPos data pos i) additionalSize =
      if len < paramsEnd data pos nparams (i + 1) % 2 ^ 32 then some false
      else dusbCheckParams data len nparams n (pos + paramPos data pos (i + 1))
        (additionalSize + paramExtra data (pos + paramPos data pos i)) := by
  have hflag : Inside data (pos + paramPos data pos i + 2) 1 := by
    unfold Inside paramHead at hinside
    unfold Inside
    split at hinside <;> omega
  by_cases hgood : peek data (pos + paramPos data pos i + 2) = 0
  · have hword : Inside data (pos + paramPos data pos i + 3) 2 := by
      rw [paramHead, if_pos hgood] at hinside
      unfold Inside at hinside ⊢
      omega
    have hnext := paramPos_succ_of_good hgood
    have hplace : pos + paramPos data pos i + 3
        + ((word data (pos + paramPos data pos i + 3) + 2 : Nat) : Int)
        = pos + paramPos data pos (i + 1) := by omega
    have hsum : 2 + 3 * nparams + (additionalSize + (word data (pos + paramPos data pos i + 3) + 2))
        = paramsEnd data pos nparams (i + 1) := by
      unfold paramsEnd
      omega
    rw [dusbCheckParams_good hflag hgood hword, paramsSize, hsum, hplace, paramExtra, if_pos hgood]
  · have hnext := paramPos_succ_of_bad hgood
    have hplace : pos + paramPos data pos i + 3 = pos + paramPos data pos (i + 1) := by omega
    have hsum : 2 + 3 * nparams + additionalSize = paramsEnd data pos nparams (i + 1) := by
      unfold paramsEnd
      omega
    rw [dusbCheckParams_bad hflag hgood, paramsSize, hsum, hplace, paramExtra, if_neg hgood]
    rfl

/-- Without the head of a record there is no verdict. -/
theorem dusbCheckParams_none (hrecord : 0 ≤ record)
    (h : ¬ Inside data record (paramHead data record)) :
    dusbCheckParams data len nparams (n + 1) record additionalSize = none := by
  unfold dusbCheckParams
  by_cases hflag : Inside data (record + 2) 1
  · have hgood : peek data (record + 2) = 0 := by
      by_contra hbad
      rw [paramHead, if_neg hbad] at h
      unfold Inside at h hflag
      omega
    have hword : ¬ Inside data (record + 3) 2 := by
      rw [paramHead, if_pos hgood] at h
      unfold Inside at h ⊢
      omega
    rw [readAt_of_inside hflag, Option.bind_eq_bind, Option.bind_some, if_pos hgood,
      wordAt_of_not_inside hword]
    rfl
  · rw [readAt_of_not_inside hflag]
    rfl

end Loops

/-- The loop over the records ends with a verdict when all the heads it comes to are
there; it accepts when it comes to the end, and the end is the length. -/
theorem dusbCheckParams_spec (hpos : 0 ≤ pos) {n i additionalSize : Nat} (hn : i + n = nparams)
    (hsize : paramPos data pos i = 2 + 3 * i + additionalSize) :
    (CheckedHeadsFit data pos len nparams i → ∃ accepts,
      dusbCheckParams data len nparams n (pos + paramPos data pos i) additionalSize
        = some accepts ∧
      (accepts = true ↔ ComesTo data pos len nparams i nparams ∧
        len = paramPos data pos nparams % 2 ^ 32)) ∧
    ((dusbCheckParams data len nparams n (pos + paramPos data pos i) additionalSize).isSome →
      CheckedHeadsFit data pos len nparams i) := by
  induction n generalizing i additionalSize with
  | zero =>
      obtain rfl : i = nparams := hn
      have hend : 2 + 3 * i + additionalSize = paramPos data pos i := hsize.symm
      refine ⟨fun _ => ⟨_, rfl, ?_⟩, fun _ j hij hj => by omega⟩
      rw [decide_eq_true_iff, paramsSize, hend]
      exact (and_iff_right fun k hk hki => by omega).symm
  | succ n ih =>
      have hi : i < nparams := by omega
      have hnext : paramPos data pos (i + 1) = 2 + 3 * (i + 1)
          + (additionalSize + paramExtra data (pos + paramPos data pos i)) := by
        rw [paramPos]
        omega
      rw [checkedHeadsFit_step hi, comesTo_step hi]
      by_cases hinside : Inside data (pos + paramPos data pos i)
          (paramHead data (pos + paramPos data pos i))
      · rw [dusbCheckParams_step hi hinside hsize]
        by_cases hover : len < paramsEnd data pos nparams (i + 1) % 2 ^ 32
        · rw [if_pos hover]
          refine ⟨fun _ => ⟨false, rfl, ?_⟩, fun _ => ⟨hinside, fun h => by omega⟩⟩
          simp only [Bool.false_eq_true, false_iff]
          rintro ⟨⟨h, -⟩, -⟩
          omega
        · rw [if_neg hover]
          obtain ⟨hverdict, hheads⟩ := ih (by omega) hnext
          refine ⟨fun h => ?_, fun h => ⟨hinside, fun _ => hheads h⟩⟩
          obtain ⟨accepts, hcheck, haccepts⟩ := hverdict (h.2 (Nat.le_of_not_lt hover))
          refine ⟨accepts, hcheck, haccepts.trans ?_⟩
          rw [and_iff_right (Nat.le_of_not_lt hover)]
      · rw [dusbCheckParams_none (by omega) hinside]
        exact ⟨fun h => absurd h.1 hinside, fun h => by simp at h⟩

/-! ### Lengths at which no sum wraps -/

theorem word_lt (data : List UInt8) (i : Int) : word data i < 2 ^ 16 := by
  have hhigh := (peek data i).toNat_lt
  have hlow := (peek data (i + 1)).toNat_lt
  unfold word
  omega

theorem paramsEnd_succ_le {i : Nat} (hi : i < nparams) :
    paramsEnd data pos nparams i ≤ paramsEnd data pos nparams (i + 1) ∧
      paramsEnd data pos nparams (i + 1) ≤ paramsEnd data pos nparams i + 0x10001 := by
  have hword := word_lt data (pos + paramPos data pos i + 3)
  unfold paramsEnd
  rw [paramPos, paramExtra]
  split <;> omega

theorem paramsEnd_mono {i j : Nat} (hij : i ≤ j) (hj : j ≤ nparams) :
    paramsEnd data pos nparams i ≤ paramsEnd data pos nparams j := by
  have hmono : paramPos data pos i + 3 * (j - i) ≤ paramPos data pos j := paramPos_mono hij
  unfold paramsEnd
  omega

theorem comesTo_iff (hlen : len + 2 ^ 17 ≤ 2 ^ 32) {i j : Nat}
    (hreached : paramsEnd data pos nparams i ≤ len) (hij : i ≤ j) (hj : j ≤ nparams) :
    ComesTo data pos len nparams i j ↔ paramsEnd data pos nparams j ≤ len := by
  constructor
  · intro h
    induction j, hij using Nat.le_induction with
    | base => exact hreached
    | succ j hij ih =>
        have hbefore := ih (by omega) fun k hk hkj => h k hk (by omega)
        have hstep : paramsEnd data pos nparams (j + 1) ≤ paramsEnd data pos nparams j + 0x10001 :=
          (paramsEnd_succ_le hj).2
        have hnext := h (j + 1) (by omega) le_rfl
        rwa [Nat.mod_eq_of_lt (by omega)] at hnext
  · intro h k hik hkj
    have hmono : paramsEnd data pos nparams k ≤ paramsEnd data pos nparams j :=
      paramsEnd_mono hkj hj
    exact (Nat.mod_le _ _).trans (hmono.trans h)

/-- There the records that are checked are those that the earlier ones leave room for. -/
theorem checkedHeadsFit_iff (hlen : len + 2 ^ 17 ≤ 2 ^ 32) {i : Nat}
    (hreached : paramsEnd data pos nparams i ≤ len) :
    CheckedHeadsFit data pos len nparams i ↔ ParamHeadsFit data pos len nparams i := by
  constructor
  · intro h j hij hj hroom
    exact h j hij hj ((comesTo_iff hlen hreached hij hj.le).mpr hroom)
  · intro h j hij hj hcomes
    exact h j hij hj ((comesTo_iff hlen hreached hij hj.le).mp hcomes)

/-- The verdict there. -/
theorem dusbCheckParams_verdict (hlen : len + 2 ^ 17 ≤ 2 ^ 32) (hpos : 0 ≤ pos)
    (hreached : 2 + 3 * nparams ≤ len) :
    (ParamHeadsFit data pos len nparams 0 →
      dusbCheckParams data len nparams nparams (pos + paramPos data pos 0) 0
        = some (decide (paramPos data pos nparams = len))) ∧
    ((dusbCheckParams data len nparams nparams (pos + paramPos data pos 0) 0).isSome →
      ParamHeadsFit data pos len nparams 0) := by
  have hstart : paramsEnd data pos nparams 0 ≤ len := hreached
  have hend : paramsEnd data pos nparams nparams = paramPos data pos nparams := by
    rw [paramsEnd, Nat.sub_self]
    rfl
  have hsize : paramPos data pos 0 = 2 + 3 * 0 + 0 := rfl
  obtain ⟨hverdict, hheads⟩ := dusbCheckParams_spec hpos (Nat.zero_add nparams) hsize
  rw [checkedHeadsFit_iff hlen hstart] at hverdict hheads
  refine ⟨fun h => ?_, hheads⟩
  obtain ⟨accepts, hcheck, haccepts⟩ := hverdict h
  have hiff : accepts = true ↔ paramPos data pos nparams = len := by
    rw [haccepts, comesTo_iff hlen hstart (Nat.zero_le nparams) le_rfl, hend]
    constructor
    · rintro ⟨hle, hlast⟩
      rw [Nat.mod_eq_of_lt (by omega)] at hlast
      exact hlast.symm
    · intro heq
      rw [heq, Nat.mod_eq_of_lt (by omega)]
      exact ⟨le_rfl, rfl⟩
  rw [hcheck, Option.some.injEq, Bool.eq_iff_iff, hiff, decide_eq_true_iff]

/-! ### Records that are dissected -/

section Dissected

variable {n additionalSize : Nat} {record : Int}

theorem dusbDissectParams_whole (h : Inside data record (3 + paramExtra data record))
    (hfits : 2 + 3 * nparams + (additionalSize + paramExtra data record) ≤ len) :
    dusbDissectParams data len nparams (n + 1) record additionalSize =
      dusbDissectParams data len nparams n (record + (3 + paramExtra data record : Nat))
        (additionalSize + paramExtra data record) := by
  have hpid : Inside data record 2 := by unfold Inside at h ⊢; omega
  have hflag : Inside data (record + 2) 1 := by unfold Inside at h ⊢; omega
  rw [dusbDissectParams, wordAt_of_inside hpid, Option.bind_eq_bind, Option.bind_some,
    readAt_of_inside hflag, Option.bind_eq_bind, Option.bind_some]
  unfold paramExtra at h hfits ⊢
  split
  · rename_i hgood
    rw [if_pos hgood] at h hfits
    have hword : Inside data (record + 3) 2 := by unfold Inside at h ⊢; omega
    have hvalue : (readRun data (record + 5) (word data (record + 3))).isSome := by
      rw [isSome_readRun_iff]
      unfold Inside at h ⊢
      omega
    obtain ⟨_, hrun⟩ := Option.isSome_iff_exists.mp hvalue
    have hplace : record + 5 + (word data (record + 3) : Int)
        = record + (3 + (word data (record + 3) + 2) : Nat) := by omega
    rw [wordAt_of_inside hword, Option.bind_eq_bind, Option.bind_some, if_neg (by omega), hrun,
      Option.bind_some, hplace]
  · rfl

theorem dusbDissectParams_broken (hrecord : 0 ≤ record)
    (h : ¬ Inside data record (3 + paramExtra data record))
    (hfits : 2 + 3 * nparams + (additionalSize + paramExtra data record) ≤ len) :
    dusbDissectParams data len nparams (n + 1) record additionalSize = none := by
  unfold dusbDissectParams
  by_cases hflag : Inside data (record + 2) 1
  · have hpid : Inside data record 2 := by unfold Inside at hflag ⊢; omega
    have hgood : peek data (record + 2) = 0 := by
      by_contra hbad
      rw [paramExtra, if_neg hbad] at h
      unfold Inside at h hflag
      omega
    rw [paramExtra, if_pos hgood] at h hfits
    rw [wordAt_of_inside hpid, Option.bind_eq_bind, Option.bind_some, readAt_of_inside hflag,
      Option.bind_eq_bind, Option.bind_some, if_pos hgood]
    by_cases hword : Inside data (record + 3) 2
    · have hvalue : readRun data (record + 5) (word data (record + 3)) = none := by
        rw [← Option.not_isSome_iff_eq_none, isSome_readRun_iff]
        unfold Inside at h hword ⊢
        omega
      rw [wordAt_of_inside hword, Option.bind_eq_bind, Option.bind_some, if_neg (by omega), hvalue]
      rfl
    · rw [wordAt_of_not_inside hword]
      rfl
  · rw [readAt_of_not_inside hflag]
    cases wordAt data record <;> rfl

/-- A list of the right length is read to its end. -/
theorem isSome_dusbDissectParams_iff (hpos : 0 ≤ pos) (hlist : paramPos data pos nparams = len)
    {i : Nat} (hn : i + (n + 1) = nparams)
    (hsize : paramPos data pos i = 2 + 3 * i + additionalSize) :
    (dusbDissectParams data len nparams (n + 1) (pos + paramPos data pos i) additionalSize).isSome ↔
      Inside data pos len := by
  induction n generalizing i additionalSize with
  | zero =>
      have hend : paramPos data pos i + 3 + paramExtra data (pos + paramPos data pos i) = len := by
        rw [← hlist, ← hn]
        rfl
      by_cases hwhole : Inside data (pos + paramPos data pos i)
          (3 + paramExtra data (pos + paramPos data pos i))
      · rw [dusbDissectParams_whole hwhole (by omega), dusbDissectParams]
        unfold Inside at hwhole ⊢
        simp
        omega
      · rw [dusbDissectParams_broken (by omega) hwhole (by omega)]
        unfold Inside at hwhole ⊢
        simp
        omega
  | succ n ih =>
      have hnext : paramPos data pos (i + 1)
          = paramPos data pos i + 3 + paramExtra data (pos + paramPos data pos i) := rfl
      have hmono : paramPos data pos (i + 1) + 3 * (nparams - (i + 1)) ≤ paramPos data pos nparams :=
        paramPos_mono (by omega)
      by_cases hwhole : Inside data (pos + paramPos data pos i)
          (3 + paramExtra data (pos + paramPos data pos i))
      · have hplace : pos + paramPos data pos i
            + (3 + paramExtra data (pos + paramPos data pos i) : Nat)
            = pos + paramPos data pos (i + 1) := by omega
        rw [dusbDissectParams_whole hwhole (by omega), hplace]
        exact ih (by omega) (by omega)
      · rw [dusbDissectParams_broken (by omega) hwhole (by omega)]
        unfold Inside at hwhole ⊢
        simp
        omega

end Dissected

end Params

/-! ## Command data -/

/-- The bytes that the layout of a command makes the dissection read are there. -/
def CmdDataFits (model : CalcModel) (data : List UInt8) (len : Nat) (pos : Int) :
    DusbVpktType → Prop
  | .ping => len = 10 → Inside data pos 10
  | .parmReq =>
      2 ≤ len → Inside data pos 2 ∧ (len = 2 + word data pos * 2 → Inside data pos len)
  | .parmData => 2 ≤ len → Inside data pos 2 ∧ ParamsFit data pos len (word data pos)
  | .parmSet =>
      4 < len → Inside data (pos + 2) 2 ∧
        (len = 4 + word data (pos + 2) →
          Inside data pos (4 + (word data (pos + 2) + 1) / 2))
  | .osBegin => len = 11 → Inside data (pos + 7) 4
  | .osAck => 4 ≤ len → Inside data pos 4
  | .osHeader | .osData => model ≠ .ti89tUsb → 4 < len → Inside data pos 4
  | .delayAck => len = 4 → Inside data pos 4
  | .error => len = 2 → Inside data pos 2
  | _ => True

section CmdData

variable {model : CalcModel} {data : List UInt8} {len : Nat} {pos : Int} {type : DusbVpktType}

/-- Only data that pass the check are dissected. -/
theorem isSome_dusbDissectCmdData_of_check {passes : Bool}
    (h : dusbCheckCmdData model data len pos type = some passes) :
    (dusbDissectCmdData model data len pos type).isSome ↔
      (passes → (dusbDissectChecked model data len pos type).isSome) := by
  rw [dusbDissectCmdData, h, Option.bind_eq_bind, Option.bind_some]
  cases passes with
  | false => simp
  | true => cases dusbDissectChecked model data len pos type <;> simp

theorem isSome_dusbDissectCmdData_of_none (h : dusbCheckCmdData model data len pos type = none) :
    (dusbDissectCmdData model data len pos type).isSome = false := by
  rw [dusbDissectCmdData, h]
  rfl

/-- Commands whose check reads nothing. -/
theorem isSome_dusbDissectCmdData_of_run {passes : Prop} [Decidable passes] {start : Int} {n : Nat}
    (hcheck : dusbCheckCmdData model data len pos type = some (decide passes))
    (hrun : dusbDissectChecked model data len pos type = readRun data start n) (hn : n ≠ 0) :
    (dusbDissectCmdData model data len pos type).isSome ↔ (passes → Inside data start n) := by
  rw [isSome_dusbDissectCmdData_of_check hcheck, hrun, isSome_readRun_iff, decide_eq_true_iff]
  simp [hn]

theorem isSome_dusbDissectCmdData_of_pure {passes : Bool}
    (hcheck : dusbCheckCmdData model data len pos type = some passes)
    (hpure : dusbDissectChecked model data len pos type = some ()) :
    (dusbDissectCmdData model data len pos type).isSome := by
  rw [isSome_dusbDissectCmdData_of_check hcheck, hpure]
  simp

theorem isSome_dusbDissect_parmReq :
    (dusbDissectCmdData model data len pos .parmReq).isSome ↔
      CmdDataFits model data len pos .parmReq := by
  unfold CmdDataFits
  by_cases hlen : 2 ≤ len
  · by_cases hword : Inside data pos 2
    · have hcheck : dusbCheckCmdData model data len pos .parmReq
          = some (decide (len = 2 + word data pos * 2)) := by
        rw [dusbCheckCmdData, if_pos hlen, wordAt_of_inside hword]
        rfl
      rw [isSome_dusbDissectCmdData_of_check hcheck, dusbDissectChecked, wordAt_of_inside hword,
        Option.bind_eq_bind, Option.bind_some, decide_eq_true_iff]
      by_cases hall : len = 2 + word data pos * 2
      · rw [if_pos hall, isSome_dusbDissectPids_iff]
        unfold Inside at hword ⊢
        omega
      · simp [hall, hword]
    · have hcheck : dusbCheckCmdData model data len pos .parmReq = none := by
        rw [dusbCheckCmdData, if_pos hlen, wordAt_of_not_inside hword]
        rfl
      simp [isSome_dusbDissectCmdData_of_none hcheck, hlen, hword]
  · have hcheck : dusbCheckCmdData model data len pos .parmReq = some false := by
      rw [dusbCheckCmdData, if_neg hlen]
    rw [isSome_dusbDissectCmdData_of_check hcheck]
    simp [hlen]

theorem isSome_dusbDissect_parmSet :
    (dusbDissectCmdData model data len pos .parmSet).isSome ↔
      CmdDataFits model data len pos .parmSet := by
  simp only [CmdDataFits]
  by_cases hlen : 4 < len
  · by_cases hword : Inside data (pos + 2) 2
    · have hcheck : dusbCheckCmdData model data len pos .parmSet
          = some (decide (len = 4 + word data (pos + 2))) := by
        rw [dusbCheckCmdData, if_pos hlen, wordAt_of_inside hword]
        rfl
      rw [isSome_dusbDissectCmdData_of_check hcheck, dusbDissectChecked, decide_eq_true_iff]
      by_cases hall : len = 4 + word data (pos + 2)
      · by_cases hid : Inside data pos 2
        · rw [wordAt_of_inside hid, Option.bind_eq_bind, Option.bind_some, wordAt_of_inside hword,
            Option.bind_some, if_pos hall, isSome_dusbDissectValue_iff]
          unfold Inside at hid hword ⊢
          omega
        · rw [wordAt_of_not_inside hid]
          unfold Inside at hid hword ⊢
          simp
          omega
      · simp [hall, hword]
    · have hcheck : dusbCheckCmdData model data len pos .parmSet = none := by
        rw [dusbCheckCmdData, if_pos hlen, wordAt_of_not_inside hword]
        rfl
      simp [isSome_dusbDissectCmdData_of_none hcheck, hlen, hword]
  · have hcheck : dusbCheckCmdData model data len pos .parmSet = some false := by
      rw [dusbCheckCmdData, if_neg hlen]
    rw [isSome_dusbDissectCmdData_of_check hcheck]
    simp [hlen]

/-- What the loops over a list of parameter values come to. -/
theorem isSome_dusbDissectChecked_parmData (hword : Inside data pos 2)
    (hlist : paramPos data pos (word data pos) = len) :
    (dusbDissectChecked model data len pos .parmData).isSome ↔ Inside data pos len := by
  have hmono : paramPos data pos 0 + 3 * (word data pos - 0) ≤ paramPos data pos (word data pos) :=
    paramPos_mono (Nat.zero_le _)
  have hroom : 2 + 3 * word data pos ≤ len := by
    rw [hlist] at hmono
    exact hmono
  rw [dusbDissectChecked, wordAt_of_inside hword, Option.bind_eq_bind, Option.bind_some,
    if_pos hroom]
  cases hn : word data pos with
  | zero =>
      rw [hn] at hlist
      obtain rfl : 2 = len := hlist
      simpa [dusbDissectParams] using hword
  | succ n =>
      rw [hn] at hlist
      exact isSome_dusbDissectParams_iff hword.1 hlist (i := 0) (Nat.zero_add _) rfl

theorem isSome_dusbDissect_parmData (hlen32 : len + 2 ^ 17 ≤ 2 ^ 32) :
    (dusbDissectCmdData model data len pos .parmData).isSome ↔
      CmdDataFits model data len pos .parmData := by
  simp only [CmdDataFits]
  by_cases hlen : 2 ≤ len
  · by_cases hword : Inside data pos 2
    · by_cases hroom : 2 + 3 * word data pos ≤ len
      · have hcheck : dusbCheckCmdData model data len pos .parmData
            = dusbCheckParams data len (word data pos) (word data pos)
              (pos + paramPos data pos 0) 0 := by
          rw [dusbCheckCmdData, if_pos hlen, wordAt_of_inside hword, Option.bind_eq_bind,
            Option.bind_some, if_pos hroom]
          rfl
        have hloop : (ParamHeadsFit data pos len (word data pos) 0 →
              dusbCheckCmdData model data len pos .parmData
                = some (decide (paramPos data pos (word data pos) = len))) ∧
            ((dusbCheckCmdData model data len pos .parmData).isSome →
              ParamHeadsFit data pos len (word data pos) 0) := by
          rw [hcheck]
          exact dusbCheckParams_verdict hlen32 hword.1 hroom
        by_cases hheads : ParamHeadsFit data pos len (word data pos) 0
        · rw [isSome_dusbDissectCmdData_of_check (hloop.1 hheads), decide_eq_true_iff, ParamsFit]
          simp only [hlen, hword, hheads, true_and, forall_const]
          constructor
          · intro h hlist
            exact (isSome_dusbDissectChecked_parmData hword hlist).mp (h hlist)
          · intro h hlist
            exact (isSome_dusbDissectChecked_parmData hword hlist).mpr (h hlist)
        · have hnone : dusbCheckCmdData model data len pos .parmData = none := by
            rw [← Option.not_isSome_iff_eq_none]
            exact fun h => hheads (hloop.2 h)
          simp [isSome_dusbDissectCmdData_of_none hnone, hlen, ParamsFit, hheads]
      · have hcheck : dusbCheckCmdData model data len pos .parmData = some false := by
          rw [dusbCheckCmdData, if_pos hlen, wordAt_of_inside hword, Option.bind_eq_bind,
            Option.bind_some, if_neg hroom]
          rfl
        have hmono : paramPos data pos 0 + 3 * (word data pos - 0)
            ≤ paramPos data pos (word data pos) := paramPos_mono (Nat.zero_le _)
        have hstart : paramPos data pos 0 = 2 := rfl
        have hheads : ParamHeadsFit data pos len (word data pos) 0 :=
          paramHeadsFit_of_overrun (by omega)
        rw [isSome_dusbDissectCmdData_of_check hcheck, ParamsFit]
        simp only [Bool.false_eq_true, false_implies, true_iff]
        exact fun _ => ⟨hword, hheads, fun hlist => by omega⟩
    · have hcheck : dusbCheckCmdData model data len pos .parmData = none := by
        rw [dusbCheckCmdData, if_pos hlen, wordAt_of_not_inside hword]
        rfl
      simp [isSome_dusbDissectCmdData_of_none hcheck, hlen, hword]
  · have hcheck : dusbCheckCmdData model data len pos .parmData = some false := by
      rw [dusbCheckCmdData, if_neg hlen]
    rw [isSome_dusbDissectCmdData_of_check hcheck]
    simp [hlen]

/-- The header and the data of an operating system, on the TI-89 Titanium and
elsewhere. -/
theorem isSome_dusbDissect_os
    (hcheck : dusbCheckCmdData model data len pos type
      = if model = .ti89tUsb then some (decide (0 < len)) else some (decide (4 < len)))
    (hread : dusbDissectChecked model data len pos type
      = if model = .ti89tUsb then some () else readRun data pos 4) :
    (dusbDissectCmdData model data len pos type).isSome ↔
      (model ≠ .ti89tUsb → 4 < len → Inside data pos 4) := by
  by_cases hmodel : model = .ti89tUsb
  · rw [if_pos hmodel] at hcheck hread
    exact iff_of_true (isSome_dusbDissectCmdData_of_pure hcheck hread) (absurd hmodel)
  · rw [if_neg hmodel] at hcheck hread
    rw [isSome_dusbDissectCmdData_of_run hcheck hread (by decide)]
    simp [hmodel]

theorem isSome_dusbDissectCmdData_iff (hlen32 : len + 2 ^ 17 ≤ 2 ^ 32) :
    (dusbDissectCmdData model data len pos type).isSome ↔ CmdDataFits model data len pos type := by
  cases type with
  | ping => exact isSome_dusbDissectCmdData_of_run rfl rfl (by decide)
  | parmReq => exact isSome_dusbDissect_parmReq
  | parmData => exact isSome_dusbDissect_parmData hlen32
  | parmSet => exact isSome_dusbDissect_parmSet
  | osBegin => exact isSome_dusbDissectCmdData_of_run rfl rfl (by decide)
  | osAck => exact isSome_dusbDissectCmdData_of_run rfl rfl (by decide)
  | osHeader => exact isSome_dusbDissect_os rfl rfl
  | osData => exact isSome_dusbDissect_os rfl rfl
  | delayAck => exact isSome_dusbDissectCmdData_of_run rfl rfl (by decide)
  | error => exact isSome_dusbDissectCmdData_of_run rfl rfl (by decide)
  | unknown =>
      have hcheck : dusbCheckCmdData model data len pos .unknown = some false := rfl
      exact iff_of_true ((isSome_dusbDissectCmdData_of_check hcheck).mpr (by simp)) trivial
  | _ => exact iff_of_true (isSome_dusbDissectCmdData_of_pure rfl rfl) trivial

end CmdData

/-! ## Packets -/

/-- Command data behind the first fragment of a virtual packet: how many bytes
they are taken to have, the offset they are read from, and their type. -/
structure DusbInner where
  len : Nat
  pos : Int
  type : DusbVpktType
  deriving DecidableEq, Repr

/-- The command data in a packet that are dissected, if any. -/
def dusbInner (data : List UInt8) (first : Bool) : Option DusbInner :=
  if 11 ≤ data.length ∧ data.length ≤ dusbDataSize ∧ long data 0 ≤ dusbDataSize - 5 ∧
      (peek data 4 = dusbRpktVirtData ∨ peek data 4 = dusbRpktVirtDataLast) ∧
      first = true ∧ long data 5 ≠ 0 then
    some { len := data.length - 11, pos := data.length - long data 5,
           type := .ofCode (word data 9) }
  else none

/-- What is dissected within the buffer: the bytes that the layout of the command
data takes are there, from where they are read. -/
def DissectFits (model : CalcModel) (data : List UInt8) (first : Bool) : Prop :=
  ∀ inner, dusbInner data first = some inner →
    CmdDataFits model data inner.len inner.pos inner.type

section Packets

variable {model : CalcModel} {data : List UInt8} {first : Bool}

theorem dissectFits_of_none (h : dusbInner data first = none) : DissectFits model data first := by
  intro inner hinner
  rw [h] at hinner
  cases hinner

theorem isSome_dusbDissectNext (hlen : 11 ≤ data.length) : (dusbDissectNext data).isSome := by
  have hhead : (readRun data 5 3).isSome := by
    rw [isSome_readRun_iff]
    unfold Inside
    omega
  have hrest : (readRun data 8 (data.length - 8)).isSome := by
    rw [isSome_readRun_iff]
    unfold Inside
    omega
  obtain ⟨_, hhead⟩ := Option.isSome_iff_exists.mp hhead
  obtain ⟨_, hrest⟩ := Option.isSome_iff_exists.mp hrest
  rw [dusbDissectNext, hhead, Option.bind_eq_bind, Option.bind_some, hrest]
  rfl

theorem isSome_dusbDissectFirst_iff (hlen : 11 ≤ data.length) (hmax : data.length ≤ dusbDataSize) :
    (dusbDissectFirst model data).isSome ↔
      (long data 5 ≠ 0 →
        CmdDataFits model data (data.length - 11) (data.length - long data 5)
          (.ofCode (word data 9))) := by
  have hsize : Inside data 5 4 := by unfold Inside; omega
  have htype : Inside data 9 2 := by unfold Inside; omega
  rw [dusbDissectFirst, longAt_of_inside hsize, Option.bind_eq_bind, Option.bind_some,
    wordAt_of_inside htype, Option.bind_eq_bind, Option.bind_some]
  by_cases hzero : long data 5 = 0
  · simp [hzero]
  · have hbytes : (readRun data 11 (data.length - 11)).isSome := by
      rw [isSome_readRun_iff]
      unfold Inside
      omega
    obtain ⟨_, hbytes⟩ := Option.isSome_iff_exists.mp hbytes
    have hback : 11 + (data.length - 11 : Nat) - (long data 5 : Int)
        = data.length - long data 5 := by omega
    rw [if_neg hzero]
    show ((readRun data 11 (data.length - 11)).bind fun _ => dusbDissectCmdData model data _ _ _).isSome
      ↔ _
    have hlen32 : data.length - 11 + 2 ^ 17 ≤ 2 ^ 32 := by
      unfold dusbDataSize at hmax
      omega
    rw [hbytes, Option.bind_some, hback, isSome_dusbDissectCmdData_iff hlen32]
    simp [hzero]

/-- A packet of a virtual type. -/
theorem isSome_dusbDissect_virt (hmin : 11 ≤ data.length) (hmax : data.length ≤ dusbDataSize)
    (hraw : long data 0 ≤ dusbDataSize - 5)
    (htype : peek data 4 = dusbRpktVirtData ∨ peek data 4 = dusbRpktVirtDataLast) :
    (if first then dusbDissectFirst model data else dusbDissectNext data).isSome ↔
      DissectFits model data first := by
  cases first with
  | false =>
      have hinner : dusbInner data false = none := if_neg fun h => by simp at h
      exact iff_of_true (isSome_dusbDissectNext hmin) (dissectFits_of_none hinner)
  | true =>
      rw [if_pos rfl, isSome_dusbDissectFirst_iff hmin hmax]
      by_cases hzero : long data 5 = 0
      · have hinner : dusbInner data true = none := if_neg fun h => h.2.2.2.2.2 hzero
        exact iff_of_true (fun h => absurd hzero h) (dissectFits_of_none hinner)
      · have hinner : dusbInner data true = some ⟨data.length - 11, data.length - long data 5,
            .ofCode (word data 9)⟩ := if_pos ⟨hmin, hmax, hraw, htype, rfl, hzero⟩
        constructor
        · intro h inner heq
          rw [hinner] at heq
          cases heq
          exact h hzero
        · intro h _
          exact h _ hinner

/-- Dissection stays in the buffer just when the command data, read from where the
size in the packet leads back to, do. -/
theorem dusbDissect_inBounds_iff (model : CalcModel) (data : List UInt8) (first : Bool) :
    (dusbDissect model data first).isSome ↔ DissectFits model data first := by
  unfold dusbDissect
  by_cases hlen : data.length < 5 ∨ dusbDataSize < data.length
  · have hinner : dusbInner data first = none := if_neg fun h => by omega
    rw [if_pos hlen]
    exact iff_of_true rfl (dissectFits_of_none hinner)
  have hsize : Inside data 0 4 := by unfold Inside; omega
  have htype : Inside data 4 1 := by unfold Inside; omega
  rw [if_neg hlen, longAt_of_inside hsize, Option.bind_eq_bind, Option.bind_some,
    readAt_of_inside htype, Option.bind_eq_bind, Option.bind_some]
  by_cases hraw : dusbDataSize - 5 < long data 0
  · have hinner : dusbInner data first = none := if_neg fun h => by omega
    rw [if_pos hraw]
    exact iff_of_true rfl (dissectFits_of_none hinner)
  rw [if_neg hraw]
  by_cases hknown : peek data 4 < 1 ∨ 5 < peek data 4
  · have hinner : dusbInner data first = none := if_neg fun h => by
      cases h.2.2.2.1 with
      | inl h => rw [h] at hknown; revert hknown; decide
      | inr h => rw [h] at hknown; revert hknown; decide
    rw [if_pos hknown]
    exact iff_of_true rfl (dissectFits_of_none hinner)
  rw [if_neg hknown]
  by_cases hvirt : peek data 4 = dusbRpktVirtData ∨ peek data 4 = dusbRpktVirtDataLast
  · have hmin : dusbRpktData (peek data 4) = 6 := by
      cases hvirt with
      | inl h => rw [h]; rfl
      | inr h => rw [h]; rfl
    have hsizes : ¬ (peek data 4 = dusbRpktBufSizeReq ∨ peek data 4 = dusbRpktBufSizeAlloc) := by
      cases hvirt with
      | inl h => rw [h]; decide
      | inr h => rw [h]; decide
    by_cases hshort : data.length < 5 + dusbRpktData (peek data 4)
    · have hinner : dusbInner data first = none := if_neg fun h => by omega
      rw [if_pos hshort]
      exact iff_of_true rfl (dissectFits_of_none hinner)
    · rw [if_neg hshort, if_neg hsizes, if_pos hvirt,
        ← isSome_dusbDissect_virt (by omega) (by omega) (by omega) hvirt]
      cases (if first then dusbDissectFirst model data else dusbDissectNext data) <;> rfl
  · have hinner : dusbInner data first = none := if_neg fun h => hvirt h.2.2.2.1
    refine iff_of_true ?_ (dissectFits_of_none hinner)
    split
    · rfl
    rename_i hshort
    split
    · rename_i hsizes
      have hargument : Inside data 5 4 := by
        rw [dusbRpktData, if_pos hsizes] at hshort
        unfold Inside
        omega
      rw [longAt_of_inside hargument]
      rfl
    · rename_i hsizes
      have hargument : Inside data 5 2 := by
        rw [dusbRpktData, if_neg hsizes, if_neg hvirt] at hshort
        unfold Inside
        omega
      rw [wordAt_of_inside hargument]
      rfl

/-- With the size in the packet that of its data, only a list of parameter values can be
read past its end. -/
theorem dusbDissect_inBounds_of_size (hmin : 11 ≤ data.length)
    (hsize : long data 5 = data.length - 11)
    (htype : DusbVpktType.ofCode (word data 9) ≠ .parmData) :
    (dusbDissect model data first).isSome := by
  rw [dusbDissect_inBounds_iff]
  intro inner hinner
  unfold dusbInner at hinner
  split at hinner
  · cases hinner
    have hpos : (data.length : Int) - (long data 5 : Int) = 11 := by omega
    rw [hpos]
    cases htag : DusbVpktType.ofCode (word data 9) with
    | parmData => exact absurd htag htype
    | _ => simp only [CmdDataFits, Inside] <;> grind
  · cases hinner

/-- A delay that a packet of 15 bytes says to have a megabyte of data is read in front of
the buffer; the size of a value behind its end, when the list ends with the mark of a
good parameter. -/
theorem dusbDissect_reads_outside :
    dusbDissect .ti84pUsb [0, 0, 0, 10, 4, 0, 16, 0, 0, 0xBB, 0, 0, 0, 0, 0] true = none ∧
      dusbDissect .ti84pUsb [0, 0, 0, 11, 4, 0, 0, 0, 5, 0, 8, 0, 1, 0, 1, 0] true = none := by
  decide

end Packets

end Tilibs.Dusb
