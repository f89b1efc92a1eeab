import Mathlib
import Tilibs.Lib.Bytes
import Tilibs.Lib.Fallible
import Tilibs.Lib.Tiling

/-!
# Tilibs.Webtilp.BackupVat

The variable allocation table of a TI-82 or TI-85 backup file.

Every access to a vector goes through `byteAt` or `range`, which stop the parser with
`outOfBounds` where the access would leave the vector.  A file that is refused stops it
with the reason.
-/

namespace Tilibs.Webtilp.BackupVat

open Lib

/-! ## access to a vector -/

/-- Why the parser stops. -/
inductive VatStop
  | refused (reason : String)
  | outOfBounds
  deriving DecidableEq

/-- `REQUIRE` -/
def require (condition : Prop) [Decidable condition] (reason : String) : Except VatStop Unit :=
  if condition then .ok () else .error (.refused reason)

/-- An element of a vector. -/
def byteAt (data : List UInt8) (i : Nat) : Except VatStop UInt8 :=
  match data[i]? with
  | some b => .ok b
  | none => .error .outOfBounds

/-- The elements from one iterator on. -/
def range (data : List UInt8) (offset size : Nat) : Except VatStop (List UInt8) :=
  if offset + size ≤ data.length then .ok (slice data (offset, size)) else .error .outOfBounds

/-- `word` -/
def word (data : List UInt8) (offset : Nat) : Except VatStop Nat := do
  let lo ← byteAt data offset
  let hi ← byteAt data (offset + 1)
  return getLE [lo, hi]

/-! ## the table -/

/-- `TiBackupVatEntry` -/
structure TiBackupVatEntry where
  type : UInt8
  name : List UInt8
  address : Nat
  size : Nat
  deriving DecidableEq

/-- The size of the variable at `offset`, zero for none. -/
def variableSize (data : List UInt8) (offset : Nat) (model : Int) (type : UInt8) :
    Except VatStop Nat := do
  if offset ≥ data.length ∨ data.length - offset < 2 then return 0
  else
    let lo ← byteAt data offset
    let hi ← byteAt data (offset + 1)
    if model = 82 then
      match type with
      | 0 => return 9
      | 1 => return 2 + 9 * getLE [lo, hi]
      | 2 => return 2 + 9 * lo.toNat * hi.toNat
      | 3 | 5 | 6 | 7 | 8 => return 2 + getLE [lo, hi]
      | _ => return 0
    else
      let real := if type &&& 1 ≠ 0 then 20 else 10
      match type with
      | 0 | 8 => return 10
      | 1 | 9 => return 20
      | 2 | 3 | 6 | 7 => return 2 + real * lo.toNat * hi.toNat
      | 4 | 5 => return 2 + real * getLE [lo, hi]
      | 10 | 12 | 13 | 14 | 15 | 16 | 17 | 18 => return 2 + getLE [lo, hi]
      | _ => return 0

/-- `parts[2][--cursor]`: the byte before the cursor, and the cursor before it. -/
def byteBefore (vat : List UInt8) (cursor : Nat) : Except VatStop (UInt8 × Nat) :=
  if cursor = 0 then .error .outOfBounds
  else do
    let b ← byteAt vat (cursor - 1)
    return (b, cursor - 1)

/-- The characters of a name, backwards. -/
def nameBefore (vat : List UInt8) : Nat → Nat → Except VatStop (List UInt8 × Nat)
  | 0, cursor => .ok ([], cursor)
  | n + 1, cursor => do
      let (c, cursor) ← byteBefore vat cursor
      let (name, cursor) ← nameBefore vat n cursor
      return (c :: name, cursor)

/-- The bits of the type. -/
def typeMask (model : Int) : UInt8 := if model = 82 then 0x0F else 0x1F

/-- Whether the entry says how long its name is. -/
def named (model : Int) (type : UInt8) : Bool := model = 85 || type = 5 || type = 6

/-- The length of the name: a byte before the cursor, or that of a token name. -/
def nameLengthBefore (vat : List UInt8) (model : Int) (type : UInt8) (cursor : Nat) :
    Except VatStop (UInt8 × Nat) :=
  if named model type then byteBefore vat cursor else .ok (3, cursor)

/-- One entry of the table, from its end. -/
def parseEntry (vat user : List UInt8) (base : Nat) (model : Int) (cursor : Nat) :
    Except VatStop (TiBackupVatEntry × Nat) := do
  require (cursor ≥ 4) "Truncated VAT entry"
  let (typeByte, cursor) ← byteBefore vat cursor
  let type := typeByte &&& typeMask model
  let (lo, cursor) ← byteBefore vat cursor
  let (hi, cursor) ← byteBefore vat cursor
  let address := getLE [lo, hi]
  let (nameLength, cursor) ← nameLengthBefore vat model type cursor
  require (nameLength > 0 ∧ nameLength ≤ 8) "Invalid VAT name length"
  require (cursor ≥ nameLength.toNat) "Truncated VAT name"
  let (chars, cursor) ← nameBefore vat nameLength.toNat cursor
  let name := padRight 9 0 chars
  require (name.headD 0 ≠ 0) "Empty VAT name"
  require (address ≥ base) "VAT address below backup user data"
  let position := address - base
  let size ← variableSize user position model type
  require (size ≠ 0 ∧ position < user.length ∧ size ≤ user.length - position)
    "Variable extends beyond backup user data"
  return ({ type, name, address, size := size % 2 ^ 16 }, cursor)

/-! ## reading inside the vector -/

/-- The parser stops for a reason only. -/
def Refuses (stop : VatStop) : Prop := stop ≠ .outOfBounds

theorem require_ensures (condition : Prop) [Decidable condition] (reason : String) :
    Ensures Refuses (require condition reason) fun _ => condition := by
  unfold require
  by_cases h : condition
  · rw [if_pos h]
    exact h
  · rw [if_neg h]
    exact nofun

theorem byteAt_eq {data : List UInt8} {i : Nat} (h : i < data.length) :
    byteAt data i = .ok data[i] := by
  unfold byteAt
  rw [List.getElem?_eq_getElem h]

theorem range_eq {data : List UInt8} {offset size : Nat} (h : offset + size ≤ data.length) :
    range data offset size = .ok (slice data (offset, size)) := if_pos h

/-- A word is the two bytes at its offset. -/
theorem word_ensures {data : List UInt8} {offset : Nat} (h : offset + 2 ≤ data.length) :
    Ensures Refuses (word data offset) fun value =>
      value < 2 ^ 16 ∧ slice data (offset, 2) = putLE 2 value := by
  unfold word
  rw [byteAt_eq (show offset < data.length by omega),
    byteAt_eq (show offset + 1 < data.length by omega)]
  show getLE [data[offset], data[offset + 1]] < 2 ^ 16
    ∧ slice data (offset, 2) = putLE 2 (getLE [data[offset], data[offset + 1]])
  have hslice : slice data (offset, 2) = [data[offset], data[offset + 1]] := by
    unfold slice
    rw [List.drop_eq_getElem_cons (by omega), List.drop_eq_getElem_cons (by omega)]
    rfl
  have hread := putLE_getLE [data[offset], data[offset + 1]]
  have hlt := getLE_lt [data[offset], data[offset + 1]]
  exact ⟨by simpa using hlt, hslice.trans hread.symm⟩

/-- A variable's size is found without leaving the user memory. -/
theorem variableSize_ensures (data : List UInt8) (offset : Nat) (model : Int) (type : UInt8) :
    Ensures Refuses (variableSize data offset model type) fun _ => True := by
  unfold variableSize
  split
  · exact trivial
  · next hroom =>
    rw [byteAt_eq (show offset < data.length by omega),
      byteAt_eq (show offset + 1 < data.length by omega)]
    show Ensures Refuses (if model = 82 then _ else _) _
    split
    · split <;> exact trivial
    · split <;> exact trivial

/-! ## one entry -/

/-- Reading a byte moves it from the vector to what was read. -/
theorem byteBefore_ensures {vat : List UInt8} {cursor : Nat} (hcursor : 0 < cursor)
    (h : cursor ≤ vat.length) :
    Ensures Refuses (byteBefore vat cursor) fun read => read.2 + 1 = cursor
      ∧ (vat.take cursor).reverse = read.1 :: (vat.take read.2).reverse := by
  unfold byteBefore
  rw [if_neg (by omega), byteAt_eq (show cursor - 1 < vat.length by omega)]
  obtain ⟨c, rfl⟩ : ∃ c, cursor = c + 1 := ⟨cursor - 1, by omega⟩
  show c + 1 - 1 + 1 = c + 1 ∧ _
  refine ⟨by omega, ?_⟩
  simp only [Nat.add_sub_cancel]
  rw [List.take_succ_eq_append_getElem (by omega), List.reverse_append]
  rfl

theorem nameBefore_ensures {vat : List UInt8} {n cursor : Nat} (hn : n ≤ cursor)
    (h : cursor ≤ vat.length) :
    Ensures Refuses (nameBefore vat n cursor) fun read => read.2 + n = cursor
      ∧ read.1.length = n ∧ (vat.take cursor).reverse = read.1 ++ (vat.take read.2).reverse := by
  induction n generalizing cursor with
  | zero => exact ⟨rfl, rfl, rfl⟩
  | succ n ih =>
      unfold nameBefore
      refine (byteBefore_ensures (by omega) h).bind fun first hfirst => ?_
      refine (ih (by omega) (by omega)).bind fun rest hrest => ?_
      obtain ⟨hat, hbyte⟩ := hfirst
      obtain ⟨hend, hlen, hname⟩ := hrest
      refine Ensures.pure ⟨by omega, ?_, ?_⟩
      · rw [List.length_cons, hlen]
      · rw [hbyte, hname]
        rfl

/-- The bytes of an entry, in the order in which they are read. -/
structure EntryBytes (model : Int) (raw : List UInt8) (entry : TiBackupVatEntry) : Prop where
  fields : ∃ type lo hi chars,
    raw = type :: lo :: hi
        :: ((if named model entry.type then [UInt8.ofNat chars.length] else []) ++ chars)
      ∧ entry.type = type &&& typeMask model ∧ entry.address = getLE [lo, hi]
      ∧ 0 < chars.length ∧ chars.length ≤ 8 ∧ (named model entry.type = false → chars.length = 3)
      ∧ entry.name = padRight 9 0 chars ∧ entry.name.headD 0 ≠ 0

/-- The variable that an entry stands for lies in the user memory. -/
structure EntryInside (model : Int) (user : List UInt8) (base : Nat) (entry : TiBackupVatEntry) :
    Prop where
  begins : base ≤ entry.address
  ends : entry.address - base + entry.size ≤ user.length
  size : variableSize user (entry.address - base) model entry.type = .ok entry.size
  notEmpty : 0 < entry.size

/-- The length of a name is read where there is one. -/
theorem nameLengthBefore_ensures {vat : List UInt8} {cursor : Nat} (model : Int) (type : UInt8)
    (hcursor : 0 < cursor) (h : cursor ≤ vat.length) :
    Ensures Refuses (nameLengthBefore vat model type cursor) fun read => read.2 ≤ cursor
      ∧ (named model type = false → read.1 = 3)
      ∧ (vat.take cursor).reverse
        = (if named model type then [read.1] else []) ++ (vat.take read.2).reverse := by
  unfold nameLengthBefore
  cases hnamed : named model type with
  | true =>
      refine (byteBefore_ensures hcursor h).mono fun read hread => ?_
      exact ⟨by omega, nofun, hread.2⟩
  | false => exact ⟨le_refl _, fun _ => rfl, rfl⟩

/-- An entry is read from the bytes before the cursor. -/
theorem parseEntry_ensures (vat user : List UInt8) (base : Nat) (model : Int) {cursor : Nat}
    (hcursor : cursor ≤ vat.length) (huser : user.length < 2 ^ 16) :
    Ensures Refuses (parseEntry vat user base model cursor) fun read => read.2 < cursor
      ∧ EntryInside model user base read.1
      ∧ ∃ raw, EntryBytes model raw read.1
        ∧ (vat.take cursor).reverse = raw ++ (vat.take read.2).reverse := by
  unfold parseEntry
  refine (require_ensures _ _).bind fun _ hroom => ?_
  refine (byteBefore_ensures (by omega) hcursor).bind fun type htype => ?_
  obtain ⟨htypeAt, htypeByte⟩ := htype
  refine (byteBefore_ensures (by omega) (by omega)).bind fun lo hlo => ?_
  obtain ⟨hloAt, hloByte⟩ := hlo
  refine (byteBefore_ensures (by omega) (by omega)).bind fun hi hhi => ?_
  obtain ⟨hhiAt, hhiByte⟩ := hhi
  refine (nameLengthBefore_ensures model (type.1 &&& typeMask model) (by omega) (by omega)).bind
    fun length hlength => ?_
  obtain ⟨hlengthAt, hlengthByte⟩ := hlength
  refine (require_ensures _ _).bind fun _ hvalid => ?_
  refine (require_ensures _ _).bind fun _ hname => ?_
  refine (nameBefore_ensures hname (by omega)).bind fun chars hchars => ?_
  obtain ⟨hcharsAt, hcharsLen, hcharsBytes⟩ := hchars
  refine (require_ensures _ _).bind fun _ hfirst => ?_
  refine (require_ensures _ _).bind fun _ hbase => ?_
  refine (variableSize_ensures _ _ _ _).strengthen.bind fun size hsize => ?_
  refine (require_ensures _ _).bind fun _ hinside => ?_
  obtain ⟨hsize, -⟩ := hsize
  have hsize16 : size % 2 ^ 16 = size := Nat.mod_eq_of_lt (by omega)
  have hchars : chars.1.length = length.1.toNat := hcharsLen
  have hlength : UInt8.ofNat chars.1.length = length.1 := by
    rw [hchars, UInt8.ofNat_toNat]
  have hpos : 0 < length.1.toNat := hvalid.1
  have hle : length.1.toNat ≤ 8 := hvalid.2
  refine Ensures.pure ⟨by dsimp only; omega, ?_, _, ⟨type.1, lo.1, hi.1, chars.1, rfl, rfl, rfl,
    by omega, by omega, ?_, rfl, hfirst⟩, ?_⟩
  · dsimp only
    rw [hsize16]
    exact ⟨hbase, by dsimp only; omega, hsize, Nat.pos_of_ne_zero hinside.1⟩
  · intro hnamed
    rw [hchars, hlengthByte.1 hnamed]
    rfl
  · rw [htypeByte, hloByte, hhiByte, hlengthByte.2, hcharsBytes, hlength]
    simp

/-! ## the table, backwards -/

/-- An entry that is read moves the cursor back. -/
theorem byteBefore_lt {vat : List UInt8} {cursor : Nat} {read : UInt8 × Nat}
    (h : byteBefore vat cursor = .ok read) : read.2 < cursor := by
  unfold byteBefore at h
  split at h
  · cases h
  · obtain ⟨b, -, h⟩ := bind_eq_ok_iff.mp h
    cases h
    show cursor - 1 < cursor
    omega

theorem nameBefore_le {vat : List UInt8} {n cursor : Nat} {read : List UInt8 × Nat}
    (h : nameBefore vat n cursor = .ok read) : read.2 ≤ cursor := by
  induction n generalizing cursor read with
  | zero =>
      cases h
      exact le_refl _
  | succ n ih =>
      obtain ⟨first, hfirst, h⟩ := bind_eq_ok_iff.mp h
      obtain ⟨rest, hrest, h⟩ := bind_eq_ok_iff.mp h
      cases h
      have hlt := byteBefore_lt hfirst
      have hle := ih hrest
      show rest.2 ≤ cursor
      omega

theorem nameLengthBefore_le {vat : List UInt8} {model : Int} {type : UInt8} {cursor : Nat}
    {read : UInt8 × Nat} (h : nameLengthBefore vat model type cursor = .ok read) :
    read.2 ≤ cursor := by
  unfold nameLengthBefore at h
  split at h
  · exact (byteBefore_lt h).le
  · cases h
    exact le_refl _

theorem parseEntry_lt {vat user : List UInt8} {base cursor : Nat} {model : Int}
    {read : TiBackupVatEntry × Nat} (h : parseEntry vat user base model cursor = .ok read) :
    read.2 < cursor := by
  unfold parseEntry at h
  obtain ⟨_, -, h⟩ := bind_eq_ok_iff.mp h
  obtain ⟨type, htype, h⟩ := bind_eq_ok_iff.mp h
  obtain ⟨lo, hlo, h⟩ := bind_eq_ok_iff.mp h
  obtain ⟨hi, hhi, h⟩ := bind_eq_ok_iff.mp h
  obtain ⟨length, hlength, h⟩ := bind_eq_ok_iff.mp h
  obtain ⟨_, -, h⟩ := bind_eq_ok_iff.mp h
  obtain ⟨_, -, h⟩ := bind_eq_ok_iff.mp h
  obtain ⟨chars, hchars, h⟩ := bind_eq_ok_iff.mp h
  obtain ⟨_, -, h⟩ := bind_eq_ok_iff.mp h
  obtain ⟨_, -, h⟩ := bind_eq_ok_iff.mp h
  obtain ⟨size, -, h⟩ := bind_eq_ok_iff.mp h
  obtain ⟨_, -, h⟩ := bind_eq_ok_iff.mp h
  cases h
  have htypeLt := byteBefore_lt htype
  have hloLt := byteBefore_lt hlo
  have hhiLt := byteBefore_lt hhi
  have hlengthLe := nameLengthBefore_le hlength
  have hcharsLe := nameBefore_le hchars
  show chars.2 < cursor
  omega

/-- The loop over the table, from its end to its beginning. -/
def parseEntries (vat user : List UInt8) (base : Nat) (model : Int) (cursor : Nat) :
    Except VatStop (List TiBackupVatEntry) :=
  if cursor = 0 then .ok []
  else
    match h : parseEntry vat user base model cursor with
    | .error stop => .error stop
    | .ok read =>
        (parseEntries vat user base model read.2).map fun entries => read.1 :: entries
  termination_by cursor
  decreasing_by exact parseEntry_lt h

/-- The whole table is read, entry by entry. -/
theorem parseEntries_ensures {vat user : List UInt8} {base cursor : Nat} (model : Int)
    (hcursor : cursor ≤ vat.length) (huser : user.length < 2 ^ 16) :
    Ensures Refuses (parseEntries vat user base model cursor) fun entries =>
      (∀ entry ∈ entries, EntryInside model user base entry)
        ∧ ∃ raws, List.Forall₂ (EntryBytes model) raws entries
          ∧ (vat.take cursor).reverse = raws.flatten := by
  fun_induction parseEntries vat user base model cursor with
  | case1 => exact ⟨nofun, [], .nil, rfl⟩
  | case2 cursor hzero stop hread =>
      have hentry := parseEntry_ensures vat user base model hcursor huser
      rw [hread] at hentry
      exact hentry
  | case3 cursor hzero read hread ih =>
      have hentry := parseEntry_ensures vat user base model hcursor huser
      obtain ⟨hlt, hinside, raw, hbytes, hraw⟩ := hentry.of_ok hread
      have hrest := ih (by omega)
      cases htail : parseEntries vat user base model read.2 with
      | error stop =>
          rw [htail] at hrest
          exact hrest
      | ok entries =>
          obtain ⟨hall, raws, hraws, hflat⟩ := hrest.of_ok htail
          refine ⟨List.forall_mem_cons.mpr ⟨hinside, hall⟩, raw :: raws, .cons hbytes hraws, ?_⟩
          rw [hraw, hflat, List.flatten_cons]

/-! ## the file -/

/-- One of the three blocks behind its length word. -/
def parseBlock (file : List UInt8) (offset length : Nat) :
    Except VatStop (List UInt8 × Nat) := do
  require (offset ≤ file.length - 4) "Truncated backup block length"
  let declared ← word file offset
  require (declared = length) "Backup block length mismatch"
  require (offset + 2 ≤ file.length - 2 ∧ length ≤ file.length - 2 - (offset + 2))
    "Truncated backup block"
  let block ← range file (offset + 2) length
  return (block, offset + 2 + length)

/-- The model's name at the beginning of a file. -/
def signature (model : Int) : List UInt8 :=
  if model = 82 then [0x2A, 0x2A, 0x54, 0x49, 0x38, 0x32, 0x2A, 0x2A]
  else [0x2A, 0x2A, 0x54, 0x49, 0x38, 0x35, 0x2A, 0x2A]

/-- `parse_ti_backup_vat`, before the entries are handed out. -/
def parseVat (file : List UInt8) (model : Int) : Except VatStop (List TiBackupVatEntry) := do
  require (model = 82 ∨ model = 85) "Unsupported backup model"
  require (file.length ≥ 74 ∧ file.length < 65536) "Invalid backup size"
  let name ← range file 0 8
  require (name = signature model) "Backup model does not match calculator"
  let magic ← range file 8 3
  require (magic = [0x1A, if model = 85 then 0x0C else 0x0A, 0x00]) "Invalid backup signature"
  let payload ← word file 53
  require (payload = file.length - 57) "Invalid backup payload length"
  let header ← word file 55
  require (header = 9) "Unsupported backup header"
  let kind ← byteAt file 59
  require (kind = if model = 82 then 0x0F else 0x1D) "Not a native backup"
  let summed ← range file 55 (file.length - 57)
  let checksum ← word file (file.length - 2)
  require (byteSum summed % 2 ^ 16 = checksum) "Backup checksum mismatch"
  let systemLength ← word file 57
  let userLength ← word file 60
  let vatLength ← word file 62
  let (_, offset) ← parseBlock file 66 systemLength
  let (user, offset) ← parseBlock file offset userLength
  let (vat, offset) ← parseBlock file offset vatLength
  require (offset = file.length - 2) "Trailing backup data"
  let base ← word file 64
  require (base ≥ 0x8000 ∧ base + user.length ≤ 0x10000) "Invalid backup user memory range"
  parseEntries vat user base model vat.length

/-- What the caller is left with. -/
structure VatOutput where
  ok : Bool
  entries : List TiBackupVatEntry
  error : String
  deriving DecidableEq

/-- `parse_ti_backup_vat`: the entries are cleared first and set only at the end. -/
def parseTiBackupVat (file : List UInt8) (model : Int) : VatOutput :=
  match parseVat file model with
  | .ok entries => ⟨true, entries, ""⟩
  | .error (.refused reason) => ⟨false, [], reason⟩
  | .error .outOfBounds => ⟨false, [], ""⟩

/-! ## a file that is accepted -/

/-- A block behind its length word. -/
def lengthed (block : List UInt8) : List UInt8 := putLE 2 block.length ++ block

/-- The word that ends the file. -/
def checksumWord (file : List UInt8) : List UInt8 :=
  putLE 2 (byteSum (slice file (55, file.length - 57)) % 2 ^ 16)

/-- The entries are those of the table in the file: the header, the three blocks and the
checksum tile the file, the table is used up, and every variable lies in the user memory. -/
structure VatOf (file : List UInt8) (model : Int) (entries : List TiBackupVatEntry)
    (system user vat : List UInt8) (base : Nat) : Prop where
  tiles : file
    = file.take 66 ++ (lengthed system ++ (lengthed user ++ (lengthed vat ++ checksumWord file)))
  consumed : ∃ raws, List.Forall₂ (EntryBytes model) raws entries ∧ vat.reverse = raws.flatten
  inside : ∀ entry ∈ entries, EntryInside model user base entry

theorem parseBlock_ensures {file : List UInt8} {offset length : Nat} (hfile : 74 ≤ file.length) :
    Ensures Refuses (parseBlock file offset length) fun read =>
      read.2 = offset + (2 + length) ∧ read.2 ≤ file.length - 2 ∧ read.1.length = length
        ∧ slice file (offset, 2 + length) = lengthed read.1 := by
  unfold parseBlock
  refine (require_ensures _ _).bind fun _ hoffset => ?_
  refine (word_ensures (by omega)).bind fun declared hdeclared => ?_
  refine (require_ensures _ _).bind fun _ heq => ?_
  refine (require_ensures _ _).bind fun _ hroom => ?_
  rw [range_eq (by omega)]
  have hlen : (slice file (offset + 2, length)).length = length := length_slice (by omega)
  refine Ensures.pure ⟨Nat.add_assoc _ _ _, by dsimp only; omega, hlen, ?_⟩
  unfold lengthed
  dsimp only
  rw [← slice_append, hdeclared.2, hlen, heq]

theorem parseVat_ensures (file : List UInt8) (model : Int) :
    Ensures Refuses (parseVat file model) fun entries =>
      ∃ system user vat base, VatOf file model entries system user vat base := by
  unfold parseVat
  refine (require_ensures _ _).bind fun _ hmodel => ?_
  refine (require_ensures _ _).bind fun _ hfile => ?_
  rw [range_eq (by omega)]
  refine (require_ensures _ _).bind fun _ hname => ?_
  rw [range_eq (by omega)]
  refine (require_ensures _ _).bind fun _ hmagic => ?_
  refine (word_ensures (by omega)).bind fun payload hpayload => ?_
  refine (require_ensures _ _).bind fun _ hpayloadEq => ?_
  refine (word_ensures (by omega)).bind fun header hheader => ?_
  refine (require_ensures _ _).bind fun _ hheaderEq => ?_
  rw [byteAt_eq (show 59 < file.length by omega)]
  refine (require_ensures _ _).bind fun _ hkind => ?_
  rw [range_eq (by omega)]
  refine (word_ensures (by omega)).bind fun checksum hchecksum => ?_
  refine (require_ensures _ _).bind fun _ hsum => ?_
  refine (word_ensures (by omega)).bind fun systemLength _ => ?_
  refine (word_ensures (by omega)).bind fun userLength huserWord => ?_
  refine (word_ensures (by omega)).bind fun vatLength _ => ?_
  refine (parseBlock_ensures hfile.1).bind fun system hsystem => ?_
  refine (parseBlock_ensures hfile.1).bind fun user huser => ?_
  refine (parseBlock_ensures hfile.1).bind fun vat hvat => ?_
  refine (require_ensures _ _).bind fun _ hend => ?_
  refine (word_ensures (by omega)).bind fun base _ => ?_
  refine (require_ensures _ _).bind fun _ hbase => ?_
  refine (parseEntries_ensures model (le_refl _) (by omega)).mono fun entries hentries => ?_
  obtain ⟨hinside, raws, hraws, hflat⟩ := hentries
  rw [List.take_length] at hflat
  refine ⟨system.1, user.1, vat.1, base, ?_, ⟨raws, hraws, hflat⟩, hinside⟩
  obtain ⟨hsystemAt, hsystemLe, -, hsystemSlice⟩ := hsystem
  obtain ⟨huserAt, huserLe, -, huserSlice⟩ := huser
  obtain ⟨hvatAt, hvatLe, -, hvatSlice⟩ := hvat
  have hsumWord : checksumWord file = slice file (file.length - 2, 2) := by
    unfold checksumWord
    rw [hchecksum.2, ← hsum]
  have htake : file.take 66 = slice file (0, 66) := rfl
  have hlen : file.length = 66 + (2 + systemLength + (2 + userLength + (2 + vatLength + 2))) := by
    omega
  rw [← hsystemSlice, ← huserSlice, ← hvatSlice, hsumWord, ← hend, htake, hvatAt, slice_append,
    huserAt, slice_append, hsystemAt, slice_append]
  show file = slice file (0, 66) ++ slice file (0 + 66, _)
  rw [slice_append, ← hlen, slice_all]

/-- A TI-85 backup with one real variable. -/
def sampleBackup : List UInt8 :=
  signature 85 ++ [0x1A, 0x0C, 0x00] ++ List.replicate 42 0
    ++ [0x20, 0x00, 0x09, 0x00, 0x00, 0x00, 0x1D, 0x0A, 0x00, 0x05, 0x00, 0x00, 0x90]
    ++ [0x00, 0x00] ++ [0x0A, 0x00, 1, 2, 3, 4, 5, 6, 7, 8, 9, 10]
    ++ [0x05, 0x00, 0x58, 0x01, 0x90, 0x00, 0x00] ++ [0xF4, 0x01]

end Tilibs.Webtilp.BackupVat
