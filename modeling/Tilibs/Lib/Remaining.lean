import Mathlib

/-!
# Tilibs.Lib.Remaining

What is left of a buffer: a pointer into it and a 32-bit length.

A read or a write is counted from the pointer, and has no result when it is not below the
length; nothing keeps the pointer and the length in agreement with the buffer but `Inside`.
A read is then one of the list that is left (`read_eq`), and the operations are those of lists:
`hasPrefix_eq`, `memchr_eq`, `bytes_advance`, `bytes_cut`.
-/

namespace Tilibs.Lib

variable {α : Type}

structure Remaining (α : Type) where
  buffer : List α
  ptr : Nat
  len : UInt32

namespace Remaining

/-- The whole of a buffer. -/
def whole (buffer : List α) : Remaining α := ⟨buffer, 0, UInt32.ofNat buffer.length⟩

/-- What is left is inside the buffer. -/
def Inside (r : Remaining α) : Prop := r.ptr + r.len.toNat ≤ r.buffer.length

/-- The elements that are left. -/
def bytes (r : Remaining α) : List α := (r.buffer.drop r.ptr).take r.len.toNat

def read (r : Remaining α) (i : Nat) : Option α :=
  if i < r.len.toNat then r.buffer[r.ptr + i]? else none

/-- So many elements from an index on. -/
def readN (r : Remaining α) : Nat → Nat → Option (List α)
  | _, 0 => some []
  | i, n + 1 => do
      let a ← r.read i
      let as ← r.readN (i + 1) n
      pure (a :: as)

/-- What remains from an offset on, a difference of 32-bit numbers. -/
def rest (r : Remaining α) (off : Nat) : Nat := (r.len - UInt32.ofNat off).toNat

/-- The pointer moves on, and the length is what remains. -/
def advance (r : Remaining α) (k : Nat) : Remaining α :=
  { r with ptr := r.ptr + k, len := r.len - UInt32.ofNat k }

/-- The length is less by so much. -/
def shorten (r : Remaining α) (k : Nat) : Remaining α := { r with len := r.len - UInt32.ofNat k }

/-- Other elements are stored from an index on. -/
def write (r : Remaining α) (i : Nat) (as : List α) : Option (Remaining α) :=
  if i + as.length ≤ r.len.toNat ∧ r.ptr + i + as.length ≤ r.buffer.length then
    some { r with
      buffer := r.buffer.take (r.ptr + i) ++ as ++ r.buffer.drop (r.ptr + i + as.length) }
  else none

/-! ## lengths -/

theorem toNat_sub_ofNat {len : UInt32} {k : Nat} (h : k ≤ len.toNat) :
    (len - UInt32.ofNat k).toNat = len.toNat - k := by
  have hlt : k < UInt32.size := lt_of_le_of_lt h len.toNat_lt
  have hk : (UInt32.ofNat k).toNat = k := UInt32.toNat_ofNat_of_lt' hlt
  rw [UInt32.toNat_sub_of_le _ _ (by rw [UInt32.le_iff_toNat_le, hk]; exact h), hk]

theorem rest_eq {r : Remaining α} {k : Nat} (h : k ≤ r.len.toNat) : r.rest k = r.len.toNat - k :=
  toNat_sub_ofNat h

/-! ## reads -/

variable {r : Remaining α} {i n : Nat}

theorem read_eq : r.read i = r.bytes[i]? := by
  unfold read bytes
  rw [List.getElem?_take, List.getElem?_drop]

theorem length_bytes (h : r.Inside) : r.bytes.length = r.len.toNat := by
  unfold bytes
  unfold Inside at h
  rw [List.length_take, List.length_drop]
  omega

theorem readN_eq (h : i + n ≤ r.bytes.length) : r.readN i n = some ((r.bytes.drop i).take n) := by
  induction n generalizing i with
  | zero => rfl
  | succ n ih =>
      have hlt : i < r.bytes.length := by omega
      rw [readN, read_eq, List.getElem?_eq_getElem hlt, Option.bind_eq_bind, Option.bind_some,
        ih (by omega), List.drop_eq_getElem_cons hlt, List.take_succ_cons]
      rfl

theorem read_eq_getD (h : i < r.bytes.length) (d : α) : r.read i = some (r.bytes.getD i d) := by
  rw [read_eq, List.getElem?_eq_getElem h, List.getD_eq_getElem _ _ h]

section Search

variable [DecidableEq α]

/-- Whether the element at an index is this one. -/
def isAt (r : Remaining α) (i : Nat) (a : α) : Option Bool := (r.read i).map fun b => decide (b = a)

theorem isAt_eq (h : i < r.bytes.length) (d a : α) :
    r.isAt i a = some (decide (r.bytes.getD i d = a)) := by
  rw [isAt, read_eq_getD h d]
  rfl

/-- `memcmp` at an offset, when that much remains from there on. -/
def hasPrefix (r : Remaining α) (off : Nat) (header : List α) : Option Bool :=
  if header.length ≤ r.rest off then
    (r.readN off header.length).map fun as => decide (as = header)
  else some false

/-- The index of an element among the next ones. -/
def memchr (r : Remaining α) (a : α) : Nat → Nat → Option (Option Nat)
  | _, 0 => some none
  | i, n + 1 => do
      let b ← r.read i
      if b = a then pure (some i) else r.memchr a (i + 1) n

theorem hasPrefix_eq (h : r.Inside) {off : Nat} (hoff : off ≤ r.bytes.length) (header : List α) :
    r.hasPrefix off header = some (header.isPrefixOf (r.bytes.drop off)) := by
  have hlen := length_bytes h
  rw [hasPrefix, rest_eq (by omega)]
  split
  · next hfits =>
    rw [readN_eq (by omega), Option.map_some, Option.some.injEq, Bool.eq_iff_iff,
      decide_eq_true_iff, List.isPrefixOf_iff_prefix, List.prefix_iff_eq_take]
    exact eq_comm
  · next hshort =>
    rw [Option.some.injEq, eq_comm, Bool.eq_false_iff]
    intro hprefix
    have hle := (List.isPrefixOf_iff_prefix.mp hprefix).length_le
    rw [List.length_drop] at hle
    omega

theorem memchr_eq (a : α) (h : i + n = r.bytes.length) :
    r.memchr a i n = some (((r.bytes.drop i).findIdx? (· = a)).map (i + ·)) := by
  induction n generalizing i with
  | zero =>
      rw [memchr, List.drop_eq_nil_of_le (by omega)]
      rfl
  | succ n ih =>
      have hlt : i < r.bytes.length := by omega
      rw [memchr, read_eq, List.getElem?_eq_getElem hlt, Option.bind_eq_bind, Option.bind_some,
        List.drop_eq_getElem_cons hlt, List.findIdx?_cons]
      by_cases hfound : r.bytes[i] = a
      · simp [hfound]
      · rw [if_neg hfound, ih (by omega), if_neg (by simpa using hfound), Option.map_map]
        congr 2
        funext k
        simp
        omega

end Search

/-! ## what is left behind the front -/

theorem bytes_advance (h : i ≤ r.len.toNat) : (r.advance i).bytes = r.bytes.drop i := by
  unfold advance bytes
  rw [toNat_sub_ofNat h, ← List.drop_drop, List.drop_take]

theorem inside_advance (h : r.Inside) (hi : i ≤ r.len.toNat) : (r.advance i).Inside := by
  unfold Inside advance at *
  rw [toNat_sub_ofNat hi]
  dsimp only
  omega

theorem advance_zero : r.advance 0 = r := by
  unfold advance
  simp

theorem advance_advance (j k : Nat) : (r.advance j).advance k = r.advance (j + k) := by
  have hlen : r.len - UInt32.ofNat j - UInt32.ofNat k = r.len - UInt32.ofNat (j + k) := by
    rw [UInt32.ofNat_add]
    grind
  unfold advance
  rw [← hlen, Nat.add_assoc]

theorem bytes_shorten (h : i ≤ r.len.toNat) :
    (r.shorten i).bytes = r.bytes.take (r.len.toNat - i) := by
  unfold shorten bytes
  rw [toNat_sub_ofNat h, List.take_take, Nat.min_eq_left (by omega)]

theorem inside_shorten (h : r.Inside) (hi : i ≤ r.len.toNat) : (r.shorten i).Inside := by
  unfold Inside shorten at *
  rw [toNat_sub_ofNat hi]
  dsimp only
  omega

/-! ## elements that are stored -/

theorem exists_write (h : r.Inside) (as : List α) (has : i + as.length ≤ r.len.toNat) :
    ∃ r', r.write i as = some r' ∧ r'.ptr = r.ptr ∧ r'.len = r.len
      ∧ r'.buffer.length = r.buffer.length
      ∧ r'.bytes = r.bytes.take i ++ as ++ r.bytes.drop (i + as.length) := by
  unfold Inside at h
  refine ⟨_, if_pos ⟨has, by omega⟩, rfl, rfl, ?_, ?_⟩
  · simp only [List.length_append, List.length_take, List.length_drop]
    omega
  · unfold bytes
    dsimp only
    have hfront : (r.buffer.take (r.ptr + i)).length = r.ptr + i := by
      rw [List.length_take]
      omega
    rw [List.append_assoc, List.drop_append_of_le_length (by omega), List.drop_take,
      Nat.add_sub_cancel_left, List.take_append, List.length_take, List.length_drop,
      Nat.min_eq_left (by omega), List.take_take, Nat.min_eq_right (by omega : i ≤ r.len.toNat),
      List.take_append, List.take_of_length_le (by omega : as.length ≤ r.len.toNat - i),
      List.take_take, Nat.min_eq_left (by omega : i ≤ r.len.toNat), List.drop_take, List.drop_drop,
      Nat.sub_sub, ← List.append_assoc, Nat.add_assoc]

end Remaining

end Tilibs.Lib
