import Mathlib

/-!
# Tilibs.Lib.Poke

A memory that is written byte after byte, and what is in it when the writing stops early.
-/

namespace Tilibs.Lib

/-- The bytes at all addresses. -/
abbrev Memory := Nat → UInt8

namespace Memory

/-- The bytes from an address on. -/
def read (m : Memory) (address length : Nat) : List UInt8 :=
  (List.range length).map fun i => m (address + i)

/-- The memory after some bytes were written, one after the other. -/
def poke (m : Memory) (ws : List (Nat × UInt8)) : Memory :=
  ws.foldl (fun m w => Function.update m w.1 w.2) m

/-- The memory after its first bytes were all set to one value. -/
def fill (m : Memory) (length : Nat) (b : UInt8) : Memory := fun a => if a < length then b else m a

end Memory

/-- The bytes of a block, each at its address. -/
def block (address : Nat) : List UInt8 → List (Nat × UInt8)
  | [] => []
  | b :: bs => (address, b) :: block (address + 1) bs

namespace Memory

variable (m : Memory)

@[simp] theorem poke_nil : m.poke [] = m := rfl

theorem poke_append (ws ws' : List (Nat × UInt8)) : m.poke (ws ++ ws') = (m.poke ws).poke ws' :=
  List.foldl_append

@[simp] theorem length_read (address length : Nat) : (m.read address length).length = length := by
  unfold read
  rw [List.length_map, List.length_range]

theorem getElem?_read {address length i : Nat} (h : i < length) :
    (m.read address length)[i]? = some (m (address + i)) := by
  unfold read
  rw [List.getElem?_map, List.getElem?_range h]
  rfl

theorem take_read {address length n : Nat} (h : n ≤ length) :
    (m.read address length).take n = m.read address n := by
  unfold read
  rw [← List.map_take, List.take_range, Nat.min_eq_left h]

/-- An address that is not written keeps its byte. -/
theorem poke_of_forall_ne {ws : List (Nat × UInt8)} {a : Nat} (h : ∀ w ∈ ws, w.1 ≠ a) :
    m.poke ws a = m a := by
  induction ws generalizing m with
  | nil => rfl
  | cons w ws ih =>
      show (Memory.poke (Function.update m w.1 w.2) ws) a = m a
      rw [ih _ fun w' hw' => h w' (List.mem_cons_of_mem w hw'),
        Function.update_of_ne (h w List.mem_cons_self).symm]

end Memory

@[simp] theorem length_block (address : Nat) (bytes : List UInt8) :
    (block address bytes).length = bytes.length := by
  induction bytes generalizing address with
  | nil => rfl
  | cons b bs ih => rw [block, List.length_cons, List.length_cons, ih]

theorem block_append (address : Nat) (xs ys : List UInt8) :
    block address (xs ++ ys) = block address xs ++ block (address + xs.length) ys := by
  induction xs generalizing address with
  | nil => rfl
  | cons x xs ih =>
      rw [List.cons_append, block, block, ih, List.cons_append, List.length_cons,
        Nat.add_right_comm, Nat.add_assoc]

theorem take_block (address n : Nat) (bytes : List UInt8) :
    (block address bytes).take n = block address (bytes.take n) := by
  induction bytes generalizing address n with
  | nil => simp [block]
  | cons b bs ih =>
      cases n with
      | zero => rfl
      | succ n => rw [block, List.take_succ_cons, ih, List.take_succ_cons, block]

/-- A block lies behind its address, and ends with its last byte. -/
theorem mem_block {address : Nat} {bytes : List UInt8} {w : Nat × UInt8}
    (h : w ∈ block address bytes) : address ≤ w.1 ∧ w.1 < address + bytes.length := by
  induction bytes generalizing address with
  | nil => cases h
  | cons b bs ih =>
      rw [List.length_cons]
      rcases List.mem_cons.mp h with rfl | h
      · exact ⟨le_rfl, by omega⟩
      · have hrest := ih h
        omega

namespace Memory

variable (m : Memory)

theorem poke_block_of_lt {address a : Nat} (bytes : List UInt8) (h : a < address) :
    m.poke (block address bytes) a = m a := by
  apply poke_of_forall_ne
  intro w hw
  have hmem := mem_block hw
  omega

theorem poke_block_of_le {address a : Nat} {bytes : List UInt8} (h : address + bytes.length ≤ a) :
    m.poke (block address bytes) a = m a := by
  apply poke_of_forall_ne
  intro w hw
  have hmem := mem_block hw
  omega

/-- What was written is there. -/
theorem poke_block {address i : Nat} {bytes : List UInt8} (h : i < bytes.length) :
    m.poke (block address bytes) (address + i) = bytes[i] := by
  induction bytes generalizing m address i with
  | nil => cases h
  | cons b bs ih =>
      show (Memory.poke (Function.update m address b) (block (address + 1) bs)) (address + i) = _
      cases i with
      | zero =>
          have hlt : address + 0 < address + 1 := Nat.lt_succ_self address
          rw [poke_block_of_lt _ _ hlt, Nat.add_zero, Function.update_self]
          rfl
      | succ i =>
          rw [← Nat.add_assoc, Nat.add_right_comm, ih _ (Nat.lt_of_succ_lt_succ h),
            List.getElem_cons_succ]

/-- A part of what was written. -/
theorem read_poke_block {address i n : Nat} {bytes : List UInt8} (h : i + n ≤ bytes.length) :
    (m.poke (block address bytes)).read (address + i) n = (bytes.drop i).take n := by
  apply List.ext_getElem
  · rw [length_read, List.length_take, List.length_drop]
    omega
  · intro j hj _
    rw [length_read] at hj
    have hbyte : m.poke (block address bytes) (address + (i + j)) = bytes[i + j] :=
      poke_block m (by omega)
    simp [read, List.getElem_take, List.getElem_drop, Nat.add_assoc, hbyte]

theorem read_fill (length : Nat) (b : UInt8) :
    (m.fill length b).read 0 length = List.replicate length b := by
  apply List.ext_getElem
  · rw [length_read, List.length_replicate]
  · intro i hi _
    rw [length_read] at hi
    simp [read, fill, hi]

end Memory

end Tilibs.Lib
