import Mathlib

/-!
# Tilibs.Lib.Bytes

Byte-list plumbing for the packet and file formats: fixed-width words in both
byte orders, the additive checksum, and the NUL-padded text fields of C
records.

Everything here is proved once, over arbitrary widths, and names no format.
-/

namespace Tilibs.Lib

/-! ## deciding -/

/-- Over the elements of a list, also where the bytes are finite. -/
instance decidableForallMem {α : Type*} (p : α → Prop) [DecidablePred p] (l : List α) :
    Decidable (∀ x ∈ l, p x) := List.decidableBAll p l

instance decidableExistsMem {α : Type*} (p : α → Prop) [DecidablePred p] (l : List α) :
    Decidable (∃ x ∈ l, p x) := List.decidableBEx p l

/-- The equality of strings that lists of them are searched with. -/
instance lawfulBEqBytes : LawfulBEq (List UInt8) := inferInstance

/-! ## fixed-width words -/

/-- The `k` low bytes of `n`, least significant first. -/
def putLE : Nat → Nat → List UInt8
  | 0, _ => []
  | k + 1, n => UInt8.ofNat n :: putLE k (n / 256)

/-- The number whose bytes are given least significant first. -/
def getLE : List UInt8 → Nat
  | [] => 0
  | b :: bs => b.toNat + 256 * getLE bs

/-- The `k` low bytes of `n`, most significant first. -/
def putBE (k n : Nat) : List UInt8 := (putLE k n).reverse

/-- The number whose bytes are given most significant first. -/
def getBE (bs : List UInt8) : Nat := getLE bs.reverse

@[simp] theorem length_putLE (k n : Nat) : (putLE k n).length = k := by
  induction k generalizing n with
  | zero => rfl
  | succ k ih => simp [putLE, ih]

@[simp] theorem length_putBE (k n : Nat) : (putBE k n).length = k := by
  simp [putBE]

/-- A word keeps the value modulo its width. -/
theorem getLE_putLE_mod (k n : Nat) : getLE (putLE k n) = n % 256 ^ k := by
  induction k generalizing n with
  | zero => simp [putLE, getLE, Nat.mod_one]
  | succ k ih =>
      have hbyte : (UInt8.ofNat n).toNat = n % 256 := by simp
      rw [putLE, getLE, ih, hbyte, Nat.pow_succ', Nat.mod_mul]

/-- Read-back of a value that fits its width. -/
theorem getLE_putLE {k n : Nat} (h : n < 256 ^ k) : getLE (putLE k n) = n := by
  rw [getLE_putLE_mod, Nat.mod_eq_of_lt h]

/-- The bytes of a word come back. -/
theorem putLE_getLE (bs : List UInt8) : putLE bs.length (getLE bs) = bs := by
  induction bs with
  | nil => rfl
  | cons b bs ih =>
      have hb := b.toNat_lt
      have hlow : UInt8.ofNat (b.toNat + 256 * getLE bs) = b := by
        rw [← UInt8.toNat_inj, UInt8.toNat_ofNat']
        omega
      have hhigh : (b.toNat + 256 * getLE bs) / 256 = getLE bs := by omega
      rw [getLE, List.length_cons, putLE, hlow, hhigh, ih]

theorem getBE_putBE_mod (k n : Nat) : getBE (putBE k n) = n % 256 ^ k := by
  simp [getBE, putBE, getLE_putLE_mod]

theorem getBE_putBE {k n : Nat} (h : n < 256 ^ k) : getBE (putBE k n) = n := by
  rw [getBE_putBE_mod, Nat.mod_eq_of_lt h]

theorem putBE_getBE (bs : List UInt8) : putBE bs.length (getBE bs) = bs := by
  have hread := putLE_getLE bs.reverse
  rw [List.length_reverse] at hread
  rw [putBE, getBE, hread, List.reverse_reverse]

theorem getLE_lt (bs : List UInt8) : getLE bs < 256 ^ bs.length := by
  induction bs with
  | nil => simp [getLE]
  | cons b bs ih =>
      have hb := b.toNat_lt
      simp only [getLE, List.length_cons, Nat.pow_succ]
      omega

theorem getBE_lt (bs : List UInt8) : getBE bs < 256 ^ bs.length := by
  simpa [getBE] using getLE_lt bs.reverse

/-! ## checksums -/

/-- Sum of the bytes, as an unbounded number; the formats cut it to a word. -/
def byteSum (bs : List UInt8) : Nat := (bs.map UInt8.toNat).sum

@[simp] theorem byteSum_nil : byteSum [] = 0 := rfl

@[simp] theorem byteSum_cons (b : UInt8) (bs : List UInt8) :
    byteSum (b :: bs) = b.toNat + byteSum bs := by
  simp [byteSum]

@[simp] theorem byteSum_append (xs ys : List UInt8) :
    byteSum (xs ++ ys) = byteSum xs + byteSum ys := by
  simp [byteSum]

/-! ## text fields -/

/-- The characters of a C string: everything before the first NUL. -/
def cstr (bs : List UInt8) : List UInt8 := bs.takeWhile (· ≠ 0)

/-- Pad on the right with `c` up to `n` bytes. -/
def padRight (n : Nat) (c : UInt8) (bs : List UInt8) : List UInt8 :=
  bs ++ List.replicate (n - bs.length) c

@[simp] theorem length_padRight {n : Nat} {c : UInt8} {bs : List UInt8} (h : bs.length ≤ n) :
    (padRight n c bs).length = n := by
  simp [padRight]; omega

/-- A NUL-free string comes back out of its NUL-padded field. -/
theorem cstr_padRight {n : Nat} {bs : List UInt8} (h : ∀ b ∈ bs, b ≠ 0) :
    cstr (padRight n 0 bs) = bs := by
  rw [cstr, padRight, List.takeWhile_append_of_pos (by simpa using h)]
  cases n - bs.length <;> simp [List.replicate_succ]

/-- A buffer of exactly `n` bytes. -/
abbrev Buf (n : Nat) : Type := { bs : List UInt8 // bs.length = n }

/-- A buffer of zeros. -/
def Buf.zeros (n : Nat) : Buf n := ⟨List.replicate n 0, List.length_replicate⟩

/-- A field of `n` bytes as `fread_n_chars` leaves it: the string in it, NUL-padded into
an array of one byte more. -/
def Buf.ofChars (n : Nat) (field : List UInt8) : Buf (n + 1) :=
  ⟨padRight (n + 1) 0 (cstr (field.take n)), length_padRight (by
    have hcstr := (List.takeWhile_sublist (· ≠ (0 : UInt8)) (l := field.take n)).length_le
    rw [List.length_take] at hcstr
    simp only [cstr]
    omega)⟩

/-- A buffer whose first bytes are overwritten. -/
def Buf.overwrite {m n : Nat} (new : Buf m) (old : Buf n) (h : m ≤ n) : Buf n :=
  ⟨new.val ++ old.val.drop m, by
    rw [List.length_append, List.length_drop, new.property, old.property]
    omega⟩

/-- The C string in a character array of `n` bytes. -/
@[ext] structure CStr (n : Nat) where
  chars : List UInt8
  noNul : ∀ b ∈ chars, b ≠ 0
  fits : chars.length < n
  deriving DecidableEq

/-- What `strlcpy` leaves in an array of `m` bytes. -/
def CStr.strlcpy {n : Nat} (m : Nat) (h : 0 < m) (src : CStr n) : CStr m where
  chars := src.chars.take (m - 1)
  noNul := fun b hb => src.noNul b (List.mem_of_mem_take hb)
  fits := by rw [List.length_take]; omega

/-- A copy into an array of the same size loses nothing. -/
@[simp] theorem CStr.strlcpy_self {n : Nat} (h : 0 < n) (src : CStr n) :
    src.strlcpy n h = src := by
  have hfits := src.fits
  ext1
  exact List.take_of_length_le (by omega)

end Tilibs.Lib
