import Mathlib.Order.Lattice
import Mathlib.Data.List.Basic

/-! Byte buffers and the integer reads the packet layer performs on them.
A pointer is the list of bytes from it to the end of the buffer it points into. The source
bounds-checks almost nothing, so a read past the end of a buffer yields zero here.
-/

namespace Scry

/-- The bytes from a pointer to the end of its buffer. -/
abbrev Bytes := List UInt8

/-- The byte at an offset, zero outside the buffer. -/
def byteAt (data : Bytes) (offset : Nat) : UInt8 := data.getD offset 0

/-- `n` bytes copied from a pointer, with zeros for what lies outside the buffer. -/
def readBytes (data : Bytes) (n : Nat) : Bytes :=
  data.take n ++ List.replicate (n - data.length) 0

/-- `memcpy` of `src` to an offset of a buffer. Bytes copied past the buffer's end extend it,
as the source does not check.
-/
def overwrite (data : Bytes) (offset : Nat) (src : Bytes) : Bytes :=
  readBytes data offset ++ src ++ data.drop (offset + src.length)

/-- Two bytes in network order. -/
def eqntohuint16 (data : Bytes) : UInt16 :=
  UInt16.ofNat ((byteAt data 0).toNat * 256 + (byteAt data 1).toNat)

/-- Two bytes in host (little-endian) order: `*(uint16_t*)data`. -/
def eqtohuint16 (data : Bytes) : UInt16 :=
  UInt16.ofNat ((byteAt data 0).toNat + (byteAt data 1).toNat * 256)

/-- Four bytes in network order. -/
def eqntohuint32 (data : Bytes) : UInt32 :=
  UInt32.ofNat
    ((byteAt data 0).toNat * 16777216 + (byteAt data 1).toNat * 65536
      + (byteAt data 2).toNat * 256 + (byteAt data 3).toNat)

/-- The value of an `int` expression converted to a 64-bit `size_t`. -/
def toSizeT (value : Int) : Nat := (value % 18446744073709551616).toNat

instance linearOrderUInt16 : LinearOrder UInt16 where
  le_refl _ := UInt16.le_refl _
  le_trans _ _ _ := UInt16.le_trans
  le_antisymm _ _ := UInt16.le_antisymm
  le_total := UInt16.le_total
  lt_iff_le_not_ge a b := by
    simp only [UInt16.lt_iff_toNat_lt, UInt16.le_iff_toNat_le]
    omega
  toDecidableLE := inferInstance

-----------------------------------------------------------------------------------------
-- Reads inside and outside a buffer
-----------------------------------------------------------------------------------------

@[simp]
theorem readBytes_length (data : Bytes) (n : Nat) : (readBytes data n).length = n := by
  simp only [readBytes, List.length_append, List.length_take, List.length_replicate]
  omega

/-- A read inside the buffer is a prefix of it. -/
theorem readBytes_of_le {data : Bytes} {n : Nat} (h : n ≤ data.length)
    : readBytes data n = data.take n := by
  simp [readBytes, Nat.sub_eq_zero_of_le h]

/-- Reading the bytes that were laid out first returns them. -/
theorem readBytes_append (data tail : Bytes) : readBytes (data ++ tail) data.length = data := by
  rw [readBytes_of_le (by simp)]
  simp

@[simp]
theorem byteAt_cons_zero (b : UInt8) (data : Bytes) : byteAt (b :: data) 0 = b := rfl

@[simp]
theorem byteAt_cons_succ (b : UInt8) (data : Bytes) (i : Nat)
    : byteAt (b :: data) (i + 1) = byteAt data i := rfl

@[simp]
theorem byteAt_nil (i : Nat) : byteAt [] i = 0 := rfl

/-- Bytes before the end of a copied prefix are the buffer's own. -/
theorem byteAt_readBytes (data : Bytes) {n i : Nat} (h : i < n)
    : byteAt (readBytes data n) i = byteAt data i := by
  simp only [byteAt, readBytes, List.getD_eq_getElem?_getD]
  by_cases inside : i < data.length
  · rw [List.getElem?_append_left (by simp; omega), List.getElem?_take_of_lt h]
  · rw [List.getElem?_append_right (by simp; omega)]
    simp only [List.length_take, List.getElem?_replicate]
    rw [List.getElem?_eq_none (by omega)]
    split_ifs <;> rfl

/-- A read from the start of a longer read is a shorter read. -/
theorem readBytes_readBytes {data : Bytes} {m n : Nat} (h : m ≤ n)
    : readBytes (readBytes data n) m = readBytes data m := by
  apply List.ext_getElem (by simp)
  intro i hl hr
  have below : i < m := by simpa using hl
  have left := byteAt_readBytes (readBytes data n) below
  have inside : i < n := by omega
  have middle := byteAt_readBytes data inside
  have right := byteAt_readBytes data below
  have value (l : Bytes) (hi : i < l.length) : l[i] = byteAt l i := by
    simp [byteAt, hi]
  rw [value _ hl, value _ hr, left, middle, right]

end Scry
