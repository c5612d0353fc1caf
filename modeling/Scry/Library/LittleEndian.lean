import Mathlib.Data.Nat.ModEq
import Mathlib.Algebra.Order.Ring.Nat

/-! Little-endian words of any width: the bytes of a number, lowest first, and the number that
bytes spell.
-/

namespace LittleEndian

/-- The `k` lowest bytes of a number. -/
def encode : Nat → Nat → List UInt8
  | 0, _ => []
  | k + 1, n => UInt8.ofNat n :: encode k (n / 256)

/-- The number that bytes spell. -/
def decode : List UInt8 → Nat
  | [] => 0
  | b :: rest => b.toNat + 256 * decode rest

@[simp]
theorem length_encode (k n : Nat) : (encode k n).length = k := by
  induction k generalizing n with
  | zero => rfl
  | succ k ih => simp [encode, ih]

/-- Decoding returns what the bytes had room for, by induction on their number. -/
theorem decode_encode (k n : Nat) : decode (encode k n) = n % 256 ^ k := by
  induction k generalizing n with
  | zero => simp [encode, decode, Nat.mod_one]
  | succ k ih =>
      have low : (UInt8.ofNat n).toNat = n % 256 := UInt8.toNat_ofNat'
      rw [encode, decode, ih, low, Nat.pow_succ', Nat.mod_mul]

/-- A word of at most `8 * k` bits is spelled by its `k` lowest bytes. -/
theorem ofNat_decode_encode {w k : Nat} (room : w ≤ 8 * k) (word : BitVec w)
    : BitVec.ofNat w (decode (encode k word.toNat)) = word := by
  have small : word.toNat < 256 ^ k := by
    calc word.toNat < 2 ^ w := word.isLt
      _ ≤ 2 ^ (8 * k) := Nat.pow_le_pow_right (by decide) room
      _ = 256 ^ k := by rw [Nat.pow_mul]
  rw [decode_encode, Nat.mod_eq_of_lt small, BitVec.ofNat_toNat, BitVec.setWidth_eq]

end LittleEndian
