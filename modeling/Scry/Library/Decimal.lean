import Mathlib.Data.List.Basic
import Mathlib.Algebra.Order.Ring.Int
import Mathlib.Tactic.NormNum.Basic

/-! Decimal integers read from text by a reader of a fixed width: blanks around the number
and one sign before its digits are allowed, and the value has to fit.
-/

namespace Decimal

/-- The characters that are skipped around a number. -/
def blank (c : Char) : Bool :=
  let n := c.toNat
  n == 0x20 || (0x09 ≤ n && n ≤ 0x0d) || n == 0x85 || n == 0xa0 || n == 0x1680
    || (0x2000 ≤ n && n ≤ 0x200a) || n == 0x2028 || n == 0x2029 || n == 0x202f || n == 0x205f
    || n == 0x3000

def trim (text : List Char) : List Char :=
  ((text.dropWhile blank).reverse.dropWhile blank).reverse

/-- The value of a nonempty text of digits. -/
def digits? (text : List Char) : Option Nat :=
  if text ≠ [] ∧ text.all Char.isDigit = true then some (Nat.ofDigitChars 10 text 0) else none

/-- The value of digits behind a sign, if there is one. -/
def integer? : List Char → Option Int
  | '-' :: rest => (digits? rest).map fun n => -(n : Int)
  | '+' :: rest => (digits? rest).map fun n => (n : Int)
  | text => (digits? text).map fun n => (n : Int)

/-- A number of a signed type of so many bits. -/
def signed? (bits : Nat) (text : List Char) : Option Int :=
  (integer? (trim text)).filter fun n => -(2 ^ (bits - 1)) ≤ n && n < 2 ^ (bits - 1)

/-- A number of an unsigned type of so many bits. A minus sign is none of it, not even before
a zero.
-/
def unsigned? (bits : Nat) (text : List Char) : Option Nat :=
  (match trim text with
  | '-' :: _ => none
  | '+' :: rest => digits? rest
  | rest => digits? rest).filter (· < 2 ^ bits)

/-- A text of digits. -/
structure Numeral where
  digits : List Char
  nonempty : digits ≠ []
  decimal : digits.all Char.isDigit = true

namespace Numeral

def value (n : Numeral) : Nat := Nat.ofDigitChars 10 n.digits 0

variable (n : Numeral)

theorem isDigit {c : Char} (member : c ∈ n.digits) : c.isDigit = true :=
  List.all_eq_true.mp n.decimal c member

/-- A character that is no digit is not among the digits. -/
theorem not_mem {c : Char} (other : c.isDigit = false) : c ∉ n.digits := by
  intro member
  rw [n.isDigit member] at other
  contradiction

theorem digits?_eq : digits? n.digits = some n.value := if_pos ⟨n.nonempty, n.decimal⟩

end Numeral

theorem not_blank_of_isDigit {c : Char} (digit : c.isDigit = true) : blank c = false := by
  have range : 48 ≤ c.toNat ∧ c.toNat ≤ 57 := by
    simpa [Char.isDigit, UInt32.le_iff_toNat_le] using digit
  simp only [blank, Bool.or_eq_false_iff, beq_eq_false_iff_ne, Bool.and_eq_false_iff,
    decide_eq_false_iff_not]
  omega

/-- A text stays as it is where no blank is at either end of it. -/
theorem trim_eq_self {text : List Char} (plain : ∀ c ∈ text, blank c = false)
    : trim text = text := by
  have kept : ∀ l : List Char, (∀ c ∈ l, blank c = false) → l.dropWhile blank = l := by
    intro l plain
    cases l with
    | nil => rfl
    | cons c rest => exact List.dropWhile_cons_of_neg (by simp [plain c List.mem_cons_self])
  rw [trim, kept text plain,
    kept _ fun c member => plain c (List.mem_reverse.mp member), List.reverse_reverse]

theorem trim_numeral (n : Numeral) : trim n.digits = n.digits :=
  trim_eq_self fun _ member => not_blank_of_isDigit (n.isDigit member)

/-- A numeral is a number of the type where its value fits. -/
theorem signed?_numeral (bits : Nat) (n : Numeral)
    : signed? bits n.digits = if n.value < 2 ^ (bits - 1) then some (n.value : Int) else none := by
  have number : integer? n.digits = some (n.value : Int) := by
    unfold integer?
    split
    · next rest same => exact absurd (same ▸ List.mem_cons_self) (n.not_mem rfl)
    · next rest same => exact absurd (same ▸ List.mem_cons_self) (n.not_mem rfl)
    · rw [n.digits?_eq]
      rfl
  rw [signed?, trim_numeral, number, Option.filter_some]
  have low : -(2 ^ (bits - 1) : Int) ≤ n.value := by
    have : (0 : Int) < 2 ^ (bits - 1) := Int.pow_pos (by decide)
    omega
  have high : (n.value : Int) < 2 ^ (bits - 1) ↔ n.value < 2 ^ (bits - 1) := by
    norm_cast
  simp [low, high]

end Decimal
