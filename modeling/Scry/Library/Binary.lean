import Mathlib.Data.Int.Log
import Mathlib.Data.Rat.Floor
import Mathlib.Tactic.Ring

/-! Binary floating point over the rationals: numbers of so many significant bits, without
bounds of the exponent, and rounding to the nearest of them, of two to the even one.
-/

namespace Binary

/-- The nearest integer, of two the even one. -/
def roundEven (q : ℚ) : ℤ :=
  if q - ⌊q⌋ < 1 / 2 then ⌊q⌋
  else if 1 / 2 < q - ⌊q⌋ then ⌊q⌋ + 1
  else if ⌊q⌋ % 2 = 0 then ⌊q⌋
  else ⌊q⌋ + 1

/-- The exponent of the last place of a number of so many bits. -/
def lastPlace (bits : Nat) (q : ℚ) : ℤ := Int.log 2 |q| + 1 - bits

/-- The nearest number of so many bits. -/
def round (bits : Nat) (q : ℚ) : ℚ :=
  if q = 0 then 0 else roundEven (q / 2 ^ lastPlace bits q) * 2 ^ lastPlace bits q

/-- A number of so many bits. -/
def Representable (bits : Nat) (q : ℚ) : Prop :=
  ∃ m k : ℤ, |m| < 2 ^ bits ∧ q = m * 2 ^ k

theorem roundEven_intCast (n : ℤ) : roundEven n = n := by
  simp [roundEven]

/-- An integer between whole numbers stays there: rounding passes none. -/
theorem abs_roundEven_le {q : ℚ} {bound : ℤ} (within : |q| < bound) : |roundEven q| ≤ bound := by
  obtain ⟨above, below⟩ := abs_lt.mp within
  have low : -bound ≤ ⌊q⌋ := by
    rw [Int.le_floor]
    push_cast
    exact above.le
  have high : ⌊q⌋ < bound := Int.floor_lt.mpr below
  rw [abs_le, roundEven]
  split_ifs <;> omega

/-- Zero has any number of bits. -/
theorem representable_zero (bits : Nat) : Representable bits 0 :=
  ⟨0, 0, by simp, by simp⟩

theorem Representable.mono {fewer more : Nat} (le : fewer ≤ more) {q : ℚ}
    (representable : Representable fewer q)
    : Representable more q := by
  obtain ⟨m, k, small, rfl⟩ := representable
  exact ⟨m, k, small.trans_le (pow_le_pow_right₀ one_le_two le), rfl⟩

/-- The digits before the last place are as many as the bits. -/
theorem abs_div_lastPlace_lt (bits : Nat) {q : ℚ}
    : |q / 2 ^ lastPlace bits q| < 2 ^ bits := by
  have place : (0 : ℚ) < 2 ^ lastPlace bits q := zpow_pos two_pos _
  rw [abs_div, abs_of_pos place, div_lt_iff₀ place, ← zpow_natCast, ← zpow_add₀ two_ne_zero,
    lastPlace, add_sub_cancel]
  exact_mod_cast Int.lt_zpow_succ_log_self one_lt_two |q|

theorem representable_round {bits : Nat} (some_ : 0 < bits) (q : ℚ)
    : Representable bits (round bits q) := by
  rw [round]
  split_ifs with zero
  · exact representable_zero bits
  · have within : |roundEven (q / 2 ^ lastPlace bits q)| ≤ 2 ^ bits := by
      apply abs_roundEven_le
      exact_mod_cast abs_div_lastPlace_lt bits
    rcases within.lt_or_eq with small | carried
    · exact ⟨_, _, small, rfl⟩
    · -- All bits carried: one bit is left, so many places higher.
      have one : |(1 : ℤ)| < 2 ^ bits := by
        rw [abs_one]
        exact one_lt_pow₀ one_lt_two some_.ne'
      have carry : (2 : ℚ) ^ bits * 2 ^ lastPlace bits q = 2 ^ (bits + lastPlace bits q) := by
        rw [zpow_add₀ two_ne_zero, zpow_natCast]
      rcases (abs_eq (by positivity)).mp carried with up | down
      · refine ⟨1, bits + lastPlace bits q, one, ?_⟩
        rw [up, ← carry]
        push_cast
        ring
      · refine ⟨-1, bits + lastPlace bits q, by rwa [abs_neg], ?_⟩
        rw [down, ← carry]
        push_cast
        ring

/-- A number that has so many bits is its own nearest. -/
theorem round_of_representable {bits : Nat} {q : ℚ} (representable : Representable bits q)
    : round bits q = q := by
  rw [round]
  split_ifs with zero
  · exact zero.symm
  · obtain ⟨m, k, small, rfl⟩ := representable
    -- The last place is no higher than that of the given digits.
    have place : lastPlace bits (m * 2 ^ k) ≤ k := by
      have below : |(m : ℚ) * 2 ^ k| < 2 ^ (bits + k) := by
        have power : (0 : ℚ) < 2 ^ k := zpow_pos two_pos k
        rw [abs_mul, abs_of_pos power, zpow_add₀ two_ne_zero, zpow_natCast]
        exact mul_lt_mul_of_pos_right (by exact_mod_cast small) power
      have log : Int.log 2 |(m : ℚ) * 2 ^ k| < bits + k := by
        rw [← Int.lt_zpow_iff_log_lt one_lt_two (abs_pos.mpr zero)]
        exact_mod_cast below
      rw [lastPlace]
      omega
    obtain ⟨n, shift⟩ := Int.eq_ofNat_of_zero_le (sub_nonneg.mpr place)
    have whole : (m : ℚ) * 2 ^ k / 2 ^ lastPlace bits (m * 2 ^ k) = ((m * 2 ^ n : ℤ) : ℚ) := by
      rw [mul_div_assoc, ← zpow_sub₀ two_ne_zero, shift]
      push_cast
      rfl
    rw [whole, roundEven_intCast, ← whole]
    exact div_mul_cancel₀ _ (zpow_pos two_pos _).ne'

/-- The numbers of so many bits. -/
structure Number (bits : Nat) where
  value : ℚ
  representable : Representable bits value
  deriving DecidableEq

/-- Numbers of the precisions of a single and of a double word. -/
abbrev Single : Type := Number 24

abbrev Double : Type := Number 53

instance neZeroSingle : NeZero 24 := ⟨by decide⟩

instance neZeroDouble : NeZero 53 := ⟨by decide⟩

instance (bits : Nat) : Zero (Number bits) := ⟨0, representable_zero bits⟩

namespace Number

variable {bits fewer more : Nat}

def nearest [NeZero bits] (q : ℚ) : Number bits :=
  ⟨round bits q, representable_round (NeZero.pos bits) q⟩

/-- A number in another precision. -/
def convert [NeZero more] (x : Number fewer) : Number more := nearest x.value

theorem nearest_value [NeZero bits] (x : Number bits) : nearest x.value = x := by
  obtain ⟨value, representable⟩ := x
  simp only [nearest, round_of_representable representable]

/-- More bits keep a number. -/
theorem convert_value [NeZero more] (le : fewer ≤ more) (x : Number fewer)
    : (x.convert : Number more).value = x.value :=
  round_of_representable (x.representable.mono le)

end Number

end Binary
