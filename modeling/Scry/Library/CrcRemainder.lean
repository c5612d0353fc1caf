import Mathlib.Algebra.CharP.Two
import Mathlib.Algebra.Field.ZMod
import Mathlib.Algebra.Polynomial.Div
import Mathlib.Algebra.Polynomial.Monic
import Mathlib.Tactic.LinearCombination
import Scry.Library.ReflectedCrc

/-! What a reflected check computes: its register is the remainder of the message, as a binary
polynomial, by the generator the register's width and polynomial stand for.
-/

namespace ReflectedCrc

open Polynomial

variable {w : Nat}

/-- A bit as a binary coefficient. -/
def coefficient (bit : Bool) : ZMod 2 := if bit then 1 else 0

/-- A register as a binary polynomial, its lowest bit the leading coefficient. -/
noncomputable def registerPolynomial (register : BitVec w) : Polynomial (ZMod 2) :=
  ∑ i ∈ Finset.range w, monomial i (coefficient (register.getMsbD i))

/-- A message as a binary polynomial, its first bit the leading coefficient. -/
noncomputable def messagePolynomial : List Bool → Polynomial (ZMod 2)
  | [] => 0
  | bit :: rest => C (coefficient bit) * X ^ rest.length + messagePolynomial rest

/-- The generator: the register's polynomial below a leading one. -/
noncomputable def generator (polynomial : BitVec w) : Polynomial (ZMod 2) :=
  X ^ w + registerPolynomial polynomial

theorem coefficient_xor (a b : Bool) : coefficient (a ^^ b) = coefficient a + coefficient b := by
  cases a <;> cases b <;> decide

theorem coeff_registerPolynomial (register : BitVec w) (i : Nat)
    : (registerPolynomial register).coeff i = coefficient (register.getMsbD i) := by
  rw [registerPolynomial, finsetSum_coeff]
  simp only [coeff_monomial, Finset.sum_ite_eq', Finset.mem_range]
  split
  next => rfl
  next outside => rw [BitVec.getMsbD_of_ge register i (Nat.not_lt.mp outside)]; rfl

theorem degree_registerPolynomial_lt (register : BitVec w)
    : (registerPolynomial register).degree < w := by
  rw [degree_lt_iff_coeff_zero]
  intro i outside
  rw [coeff_registerPolynomial, BitVec.getMsbD_of_ge register i outside]
  rfl

theorem generator_monic (polynomial : BitVec w) : (generator polynomial).Monic :=
  monic_X_pow_add (degree_registerPolynomial_lt polynomial)

theorem degree_generator (polynomial : BitVec w) : (generator polynomial).degree = w := by
  rw [generator, degree_add_eq_left_of_degree_lt, degree_X_pow]
  rw [degree_X_pow]
  exact degree_registerPolynomial_lt polynomial

theorem registerPolynomial_xor (a b : BitVec w)
    : registerPolynomial (a ^^^ b) = registerPolynomial a + registerPolynomial b := by
  ext i
  simp only [coeff_add, coeff_registerPolynomial, BitVec.getMsbD_xor, coefficient_xor]

/-- A register that moves down one place is multiplied by the indeterminate, but for the bit
it drops.
-/
theorem X_mul_registerPolynomial (register : BitVec w)
    : X * registerPolynomial register
      = registerPolynomial (register >>> 1) + C (coefficient (register.getLsbD 0)) * X ^ w := by
  ext i
  rw [coeff_add, coeff_C_mul_X_pow, coeff_registerPolynomial, BitVec.getMsbD_ushiftRight]
  cases i with
  | zero =>
      have lowest : (if 0 = w then coefficient (register.getLsbD 0) else 0) = 0 := by
        split
        next empty => rw [BitVec.getLsbD_of_ge register 0 (Nat.le_of_eq empty.symm)]; rfl
        next => rfl
      rw [coeff_X_mul_zero, lowest, decide_eq_true Nat.zero_lt_one]
      simp [coefficient]
  | succ i =>
      rw [coeff_X_mul, coeff_registerPolynomial]
      rcases Nat.lt_trichotomy (i + 1) w with below | rfl | above
      · simp [below, below.ne]
      · simp [BitVec.getMsbD_eq_getLsbD, coefficient]
      · have outside := BitVec.getMsbD_of_ge register i (Nat.le_of_lt_succ above)
        simp [outside, above.ne', coefficient]

/-- One step multiplies the register by the indeterminate and adds the message bit above it,
modulo the generator.
-/
theorem generator_dvd_step (polynomial register : BitVec w) (bit : Bool)
    : generator polynomial ∣ registerPolynomial (step polynomial register bit)
        - (X * registerPolynomial register + C (coefficient bit) * X ^ w) := by
  have mixed : registerPolynomial (step polynomial register bit)
      = registerPolynomial (register >>> 1)
        + C (coefficient (register.getLsbD 0 ^^ bit)) * registerPolynomial polynomial := by
    unfold step
    cases register.getLsbD 0 ^^ bit with
    | false => simp [coefficient]
    | true => simp [coefficient, registerPolynomial_xor, add_comm]
  refine ⟨C (coefficient (register.getLsbD 0 ^^ bit)), ?_⟩
  rw [mixed, X_mul_registerPolynomial, coefficient_xor, C_add, generator, CharTwo.sub_eq_add]
  linear_combination CharTwo.add_self_eq_zero (registerPolynomial (register >>> 1))

/-- A message multiplies the register by as many powers as it has bits and adds itself above
it, modulo the generator. The induction is on the message.
-/
theorem generator_dvd_feed (polynomial register : BitVec w) (bits : List Bool)
    : generator polynomial ∣ registerPolynomial (feed polynomial register bits)
        - (X ^ bits.length * registerPolynomial register + X ^ w * messagePolynomial bits) := by
  induction bits generalizing register with
  | nil => simp [messagePolynomial]
  | cons bit rest ih =>
      have head := generator_dvd_step polynomial register bit
      have both := dvd_add (ih (step polynomial register bit))
        (head.mul_left (X ^ rest.length))
      convert both using 1
      rw [feed_cons, List.length_cons, messagePolynomial]
      ring

/-- The register is a remainder by the generator. -/
theorem registerPolynomial_feed (polynomial register : BitVec w) (bits : List Bool)
    : registerPolynomial (feed polynomial register bits)
      = (X ^ bits.length * registerPolynomial register + X ^ w * messagePolynomial bits)
        %ₘ generator polynomial := by
  have reduced : registerPolynomial (feed polynomial register bits) %ₘ generator polynomial
      = registerPolynomial (feed polynomial register bits) := by
    rw [modByMonic_eq_self_iff (generator_monic polynomial), degree_generator]
    exact degree_registerPolynomial_lt _
  rw [← reduced]
  exact modByMonic_eq_of_dvd_sub (generator_monic polynomial)
    (generator_dvd_feed polynomial register bits)

end ReflectedCrc
