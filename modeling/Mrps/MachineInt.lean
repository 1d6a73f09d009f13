import Mathlib.Tactic

/-!
# Fixed-width integer conversions

Unsigned words are natural numbers below a power of two and signed words are integers around zero.
A conversion reduces modulo the width; it is exact on the values that fit.
-/

namespace MachineInt

/-- Conversion to an unsigned word of `width` bits. -/
def toUnsigned (width : Nat) (value : Int) : Nat := (value % (2 ^ width : Nat)).toNat

/-- Conversion to a two's complement word of `width` bits. -/
def toSigned (width : Nat) (value : Int) : Int := Int.bmod value (2 ^ width)

theorem toUnsigned_eq {width : Nat} {value : Int} {natural : Nat}
    (value_eq : value = natural) (fits : natural < 2 ^ width) :
    toUnsigned width value = natural := by
  subst value_eq
  rw [toUnsigned, Int.emod_eq_of_lt (by omega) (by exact_mod_cast fits)]
  exact Int.toNat_natCast natural

theorem toUnsigned_add (width : Nat) (value delta : Int) :
    toUnsigned width (toUnsigned width value + delta) = toUnsigned width (value + delta) := by
  have width_pos : (0 : Int) < (2 ^ width : Nat) := by positivity
  have reduced : (toUnsigned width value : Int) = value % (2 ^ width : Nat) :=
    Int.toNat_of_nonneg (Int.emod_nonneg value width_pos.ne')
  rw [reduced, toUnsigned, Int.emod_add_emod]
  rfl

theorem toSigned_eq {width : Nat} {value : Int}
    (lower : -(2 ^ width : Nat) ≤ 2 * value) (upper : 2 * value < (2 ^ width : Nat)) :
    toSigned width value = value := by
  apply Int.bmod_eq_of_le_mul_two <;> push_cast at * <;> omega

end MachineInt
