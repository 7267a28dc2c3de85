import Mathlib.Data.Nat.Basic

/-!
# Rounding up to a multiple, and sums of 64-bit words
-/

namespace Namros.Library

variable {n k a : Nat}

/-- The least multiple of `a` that is not below `n`. -/
def roundUp (n a : Nat) : Nat := n + (a - n % a) % a

theorem le_roundUp : n ≤ roundUp n a := Nat.le_add_right _ _

theorem dvd_roundUp (positive : 0 < a) : a ∣ roundUp n a := by
  have small := Nat.mod_lt n positive
  by_cases even : n % a = 0
  · simpa [roundUp, even] using Nat.dvd_of_mod_eq_zero even
  have padding : (a - n % a) % a = a - n % a := Nat.mod_eq_of_lt (by omega)
  have whole : n + (a - n % a) = a * (n / a + 1) := by
    have := Nat.div_add_mod n a
    rw [Nat.mul_add, Nat.mul_one]
    omega
  rw [roundUp, padding, whole]
  exact Nat.dvd_mul_right _ _

theorem roundUp_of_dvd (even : a ∣ n) : roundUp n a = n := by
  simp [roundUp, Nat.mod_eq_zero_of_dvd even]

/-- A multiple in front passes through. -/
theorem roundUp_add (even : a ∣ k) : roundUp (k + n) a = k + roundUp n a := by
  have same : (k + n) % a = n % a := by
    rw [Nat.add_mod, Nat.mod_eq_zero_of_dvd even, Nat.zero_add, Nat.mod_mod]
  rw [roundUp, roundUp, same, Nat.add_assoc]

/-- A sum that is not below its first term has not wrapped around. -/
theorem toNat_add_of_le {a b : UInt64} (kept : a ≤ a + b) : (a + b).toNat = a.toNat + b.toNat := by
  have kept := UInt64.le_iff_toNat_le.mp kept
  rw [UInt64.toNat_add] at kept ⊢
  have := a.toNat_lt
  have := b.toNat_lt
  omega

end Namros.Library
