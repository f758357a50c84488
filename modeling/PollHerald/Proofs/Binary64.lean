import Mathlib.Algebra.Group.Nat.Defs
import PollHerald.Binary64

set_option autoImplicit false

/-! Where arithmetic of double precision rounds nothing away. A whole number below 2^53 has no more
bits than a significand holds, so every operation whose exact result is such a number gives that
result. -/

namespace PollHerald.Binary64

theorem one_pos : 0 < one := by
  unfold one
  generalize 1074 = bits
  exact Nat.two_pow_pos bits

theorem divideToEven_mul (quotient : Nat) {denominator : Nat} (positive : 0 < denominator) :
    divideToEven (quotient * denominator) denominator = quotient := by
  unfold divideToEven
  simp only [Nat.mul_div_cancel quotient positive, Nat.mul_mod_left, Nat.mul_zero]
  rw [if_neg]
  rintro (below | ⟨same, _⟩)
  · exact absurd below (Nat.not_lt_zero _)
  · exact absurd same (Nat.ne_of_lt positive)

/-- The grain of a small whole number is a power of two that is no greater than one. -/
theorem grain_dvd {value : Nat} (bits : Nat) (small : value < 2 ^ 53) :
    grain (value * 2 ^ bits) ∣ value * 2 ^ bits := by
  by_cases zero : value = 0
  · rw [zero, Nat.zero_mul]
    exact Nat.dvd_zero _
  · have bounded : value * 2 ^ bits < 2 ^ (53 + bits) := by
      have widened := Nat.mul_lt_mul_of_pos_right small (Nat.two_pow_pos bits)
      exact Nat.lt_of_lt_of_eq widened (Nat.pow_add 2 53 bits).symm
    have nonzero : value * 2 ^ bits ≠ 0 :=
      Nat.mul_ne_zero zero (Nat.ne_of_gt (Nat.two_pow_pos bits))
    have short : (value * 2 ^ bits).log2 < 53 + bits := (Nat.log2_lt nonzero).mpr bounded
    have fine : (value * 2 ^ bits).log2 - 52 ≤ bits := by omega
    exact Nat.dvd_mul_left_of_dvd (Nat.pow_dvd_pow 2 fine) value

variable {value left right factor denominator : Nat}

theorem nearest_mul (small : value < 2 ^ 53) (positive : 0 < denominator) :
    nearest (value * one * denominator) denominator = value * one := by
  unfold nearest
  rw [Nat.mul_div_cancel _ positive]
  have whole : grain (value * one) ∣ value * one := by
    unfold one
    generalize 1074 = bits
    exact grain_dvd bits small
  obtain ⟨steps, split⟩ := whole
  have coarse : 0 < grain (value * one) := Nat.two_pow_pos _
  have numerator : value * one * denominator = steps * (denominator * grain (value * one)) := by
    conv => lhs; rw [split]
    rw [Nat.mul_comm (grain _), Nat.mul_assoc, Nat.mul_comm (grain _)]
  simp only
  rw [numerator, divideToEven_mul steps (Nat.mul_pos positive coarse), Nat.mul_comm, ← split]

theorem ofDecimal_exact (places : Nat) (small : value < 2 ^ 53) :
    ofDecimal (value * 10 ^ places) places = value * one := by
  unfold ofDecimal
  rw [Nat.mul_right_comm]
  exact nearest_mul small (Nat.pow_pos (by decide))

theorem times_exact (small : value * factor < 2 ^ 53) :
    times (value * one) factor = value * factor * one := by
  unfold times
  rw [Nat.mul_right_comm, ← Nat.mul_one (value * factor * one)]
  exact (nearest_mul small Nat.one_pos).trans (Nat.mul_one _).symm

theorem plus_exact (small : left + right < 2 ^ 53) :
    plus (left * one) (right * one) = (left + right) * one := by
  unfold plus
  rw [← Nat.add_mul, ← Nat.mul_one ((left + right) * one)]
  exact (nearest_mul small Nat.one_pos).trans (Nat.mul_one _).symm

theorem toWhole_exact (value : Nat) : toWhole (value * one) = value := by
  have halves : 2 * (value * one) + one = (2 * value + 1) * one := by
    rw [Nat.add_mul, Nat.one_mul, Nat.mul_assoc]
  unfold toWhole
  rw [halves, Nat.mul_div_mul_right _ _ one_pos]
  omega

end PollHerald.Binary64
