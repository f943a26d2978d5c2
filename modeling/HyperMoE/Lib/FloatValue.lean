import Mathlib.Algebra.Order.Field.Rat
import Mathlib.Tactic.NormNum
import Mathlib.Tactic.Positivity
import HyperMoE.Lib.Binary32

/-!
# The numbers of single precision

The rational number that a finite `float` stands for.

* `value_pos`      of a number that is above zero;
* `value_le_one`   of one that is at most `1.0F`.
-/

namespace HyperMoE.Lib.Binary32

/-- below `2 ^ 24`; the exponent 0 has no leading one -/
def significand (x : Binary32) : Nat :=
  if x.exponent = 0 then x.fraction else 2 ^ 23 + x.fraction

/-- the size of a finite number -/
def magnitude (x : Binary32) : ℚ := x.significand * 2 ^ max x.exponent 1 / 2 ^ 150

def value (x : Binary32) : ℚ := if x.sign = 1 then -x.magnitude else x.magnitude

example : value ⟨0x3f800000⟩ = 1 := by decide +kernel

/-! ## above zero -/

theorem bits_eq (x : Binary32) :
    x.bits.toNat = x.sign * 2 ^ 31 + x.exponent * 2 ^ 23 + x.fraction := by
  have hlt := x.bits.toNat_lt
  simp only [sign, exponent, fraction]
  omega

theorem fraction_lt (x : Binary32) : x.fraction < 2 ^ 23 := Nat.mod_lt _ (by decide)

theorem bits_of_positive {x : Binary32} (hfinite : x.isFinite = true)
    (hpos : x.notPositive = false) : x.sign = 0 ∧ x.bits.toNat ≠ 0 := by
  have hlt := x.bits.toNat_lt
  have hexponent : x.exponent ≠ 255 := of_decide_eq_true hfinite
  have hnot := of_decide_eq_false hpos
  rw [not_or] at hnot
  have hsign : x.sign ≠ 1 := fun h => hnot.2 ⟨h, fun hnan => hexponent hnan.1⟩
  refine ⟨?_, fun h => hnot.1 (UInt32.toNat_inj.mp h)⟩
  have : x.sign < 2 := Nat.div_lt_of_lt_mul hlt
  omega

theorem significand_pos {x : Binary32} (hsign : x.sign = 0) (h : x.bits.toNat ≠ 0) :
    0 < x.significand := by
  have hbits := bits_eq x
  rw [significand]
  split <;> omega

theorem value_pos {x : Binary32} (hfinite : x.isFinite = true) (hpos : x.notPositive = false) :
    0 < x.value := by
  obtain ⟨hsign, hbits⟩ := bits_of_positive hfinite hpos
  have hsignificand : (0 : ℚ) < x.significand := Nat.cast_pos.mpr (significand_pos hsign hbits)
  rw [value, if_neg (by omega), magnitude]
  positivity

/-! ## at most one -/

/-- the numbers at most `1.0F` are those whose bits are -/
theorem value_le_one {x : Binary32} (hsign : x.sign = 0) (h : x.bits.toNat ≤ 0x3f800000) :
    x.value ≤ 1 := by
  have hbits := bits_eq x
  have hfraction := fraction_lt x
  have hproduct : x.significand * 2 ^ max x.exponent 1 ≤ 2 ^ 150 := by
    rcases Nat.lt_or_ge x.exponent 127 with hlt | hge
    · have hsignificand : x.significand ≤ 2 ^ 24 := by
        rw [significand]
        split <;> omega
      calc x.significand * 2 ^ max x.exponent 1
          ≤ 2 ^ 24 * 2 ^ 126 := Nat.mul_le_mul hsignificand
            (Nat.pow_le_pow_right (by decide) (by omega))
        _ = 2 ^ 150 := by decide +kernel
    · have hexponent : x.exponent = 127 := by omega
      have hzero : x.fraction = 0 := by omega
      rw [significand, hexponent, hzero]
      decide +kernel
  rw [value, if_neg (by omega), magnitude, div_le_one (by positivity)]
  exact_mod_cast hproduct

end HyperMoE.Lib.Binary32
