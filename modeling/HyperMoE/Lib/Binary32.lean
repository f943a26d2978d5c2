import Mathlib.Algebra.Group.Nat.Defs

/-!
# Single precision numbers

A `float` by its bits: one sign bit, eight exponent bits, 23 fraction bits.
-/

namespace HyperMoE.Lib

structure Binary32 where
  bits : UInt32
  deriving DecidableEq, Repr

namespace Binary32

def sign (x : Binary32) : Nat := x.bits.toNat / 2 ^ 31

def exponent (x : Binary32) : Nat := x.bits.toNat / 2 ^ 23 % 2 ^ 8

def fraction (x : Binary32) : Nat := x.bits.toNat % 2 ^ 23

/-- `std::isfinite` -/
def isFinite (x : Binary32) : Bool := x.exponent ≠ 255

/-- `x <= 0.0F` -/
def notPositive (x : Binary32) : Bool :=
  x.bits = 0 ∨ (x.sign = 1 ∧ ¬ (x.exponent = 255 ∧ x.fraction ≠ 0))

end Binary32

end HyperMoE.Lib
