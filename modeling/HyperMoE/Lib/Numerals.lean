import Mathlib.Data.Nat.Cast.Defs

/-!
# Numerals of a field

A constant such as `0.35F` is a quotient of numerals of a field, for each of which Lean wants to know
that it is at least two.  Where this namespace is open, that is known by name.
-/

namespace HyperMoE.Lib.Numerals

scoped instance atLeastTwo_two : Nat.AtLeastTwo 2 := inferInstance
scoped instance atLeastTwo_three : Nat.AtLeastTwo 3 := inferInstance
scoped instance atLeastTwo_four : Nat.AtLeastTwo 4 := inferInstance
scoped instance atLeastTwo_eight : Nat.AtLeastTwo 8 := inferInstance
scoped instance atLeastTwo_ten : Nat.AtLeastTwo 10 := inferInstance

end HyperMoE.Lib.Numerals
