import HyperMoE.Lib.Binary32

/-!
# Exact arithmetic

The tensors hold the elements of an ordered field, and the functions of `<cmath>` are taken as they
are: fixed functions about which nothing is assumed.
-/

namespace HyperMoE.Tensor

open Lib

structure Numerics (K : Type) where
  exp : K → K
  sqrt : K → K
  cos : K → K
  sin : K → K
  erf : K → K
  pow : K → K → K
  /-- the number that a `float` of the configuration stands for -/
  ofFloat : Binary32 → K

end HyperMoE.Tensor
