import Mathlib.Algebra.Order.Field.Basic
import HyperMoE.Lib.Outcome

/-!
# Floating-point numbers without rounding

The finite ones are the elements of an ordered field; beside them there are the infinities and the
value that is not a number.  Zero has no sign.
-/

namespace HyperMoE.Lib

inductive Extended (K : Type) where
  | finite (x : K)
  | infinite (negative : Bool)
  | nan
  deriving DecidableEq

instance {K : Type} : Inhabited (Extended K) := ⟨.nan⟩

namespace Extended
variable {K : Type}

def isFinite : Extended K → Bool
  | finite _ => true
  | _ => false

/-- the number that a finite one is -/
def value [Zero K] : Extended K → K
  | finite x => x
  | _ => 0

/-- the numbers of a list, or an exception at the first one that is not finite -/
def finites {ε : Type} (e : ε) : List (Extended K) → Except ε (List K) :=
  Outcome.collect fun
    | .finite x => pure x
    | _ => throw e

theorem finites_finite {ε : Type} (e : ε) (xs : List K) : finites e (xs.map .finite) = .ok xs := by
  rw [finites, Outcome.collect_eq_ok, List.forall₂_map_left_iff]
  exact List.forall₂_same.mpr fun _ _ => rfl

instance [Zero K] : Zero (Extended K) := ⟨finite 0⟩

section
variable [LinearOrder K]

def less : Extended K → Extended K → Bool
  | nan, _ => false
  | _, nan => false
  | finite x, finite y => x < y
  | infinite negative, finite _ => negative
  | finite _, infinite negative => !negative
  | infinite negative, infinite negative' => negative && !negative'

def same : Extended K → Extended K → Bool
  | finite x, finite y => x = y
  | infinite negative, infinite negative' => negative = negative'
  | _, _ => false

end

def add [Add K] : Extended K → Extended K → Extended K
  | finite x, finite y => finite (x + y)
  | infinite negative, infinite negative' => if negative = negative' then infinite negative else nan
  | infinite negative, finite _ => infinite negative
  | finite _, infinite negative => infinite negative
  | _, _ => nan

section
variable [Field K] [LinearOrder K]

def div : Extended K → Extended K → Extended K
  | finite x, finite y =>
    if y ≠ 0 then finite (x / y) else if x = 0 then nan else infinite (x < 0)
  | finite _, infinite _ => finite 0
  | infinite negative, finite y => infinite (negative != (y < 0 : Bool))
  | _, _ => nan

theorem div_finite (x : K) {y : K} (h : y ≠ 0) : div (finite x) (finite y) = finite (x / y) :=
  if_pos h

end

end Extended

end HyperMoE.Lib
