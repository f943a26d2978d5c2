import Mathlib.Init

/-!
# Element types

`DType.hpp`: the storage types of tensor elements, and their widths in bytes.  A code that names
none of them has width 0.
-/

namespace HyperMoE.Tensor

inductive DType where
  | FP32
  | FP16
  | BF16
  | INT8
  deriving DecidableEq, Repr

namespace DType

def toCode : DType → UInt32
  | FP32 => 0
  | FP16 => 1
  | BF16 => 2
  | INT8 => 3

/-- the type that `static_cast` makes of a code, if `isValid` accepts it -/
def ofCode (code : UInt32) : Option DType :=
  if code = 0 then some FP32
  else if code = 1 then some FP16
  else if code = 2 then some BF16
  else if code = 3 then some INT8
  else none

def sizeOf : DType → UInt64
  | FP32 => 4
  | FP16 => 2
  | BF16 => 2
  | INT8 => 1

def toString : DType → String
  | FP32 => "FP32"
  | FP16 => "FP16"
  | BF16 => "BF16"
  | INT8 => "INT8"

theorem ofCode_toCode (dtype : DType) : ofCode dtype.toCode = some dtype := by
  cases dtype <;> rfl

theorem sizeOf_ne_zero (dtype : DType) : dtype.sizeOf ≠ 0 := by
  cases dtype <;> decide

end DType

end HyperMoE.Tensor
