import Mathlib.Algebra.Field.Basic
import Mathlib.Tactic.Ring
import HyperMoE.Lib.Grid
import HyperMoE.Lib.Outcome
import HyperMoE.Models.ModelManifest
import HyperMoE.Tensor.Numerics

/-!
# The reference kernels

`CpuTensorBackend.cpp`: products of matrices and elementwise operations, over exact numbers.  An
operation is given the extents of its output, as in the source, where the output is allocated by
the caller.

* `matmul`, `matmulInt8Weights`   products;
* `elementwise`, `add`, `mul`     two tensors of one shape;
* `mulRow`                        what a product does to one row.
-/

namespace HyperMoE.Tensor

open Lib Lib.Outcome Models

variable {K : Type} [Field K]

/-- the loops of a product, with the weight as the kernel reads it -/
def product (left : Grid K) (columns : Nat) (weight : Nat → Nat → K) : Grid K :=
  Grid.generate left.rows columns fun row column =>
    ∑ index ∈ Finset.range left.columns, left.get row index * weight index column

def matmul (left right : Grid K) (rows columns : Nat) : Except StdError (Grid K) := do
  throwIf (right.rows ≠ left.columns ∨ rows ≠ left.rows ∨ columns ≠ right.columns)
    (.invalid_argument "CPU matmul dimensions are incompatible")
  return product left right.columns right.get

/-- `static_cast<float>(quantized - parameters.zeroPoint) * parameters.scale` -/
def dequantized (N : Numerics K) (right : Grid Int8) (parameters : QuantizationParameters)
    (index column : Nat) : K :=
  (((right.get index column).toInt - parameters.zeroPoint.toInt : Int) : K) *
    N.ofFloat parameters.scale

def matmulInt8Weights (N : Numerics K) (left : Grid K) (right : Grid Int8)
    (parameters : QuantizationParameters) (rows columns : Nat) : Except StdError (Grid K) := do
  ((validateParameters .INT8 parameters).exec true).1
  throwIf (right.rows ≠ left.columns ∨ rows ≠ left.rows ∨ columns ≠ right.columns)
    (.invalid_argument "CPU INT8 weight matmul dimensions are incompatible")
  return product left right.columns (dequantized N right parameters)

def elementwise (what : String) (op : K → K → K) (left right : Grid K) : Except StdError (Grid K) := do
  throwIf (left.rows ≠ right.rows ∨ left.columns ≠ right.columns) (.invalid_argument what)
  return Grid.zipWith op left right

def add (left right : Grid K) : Except StdError (Grid K) :=
  elementwise "CPU add requires equal-shape FP32 tensors" (· + ·) left right

def mul (left right : Grid K) : Except StdError (Grid K) :=
  elementwise "CPU multiply requires equal-shape FP32 tensors" (· * ·) left right

/-! ## by rows -/

/-- one row times a matrix of `rows` by `columns` -/
def mulRow (rows columns : Nat) (weight : Nat → Nat → K) (row : List K) : List K :=
  (List.range columns).map fun column =>
    ∑ index ∈ Finset.range rows, row.getD index 0 * weight index column

@[simp] theorem length_mulRow (rows columns : Nat) (weight : Nat → Nat → K) (row : List K) :
    (mulRow rows columns weight row).length = columns := by
  rw [mulRow, List.length_map, List.length_range]

theorem product_eq_mapRows (left : Grid K) (columns : Nat) (weight : Nat → Nat → K) :
    product left columns weight = left.mapRows columns (mulRow left.columns columns weight) := by
  refine Grid.ext_get rfl rfl fun r hr c hc => ?_
  have hr' : r < left.rows := hr
  have hc' : c < columns := hc
  rw [product, Grid.get_generate _ hr' hc', Grid.get_mapRows _ hr' hc', mulRow,
    Grid.getD_map_range _ hc']
  apply Finset.sum_congr rfl
  intro index hindex
  rw [Grid.getD_row (Finset.mem_range.mp hindex)]

theorem matmul_eq_ok {left right g : Grid K} {rows columns : Nat} :
    matmul left right rows columns = .ok g ↔
      (right.rows = left.columns ∧ rows = left.rows ∧ columns = right.columns) ∧
      g = left.mapRows right.columns (mulRow left.columns right.columns right.get) := by
  unfold matmul
  rw [throwIf_bind_eq_ok, pure_eq_ok, product_eq_mapRows]
  push Not
  exact and_congr Iff.rfl eq_comm

/-- with the extents of the weight itself -/
theorem matmul_rows_eq_ok {left right g : Grid K} {rows columns : Nat} (h : rows = left.rows) :
    matmul left right rows columns = .ok g ↔
      (right.rows = left.columns ∧ columns = right.columns) ∧
      g = left.mapRows right.columns (mulRow right.rows right.columns right.get) := by
  rw [matmul_eq_ok]
  constructor
  · rintro ⟨⟨hrows, -, hwidth⟩, hproduct⟩
    exact ⟨⟨hrows, hwidth⟩, hrows ▸ hproduct⟩
  · rintro ⟨⟨hrows, hwidth⟩, hproduct⟩
    exact ⟨⟨hrows, h, hwidth⟩, hrows ▸ hproduct⟩

theorem matmulInt8Weights_eq_ok {N : Numerics K} {left g : Grid K} {right : Grid Int8}
    {parameters : QuantizationParameters} {rows columns : Nat} :
    matmulInt8Weights N left right parameters rows columns = .ok g ↔
      (((validateParameters .INT8 parameters).exec true).1 = .ok () ∧
        right.rows = left.columns ∧ rows = left.rows ∧ columns = right.columns) ∧
      g = left.mapRows right.columns
        (mulRow left.columns right.columns (dequantized N right parameters)) := by
  unfold matmulInt8Weights
  rw [bind_eq_ok, product_eq_mapRows]
  constructor
  · rintro ⟨u, hparameters, h⟩
    obtain ⟨hshape, h⟩ := throwIf_bind_eq_ok.mp h
    push Not at hshape
    exact ⟨⟨hparameters, hshape⟩, (pure_eq_ok.mp h).symm⟩
  · rintro ⟨⟨hparameters, hshape⟩, rfl⟩
    refine ⟨(), hparameters, throwIf_bind_eq_ok.mpr ⟨?_, rfl⟩⟩
    push Not
    exact hshape

theorem elementwise_eq_ok {what : String} {op : K → K → K} {left right g : Grid K} :
    elementwise what op left right = .ok g ↔
      (left.rows = right.rows ∧ left.columns = right.columns) ∧
      g = Grid.zipWith op left right := by
  unfold elementwise
  rw [throwIf_bind_eq_ok, pure_eq_ok]
  push Not
  exact and_congr Iff.rfl eq_comm

theorem add_eq_ok {left right g : Grid K} : add left right = .ok g ↔
    (left.rows = right.rows ∧ left.columns = right.columns) ∧ g = Grid.zipWith (· + ·) left right :=
  elementwise_eq_ok

end HyperMoE.Tensor
