import HyperMoE.Experts.ExpertExecutor
import HyperMoE.Tensor.CudaInt8Product

/-!
# One expert on the device

`ExpertExecutor.cpp` with the backend for CUDA: the projections by cuBLAS or by the INT8 kernels, the
activation by its kernel, the product by cuBLAS.

* `ExpertRun`                    what the device is free in;
* `CudaExpertExecutor.execute`   the expert on a batch;
* `execute_of_host`              what the host does to a batch, the device does to it.
-/

namespace HyperMoE.Experts

open Lib Lib.Outcome Tensor Models Backend
open CudaTensorBackend (Order allocateTensor intMax)

variable {K : Type} [Field K]

/-- what new tensors hold, and the orders of the launches -/
structure ExpertRun (K : Type) where
  gate : Nat → K
  up : Nat → K
  activated : Nat → K
  gated : Nat → K
  gateProduct : ProductRun K
  upProduct : ProductRun K
  downProduct : ProductRun K
  activation : Order
  deriving Inhabited

/-- `type == ActivationType::SiLU ? 0 : 1` -/
def ActivationType.code : ActivationType → Int
  | SiLU => 0
  | GELU => 1

/-- the three products can be launched on this many rows -/
structure ExpertMlpWeights.Launches (weights : ExpertMlpWeights K) (rows : Nat) : Prop where
  gate : Multiplies rows weights.gateProjection.rows weights.gateProjection.columns
  up : Multiplies rows weights.upProjection.rows weights.upProjection.columns
  down : Multiplies rows weights.downProjection.rows weights.downProjection.columns

omit [Field K] in
theorem ExpertMlpWeights.Launches.mono {weights : ExpertMlpWeights K} {rows r : Nat}
    (h : weights.Launches rows) (hpos : 0 < r) (hle : r ≤ rows) : weights.Launches r :=
  ⟨h.gate.mono hpos hle, h.up.mono hpos hle, h.down.mono hpos hle⟩

namespace CudaExpertExecutor

def project (cublas : Cublas K) (N : Numerics K) (mode : Int8GemmMode) (run : ProductRun K)
    (source : Grid K) (weight : ProjectionWeights K) (destination : Grid K) :
    Except StdError (Grid K) :=
  match weight with
  | .fp32 view => CudaTensorBackend.matmul cublas source view destination
  | .int8 view quantization => matmulInt8 N mode run source view quantization destination

def execute (cublas : Cublas K) (N : Numerics K) (mode : Int8GemmMode) (run : ExpertRun K)
    (activation : ActivationType) (input : Grid K) (weights : ExpertMlpWeights K) (output : Grid K) :
    Except StdError (Grid K) := do
  weights.gateProjection.validate
  weights.upProjection.validate
  weights.downProjection.validate
  throwIf (weights.gateProjection.rows ≠ weights.upProjection.rows ∨
      weights.gateProjection.columns ≠ weights.upProjection.columns ∨
      input.columns ≠ weights.gateProjection.rows ∨
      weights.gateProjection.columns ≠ weights.downProjection.rows ∨
      input.rows ≠ output.rows ∨ weights.downProjection.columns ≠ output.columns)
    (.invalid_argument "expert MLP projection dimensions are incompatible")
  let intermediate memory := allocateTensor memory input.rows weights.gateProjection.columns
  let gate ← project cublas N mode run.gateProduct input weights.gateProjection
    (intermediate run.gate)
  let up ← project cublas N mode run.upProduct input weights.upProjection (intermediate run.up)
  let activated ← CudaTensorBackend.applyActivation N run.activation activation.code gate
    (intermediate run.activated)
  let gated ← CudaTensorBackend.mul cublas activated up (intermediate run.gated)
  project cublas N mode run.downProduct gated weights.downProjection output

section
variable {cublas : Cublas K} {N : Numerics K} {mode : Int8GemmMode} {activation : ActivationType}
  {input output g : Grid K} {weight : ProjectionWeights K} {weights : ExpertMlpWeights K}

theorem project_of_host {source : Grid K} (hcublas : cublas.Documented) (run : ProductRun K)
    (h : ExpertMlpExecutor.project N source weight output.rows output.columns = .ok g)
    (hfits : Multiplies source.rows source.columns weight.columns) :
    project cublas N mode run source weight output = .ok g := by
  cases weight with
  | fp32 view =>
    have hrows : source.rows ≤ source.rows * view.columns :=
      Nat.le_mul_of_pos_right _ hfits.columns_pos
    have hinner : source.columns ≤ source.columns * view.columns :=
      Nat.le_mul_of_pos_right _ hfits.columns_pos
    have hcolumns : view.columns ≤ source.rows * view.columns :=
      Nat.le_mul_of_pos_left _ hfits.rows_pos
    have houtput : source.rows * view.columns < 2 ^ 28 := hfits.output
    have hright : source.columns * view.columns < 2 ^ 31 := hfits.right
    refine CudaTensorBackend.matmul_of_host hcublas h ?_ ?_ ?_ <;> unfold intMax <;> omega
  | int8 view quantization => exact matmulInt8_of_host h hfits

theorem map_activation (N : Numerics K) (activation : ActivationType) (g : Grid K) :
    (g.map fun value => if activation.code = 0 then value / (1 + N.exp (-value))
      else 1 / 2 * value * (1 + N.erf (value * N.ofFloat ⟨0x3f3504f3⟩))) =
      g.map (activate N activation) := by
  cases activation with
  | SiLU => rfl
  | GELU => rfl

theorem execute_of_host (hcublas : cublas.Documented) (run : ExpertRun K)
    (h : ExpertMlpExecutor.execute N activation input weights output.rows output.columns = .ok g)
    (hfits : weights.Launches input.rows) :
    execute cublas N mode run activation input weights output = .ok g := by
  unfold ExpertMlpExecutor.execute at h
  obtain ⟨u, hgate, h⟩ := bind_eq_ok.mp h
  obtain ⟨u', hup, h⟩ := bind_eq_ok.mp h
  obtain ⟨u'', hdown, h⟩ := bind_eq_ok.mp h
  obtain ⟨hshape, h⟩ := throwIf_bind_eq_ok.mp h
  obtain ⟨gate, hgateProduct, h⟩ := bind_eq_ok.mp h
  obtain ⟨up, hupProduct, h⟩ := bind_eq_ok.mp h
  obtain ⟨gated, hmul, h⟩ := bind_eq_ok.mp h
  have hshape' := hshape
  push Not at hshape'
  obtain ⟨hrows, hcolumns, hinput, hinner, houtputRows, houtputColumns⟩ := hshape'
  -- the shapes of what is between the products
  obtain ⟨⟨-, -⟩, hgateEq⟩ := (project_eq_ok hgate hinput.symm).mp hgateProduct
  have hgateRows : gate.rows = input.rows := by rw [hgateEq]; rfl
  have hgateColumns : gate.columns = weights.gateProjection.columns := by rw [hgateEq]; rfl
  have hgatedShape : gated.rows = input.rows ∧ gated.columns = weights.gateProjection.columns := by
    obtain ⟨-, rfl⟩ := elementwise_eq_ok.mp hmul
    exact ⟨hgateRows, hgateColumns⟩
  have hcount : input.rows * weights.gateProjection.columns < 2 ^ 28 := hfits.gate.output
  refine bind_eq_ok.mpr ⟨u, hgate, bind_eq_ok.mpr ⟨u', hup, bind_eq_ok.mpr ⟨u'', hdown,
    throwIf_bind_eq_ok.mpr ⟨hshape, bind_eq_ok.mpr ⟨gate, ?_, bind_eq_ok.mpr ⟨up, ?_,
      bind_eq_ok.mpr ⟨gate.map (activate N activation), ?_, bind_eq_ok.mpr ⟨gated, ?_, ?_⟩⟩⟩⟩⟩⟩⟩⟩
  · exact project_of_host hcublas _ hgateProduct (hinput ▸ hfits.gate)
  · refine project_of_host hcublas _ hupProduct ?_
    rw [hinput, hrows]
    exact hfits.up
  · rw [CudaTensorBackend.applyActivation_eq, map_activation]
    · cases activation with
      | SiLU => exact Or.inl rfl
      | GELU => exact Or.inr rfl
    · exact ⟨hgateRows.symm, hgateColumns.symm⟩
    · rw [hgateRows, hgateColumns]
      omega
  · refine CudaTensorBackend.mul_of_host hcublas hmul ⟨hgateRows.symm, hgateColumns.symm⟩ ?_
    show gate.rows * gate.columns ≤ intMax
    rw [hgateRows, hgateColumns]
    unfold intMax
    omega
  · refine project_of_host hcublas _ h ?_
    rw [hgatedShape.1, hgatedShape.2, hinner]
    exact hfits.down

end

end CudaExpertExecutor

end HyperMoE.Experts
