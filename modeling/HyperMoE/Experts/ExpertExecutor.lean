import HyperMoE.Lib.Numerals
import HyperMoE.Tensor.CpuTensorBackend

/-!
# One expert

`ExpertExecutor.cpp`, `Activation.cpp`: the gated expert `down(activation(input * gate) * (input *
up))`, on a batch of rows.

* `ExpertMlpWeights`          the three projections, plain or quantized;
* `ExpertMlpExecutor.execute` the expert on a batch;
* `mlpRow`                    the expert on one row;
* `execute_eq_ok`             the batch is done row by row, or refused for its shape.
-/

namespace HyperMoE.Experts

open Lib Lib.Numerals Lib.Outcome Tensor Models

inductive ActivationType where
  | SiLU
  | GELU
  deriving DecidableEq, Repr

/-- a weight matrix: FP32, or INT8 with its quantization metadata -/
inductive ProjectionWeights (K : Type) where
  | fp32 (view : Grid K)
  | int8 (view : Grid Int8) (quantization : QuantizationParameters)

structure ExpertMlpWeights (K : Type) where
  gateProjection : ProjectionWeights K
  upProjection : ProjectionWeights K
  downProjection : ProjectionWeights K

variable {K : Type}

namespace ProjectionWeights

def rows : ProjectionWeights K → Nat
  | fp32 view => view.rows
  | int8 view _ => view.rows

def columns : ProjectionWeights K → Nat
  | fp32 view => view.columns
  | int8 view _ => view.columns

/-- `validWeight`: the metadata is checked where there is some -/
def validate : ProjectionWeights K → Except StdError Unit
  | fp32 _ => pure ()
  | int8 _ quantization => ((validateParameters .INT8 quantization).exec true).1

variable [Field K]

/-- the weight that the kernels multiply with -/
def weight (N : Numerics K) : ProjectionWeights K → Nat → Nat → K
  | fp32 view => view.get
  | int8 view quantization => dequantized N view quantization

end ProjectionWeights

variable [Field K]

def silu (N : Numerics K) (value : K) : K := value / (1 + N.exp (-value))

/-- `inverseSqrtTwo`, rounded to a `float` -/
def inverseSqrtTwo : Binary32 := ⟨0x3f3504f3⟩

def gelu (N : Numerics K) (value : K) : K :=
  1 / 2 * value * (1 + N.erf (value * N.ofFloat inverseSqrtTwo))

def activate (N : Numerics K) : ActivationType → K → K
  | .SiLU => silu N
  | .GELU => gelu N

namespace ExpertMlpExecutor

def project (N : Numerics K) (source : Grid K) (weight : ProjectionWeights K) (rows columns : Nat) :
    Except StdError (Grid K) :=
  match weight with
  | .fp32 view => matmul source view rows columns
  | .int8 view quantization => matmulInt8Weights N source view quantization rows columns

def execute (N : Numerics K) (activation : ActivationType) (input : Grid K)
    (weights : ExpertMlpWeights K) (rows columns : Nat) : Except StdError (Grid K) := do
  weights.gateProjection.validate
  weights.upProjection.validate
  weights.downProjection.validate
  throwIf (weights.gateProjection.rows ≠ weights.upProjection.rows ∨
      weights.gateProjection.columns ≠ weights.upProjection.columns ∨
      input.columns ≠ weights.gateProjection.rows ∨
      weights.gateProjection.columns ≠ weights.downProjection.rows ∨
      input.rows ≠ rows ∨ weights.downProjection.columns ≠ columns)
    (.invalid_argument "expert MLP projection dimensions are incompatible")
  let gate ← project N input weights.gateProjection input.rows weights.gateProjection.columns
  let up ← project N input weights.upProjection input.rows weights.gateProjection.columns
  let activated := gate.map (activate N activation)
  let gated ← mul activated up
  project N gated weights.downProjection rows columns

end ExpertMlpExecutor

/-! ## row by row -/

/-- a row through one projection -/
def projectRow (N : Numerics K) (weight : ProjectionWeights K) : List K → List K :=
  mulRow weight.rows weight.columns (weight.weight N)

def mlpRow (N : Numerics K) (activation : ActivationType) (weights : ExpertMlpWeights K)
    (row : List K) : List K :=
  projectRow N weights.downProjection (List.zipWith (· * ·)
    ((projectRow N weights.gateProjection row).map (activate N activation))
    (projectRow N weights.upProjection row))

/-- what the executor asks of the weights, for an input and an output of these widths -/
structure ExpertMlpWeights.Accepts (weights : ExpertMlpWeights K) (inputWidth outputWidth : Nat) :
    Prop where
  gate : weights.gateProjection.validate = .ok ()
  up : weights.upProjection.validate = .ok ()
  down : weights.downProjection.validate = .ok ()
  rows : weights.gateProjection.rows = weights.upProjection.rows
  columns : weights.gateProjection.columns = weights.upProjection.columns
  input : inputWidth = weights.gateProjection.rows
  inner : weights.gateProjection.columns = weights.downProjection.rows
  output : weights.downProjection.columns = outputWidth

theorem project_eq_ok {N : Numerics K} {source g : Grid K} {weight : ProjectionWeights K}
    {rows columns : Nat} (hweight : weight.validate = .ok ()) (hrows : weight.rows = source.columns) :
    ExpertMlpExecutor.project N source weight rows columns = .ok g ↔
      (rows = source.rows ∧ columns = weight.columns) ∧
      g = source.mapRows weight.columns (projectRow N weight) := by
  cases weight with
  | fp32 view =>
    have hrows' : view.rows = source.columns := hrows
    show matmul source view rows columns = .ok g ↔ _
    rw [matmul_eq_ok, ← hrows']
    exact ⟨fun h => ⟨h.1.2, h.2⟩, fun h => ⟨⟨rfl, h.1⟩, h.2⟩⟩
  | int8 view quantization =>
    have hrows' : view.rows = source.columns := hrows
    show matmulInt8Weights N source view quantization rows columns = .ok g ↔ _
    rw [matmulInt8Weights_eq_ok, ← hrows']
    exact ⟨fun h => ⟨h.1.2.2, h.2⟩, fun h => ⟨⟨hweight, rfl, h.1⟩, h.2⟩⟩

theorem length_projectRow (N : Numerics K) (weight : ProjectionWeights K) (row : List K) :
    (projectRow N weight row).length = weight.columns := length_mulRow _ _ _ _

variable {N : Numerics K} {activation : ActivationType} {input out : Grid K}
  {weights : ExpertMlpWeights K} {rows columns : Nat}

theorem execute_of_accepts (h : weights.Accepts input.columns columns) :
    ExpertMlpExecutor.execute N activation input weights input.rows columns =
      .ok (input.mapRows columns (mlpRow N activation weights)) := by
  have hgate : ExpertMlpExecutor.project N input weights.gateProjection input.rows
      weights.gateProjection.columns = .ok (input.mapRows weights.gateProjection.columns
        (projectRow N weights.gateProjection)) :=
    (project_eq_ok h.gate h.input.symm).mpr ⟨⟨rfl, rfl⟩, rfl⟩
  have hup : ExpertMlpExecutor.project N input weights.upProjection input.rows
      weights.gateProjection.columns = .ok (input.mapRows weights.gateProjection.columns
        (projectRow N weights.upProjection)) := by
    rw [h.columns]
    exact (project_eq_ok h.up (h.rows.symm.trans h.input.symm)).mpr ⟨⟨rfl, rfl⟩, rfl⟩
  have hactivated : ∀ row, ((projectRow N weights.gateProjection row).map
      (activate N activation)).length = weights.gateProjection.columns := fun row => by
    rw [List.length_map, length_projectRow]
  have hupRow : ∀ row, (projectRow N weights.upProjection row).length =
      weights.gateProjection.columns := fun row => by
    rw [length_projectRow, h.columns]
  have hgated : mul (input.mapRows weights.gateProjection.columns fun row =>
      (projectRow N weights.gateProjection row).map (activate N activation))
      (input.mapRows weights.gateProjection.columns (projectRow N weights.upProjection)) =
      .ok (input.mapRows weights.gateProjection.columns fun row => List.zipWith (· * ·)
        ((projectRow N weights.gateProjection row).map (activate N activation))
        (projectRow N weights.upProjection row)) :=
    elementwise_eq_ok.mpr ⟨⟨rfl, rfl⟩, (Grid.zipWith_mapRows hactivated hupRow).symm⟩
  unfold ExpertMlpExecutor.execute
  rw [h.gate, h.up, h.down]
  refine throwIf_bind_eq_ok.mpr ⟨?_, ?_⟩
  · push Not
    exact ⟨h.rows, h.columns, h.input, h.inner, rfl, h.output⟩
  · rw [hgate, hup]
    show (mul (Grid.map _ _) _ >>= _) = _
    rw [Grid.map_mapRows _ (length_projectRow N _), hgated]
    refine (project_eq_ok h.down h.inner.symm).mpr ⟨⟨rfl, h.output.symm⟩, ?_⟩
    rw [Grid.mapRows_mapRows, h.output]
    · rfl
    · intro row
      rw [List.length_zipWith, hactivated, hupRow, Nat.min_self]

/-- an expert accepts or refuses a batch for its width, and what it does it does to each row -/
theorem execute_eq_ok : ExpertMlpExecutor.execute N activation input weights rows columns = .ok out ↔
    (weights.Accepts input.columns columns ∧ rows = input.rows) ∧
      out = input.mapRows columns (mlpRow N activation weights) := by
  constructor
  · intro h
    obtain ⟨_, hgate, h₁⟩ := bind_eq_ok.mp h
    obtain ⟨_, hup, h₂⟩ := bind_eq_ok.mp h₁
    obtain ⟨_, hdown, h₃⟩ := bind_eq_ok.mp h₂
    obtain ⟨hshape, -⟩ := throwIf_bind_eq_ok.mp h₃
    push Not at hshape
    obtain ⟨hrows, hcolumns, hinput, hinner, rfl, houtput⟩ := hshape
    have haccepts : weights.Accepts input.columns columns :=
      ⟨hgate, hup, hdown, hrows, hcolumns, hinput, hinner, houtput⟩
    rw [execute_of_accepts haccepts] at h
    exact ⟨⟨haccepts, rfl⟩, (Except.ok.inj h).symm⟩
  · rintro ⟨⟨haccepts, rfl⟩, rfl⟩
    exact execute_of_accepts haccepts

end HyperMoE.Experts
