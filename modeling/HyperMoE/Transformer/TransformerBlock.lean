import HyperMoE.Runtime.MoERuntime
import HyperMoE.Transformer.CpuAttention

/-!
# One layer

`TransformerBlock.cpp`, `InferenceContext.cpp`, `RMSNorm.cpp`: normalization, attention over the
cache, residual, normalization, the mixture of experts, residual.

* `InferenceContext`          what a pass knows about itself;
* `RMSNorm.execute`           every row divided by the root of its mean square, and scaled;
* `TransformerBlock.execute`  the layer, which changes the context and the cache.
-/

namespace HyperMoE.Transformer

open Lib Tensor Models Router Experts
open HyperMoE.Runtime
open Lib.Fallible (read update settle)

/-! ## the context -/

structure InferenceContext (K : Type) where
  batchSize : Nat := 0
  sequencePosition : Nat := 0
  hiddenDimension : Nat := 0
  layerIndex : LayerId := 0
  routingDecisions : List (RouterDecision K) := []
  deriving DecidableEq

namespace InferenceContext

variable {K : Type}

def validate (context : InferenceContext K) : Except StdError Unit := do
  Outcome.throwIf (context.batchSize = 0 ∨ context.hiddenDimension = 0)
    (.invalid_argument "inference context dimensions must be nonzero")
  Outcome.throwIf (context.routingDecisions ≠ [] ∧
      context.routingDecisions.length ≠ context.batchSize)
    (.invalid_argument "inference context routing count does not match batch size")
  Outcome.throwIf (∃ decision ∈ context.routingDecisions,
      ¬ decision.valid ∨ decision.layerId ≠ context.layerIndex)
    (.invalid_argument "inference context routing metadata is invalid")

def recordRouting (routing : BatchRouterDecision K) :
    Fallible StdError (InferenceContext K) Unit := do
  let context ← read
  Fallible.throwIf (¬ routing.valid ∨ routing.layerId ≠ context.layerIndex ∨
      routing.tokens.length ≠ context.batchSize)
    (.invalid_argument "routing result does not match inference context")
  update fun context => { context with routingDecisions := routing.tokens }
  let context ← read
  settle context.validate

def advanceLayer (nextLayer : LayerId) : Fallible StdError (InferenceContext K) Unit :=
  update fun context => { context with layerIndex := nextLayer, routingDecisions := [] }

end InferenceContext

/-! ## normalization -/

structure RMSNorm where
  hiddenDimension : Nat
  epsilon : Binary32
  deriving DecidableEq, Repr

section
variable {K : Type} [Field K]

def rmsNormRow (N : Numerics K) (norm : RMSNorm) (weight row : List K) : List K :=
  (List.range norm.hiddenDimension).map fun hidden =>
    let squareSum := ∑ hidden ∈ Finset.range norm.hiddenDimension,
      row.getD hidden 0 * row.getD hidden 0
    let inverseRms := 1 / N.sqrt (squareSum / norm.hiddenDimension + N.ofFloat norm.epsilon)
    row.getD hidden 0 * inverseRms * weight.getD hidden 0

def RMSNorm.execute (N : Numerics K) (norm : RMSNorm) (input : Grid K) (weight : List K) :
    Except StdError (Grid K) := do
  Outcome.throwIf (input.columns ≠ norm.hiddenDimension ∨ weight.length ≠ norm.hiddenDimension)
    (.invalid_argument "RMSNorm requires compatible contiguous backend FP32 tensors")
  return input.mapRows norm.hiddenDimension (rmsNormRow N norm weight)

theorem RMSNorm.execute_eq_ok {N : Numerics K} {norm : RMSNorm} {input out : Grid K}
    {weight : List K} : norm.execute N input weight = .ok out ↔
      (input.columns = norm.hiddenDimension ∧ weight.length = norm.hiddenDimension) ∧
      out = input.mapRows norm.hiddenDimension (rmsNormRow N norm weight) := by
  unfold RMSNorm.execute
  rw [Outcome.throwIf_bind_eq_ok, Outcome.pure_eq_ok]
  push Not
  exact and_congr Iff.rfl eq_comm

@[simp] theorem length_rmsNormRow (N : Numerics K) (norm : RMSNorm) (weight row : List K) :
    (rmsNormRow N norm weight row).length = norm.hiddenDimension := by
  rw [rmsNormRow, List.length_map, List.length_range]

end

/-! ## the layer -/

structure TransformerBlockWeights (K : Type) where
  attention : AttentionWeights K
  norm : List K
  router : Grid K
  attentionConfiguration : AttentionConfiguration
  inputNorm : Option (List K)

/-- the experts of all layers, and the router configuration -/
structure MoELayer (K : Type) where
  activation : ActivationType
  weights : LayerId → ExpertId → Option (ExpertMlpWeights K)
  config : RouterConfig

structure TransformerBlock (K : Type) where
  inputNormalization : RMSNorm
  normalization : RMSNorm
  moe : MoELayer K

structure TransformerBlockResult (K : Type) where
  attentionInput : Grid K
  attention : AttentionResult K
  postAttentionInput : Grid K
  normalized : Grid K
  moe : BatchLayerExecutionResult K
  output : Grid K

/-- the context of the pass and the cache of the session -/
structure PassState (K : Type) where
  context : InferenceContext K
  cache : KVCache K

variable {K : Type} [Field K] [LinearOrder K]

def MoELayer.executeExpertsBatch (N : Numerics K) (moe : MoELayer K) (layerId : LayerId)
    (hiddenStates routerWeights : Grid K) : Except StdError (BatchLayerExecutionResult K) :=
  executeBatch N (mlpRuntime N moe.activation moe.weights) moe.config layerId hiddenStates
    routerWeights

namespace TransformerBlock

variable (N : Numerics K) (block : TransformerBlock K)

/-- `if (weights.inputNorm) ...`: the input of the attention -/
def normalizeInput (inputNorm : Option (List K)) (hiddenStates : Grid K) :
    Except StdError (Grid K) :=
  inputNorm.elim (pure hiddenStates) (block.inputNormalization.execute N hiddenStates)

omit [LinearOrder K] in
/-- `if (weights.inputNorm) ...`: what follows the attention -/
def addResidual (inputNorm : Option (List K)) (hiddenStates output : Grid K) :
    Except StdError (Grid K) :=
  inputNorm.elim (pure output) fun _ => add hiddenStates output

def onCache {α : Type} (x : Fallible StdError (KVCache K) α) :
    Fallible StdError (PassState K) α :=
  Fallible.zoom PassState.cache (fun cache s => { s with cache }) x

def onContext {α : Type} (x : Fallible StdError (InferenceContext K) α) :
    Fallible StdError (PassState K) α :=
  Fallible.zoom PassState.context (fun context s => { s with context }) x

def execute (hiddenStates : Grid K) (weights : TransformerBlockWeights K) :
    Fallible StdError (PassState K) (TransformerBlockResult K) := do
  let s ← read
  settle s.context.validate
  Fallible.throwIf (hiddenStates.rows ≠ s.context.batchSize ∨
      hiddenStates.columns ≠ s.context.hiddenDimension)
    (.invalid_argument "transformer block hidden states do not match inference context")
  let attentionInput ← settle (block.normalizeInput N weights.inputNorm hiddenStates)
  let attention ← onCache (CpuAttention.execute N attentionInput weights.attention
    { weights.attentionConfiguration with
      layerIndex := s.context.layerIndex, positionOffset := s.context.sequencePosition })
  Fallible.throwIf (attention.output.rows ≠ hiddenStates.rows ∨
      attention.output.columns ≠ hiddenStates.columns)
    (.invalid_argument "attention output must preserve transformer hidden shape")
  let postAttentionInput ← settle (addResidual weights.inputNorm hiddenStates attention.output)
  let normalized ← settle (block.normalization.execute N postAttentionInput weights.norm)
  let moe ← settle (block.moe.executeExpertsBatch N s.context.layerIndex normalized weights.router)
  Fallible.throwIf (moe.output.rows ≠ postAttentionInput.rows ∨
      moe.output.columns ≠ postAttentionInput.columns)
    (.invalid_argument "MoE output is incompatible with residual input")
  let output ← settle (add postAttentionInput moe.output)
  onContext (InferenceContext.recordRouting moe.routing)
  return { attentionInput, attention, postAttentionInput, normalized, moe, output }

end TransformerBlock

end HyperMoE.Transformer
