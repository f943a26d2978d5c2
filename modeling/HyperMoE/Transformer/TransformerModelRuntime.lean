import HyperMoE.Models.Validate
import HyperMoE.Transformer.TransformerBlock

/-!
# The model

`TransformerModelRuntime.cpp`: the layers one after another, each on what the layer before it
answered.

* `TransformerModelRuntime`   an architecture that passes its check, and the tensors of its layers;
* `attentionConfiguration`    what every layer tells its attention;
* `executeImpl`               a pass over all layers;
* `run`                       a pass with a context of its own.
-/

namespace HyperMoE.Transformer

open Lib Tensor Models
open Lib.Fallible (read settle forEach)
open TransformerBlock (onContext)

/-- the tensors that a layer is bound to -/
structure LayerTensors (K : Type) where
  attention : AttentionWeights K
  postAttentionNorm : List K
  router : Grid K
  inputNorm : List K

structure TransformerModelRuntime (K : Type) where
  architecture : Models.Runtime.ModelArchitecture
  /-- `result.validate()` in `fromManifest` -/
  accepted : (architecture.validate.exec true).1 = .ok ()
  block : TransformerBlock K
  layers : List (LayerTensors K)
  /-- every layer is mapped -/
  complete : layers.length = architecture.layerCount.toNat

structure LayerExecution (K : Type) where
  layerId : LayerId
  routing : List (Router.RouterDecision K)
  attentionOutput : Grid K
  expertOutputs : List (Grid K)
  output : Grid K

structure ModelExecutionResult (K : Type) where
  layers : List (LayerExecution K)
  output : Grid K

namespace TransformerModelRuntime

variable {K : Type}

def attentionConfiguration (a : Models.Runtime.ModelArchitecture) (layerId : LayerId)
    (kvCache : Bool) : AttentionConfiguration where
  headCount := a.attentionHeads.toNat
  keyValueHeadCount := a.keyValueHeads.toNat
  headDimension := a.headDimension.toNat
  projectionHeadDimension := a.projectionHeadDimension.toNat
  causal := true
  rotaryEmbedding := true
  ropeTheta := a.ropeTheta
  queryKeyNormEpsilon := a.inputNormalization.epsilon
  layerIndex := layerId
  kvCache := kvCache

def layerWeights (a : Models.Runtime.ModelArchitecture) (layerId : LayerId) (kvCache : Bool)
    (tensors : LayerTensors K) : TransformerBlockWeights K where
  attention := tensors.attention
  norm := tensors.postAttentionNorm
  router := tensors.router
  attentionConfiguration := attentionConfiguration a layerId kvCache
  inputNorm := some tensors.inputNorm

variable [Field K] [LinearOrder K]

/-- one round of the loop: the results so far, and the hidden states -/
def executeLayer (N : Numerics K) (runtime : TransformerModelRuntime K) (kvCache : Bool)
    (layerId : LayerId) (tensors : LayerTensors K) (results : List (LayerExecution K) × Grid K) :
    Fallible StdError (PassState K) (List (LayerExecution K) × Grid K) := do
  onContext (InferenceContext.advanceLayer layerId)
  let result ← runtime.block.execute N results.2
    (layerWeights runtime.architecture layerId kvCache tensors)
  return (results.1 ++ [{
    layerId := layerId
    routing := result.moe.routing.tokens
    attentionOutput := result.attention.output
    expertOutputs := result.moe.expertOutputs
    output := result.output }], result.output)

/-- `kvCache` says whether a cache is given -/
def executeImpl (N : Numerics K) (runtime : TransformerModelRuntime K) (kvCache : Bool)
    (hiddenStates : Grid K) : Fallible StdError (PassState K) (ModelExecutionResult K) := do
  let s ← read
  settle s.context.validate
  Fallible.throwIf (hiddenStates.rows ≠ s.context.batchSize ∨
      hiddenStates.columns ≠ runtime.architecture.hiddenDimension.toNat ∨
      s.context.hiddenDimension ≠ runtime.architecture.hiddenDimension.toNat)
    (.invalid_argument "model input and inference context do not match architecture")
  Fallible.throwIf (kvCache = true ∧
      (s.cache.layers.length ≠ runtime.architecture.layerCount.toNat ∨
        s.cache.keyValueHeads ≠ runtime.architecture.keyValueHeads.toNat ∨
        s.cache.headDimension ≠ runtime.architecture.headDimension.toNat))
    (.invalid_argument "model architecture and session KV cache disagree")
  let results ← forEach (executeLayer N runtime kvCache) 0 ([], hiddenStates) runtime.layers
  return { layers := results.1, output := results.2 }

/-- the context of a pass over these rows, from this position on -/
def passContext (a : Models.Runtime.ModelArchitecture) (position : Nat) (hiddenStates : Grid K) :
    InferenceContext K where
  batchSize := hiddenStates.rows
  sequencePosition := position
  hiddenDimension := a.hiddenDimension.toNat

/-- a pass with a cache, and with a context of its own -/
def run (N : Numerics K) (runtime : TransformerModelRuntime K) (position : Nat)
    (hiddenStates : Grid K) : Fallible StdError (KVCache K) (Grid K) := do
  let result ← Fallible.zoom
    (fun cache => ⟨passContext runtime.architecture position hiddenStates, cache⟩)
    (fun s _ => s.cache) (executeImpl N runtime true hiddenStates)
  return result.output

end TransformerModelRuntime

end HyperMoE.Transformer
