import HyperMoE.Lib.Binary32
import HyperMoE.Lib.Parsing
import HyperMoE.Lib.Table
import HyperMoE.Tensor.DType
import HyperMoE.Tensor.Shape

/-!
# The model manifest

`ModelManifest.hpp` and what it includes: the records of a manifest, and the checks that each of
them makes on its own.

* `QuantizationParameters`, `RouterConfig`, `Runtime.ModelArchitecture`   with their `validate`;
* `ManifestTensor` ... `ManifestModelIO`   the sections;
* `ModelManifest`                          the whole.

A name is the list of its bytes, and so is a path.
-/

namespace HyperMoE.Models

open Lib Lib.Fallible Tensor

abbrev Code := Watched StdError

/-! ## quantization -/

inductive QuantizedDType where
  | INT8
  | Q4
  | Q8
  deriving DecidableEq, Repr

structure QuantizationParameters where
  scale : Binary32 := ⟨0x3f800000⟩
  zeroPoint : Int32 := 0
  deriving DecidableEq, Repr

def validateParameters (dtype : QuantizedDType) (parameters : QuantizationParameters) : Code Unit := do
  throwIf (parameters.scale.isFinite = false ∨ parameters.scale.notPositive = true)
    (.invalid_argument "quantization scale must be finite and positive")
  match dtype with
  | .INT8 | .Q8 =>
    throwIf (parameters.zeroPoint < -128 ∨ parameters.zeroPoint > 127)
      (.invalid_argument "8-bit zero point is outside [-128, 127]")
  | .Q4 =>
    throwIf (parameters.zeroPoint < -8 ∨ parameters.zeroPoint > 7)
      (.invalid_argument "Q4 zero point is outside [-8, 7]")

/-! ## the router -/

inductive RoutingNormalization where
  | None
  | Softmax
  deriving DecidableEq, Repr

def RoutingNormalization.toString : RoutingNormalization → String
  | None => "NONE"
  | Softmax => "SOFTMAX"

structure RouterConfig where
  expertCount : UInt64 := 0
  topK : UInt64 := 1
  normalization : RoutingNormalization := .Softmax
  renormalizeSelected : Bool := false
  deriving DecidableEq, Repr

def RouterConfig.validate (c : RouterConfig) : Code Unit := do
  throwIf (c.expertCount = 0) (.invalid_argument "router requires experts")
  throwIf (c.expertCount > 0xffffffff) (.invalid_argument "router expert count exceeds runtime IDs")
  throwIf (c.topK = 0 ∨ c.topK > c.expertCount)
    (.invalid_argument "router top-k must be within expert count")

/-! ## the runtime architecture -/

namespace Runtime

inductive NormalizationKind where
  | RMSNorm
  deriving DecidableEq, Repr

structure NormalizationConfiguration where
  kind : NormalizationKind := .RMSNorm
  epsilon : Binary32 := ⟨0x358637bd⟩
  deriving DecidableEq, Repr

def NormalizationConfiguration.validate (c : NormalizationConfiguration) : Code Unit :=
  throwIf (c.kind ≠ .RMSNorm ∨ c.epsilon.isFinite = false ∨ c.epsilon.notPositive = true)
    (.invalid_argument "normalization kind or epsilon is invalid")

structure ModelArchitecture where
  layerCount : UInt64 := 0
  hiddenDimension : UInt64 := 0
  attentionHeads : UInt64 := 1
  keyValueHeads : UInt64 := 1
  headDimension : UInt64 := 0
  projectionHeadDimension : UInt64 := 0
  expertCount : UInt64 := 0
  topK : UInt64 := 1
  vocabularySize : UInt64 := 0
  tiedEmbeddings : Bool := false
  ropeTheta : Binary32 := ⟨0x461c4000⟩
  inputNormalization : NormalizationConfiguration := {}
  postAttentionNormalization : NormalizationConfiguration := {}
  finalNormalization : NormalizationConfiguration := {}
  deriving DecidableEq, Repr

def ModelArchitecture.validate (a : ModelArchitecture) : Code Unit := do
  throwIf (a.layerCount = 0 ∨ a.hiddenDimension = 0 ∨ a.attentionHeads = 0 ∨ a.keyValueHeads = 0 ∨
      a.headDimension = 0 ∨ a.headDimension % 2 ≠ 0 ∨ a.expertCount = 0 ∨ a.topK = 0 ∨
      a.topK > a.expertCount ∨ a.attentionHeads % a.keyValueHeads ≠ 0 ∨
      a.attentionHeads > maxWord / a.headDimension ∨ a.ropeTheta.isFinite = false ∨
      a.ropeTheta.notPositive = true)
    (.invalid_argument "model architecture dimensions are invalid")
  a.inputNormalization.validate
  a.postAttentionNormalization.validate
  a.finalNormalization.validate

end Runtime

/-! ## the model -/

inductive ModelArchitecture where
  | QWEN_MOE
  | DEEPSEEK_MOE
  | GLM_MOE
  | KIMI_MOE
  | MIXTRAL_MOE
  | UNKNOWN
  deriving DecidableEq, Repr

def ModelArchitecture.toString : ModelArchitecture → String
  | QWEN_MOE => "QWEN_MOE"
  | DEEPSEEK_MOE => "DEEPSEEK_MOE"
  | GLM_MOE => "GLM_MOE"
  | KIMI_MOE => "KIMI_MOE"
  | MIXTRAL_MOE => "MIXTRAL_MOE"
  | UNKNOWN => "UNKNOWN"

structure ModelCapabilities where
  routedExperts : Bool := false
  configurableTopK : Bool := false
  normalizedRouting : Bool := false
  gatedExpertMlp : Bool := false
  sharedExperts : Bool := false
  quantizedExpertWeights : Bool := false
  deriving DecidableEq, Repr

structure ModelConfig where
  modelName : Text := []
  layerCount : UInt64 := 0
  expertCount : UInt64 := 0
  hiddenSize : UInt64 := 0
  intermediateSize : UInt64 := 0
  capabilities : ModelCapabilities := {}
  deriving DecidableEq, Repr

inductive TensorLayout where
  | InputOutput
  | OutputInput
  deriving DecidableEq, Repr

def TensorLayout.isValid (layout : TensorLayout) : Bool := layout = InputOutput ∨ layout = OutputInput

def TensorLayout.toString : TensorLayout → String
  | InputOutput => "INPUT_OUTPUT"
  | OutputInput => "OUTPUT_INPUT"

/-! ## the sections of a manifest -/

structure ManifestTensor where
  name : Text := []
  sourceFile : Text := []
  offset : UInt64 := 0
  size : UInt64 := 0
  dtype : DType := .FP32
  shape : Shape := .scalar
  quantization : Option QuantizationParameters := none
  deriving DecidableEq

structure ProjectionLocation where
  tensorName : Text := []
  offset : UInt64 := 0
  size : UInt64 := 0
  shape : Shape := .scalar
  layout : TensorLayout := .OutputInput
  deriving DecidableEq

structure ManifestExpertMapping where
  layerId : UInt32 := 0
  expertId : UInt32 := 0
  gate : ProjectionLocation := {}
  up : ProjectionLocation := {}
  down : ProjectionLocation := {}
  deriving DecidableEq

structure ManifestRouterTensor where
  layerId : UInt32 := 0
  tensorName : Text := []
  deriving DecidableEq, Repr

structure ManifestRouter where
  config : RouterConfig := {}
  tensors : List ManifestRouterTensor := []
  layout : TensorLayout := .OutputInput
  deriving DecidableEq, Repr

structure ManifestTensorBinding where
  tensorName : Text := []
  layout : TensorLayout := .OutputInput
  deriving DecidableEq, Repr

structure ManifestLayerMapping where
  layerId : UInt32 := 0
  queryProjection : ManifestTensorBinding := {}
  keyProjection : ManifestTensorBinding := {}
  valueProjection : ManifestTensorBinding := {}
  outputProjection : ManifestTensorBinding := {}
  inputNormTensor : Text := []
  postAttentionNormTensor : Text := []
  routerTensor : Text := []
  queryNormTensor : Text := []
  keyNormTensor : Text := []
  deriving DecidableEq, Repr

structure ManifestModelIO where
  tokenEmbeddingTensor : Text := []
  finalNormTensor : Text := []
  lmHead : ManifestTensorBinding := {}
  tiedEmbeddings : Bool := false
  deriving DecidableEq, Repr

def schemaVersion : Text := ascii "hypermoe.model-manifest.v3"

def legacySchemaVersion : Text := ascii "hypermoe.model-manifest.v2"

structure ModelManifest where
  schema : Text := schemaVersion
  modelName : Text := []
  architecture : ModelArchitecture := .UNKNOWN
  sourceArchitecture : Text := []
  parameterCount : UInt64 := 0
  config : ModelConfig := {}
  runtimeArchitecture : Option Runtime.ModelArchitecture := none
  router : ManifestRouter := {}
  tensors : List ManifestTensor := []
  experts : List ManifestExpertMapping := []
  layers : List ManifestLayerMapping := []
  modelIO : Option ManifestModelIO := none
  deriving DecidableEq

end HyperMoE.Models
