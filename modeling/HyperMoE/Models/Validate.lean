import HyperMoE.Models.ModelManifest
import Mathlib.Data.Finset.Insert

/-!
# Validation of a manifest

`ModelManifest::validate`, one definition for each of its loops.

* `validateTensors`    the tensors, and the table of their names;
* `validateRouters`    the router tensors, and the layers that have one;
* `validateExperts`    the experts, counted by layer;
* `validateLayers`     the transformer layers;
* `validateModelEnds`  embedding, final norm and head;
* `ModelManifest.validate`.

The experts of a layer are counted in a table whose order the source leaves open.
-/

namespace HyperMoE.Models

open Lib Lib.Fallible Tensor

abbrev ByName := Table Text ManifestTensor

/-! ## tensors -/

/-- `std::filesystem::path::is_absolute`, and iteration over the components -/
def validatePath (path : Text) : Code Unit := do
  throwIf (path = [] ∨ path.head? = some 0x2f)
    (.invalid_argument "manifest tensor source path must be relative")
  throwIf (ascii ".." ∈ path.splitOnP fun b => b = 0x2f)
    (.invalid_argument "manifest tensor source path escapes artifact root")

def requiredBytes (shape : Shape) (dtype : DType) : Code UInt64 := do
  throwIf (dtype.sizeOf = 0) (.invalid_argument "manifest tensor dtype is invalid")
  throwIf (shape.storageElementCount > maxWord / dtype.sizeOf)
    (.overflow_error "manifest tensor size overflow")
  Watched.mul shape.storageElementCount dtype.sizeOf

def validateQuantization (value : ManifestTensor) : Code Unit :=
  if value.dtype = .INT8 then do
    let parameters ← orThrow value.quantization
      (.invalid_argument "INT8 manifest tensor is missing quantization metadata")
    validateParameters .INT8 parameters
  else throwIf (value.quantization.isSome = true)
    (.invalid_argument "non-INT8 manifest tensor has quantization metadata")

def addTensor (_ : Nat) (value : ManifestTensor) (byName : ByName) : Code ByName := do
  throwIf (value.name = [] ∨ value.size = 0)
    (.invalid_argument "manifest tensor identity or size is invalid")
  validatePath value.sourceFile
  throwIf (value.offset > maxWord - value.size)
    (.overflow_error "manifest tensor byte range overflows")
  let bytes ← requiredBytes value.shape value.dtype
  throwIf (bytes ≠ value.size) (.invalid_argument "manifest tensor shape does not match byte size")
  validateQuantization value
  throwIf ((byName.lookup value.name).isSome = true)
    (.invalid_argument "duplicate manifest tensor name")
  return byName.insert value.name value

def validateTensors (m : ModelManifest) : Code ByName := forEach addTensor 0 ∅ m.tensors

/-! ## routers -/

/-- `Shape{a, b}` or `Shape{b, a}` -/
def layoutShape (layout : TensorLayout) (input output : UInt64) : Code Shape :=
  match layout with
  | .InputOutput => Shape.ofDimensions [input, output]
  | .OutputInput => Shape.ofDimensions [output, input]

def addRouter (m : ModelManifest) (byName : ByName) (_ : Nat) (routerTensor : ManifestRouterTensor)
    (routerLayers : Finset UInt32) : Code (Finset UInt32) := do
  throwIf (routerTensor.layerId.toUInt64 ≥ m.config.layerCount ∨ routerTensor.layerId ∈ routerLayers)
    (.invalid_argument "manifest router layer is invalid or duplicated")
  let found ← orThrow (byName.lookup routerTensor.tensorName)
    (.invalid_argument "manifest router references an unknown tensor")
  let expected ← layoutShape m.router.layout m.config.hiddenSize m.config.expertCount
  throwIf (found.shape ≠ expected) (.invalid_argument "manifest router tensor shape is incompatible")
  return insert routerTensor.layerId routerLayers

def validateRouters (m : ModelManifest) (byName : ByName) : Code (Finset UInt32) :=
  forEach (addRouter m byName) 0 ∅ m.router.tensors

/-! ## experts -/

structure ExpertTally where
  identities : Finset (UInt32 × UInt32) := ∅
  expertsPerLayer : Table UInt32 UInt64 := ∅
  hasQuantizedExperts : Bool := false

/-- the shape that the model prescribes -/
def projectionShape (config : ModelConfig) (layout : TensorLayout) (down : Bool) : Code Shape :=
  if down then layoutShape layout config.intermediateSize config.hiddenSize
  else layoutShape layout config.hiddenSize config.intermediateSize

def validateProjection (config : ModelConfig) (byName : ByName) (projection : ProjectionLocation)
    (down : Bool) : Code Unit := do
  throwIf (projection.layout.isValid = false)
    (.invalid_argument "expert projection layout is invalid")
  let source ← orThrow (byName.lookup projection.tensorName)
    (.invalid_argument "expert projection references an unknown tensor")
  throwIf (projection.size = 0 ∨ projection.offset < source.offset ∨
      projection.offset > maxWord - projection.size)
    (.invalid_argument "expert projection range escapes source tensor")
  let projectionEnd ← Watched.add projection.offset projection.size
  let sourceEnd ← Watched.add source.offset source.size
  throwIf (projectionEnd > sourceEnd)
    (.invalid_argument "expert projection range escapes source tensor")
  let bytes ← requiredBytes projection.shape source.dtype
  throwIf (bytes ≠ projection.size)
    (.invalid_argument "expert projection shape does not match its bytes")
  let expected ← projectionShape config projection.layout down
  throwIf (projection.shape ≠ expected)
    (.invalid_argument "expert projection shape and layout are incompatible")

/-- the three projections are stored in one element type, which is the answer -/
def projectionDType (byName : ByName) (expert : ManifestExpertMapping) : Code DType := do
  let gate ← orThrow (byName.lookup expert.gate.tensorName)
    (.invalid_argument "expert projections must use one storage dtype")
  let up ← orThrow (byName.lookup expert.up.tensorName)
    (.invalid_argument "expert projections must use one storage dtype")
  let down ← orThrow (byName.lookup expert.down.tensorName)
    (.invalid_argument "expert projections must use one storage dtype")
  throwIf (gate.dtype ≠ up.dtype ∨ gate.dtype ≠ down.dtype)
    (.invalid_argument "expert projections must use one storage dtype")
  return gate.dtype

def addExpert (m : ModelManifest) (byName : ByName) (_ : Nat) (expert : ManifestExpertMapping)
    (tally : ExpertTally) : Code ExpertTally := do
  throwIf (expert.layerId.toUInt64 ≥ m.config.layerCount ∨
      expert.expertId.toUInt64 ≥ m.config.expertCount)
    (.invalid_argument "manifest expert identity is outside model bounds")
  throwIf ((expert.layerId, expert.expertId) ∈ tally.identities)
    (.invalid_argument "duplicate manifest expert mapping")
  let count ← Watched.add ((tally.expertsPerLayer.lookup expert.layerId).getD 0) 1
  let dtype ← projectionDType byName expert
  validateProjection m.config byName expert.gate false
  validateProjection m.config byName expert.up false
  validateProjection m.config byName expert.down true
  return { identities := insert (expert.layerId, expert.expertId) tally.identities
           expertsPerLayer := tally.expertsPerLayer.insert expert.layerId count
           hasQuantizedExperts := tally.hasQuantizedExperts || dtype = .INT8 }

def checkLayerCount (m : ModelManifest) (routerLayers : Finset UInt32) (_ : Nat)
    (entry : Sigma fun _ : UInt32 => UInt64) (_ : Unit) : Code Unit := do
  throwIf (entry.2 ≠ m.config.expertCount)
    (.invalid_argument "manifest MoE layer does not contain the declared expert count")
  throwIf (entry.1 ∉ routerLayers) (.invalid_argument "manifest MoE layer has no router tensor")

def validateExperts (m : ModelManifest) (byName : ByName) (routerLayers : Finset UInt32) :
    Code Unit := do
  let tally ← forEach (addExpert m byName) 0 {} m.experts
  forEach (checkLayerCount m routerLayers) 0 () tally.expertsPerLayer.entries
  throwIf (∃ layer ∈ routerLayers, (tally.expertsPerLayer.lookup layer).isNone = true)
    (.invalid_argument "manifest router layer has no expert mappings")
  throwIf (m.config.capabilities.quantizedExpertWeights ≠ tally.hasQuantizedExperts)
    (.invalid_argument "manifest quantized expert capability disagrees with expert tensors")

/-! ## layers -/

/-- the shape in the layout of the tensor -/
def bindingShape (layout : TensorLayout) (inputOutputShape : Shape) (input output : UInt64) : Code Shape :=
  match layout with
  | .InputOutput => pure inputOutputShape
  | .OutputInput => Shape.ofDimensions [output, input]

/-- `inputOutputShape` is built by the caller -/
def validateBinding (byName : ByName) (binding : ManifestTensorBinding) (input output : UInt64) :
    Code Unit := do
  let inputOutputShape ← Shape.ofDimensions [input, output]
  throwIf (binding.layout.isValid = false)
    (.invalid_argument "transformer projection layout is invalid")
  let found ← orThrow (byName.lookup binding.tensorName)
    (.invalid_argument "transformer layer references an unknown projection tensor")
  let expected ← bindingShape binding.layout inputOutputShape input output
  throwIf (found.shape ≠ expected)
    (.invalid_argument "transformer projection shape and layout are incompatible")

/-- a pair of tensors of one dimension -/
def validateNorms (byName : ByName) (first second : Text) (dimension : UInt64) (what : String) :
    Code Unit := do
  let first ← orThrow (byName.lookup first) (.invalid_argument what)
  let second ← orThrow (byName.lookup second) (.invalid_argument what)
  let expected ← Shape.ofDimensions [dimension]
  throwIf (first.shape ≠ expected ∨ second.shape ≠ expected) (.invalid_argument what)

def validateLayer (m : ModelManifest) (byName : ByName) (runtime : Runtime.ModelArchitecture)
    (queryWidth keyValueWidth : UInt64) (_ : Nat) (layer : ManifestLayerMapping)
    (mappedLayers : Finset UInt32) : Code (Finset UInt32) := do
  throwIf (layer.layerId.toUInt64 ≥ runtime.layerCount ∨ layer.layerId ∈ mappedLayers)
    (.invalid_argument "transformer layer mapping is invalid or duplicated")
  validateBinding byName layer.queryProjection runtime.hiddenDimension queryWidth
  validateBinding byName layer.keyProjection runtime.hiddenDimension keyValueWidth
  validateBinding byName layer.valueProjection runtime.hiddenDimension keyValueWidth
  validateBinding byName layer.outputProjection queryWidth runtime.hiddenDimension
  throwIf ((layer.queryNormTensor = []) ≠ (layer.keyNormTensor = []))
    (.invalid_argument "transformer Q/K normalization mappings must form a pair")
  (if layer.queryNormTensor ≠ [] then
    validateNorms byName layer.queryNormTensor layer.keyNormTensor runtime.projectionHeadDimension
      "transformer Q/K normalization mapping is incompatible"
  else pure ())
  validateNorms byName layer.inputNormTensor layer.postAttentionNormTensor runtime.hiddenDimension
    "transformer normalization mapping is incompatible"
  throwIf (¬ ∃ value ∈ m.router.tensors, value.layerId = layer.layerId ∧
      value.tensorName = layer.routerTensor)
    (.invalid_argument "transformer layer router mapping disagrees with router manifest")
  return insert layer.layerId mappedLayers

def validateLayers (m : ModelManifest) (byName : ByName) : Code Unit :=
  if m.layers = [] then pure ()
  else do
    let runtime ← orThrow m.runtimeArchitecture
      (.invalid_argument "manifest runtime architecture must map every transformer layer")
    throwIf (m.layers.length ≠ runtime.layerCount.toNat)
      (.invalid_argument "manifest runtime architecture must map every transformer layer")
    let queryWidth ← Watched.mul runtime.attentionHeads runtime.projectionHeadDimension
    let keyValueWidth ← Watched.mul runtime.keyValueHeads runtime.projectionHeadDimension
    let _ ← forEach (validateLayer m byName runtime queryWidth keyValueWidth) 0 ∅ m.layers

/-! ## model input and output -/

def lmHeadShape (layout : TensorLayout) (embeddingShape : Shape) (runtime : Runtime.ModelArchitecture) :
    Code Shape :=
  match layout with
  | .InputOutput => Shape.ofDimensions [runtime.hiddenDimension, runtime.vocabularySize]
  | .OutputInput => pure embeddingShape

def validateModelEnds (m : ModelManifest) (byName : ByName) (io : ManifestModelIO) : Code Unit := do
  let runtime ← orThrow m.runtimeArchitecture
    (.invalid_argument "manifest model I/O configuration is incomplete")
  throwIf (runtime.vocabularySize = 0 ∨ io.tokenEmbeddingTensor = [] ∨
      io.finalNormTensor = [] ∨ io.lmHead.tensorName = [] ∨
      io.tiedEmbeddings ≠ runtime.tiedEmbeddings)
    (.invalid_argument "manifest model I/O configuration is incomplete")
  throwIf (io.lmHead.layout.isValid = false)
    (.invalid_argument "manifest LM head layout is invalid")
  let embeddingShape ← Shape.ofDimensions [runtime.vocabularySize, runtime.hiddenDimension]
  let headShape ← lmHeadShape io.lmHead.layout embeddingShape runtime
  let embedding ← orThrow (byName.lookup io.tokenEmbeddingTensor)
    (.invalid_argument "manifest model I/O tensor shape is incompatible")
  let finalNorm ← orThrow (byName.lookup io.finalNormTensor)
    (.invalid_argument "manifest model I/O tensor shape is incompatible")
  let lmHead ← orThrow (byName.lookup io.lmHead.tensorName)
    (.invalid_argument "manifest model I/O tensor shape is incompatible")
  let normShape ← Shape.ofDimensions [runtime.hiddenDimension]
  throwIf (embedding.shape ≠ embeddingShape ∨ finalNorm.shape ≠ normShape ∨
      lmHead.shape ≠ headShape)
    (.invalid_argument "manifest model I/O tensor shape is incompatible")
  throwIf (io.tiedEmbeddings = true ∧
      (io.tokenEmbeddingTensor ≠ io.lmHead.tensorName ∨
        io.lmHead.layout ≠ .OutputInput))
    (.invalid_argument "tied embeddings must share one vocabulary-by-hidden tensor")

/-! ## the manifest -/

def validateRuntime (m : ModelManifest) (runtime : Runtime.ModelArchitecture) : Code Unit := do
  runtime.validate
  throwIf (runtime.layerCount ≠ m.config.layerCount ∨
      runtime.hiddenDimension ≠ m.config.hiddenSize ∨
      runtime.expertCount ≠ m.config.expertCount ∨ runtime.topK ≠ m.router.config.topK)
    (.invalid_argument "manifest runtime architecture disagrees with model configuration")

def ModelManifest.validate (m : ModelManifest) : Code Unit := do
  throwIf (m.schema ≠ schemaVersion ∧ m.schema ≠ legacySchemaVersion)
    (.invalid_argument "unsupported manifest schema")
  throwIf (m.modelName = [] ∨ m.sourceArchitecture = [])
    (.invalid_argument "manifest model identity is incomplete")
  throwIf (m.config.layerCount = 0 ∨ m.config.expertCount = 0 ∨ m.config.hiddenSize = 0 ∨
      m.config.intermediateSize = 0)
    (.invalid_argument "manifest model dimensions must be nonzero")
  m.router.config.validate
  throwIf (m.router.layout.isValid = false)
    (.invalid_argument "manifest router tensor layout is invalid")
  throwIf (m.router.config.expertCount ≠ m.config.expertCount)
    (.invalid_argument "manifest router expert count disagrees with model")
  m.runtimeArchitecture.elim (pure ()) (validateRuntime m)
  throwIf (m.tensors = [] ∨ m.experts = [] ∨ m.router.tensors = [])
    (.invalid_argument "manifest must contain router and expert tensors")
  let byName ← validateTensors m
  let routerLayers ← validateRouters m byName
  validateExperts m byName routerLayers
  validateLayers m byName
  m.modelIO.elim (pure ()) fun io => validateModelEnds m byName io

/-- `validate` returns -/
def ModelManifest.Accepted (m : ModelManifest) : Prop := (m.validate.exec true).1 = .ok ()

instance (m : ModelManifest) : Decidable m.Accepted := by
  unfold ModelManifest.Accepted
  infer_instance

end HyperMoE.Models
