import HyperMoE.Importer.SafeTensors
import HyperMoE.Models.Validate
import Mathlib.Data.List.Sort

/-!
# The Qwen importer

`QwenImporter.cpp`: the tensors of a checkpoint, by their names, into a manifest.

* `parseName`          the layer, the expert and the projection that a name spells;
* `Checkpoint`         `config.json` and the tensors, as the readers of both return them;
* `readConfig`         the model's dimensions;
* `addTensor`          one turn of the loop over the tensors, which fills `Tables`;
* `collectExperts`, `collectLayers`, `collectModelIO`   the sections of the manifest;
* `inspect`            the whole.

A regular expression whose parts have no dot is matched against the parts of the name between its
dots.  A `float` of the configuration is a parameter: how a decimal number is rounded is left open.
-/

namespace HyperMoE.Importer.Qwen

open Lib Lib.Fallible Metadata Models Tensor

/-! ## names -/

inductive Kind where
  | Individual
  | FusedGateUp
  | FusedDown
  | Router
  | Attention
  | AttentionNorm
  | InputNorm
  | PostAttentionNorm
  deriving DecidableEq, Repr

structure ParsedTensorName where
  kind : Kind
  layer : UInt32
  expert : Option UInt32 := none
  projection : Text
  deriving DecidableEq, Repr

/-- the groups of a match, before the numbers are read -/
structure Match where
  kind : Kind
  layer : Text
  expert : Option Text := none
  projection : Text
  deriving DecidableEq, Repr

/-- `[0-9]+` -/
def isNumber (t : Text) : Bool := t ≠ [] ∧ t.all isDigit = true

def oneOf (t : Text) (names : List String) : Bool := t ∈ names.map ascii

/-- the parts behind `model.layers.<number>.` -/
def matchRest (layer : Text) : List Text → Option Match
  | [first, second, expert, projection, last] =>
    if first = ascii "mlp" ∧ second = ascii "experts" ∧ isNumber expert = true ∧
        oneOf projection ["gate_proj", "up_proj", "down_proj"] = true ∧ last = ascii "weight" then
      some { kind := .Individual, layer := layer, expert := some expert, projection := projection }
    else none
  | [first, second, third, last] =>
    if first = ascii "mlp" ∧ second = ascii "experts" ∧ last = ascii "weight" then
      matchFused third
    else none
  | [first, second, third] =>
    if first = ascii "mlp" ∧ second = ascii "experts" then matchFused third
    else if third ≠ ascii "weight" then none
    else if first = ascii "mlp" ∧ second = ascii "gate" then
      some { kind := .Router, layer := layer, projection := ascii "router" }
    else if first = ascii "self_attn" ∧
        oneOf second ["q_proj", "k_proj", "v_proj", "o_proj"] = true then
      some { kind := .Attention, layer := layer, projection := second }
    else if first = ascii "self_attn" ∧ oneOf second ["q_norm", "k_norm"] = true then
      some { kind := .AttentionNorm, layer := layer, projection := second }
    else none
  | [first, last] =>
    if last ≠ ascii "weight" then none
    else if first = ascii "input_layernorm" then
      some { kind := .InputNorm, layer := layer, projection := ascii "input_norm" }
    else if first = ascii "post_attention_layernorm" then
      some { kind := .PostAttentionNorm, layer := layer, projection := ascii "post_attention_norm" }
    else none
  | _ => none
where
  matchFused (projection : Text) : Option Match :=
    if projection = ascii "gate_up_proj" then
      some { kind := .FusedGateUp, layer := layer, projection := projection }
    else if projection = ascii "down_proj" then
      some { kind := .FusedDown, layer := layer, projection := projection }
    else none

def matchName (name : Text) : Option Match :=
  match name.splitOnP fun b => b = 0x2e with
  | model :: layers :: layer :: rest =>
    if model = ascii "model" ∧ layers = ascii "layers" ∧ isNumber layer = true then
      matchRest layer rest
    else none
  | _ => none

/-- `std::stoull`, and the bound -/
def checkedId (digits : Text) : Except ImportError UInt32 :=
  match fromChars digits with
  | none => .error (.std (.out_of_range "stoull"))
  | some parsed =>
    if parsed > 0xffffffff then .error (metadataError "Qwen tensor name contains an out-of-range ID")
    else .ok parsed.toUInt32

def parseName (name : Text) : Except ImportError (Option ParsedTensorName) :=
  match matchName name with
  | none => .ok none
  | some found => do
    let layer ← checkedId found.layer
    match found.expert with
    | none => return some { kind := found.kind, layer := layer, projection := found.projection }
    | some digits => do
      let expert ← checkedId digits
      return some { kind := found.kind, layer := layer, expert := some expert,
                    projection := found.projection }

/-! ## the configuration -/

structure Checkpoint where
  config : JsonValue
  /-- the file name of the artifact's directory -/
  rootName : Text
  /-- what `SafeTensors::inspectArtifact` returns -/
  tensors : List ManifestTensor

def requiredSize (root : JsonValue) (field : String) : Code UInt64 := do
  let value ← access (root.require field >>= JsonValue.asUInt64)
  throwIf (value = 0) (metadataError ("Qwen config field is zero or too large: " ++ field))
  return value

/-- `find(...) != npos` -/
def contains (name : Text) (part : String) : Bool :=
  name.tails.any fun tail => (ascii part).isPrefixOf tail

/-- the first architecture that is one of Qwen's -/
def findArchitecture : List JsonValue → Code (Option Text)
  | [] => pure none
  | value :: values => do
    let name ← access value.asString
    if contains name "Qwen3Moe" || contains name "Qwen2Moe" then return some name
    else findArchitecture values

def detectModelType (config : JsonValue) : Code Text :=
  match config.find "model_type" with
  | none => throw (metadataError "config.json is not a supported Qwen MoE architecture")
  | some modelType => do
    let value ← access modelType.asString
    throwIf (value ≠ ascii "qwen3_moe" ∧ value ≠ ascii "qwen2_moe")
      (metadataError "config.json is not a supported Qwen MoE architecture")
    return value

def detectArchitecture (config : JsonValue) : Code Text :=
  match config.find "architectures" with
  | none => detectModelType config
  | some architectures => do
    let values ← access architectures.asArray
    let found ← findArchitecture values
    match found with
    | some name => return name
    | none => detectModelType config

def modelName (config : JsonValue) (rootName : Text) : Text :=
  let fallback := if rootName = [] then ascii "Qwen MoE" else rootName
  match config.find "_name_or_path" with
  | some (.string name) => if name = [] then fallback else name
  | _ => fallback

/-- a field that may be missing -/
def optional {α : Type} (config : JsonValue) (field : String) (fallback : α)
    (f : JsonValue → Code α) : Code α :=
  match config.find field with
  | none => pure fallback
  | some value => f value

def optionalSize (config : JsonValue) (field : String) (fallback : UInt64) : Code UInt64 :=
  optional config field fallback fun _ => requiredSize config field

section
variable (asFloat : JsonValue → Except MetadataError Binary32)

/-- the two head dimensions are one -/
def readHeadDimension (config : JsonValue) (hiddenSize attentionHeads : UInt64) : Code UInt64 :=
  match config.find "head_dim" with
  | some headDimension => do
    let value ← access headDimension.asUInt64
    throwIf (value = 0) (metadataError "Qwen head_dim is zero or too large")
    return value
  | none => do
    throwIf (hiddenSize % attentionHeads ≠ 0)
      (metadataError "Qwen hidden size is not divisible by attention heads")
    return hiddenSize / attentionHeads

def readRuntime (config : JsonValue) (model : ModelConfig) (topK : UInt64) :
    Code Runtime.ModelArchitecture := do
  let vocabularySize ← optional config "vocab_size" 0 fun value => do
    let size ← access value.asUInt64
    throwIf (size = 0) (metadataError "Qwen vocab_size is zero or too large")
    return size
  let tied ← optional config "tie_word_embeddings" false fun value => access value.asBool
  let attentionHeads ← optionalSize config "num_attention_heads" 1
  let keyValueHeads ← optionalSize config "num_key_value_heads" attentionHeads
  let headDimension ← readHeadDimension config model.hiddenSize attentionHeads
  let normalization ← optional config "rms_norm_eps" {} fun value => do
    let epsilon ← access (asFloat value)
    return { epsilon := epsilon }
  let standard : Runtime.ModelArchitecture := {}
  let ropeTheta ← optional config "rope_theta" standard.ropeTheta fun value => access (asFloat value)
  let runtime : Runtime.ModelArchitecture :=
    { layerCount := model.layerCount
      hiddenDimension := model.hiddenSize
      attentionHeads := attentionHeads
      keyValueHeads := keyValueHeads
      headDimension := headDimension
      projectionHeadDimension := headDimension
      expertCount := model.expertCount
      topK := topK
      vocabularySize := vocabularySize
      tiedEmbeddings := tied
      ropeTheta := ropeTheta
      inputNormalization := normalization
      postAttentionNormalization := normalization
      finalNormalization := normalization }
  mapError .std runtime.validate
  return runtime

/-- the manifest before the tensors are read, with its runtime architecture -/
def readConfig (c : Checkpoint) : Code (ModelManifest × Runtime.ModelArchitecture) := do
  let sourceArchitecture ← detectArchitecture c.config
  let name := modelName c.config c.rootName
  let layerCount ← requiredSize c.config "num_hidden_layers"
  let expertCount ← requiredSize c.config "num_experts"
  let hiddenSize ← requiredSize c.config "hidden_size"
  let intermediateSize ← requiredSize c.config "moe_intermediate_size"
  throwIf (layerCount > 0xffffffff ∨ expertCount > 0xffffffff ∨ intermediateSize > maxWord / 2)
    (metadataError "Qwen model dimensions exceed manifest limits")
  let sharedExperts ← optional c.config "shared_expert_intermediate_size" false fun value => do
    let size ← access value.asUInt64
    return decide (size ≠ 0)
  let topK ← requiredSize c.config "num_experts_per_tok"
  let renormalize ← access (c.config.require "norm_topk_prob" >>= JsonValue.asBool)
  let router : RouterConfig :=
    { expertCount := expertCount, topK := topK, renormalizeSelected := renormalize }
  mapError .std router.validate
  let config : ModelConfig :=
    { modelName := name, layerCount := layerCount, expertCount := expertCount
      hiddenSize := hiddenSize, intermediateSize := intermediateSize
      capabilities :=
        { routedExperts := true, configurableTopK := true, normalizedRouting := true
          gatedExpertMlp := true, sharedExperts := sharedExperts } }
  let runtime ← readRuntime asFloat c.config config topK
  return ({ architecture := .QWEN_MOE, sourceArchitecture := sourceArchitecture, modelName := name
            config := config, router := { config := router }
            runtimeArchitecture := some runtime }, runtime)

end

def countParameters : List ManifestTensor → UInt64 → Code UInt64
  | [], parameterCount => pure parameterCount
  | value :: tensors, parameterCount => do
    throwIf (parameterCount > maxWord - value.shape.elementCount)
      (metadataError "Qwen checkpoint parameter count overflows")
    countParameters tensors (parameterCount + value.shape.elementCount)

/-! ## the loop over the tensors -/

structure Tables where
  individual : Table (UInt32 × UInt32) ManifestExpertMapping := ∅
  fusedGateUp : Table UInt32 ManifestTensor := ∅
  fusedDown : Table UInt32 ManifestTensor := ∅
  layerMappings : Table UInt32 ManifestLayerMapping := ∅
  relevantNames : List Text := []
  routers : List ManifestRouterTensor := []
  tokenEmbedding : Option ManifestTensor := none
  finalNorm : Option ManifestTensor := none
  lmHead : Option ManifestTensor := none

/-- `tensor::Shape{...}` -/
def shapeOf (dimensions : List UInt64) : Code Shape := mapError .std (Shape.ofDimensions dimensions)

namespace Tables

/-- `layerMappings[layer]`, with its number -/
def layer (t : Tables) (layer : UInt32) : ManifestLayerMapping :=
  { (t.layerMappings.lookup layer).getD {} with layerId := layer }

def setLayer (t : Tables) (mapping : ManifestLayerMapping) : Tables :=
  { t with layerMappings := t.layerMappings.insert mapping.layerId mapping }

/-- `individual[identity]`, with its numbers -/
def expert (t : Tables) (layer expert : UInt32) : ManifestExpertMapping :=
  { (t.individual.lookup (layer, expert)).getD {} with layerId := layer, expertId := expert }

def setExpert (t : Tables) (mapping : ManifestExpertMapping) : Tables :=
  { t with individual := t.individual.insert (mapping.layerId, mapping.expertId) mapping }

def relevant (t : Tables) (name : Text) : Tables :=
  { t with relevantNames := name :: t.relevantNames }

end Tables

def wholeProjection (tensor : ManifestTensor) (expected : Shape) : Code ProjectionLocation := do
  throwIf (tensor.shape ≠ expected)
    (metadataError ("Qwen projection has an unexpected shape: " ++ message tensor.name))
  return { tensorName := tensor.name, offset := tensor.offset, size := tensor.size
           shape := tensor.shape }

def addRouter (config : ModelConfig) (layer : UInt32) (tensor : ManifestTensor) (t : Tables) :
    Code Tables := do
  let expected ← shapeOf [config.expertCount, config.hiddenSize]
  throwIf (tensor.shape ≠ expected) (metadataError "Qwen router tensor shape is incompatible")
  return { t.setLayer { t.layer layer with routerTensor := tensor.name } with
    routers := t.routers ++ [⟨layer, tensor.name⟩] }

def addAttention (projection : Text) (layer : UInt32) (tensor : ManifestTensor) (t : Tables) :
    Tables :=
  let binding : ManifestTensorBinding := { tensorName := tensor.name }
  let mapping := t.layer layer
  t.setLayer (
    if projection = ascii "q_proj" then { mapping with queryProjection := binding }
    else if projection = ascii "k_proj" then { mapping with keyProjection := binding }
    else if projection = ascii "v_proj" then { mapping with valueProjection := binding }
    else { mapping with outputProjection := binding })

def addAttentionNorm (config : JsonValue) (projection : Text) (layer : UInt32)
    (tensor : ManifestTensor) (t : Tables) : Code Tables := do
  let dimension ← access (config.require "head_dim" >>= JsonValue.asUInt64)
  let expected ← shapeOf [dimension]
  throwIf (tensor.shape ≠ expected)
    (metadataError "Qwen Q/K normalization tensor shape is incompatible")
  let mapping := t.layer layer
  if projection = ascii "q_norm" then do
    throwIf (mapping.queryNormTensor ≠ []) (metadataError "duplicate Qwen Q/K normalization tensor")
    return t.setLayer { mapping with queryNormTensor := tensor.name }
  else do
    throwIf (mapping.keyNormTensor ≠ []) (metadataError "duplicate Qwen Q/K normalization tensor")
    return t.setLayer { mapping with keyNormTensor := tensor.name }

def addIndividual (config : ModelConfig) (projection : Text) (layer expert : UInt32)
    (tensor : ManifestTensor) (t : Tables) : Code Tables := do
  throwIf (expert.toUInt64 ≥ config.expertCount)
    (metadataError "Qwen tensor expert exceeds num_experts")
  let mapping := t.expert layer expert
  let upShape ← shapeOf [config.intermediateSize, config.hiddenSize]
  let downShape ← shapeOf [config.hiddenSize, config.intermediateSize]
  let location ← wholeProjection tensor (if projection = ascii "down_proj" then downShape else upShape)
  if projection = ascii "gate_proj" then do
    throwIf (mapping.gate.tensorName ≠ []) (metadataError "duplicate gate projection")
    return t.setExpert { mapping with gate := location }
  else if projection = ascii "up_proj" then do
    throwIf (mapping.up.tensorName ≠ []) (metadataError "duplicate up projection")
    return t.setExpert { mapping with up := location }
  else do
    throwIf (mapping.down.tensorName ≠ []) (metadataError "duplicate down projection")
    return t.setExpert { mapping with down := location }

/-- `if (!table.emplace(layer, &tensor).second) throw` -/
def emplaceFused (table : Table UInt32 ManifestTensor) (layer : UInt32) (tensor : ManifestTensor)
    (what : String) : Code (Table UInt32 ManifestTensor) := do
  throwIf ((table.lookup layer).isSome = true) (metadataError what)
  return table.insert layer tensor

def addParsed (c : Checkpoint) (config : ModelConfig) (parsed : ParsedTensorName)
    (tensor : ManifestTensor) (t : Tables) : Code Tables :=
  match parsed.kind with
  | .Router => addRouter config parsed.layer tensor t
  | .Attention => pure (addAttention parsed.projection parsed.layer tensor t)
  | .AttentionNorm => addAttentionNorm c.config parsed.projection parsed.layer tensor t
  | .InputNorm => pure (t.setLayer { t.layer parsed.layer with inputNormTensor := tensor.name })
  | .PostAttentionNorm =>
    pure (t.setLayer { t.layer parsed.layer with postAttentionNormTensor := tensor.name })
  | .FusedGateUp => do
    let table ← emplaceFused t.fusedGateUp parsed.layer tensor "duplicate Qwen fused gate/up tensor"
    return { t with fusedGateUp := table }
  | .FusedDown => do
    let table ← emplaceFused t.fusedDown parsed.layer tensor "duplicate Qwen fused down tensor"
    return { t with fusedDown := table }
  -- a name of this kind has an expert
  | .Individual =>
    addIndividual config parsed.projection parsed.layer (parsed.expert.getD 0) tensor t

def addTensor (c : Checkpoint) (config : ModelConfig) (_ : Nat) (tensor : ManifestTensor)
    (t : Tables) : Code Tables :=
  if tensor.name = ascii "model.embed_tokens.weight" then
    pure { t.relevant tensor.name with tokenEmbedding := some tensor }
  else if tensor.name = ascii "model.norm.weight" then
    pure { t.relevant tensor.name with finalNorm := some tensor }
  else if tensor.name = ascii "lm_head.weight" then
    pure { t.relevant tensor.name with lmHead := some tensor }
  else do
    let parsed ← settle (parseName tensor.name)
    match parsed with
    | none => return t
    | some parsed => do
      throwIf (parsed.layer.toUInt64 ≥ config.layerCount)
        (metadataError "Qwen tensor layer exceeds num_hidden_layers")
      addParsed c config parsed tensor (t.relevant tensor.name)

/-! ## experts -/

/-- a `std::map`, in the order of its keys -/
def ordered {κ υ : Type} [DecidableEq κ] (rank : κ → Nat) (t : Table κ υ) : List (κ × υ) :=
  (t.entries.map fun e => (e.1, e.2)).insertionSort fun a b => rank a.1 ≤ rank b.1

/-- pairs of numbers, compared by their first part first -/
def pairRank (key : UInt32 × UInt32) : Nat := key.1.toNat * 2 ^ 32 + key.2.toNat

def addComplete (_ : Nat) (entry : (UInt32 × UInt32) × ManifestExpertMapping)
    (experts : List ManifestExpertMapping) : Code (List ManifestExpertMapping) := do
  throwIf (entry.2.gate.tensorName = [] ∨ entry.2.up.tensorName = [] ∨
      entry.2.down.tensorName = [])
    (metadataError "Qwen expert has incomplete individual projections")
  return experts ++ [entry.2]

def bytesFor (dimensions : List UInt64) (dtype : DType) : Code UInt64 := do
  let elements ← count 1 dimensions
  throwIf (elements > maxWord / dtype.sizeOf)
    (metadataError "Qwen projection byte size overflow")
  return elements * dtype.sizeOf
where
  count (elements : UInt64) : List UInt64 → Code UInt64
    | [] => pure elements
    | dimension :: dimensions => do
      throwIf (dimension = 0 ∨ elements > maxWord / dimension)
        (metadataError "Qwen projection size overflow")
      count (elements * dimension) dimensions

def sliceProjection (tensor : ManifestTensor) (relativeOffset bytes : UInt64) (shape : Shape) :
    Code ProjectionLocation := do
  throwIf (relativeOffset > tensor.size ∨ bytes > tensor.size - relativeOffset ∨
      tensor.offset > maxWord - relativeOffset)
    (metadataError "Qwen fused projection slice exceeds tensor")
  return { tensorName := tensor.name, offset := tensor.offset + relativeOffset, size := bytes
           shape := shape }

def addFusedExpert (config : ModelConfig) (layer : UInt32) (gateUp down : ManifestTensor)
    (projectionBytes downBytes : UInt64) (_ : Nat) (expert : Nat)
    (experts : List ManifestExpertMapping) : Code (List ManifestExpertMapping) := do
  let gateOffset := UInt64.ofNat expert * 2 * projectionBytes
  let gateShape ← shapeOf [config.intermediateSize, config.hiddenSize]
  let gate ← sliceProjection gateUp gateOffset projectionBytes gateShape
  let upShape ← shapeOf [config.intermediateSize, config.hiddenSize]
  let up ← sliceProjection gateUp (gateOffset + projectionBytes) projectionBytes upShape
  let downShape ← shapeOf [config.hiddenSize, config.intermediateSize]
  let down ← sliceProjection down (UInt64.ofNat expert * downBytes) downBytes downShape
  return experts ++ [{ layerId := layer, expertId := UInt32.ofNat expert, gate := gate, up := up
                       down := down }]

def addFusedLayer (config : ModelConfig) (t : Tables) (_ : Nat) (entry : UInt32 × ManifestTensor)
    (experts : List ManifestExpertMapping) : Code (List ManifestExpertMapping) := do
  let down ← orThrow (t.fusedDown.lookup entry.1)
    (metadataError "Qwen fused expert layer is missing down projection")
  throwIf (∃ key ∈ t.individual.keys, key.1 = entry.1)
    (metadataError "Qwen layer mixes fused and individual expert layouts")
  let expectedGateUp ←
    shapeOf [config.expertCount, 2 * config.intermediateSize, config.hiddenSize]
  let expectedDown ← shapeOf [config.expertCount, config.hiddenSize, config.intermediateSize]
  throwIf (entry.2.shape ≠ expectedGateUp ∨ down.shape ≠ expectedDown ∨ entry.2.dtype ≠ down.dtype)
    (metadataError "Qwen fused expert tensors have incompatible metadata")
  let projectionBytes ← bytesFor [config.intermediateSize, config.hiddenSize] entry.2.dtype
  let downBytes ← bytesFor [config.hiddenSize, config.intermediateSize] entry.2.dtype
  forEach (addFusedExpert config entry.1 entry.2 down projectionBytes downBytes) 0 experts
    (List.range config.expertCount.toNat)

def checkDown (t : Tables) (_ : Nat) (entry : UInt32 × ManifestTensor) (_ : Unit) : Code Unit :=
  throwIf ((t.fusedGateUp.lookup entry.1).isNone = true)
    (metadataError "Qwen fused down tensor has no gate/up tensor")

/-- the router tensor of a layer goes by the shortest spelling of its number -/
def routerName (layer : UInt32) : Text :=
  ascii ("model.layers." ++ toString layer.toNat ++ ".mlp.gate.weight")

def checkLayer (config : ModelConfig) (t : Tables) (experts : List ManifestExpertMapping) (_ : Nat)
    (layer : UInt32) (_ : Unit) : Code Unit := do
  throwIf ((experts.countP fun e => e.layerId = layer) ≠ config.expertCount.toNat)
    (metadataError "Qwen MoE layer does not contain every declared expert")
  throwIf (¬ ∃ value ∈ t.routers, value.layerId = layer ∧ value.tensorName = routerName layer)
    (metadataError "Qwen MoE layer is missing its router tensor")

/-- `moeLayers`, in order -/
def moeLayers (t : Tables) : List UInt32 :=
  (t.individual.keys.map Prod.fst ++ t.fusedGateUp.keys).dedup.insertionSort
    fun a b => a.toNat ≤ b.toNat

def collectExperts (config : ModelConfig) (t : Tables) : Code (List ManifestExpertMapping) := do
  let individual ← forEach addComplete 0 [] (ordered pairRank t.individual)
  let experts ← forEach (addFusedLayer config t) 0 individual (ordered UInt32.toNat t.fusedGateUp)
  forEach (checkDown t) 0 () (ordered UInt32.toNat t.fusedDown)
  throwIf (experts = []) (metadataError "no Qwen MoE experts were discovered")
  forEach (checkLayer config t experts) 0 () (moeLayers t)
  return experts

/-! ## layers -/

def hasTransformer (mapping : ManifestLayerMapping) : Bool :=
  mapping.queryProjection.tensorName ≠ [] ∨ mapping.keyProjection.tensorName ≠ [] ∨
    mapping.valueProjection.tensorName ≠ [] ∨ mapping.outputProjection.tensorName ≠ [] ∨
    mapping.inputNormTensor ≠ [] ∨ mapping.postAttentionNormTensor ≠ []

def addLayer (t : Tables) (_ : Nat) (layerId : Nat) (layers : List ManifestLayerMapping) :
    Code (List ManifestLayerMapping) := do
  let mapping ← orThrow (t.layerMappings.lookup (UInt32.ofNat layerId))
    (metadataError "Qwen transformer layer mapping is missing")
  throwIf (mapping.queryProjection.tensorName = [] ∨ mapping.keyProjection.tensorName = [] ∨
      mapping.valueProjection.tensorName = [] ∨ mapping.outputProjection.tensorName = [] ∨
      mapping.inputNormTensor = [] ∨ mapping.postAttentionNormTensor = [] ∨
      mapping.routerTensor = [])
    (metadataError "Qwen transformer layer mapping is incomplete")
  return layers ++ [mapping]

def collectLayers (config : ModelConfig) (t : Tables) : Code (List ManifestLayerMapping) :=
  if t.layerMappings.entries.any fun entry => hasTransformer entry.2 then
    forEach (addLayer t) 0 [] (List.range config.layerCount.toNat)
  else pure []

/-! ## model input and output -/

def collectModelIO (runtime : Runtime.ModelArchitecture) (t : Tables) :
    Code (Option ManifestModelIO) :=
  if t.tokenEmbedding.isNone && t.finalNorm.isNone && t.lmHead.isNone then pure none
  else do
    throwIf (runtime.vocabularySize = 0)
      (metadataError "Qwen model output mapping is incomplete")
    let tokenEmbedding ← orThrow t.tokenEmbedding
      (metadataError "Qwen model output mapping is incomplete")
    let finalNorm ← orThrow t.finalNorm (metadataError "Qwen model output mapping is incomplete")
    let head ← orThrow (if runtime.tiedEmbeddings then some tokenEmbedding else t.lmHead)
      (metadataError "Qwen model output mapping is incomplete")
    let embeddingShape ← shapeOf [runtime.vocabularySize, runtime.hiddenDimension]
    let normShape ← shapeOf [runtime.hiddenDimension]
    throwIf (tokenEmbedding.shape ≠ embeddingShape ∨ finalNorm.shape ≠ normShape ∨
        ∃ lmHead ∈ t.lmHead, lmHead.shape ≠ embeddingShape)
      (metadataError "Qwen model output tensor shape is incompatible")
    return some
      { tokenEmbeddingTensor := tokenEmbedding.name, finalNormTensor := finalNorm.name
        lmHead := { tensorName := head.name }, tiedEmbeddings := runtime.tiedEmbeddings }

/-! ## the manifest -/

def sortRouters (routers : List ManifestRouterTensor) : List ManifestRouterTensor :=
  routers.insertionSort fun a b => a.layerId.toNat ≤ b.layerId.toNat

def sortExperts (experts : List ManifestExpertMapping) : List ManifestExpertMapping :=
  experts.insertionSort fun a b =>
    pairRank (a.layerId, a.expertId) ≤ pairRank (b.layerId, b.expertId)

def inspect (asFloat : JsonValue → Except MetadataError Binary32) (c : Checkpoint) :
    Code ModelManifest := do
  let (manifest, runtime) ← readConfig asFloat c
  let parameterCount ← countParameters c.tensors 0
  let config := { manifest.config with capabilities := { manifest.config.capabilities with
    quantizedExpertWeights := c.tensors.any fun value => value.dtype = .INT8 } }
  let t ← forEach (addTensor c config) 0 {} c.tensors
  let experts ← collectExperts config t
  let layers ← collectLayers config t
  let modelIO ← collectModelIO runtime t
  let manifest : ModelManifest := { manifest with
    config := config
    parameterCount := parameterCount
    tensors := c.tensors.filter fun tensor => tensor.name ∈ t.relevantNames
    router := { manifest.router with tensors := sortRouters t.routers }
    experts := sortExperts experts
    layers := layers
    modelIO := modelIO }
  mapError .std manifest.validate
  return manifest

end HyperMoE.Importer.Qwen
