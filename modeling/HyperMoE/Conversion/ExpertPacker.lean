import HyperMoE.Conversion.WeightConverter
import HyperMoE.Importer.RealCheckpointConverter
import HyperMoE.Models.Soundness
import HyperMoE.Storage.StoreWriter

/-!
# Packing a model

`ExpertPacker.cpp`: the weights of a source checkpoint, converted to the layout of the runtime and
written one behind the other into `experts.bin`, with an index and a manifest that say where they are.

* `readRange`        the bytes of a projection in its source file;
* `packProjection`   one projection of an expert;
* `packExpert`       an expert, from an aligned offset on;
* `packTensor`, `packNorm`   a matrix, or a vector, behind what was written;
* `pack`             the packer;
* `SameModel`        two models with the same weights, by their manifests and files.

The numbers of the report are left out.  A write that the stream reports as good is complete, and
where the packing fails nothing is left of its directory.
-/

namespace HyperMoE.Conversion

open Lib Lib.Outcome Tensor Models Storage
open Importer.RealCheckpoint (ExpertStorageEncoding)
open Metadata (decimal)

inductive PackError where
  | storage (what : Text)
  | std (e : StdError)
  | filesystem
  deriving DecidableEq

abbrev Pack := Except PackError

def storageError (what : String) : PackError := .storage (ascii what)

/-- the file that a name stands for, if it can be opened -/
abbrev Files := Text → Option File

/-- what the system, and the code around the packer, answer on the way -/
structure PackAnswers where
  /-- `CheckpointValidator::validate` accepts the source -/
  validates : Pack Unit := .ok ()
  directoryExists : Bool := false
  makesDirectory : Bool := true
  opensData : Bool := true
  /-- the stream is good after a write behind so many bytes -/
  writes : Nat → Bool := fun _ => true
  closesData : Bool := true
  savesIndex : Pack Unit := .ok ()
  /-- `packed.save`, with the file that it writes -/
  savesManifest : ModelManifest → Pack File
  writesReport : Bool := true
  /-- `quantizeInt8(DTypeConverter::toFp32(bytes, dtype))`, with the scale in single precision -/
  quantizeInt8 : List UInt8 → DType → Except StdError (List UInt8 × QuantizationParameters)

/-- the output, and what was pushed for it -/
structure Packing where
  output : File := File.empty
  cursor : UInt64 := 0
  tensors : List ManifestTensor := []
  experts : List Storage.ExpertRecord := []
  projections : List ProjectionRecord := []

/-- the first tensor with the name -/
def findTensor (tensors : List ManifestTensor) (name : Text) : Option ManifestTensor :=
  tensors.find? fun tensor => tensor.name = name

/-- `if (!tensor) throw` -/
def find (m : ModelManifest) (name : Text) (what : String) : Pack ManifestTensor :=
  match findTensor m.tensors name with
  | some tensor => .ok tensor
  | none => .error (storageError what)

def alignUp (value : UInt64) : Pack UInt64 :=
  (Storage.alignUp value).mapError fun _ => storageError "packed expert offset overflow"

def readRange (files : Files) (tensor : ManifestTensor) (projection : ProjectionLocation) :
    Pack (List UInt8) :=
  match files tensor.sourceFile with
  | none => .error (storageError "cannot read source projection range")
  | some file => do
    throwIf (projection.offset > maxStream ∨ projection.size > maxStream)
      (storageError "cannot read source projection range")
    let bytes := file.read ⟨projection.offset.toNat, projection.size.toNat⟩
    throwIf (bytes.length ≠ projection.size.toNat)
      (storageError "source projection range is truncated")
    return bytes

/-- `QuantizationType` of an element type -/
def quantizationFor : DType → UInt32
  | .FP32 => 0
  | .FP16 => 1
  | .BF16 => 2
  | .INT8 => 6

def shapeArray (shape : Shape) : Pack (Vector UInt64 4) := do
  throwIf (shape.rank > 4) (storageError "projection rank exceeds index limit")
  return Vector.ofFn fun i => shape.dimensions.getD i 0

/-- the name of a tensor that is packed -/
def expertTensorName (layerId expertId : UInt32) (role : String) : Text :=
  ascii "layers." ++ decimal layerId.toNat ++ ascii ".experts." ++ decimal expertId.toNat ++
    ascii "." ++ ascii role

def layerTensorName (layerId : UInt32) (role : String) : Text :=
  ascii "layers." ++ decimal layerId.toNat ++ ascii "." ++ ascii role

def dataName : Text := ascii "experts.bin"

/-- the entry of a weight that stands in the data file -/
def packedTensor (name : Text) (offset : UInt64) (converted : ConvertedWeight)
    (quantization : Option QuantizationParameters) : ManifestTensor :=
  { name
    sourceFile := dataName
    offset
    size := UInt64.ofNat converted.bytes.length
    dtype := converted.dtype
    shape := converted.shape
    quantization }

/-! ## experts -/

/-- the locals of one expert -/
structure ExpertWriting where
  expertBytes : List UInt8 := []
  tensors : List ManifestTensor
  projections : List ProjectionRecord

/-- the bytes as they are stored -/
def encode (answers : PackAnswers) (encoding : ExpertStorageEncoding) (converted : ConvertedWeight) :
    Pack (ConvertedWeight × Option QuantizationParameters) :=
  match encoding with
  | .Preserve => .ok (converted, none)
  | .Int8 => do
    let (bytes, parameters) ← (answers.quantizeInt8 converted.bytes converted.dtype).mapError .std
    return ({ converted with bytes, dtype := .INT8 }, some parameters)

section
variable (answers : PackAnswers) (encoding : ExpertStorageEncoding) (files : Files)
  (source : ModelManifest)

def packProjection (expert : ManifestExpertMapping) (expertStart : UInt64)
    (location : ProjectionLocation) (type : ProjectionType) (role : String) (w : ExpertWriting) :
    Pack (ProjectionLocation × ExpertWriting) := do
  let tensor ← find source location.tensorName "projection source is missing"
  let bytes ← readRange files tensor location
  throwIf (location.shape.rank ≠ 2)
    (.storage (ascii "expert projection is not rank two: " ++ location.tensorName))
  let converted ← (convert bytes location.shape tensor.dtype location.layout .InputOutput).mapError .std
  let (converted, quantization) ← encode answers encoding converted
  throwIf (w.expertBytes.length > (maxWord - expertStart).toNat)
    (storageError "packed projection offset overflow")
  let projectionOffset := expertStart + UInt64.ofNat w.expertBytes.length
  let size := UInt64.ofNat converted.bytes.length
  let name := expertTensorName expert.layerId expert.expertId role
  let dimensions ← shapeArray converted.shape
  return ({ tensorName := name, offset := projectionOffset, size, shape := converted.shape,
            layout := .InputOutput },
    { expertBytes := w.expertBytes ++ converted.bytes
      tensors := w.tensors ++ [packedTensor name projectionOffset converted quantization]
      projections := w.projections ++ [{
        layer_id := expert.layerId
        expert_id := expert.expertId
        projection_type := type
        dtype := converted.dtype.toCode
        rank := UInt32.ofNat converted.shape.rank
        offset := projectionOffset
        size
        shape := dimensions
        checksum := crc32 converted.bytes }] })

/-- the stream writes all of it, or the packing ends -/
def write (what : String) (bytes : List UInt8) (p : Packing) : Pack File := do
  throwIf (answers.writes p.output.bytes.length = false) (storageError what)
  match p.output.append bytes with
  | some output => .ok output
  | none => .error (storageError what)

def packExpert (expert : ManifestExpertMapping) (p : Packing) :
    Pack (ManifestExpertMapping × Packing) := do
  let expertStart ← alignUp p.cursor
  let gateTensor ← find source expert.gate.tensorName
    "expert projections must exist and use one storage dtype"
  let upTensor ← find source expert.up.tensorName
    "expert projections must exist and use one storage dtype"
  let downTensor ← find source expert.down.tensorName
    "expert projections must exist and use one storage dtype"
  throwIf (gateTensor.dtype ≠ upTensor.dtype ∨ gateTensor.dtype ≠ downTensor.dtype)
    (storageError "expert projections must exist and use one storage dtype")
  let dtype := if encoding = .Int8 then DType.INT8 else gateTensor.dtype
  let w : ExpertWriting := { tensors := p.tensors, projections := p.projections }
  let (gate, w) ← packProjection answers encoding files source expert expertStart expert.gate .Gate
    "gate" w
  let (up, w) ← packProjection answers encoding files source expert expertStart expert.up .Up "up" w
  let (down, w) ← packProjection answers encoding files source expert expertStart expert.down .Down
    "down" w
  throwIf (w.expertBytes.length > maxStream.toNat)
    (storageError "packed expert is too large for stream I/O")
  -- the padding goes through the same stream, which is checked once
  let output ← write answers "failed writing packed expert"
    (zeroPage (expertStart - p.cursor) ++ w.expertBytes) p
  let expertSize := UInt64.ofNat w.expertBytes.length
  throwIf (expertStart > maxWord - expertSize) (storageError "packed expert range overflow")
  return ({ expert with gate, up, down },
    { output
      cursor := expertStart + expertSize
      tensors := w.tensors
      projections := w.projections
      experts := p.experts ++ [⟨expert.layerId, expert.expertId, expertStart, expertSize,
        quantizationFor dtype, crc32 w.expertBytes⟩] })

/-! ## the other tensors -/

/-- a tensor goes behind what was written -/
def appendTensor (tooLarge failed : String) (name : Text) (converted : ConvertedWeight) (p : Packing) :
    Pack Packing := do
  throwIf (converted.bytes.length > maxStream.toNat ∨
    converted.bytes.length > (maxWord - p.cursor).toNat) (storageError tooLarge)
  let output ← write answers failed converted.bytes p
  return { p with
    output
    cursor := p.cursor + UInt64.ofNat converted.bytes.length
    tensors := p.tensors ++ [packedTensor name p.cursor converted none] }

/-- where a tensor lies as a whole -/
def locationOf (tensor : ManifestTensor) (layout : TensorLayout) : ProjectionLocation :=
  { tensorName := tensor.name, offset := tensor.offset, size := tensor.size, shape := tensor.shape,
    layout }

/-- a matrix that is stored in a layout -/
def packMatrix (rankTwo tooLarge failed : String) (tensor : ManifestTensor) (layout : TensorLayout)
    (name : Text) (p : Packing) : Pack Packing := do
  let bytes ← readRange files tensor (locationOf tensor layout)
  throwIf (tensor.shape.rank ≠ 2) (.storage (ascii rankTwo ++ tensor.name))
  let converted ← (convert bytes tensor.shape tensor.dtype layout .InputOutput).mapError .std
  appendTensor answers tooLarge failed name converted p

def packRouter (router : ManifestRouterTensor) (p : Packing) :
    Pack (ManifestRouterTensor × Packing) := do
  let tensor ← find source router.tensorName "router source is missing"
  let name := ascii "layers." ++ decimal router.layerId.toNat ++ ascii ".router"
  let p ← packMatrix answers files "router tensor is not rank two: " "packed router range is too large"
    "failed writing packed router" tensor source.router.layout name p
  return (⟨router.layerId, name⟩, p)

def packTensor (layerId : UInt32) (binding : ManifestTensorBinding) (role : String) (p : Packing) :
    Pack (ManifestTensorBinding × Packing) := do
  let tensor ← find source binding.tensorName "transformer projection source is missing"
  let name := layerTensorName layerId role
  let p ← packMatrix answers files "transformer projection is not rank two: "
    "packed transformer projection is too large" "failed writing transformer projection" tensor
    binding.layout name p
  return (⟨name, .InputOutput⟩, p)

def packNorm (layerId : UInt32) (tensorName : Text) (role : String) (p : Packing) :
    Pack (Text × Packing) := do
  let tensor ← find source tensorName "transformer normalization source is missing or invalid"
  throwIf (tensor.shape.rank ≠ 1)
    (storageError "transformer normalization source is missing or invalid")
  let bytes ← readRange files tensor (locationOf tensor .InputOutput)
  let name := layerTensorName layerId role
  let p ← appendTensor answers "packed normalization tensor is too large"
    "failed writing normalization tensor" name ⟨bytes, tensor.shape, tensor.dtype, .InputOutput⟩ p
  return (name, p)

/-- a normalization that a layer may do without -/
def packOptionalNorm (layerId : UInt32) (tensorName : Text) (role : String) (p : Packing) :
    Pack (Text × Packing) :=
  if tensorName = [] then .ok ([], p) else packNorm answers files source layerId tensorName role p

/-- `packedRouterNames` keeps the first name of a tensor -/
def packedRouterName (routers : List (ManifestRouterTensor × ManifestRouterTensor)) (name : Text) :
    Pack Text :=
  match routers.find? fun router => router.1.tensorName = name with
  | some router => .ok router.2.tensorName
  | none => .error (storageError "packed transformer layer router is missing")

def packLayer (routers : List (ManifestRouterTensor × ManifestRouterTensor))
    (layer : ManifestLayerMapping) (p : Packing) : Pack (ManifestLayerMapping × Packing) := do
  let (queryProjection, p) ← packTensor answers files source layer.layerId layer.queryProjection
    "q_proj" p
  let (keyProjection, p) ← packTensor answers files source layer.layerId layer.keyProjection "k_proj" p
  let (valueProjection, p) ← packTensor answers files source layer.layerId layer.valueProjection
    "v_proj" p
  let (outputProjection, p) ← packTensor answers files source layer.layerId layer.outputProjection
    "o_proj" p
  let (queryNormTensor, p) ← packOptionalNorm answers files source layer.layerId
    layer.queryNormTensor "q_norm" p
  let (keyNormTensor, p) ← packOptionalNorm answers files source layer.layerId layer.keyNormTensor
    "k_norm" p
  let (inputNormTensor, p) ← packNorm answers files source layer.layerId layer.inputNormTensor
    "input_norm" p
  let (postAttentionNormTensor, p) ← packNorm answers files source layer.layerId
    layer.postAttentionNormTensor "post_attention_norm" p
  let routerTensor ← packedRouterName routers layer.routerTensor
  return ({ layerId := layer.layerId, queryProjection, keyProjection, valueProjection,
            outputProjection, inputNormTensor, postAttentionNormTensor, routerTensor,
            queryNormTensor, keyNormTensor }, p)

/-- a vector is kept as it is, anything else is converted -/
def convertMatrix (bytes : List UInt8) (tensor : ManifestTensor) (layout : TensorLayout) :
    Pack ConvertedWeight :=
  if tensor.shape.rank = 1 then .ok ⟨bytes, tensor.shape, tensor.dtype, .InputOutput⟩
  else (convert bytes tensor.shape tensor.dtype layout .InputOutput).mapError .std

def packInputOutput (tensor : ManifestTensor) (layout : TensorLayout) (name : Text) (p : Packing) :
    Pack Packing := do
  let bytes ← readRange files tensor (locationOf tensor layout)
  let converted ← convertMatrix bytes tensor layout
  appendTensor answers "packed model I/O tensor is too large" "failed writing packed model I/O tensor"
    name converted p

def packModelEnds (io : ManifestModelIO) (p : Packing) : Pack (Prod ManifestModelIO Packing) := do
  let embedding ← find source io.tokenEmbeddingTensor "model I/O source tensor is missing"
  let finalNorm ← find source io.finalNormTensor "model I/O source tensor is missing"
  let sourceHead ← find source io.lmHead.tensorName "model I/O source tensor is missing"
  let embeddingName := ascii "model.token_embedding"
  let p ← packInputOutput answers files embedding .InputOutput embeddingName p
  let normName := ascii "model.final_norm"
  let p ← packInputOutput answers files finalNorm .InputOutput normName p
  if io.tiedEmbeddings then
    return (⟨embeddingName, normName, ⟨embeddingName, .OutputInput⟩, true⟩, p)
  else
    let headName := ascii "model.lm_head"
    let p ← packInputOutput answers files sourceHead io.lmHead.layout headName p
    return (⟨embeddingName, normName, ⟨headName, .InputOutput⟩, false⟩, p)

/-! ## the packer -/

/-- `for (const auto& value : values)`, with what is pushed for each of them -/
def each {α β σ ε : Type} (f : α → σ → Except ε (β × σ)) : List α → σ → Except ε (List β × σ)
  | [], s => .ok ([], s)
  | a :: as, s => do
    let (b, s) ← f a s
    let (bs, s) ← each f as s
    return (b :: bs, s)

def eachOption {α β σ ε : Type} (f : α → σ → Except ε (β × σ)) : Option α → σ →
    Except ε (Option β × σ)
  | none, s => .ok (none, s)
  | some a, s => do
    let (b, s) ← f a s
    return (some b, s)

/-- `report.parametersIndexed` -/
def countParameters (tensors : List ManifestTensor) : Pack UInt64 :=
  tensors.foldlM (fun count tensor => do
    throwIf (count > maxWord - tensor.shape.elementCount)
      (storageError "conversion parameter count overflow")
    return count + tensor.shape.elementCount) 0

/-- the manifest, without what is packed -/
def emptied : ModelManifest :=
  { source with
    schema := schemaVersion
    config := { source.config with
      capabilities := { source.config.capabilities with
        quantizedExpertWeights := decide (encoding = .Int8) } }
    router := { source.router with tensors := [], layout := .InputOutput }
    tensors := []
    experts := []
    layers := []
    modelIO := none }

def ofStorage (e : StorageError) : PackError := storageError e.what

def saveIndex (index : ExpertIndex) : Pack File := do
  answers.savesIndex
  match File.empty.append index.save with
  | some file => .ok file
  | none => .error (storageError "failed writing expert index")

/-- everything that was indexed is read back, with its checksum -/
def verify (d : Directory) : Pack Unit := do
  let store ← (openStore d).mapError ofStorage
  store.index.records.forM fun record => do
    let _ ← (store.mappedExpert record.layer_id record.expert_id true).mapError ofStorage
  store.index.projections.forM fun projection => do
    let _ ← (store.mappedProjection projection.layer_id projection.expert_id
      projection.projection_type true).mapError ofStorage

/-- what a directory has that was packed -/
structure PackedModel where
  data : File
  index : File
  manifestFile : File
  manifest : ModelManifest

def PackedModel.directory (m : PackedModel) : Directory :=
  { made := true, data := some m.data, index := some m.index, manifest := some m.manifestFile }

/-- the loops of the packer -/
def packWeights : Pack (ModelManifest × Packing) := do
  let (experts, p) ← each (packExpert answers encoding files source) source.experts {}
  let (routers, p) ← each (packRouter answers files source) source.router.tensors p
  let (layers, p) ← each (packLayer answers files source (source.router.tensors.zip routers))
    source.layers p
  let (io, p) ← eachOption (packModelEnds answers files source) source.modelIO p
  let packed := emptied encoding source
  return ({ packed with
    tensors := p.tensors
    experts
    router := { packed.router with tensors := routers }
    layers
    modelIO := io }, p)

def pack : Pack PackedModel := do
  ((source.validate.exec true).1).mapError .std
  answers.validates
  throwIf (answers.directoryExists = true) (storageError "refusing to overwrite model conversion output")
  throwIf (answers.makesDirectory = false) .filesystem
  throwIf (answers.opensData = false) (storageError "cannot create packed expert data")
  let _ ← countParameters source.tensors
  let (manifest, p) ← packWeights answers encoding files source
  throwIf (answers.closesData = false) (storageError "failed closing packed expert data")
  let index ← ((ExpertIndex.make p.experts p.projections).exec true).1.mapError ofStorage
  let indexFile ← saveIndex answers index
  ((manifest.validate.exec true).1).mapError .std
  let manifestFile ← answers.savesManifest manifest
  let packed : PackedModel := ⟨p.output, indexFile, manifestFile, manifest⟩
  verify packed.directory
  throwIf (answers.writesReport = false) (storageError "failed writing conversion report")
  return packed

end

/-! ## the weights of a model -/

/-- the tensors of a manifest, and the files that they name -/
structure Weights where
  files : Files
  tensors : List ManifestTensor

/-- the weight at a location -/
def Weights.at (m : Weights) (location : ProjectionLocation) : Option ConvertedWeight := do
  let tensor ← findTensor m.tensors location.tensorName
  let file ← m.files tensor.sourceFile
  return ⟨file.read ⟨location.offset.toNat, location.size.toNat⟩, location.shape, tensor.dtype,
    location.layout⟩

/-- the weight of a tensor -/
def Weights.of (m : Weights) (name : Text) (layout : TensorLayout) : Option ConvertedWeight := do
  let tensor ← findTensor m.tensors name
  let file ← m.files tensor.sourceFile
  return ⟨file.read ⟨tensor.offset.toNat, tensor.size.toNat⟩, tensor.shape, tensor.dtype, layout⟩

/-- the only file of a packed model -/
def dataFiles (data : File) : Files := fun name => if name = dataName then some data else none

def Packing.weights (p : Packing) : Weights := ⟨dataFiles p.output, p.tensors⟩

/-- the same matrix, in whichever layout -/
def SameMatrix (w w' : Option ConvertedWeight) : Prop :=
  ∃ a b, w = some a ∧ w' = some b ∧ SameWeight a b

/-- the same bytes -/
def SameTensor (w w' : Option ConvertedWeight) : Prop := ∃ a, w = some a ∧ w' = some a

section
variable (answers : PackAnswers) (encoding : ExpertStorageEncoding) (m m' : Weights)

/-- the same matrix, and then its encoding -/
def SameProjection (location location' : ProjectionLocation) : Prop :=
  ∃ a converted stored quantization, m.at location = some a ∧ SameWeight a converted ∧
    encode answers encoding converted = .ok (stored, quantization) ∧ m'.at location' = some stored ∧
    (findTensor m'.tensors location'.tensorName).map ManifestTensor.quantization = some quantization

structure SameExpert (e e' : ManifestExpertMapping) : Prop where
  layerId : e'.layerId = e.layerId
  expertId : e'.expertId = e.expertId
  gate : SameProjection answers encoding m m' e.gate e'.gate
  up : SameProjection answers encoding m m' e.up e'.up
  down : SameProjection answers encoding m m' e.down e'.down

def SameBinding (b b' : ManifestTensorBinding) : Prop :=
  SameMatrix (m.of b.tensorName b.layout) (m'.of b'.tensorName b'.layout)

def SameNorm (name name' : Text) : Prop :=
  SameTensor (m.of name .InputOutput) (m'.of name' .InputOutput)

def SameOptionalNorm (name name' : Text) : Prop :=
  (name = [] ∧ name' = []) ∨ SameNorm m m' name name'

/-- routers of models that store them in a layout -/
structure SameRouter (layout layout' : TensorLayout) (r r' : ManifestRouterTensor) : Prop where
  layerId : r'.layerId = r.layerId
  tensor : SameBinding m m' ⟨r.tensorName, layout⟩ ⟨r'.tensorName, layout'⟩

structure SameLayer (layout layout' : TensorLayout) (l l' : ManifestLayerMapping) : Prop where
  layerId : l'.layerId = l.layerId
  query : SameBinding m m' l.queryProjection l'.queryProjection
  key : SameBinding m m' l.keyProjection l'.keyProjection
  value : SameBinding m m' l.valueProjection l'.valueProjection
  output : SameBinding m m' l.outputProjection l'.outputProjection
  queryNorm : SameOptionalNorm m m' l.queryNormTensor l'.queryNormTensor
  keyNorm : SameOptionalNorm m m' l.keyNormTensor l'.keyNormTensor
  inputNorm : SameNorm m m' l.inputNormTensor l'.inputNormTensor
  postAttentionNorm : SameNorm m m' l.postAttentionNormTensor l'.postAttentionNormTensor
  router : SameBinding m m' ⟨l.routerTensor, layout⟩ ⟨l'.routerTensor, layout'⟩

structure SameModelEnds (io io' : ManifestModelIO) : Prop where
  tied : io'.tiedEmbeddings = io.tiedEmbeddings
  embedding : SameNorm m m' io.tokenEmbeddingTensor io'.tokenEmbeddingTensor
  finalNorm : SameNorm m m' io.finalNormTensor io'.finalNormTensor
  head : SameBinding m m' io.lmHead io'.lmHead

end

/-- the index has the projections of an expert where its manifest says -/
structure MappedExpert (s : ExpertStore) (e : ManifestExpertMapping) : Prop where
  gate : s.mappedProjection e.layerId e.expertId .Gate true =
    .ok ⟨e.gate.offset.toNat, e.gate.size.toNat⟩
  up : s.mappedProjection e.layerId e.expertId .Up true = .ok ⟨e.up.offset.toNat, e.up.size.toNat⟩
  down : s.mappedProjection e.layerId e.expertId .Down true =
    .ok ⟨e.down.offset.toNat, e.down.size.toNat⟩

/-- two models with the same weights, up to the encoding of the experts -/
structure SameModel (answers : PackAnswers) (encoding : ExpertStorageEncoding) (files files' : Files)
    (m packed : ModelManifest) : Prop where
  experts : List.Forall₂ (SameExpert answers encoding ⟨files, m.tensors⟩ ⟨files', packed.tensors⟩)
    m.experts packed.experts
  routers : List.Forall₂ (SameRouter ⟨files, m.tensors⟩ ⟨files', packed.tensors⟩ m.router.layout
    packed.router.layout) m.router.tensors packed.router.tensors
  layers : List.Forall₂ (SameLayer ⟨files, m.tensors⟩ ⟨files', packed.tensors⟩ m.router.layout
    packed.router.layout) m.layers packed.layers
  modelIO : Option.Rel (SameModelEnds ⟨files, m.tensors⟩ ⟨files', packed.tensors⟩) m.modelIO packed.modelIO

end HyperMoE.Conversion
