import HyperMoE.Transformer.CudaTransformer

/-!
# From tokens to logits

`ModelRuntime.cpp`, `Embedding.cpp`, `FinalNorm.cpp`, `LMHead.cpp`: the rows of the tokens, the layers,
a normalization, and a product with the head.  On a device the rows are copied there from the host,
and a head that is stored by its outputs is worked off on the host.

* `ModelRuntime`           a model with its input and its output;
* `ModelRuntime.forwardImpl`   tokens to logits, on the host;
* `CudaForward.forwardImpl`    the same on a device;
* `forward_replaces`       the device takes the place of the host.
-/

namespace HyperMoE.Transformer

open Lib Lib.Outcome Tensor Models Backend
open CudaTensorBackend (allocateTensor intMax)
open CudaTransformerBlock (SamePass)
open Lib.Fallible (Gives Replaces Simulates read settle)

/-- `weightLayout_ == InputOutput ? Shape{hidden, vocabulary} : Shape{vocabulary, hidden}` -/
def headShape (layout : TensorLayout) (hiddenDimension vocabularySize : Nat) : Nat × Nat :=
  match layout with
  | .InputOutput => (hiddenDimension, vocabularySize)
  | .OutputInput => (vocabularySize, hiddenDimension)

/-- what passed the constructor -/
structure ModelRuntime (K : Type) where
  architecture : Models.Runtime.ModelArchitecture
  /-- `result.validate()` in `fromManifest` -/
  accepted : (architecture.validate.exec true).1 = .ok ()
  transformer : TransformerModelRuntime K
  compatible : architecture.vocabularySize ≠ 0 ∧
    transformer.architecture.hiddenDimension = architecture.hiddenDimension ∧
    transformer.architecture.layerCount = architecture.layerCount
  embeddingWeights : Grid K
  finalNormWeights : List K
  lmHeadWeights : Grid K
  lmHeadLayout : TensorLayout
  tiedEmbeddings : Bool
  embedding : embeddingWeights.rows = architecture.vocabularySize.toNat ∧
    embeddingWeights.columns = architecture.hiddenDimension.toNat
  finalNorm : finalNormWeights.length = architecture.hiddenDimension.toNat
  lmHead : (lmHeadWeights.rows, lmHeadWeights.columns) = headShape lmHeadLayout
    architecture.hiddenDimension.toNat architecture.vocabularySize.toNat
  tied : tiedEmbeddings = true → lmHeadLayout = .OutputInput

structure ModelForwardResult (K : Type) where
  embeddings : Grid K
  transformer : ModelExecutionResult K
  normalizedHiddenStates : Grid K
  logits : Grid K

variable {K : Type} [Field K]

/-! ## input and output -/

def Embedding.execute (vocabularySize hiddenDimension : Nat) (tokenIds : List Nat) (weights : Grid K) :
    Except StdError (Grid K) := do
  throwIf (tokenIds = [] ∨ weights.rows ≠ vocabularySize ∨ weights.columns ≠ hiddenDimension)
    (.invalid_argument "embedding requires a contiguous vocabulary-by-hidden FP32 tensor")
  throwIf (∃ tokenId ∈ tokenIds, tokenId ≥ vocabularySize)
    (.out_of_range "token ID exceeds embedding vocabulary")
  return Grid.generate tokenIds.length hiddenDimension fun token feature =>
    weights.get (tokenIds.getD token 0) feature

/-- `value += hidden[token * hiddenDimension + feature] * matrix[vocabulary * hiddenDimension + feature]` -/
def LMHead.outputInput (vocabularySize hiddenDimension : Nat) (hiddenStates weights : Grid K) :
    Grid K :=
  Grid.generate hiddenStates.rows vocabularySize fun token vocabulary =>
    ∑ feature ∈ Finset.range hiddenDimension,
      hiddenStates.get token feature * weights.get vocabulary feature

def LMHead.check (layout : TensorLayout) (vocabularySize hiddenDimension : Nat)
    (hiddenStates weights : Grid K) : Except StdError Unit :=
  throwIf (hiddenStates.columns ≠ hiddenDimension ∨
      (weights.rows, weights.columns) ≠ headShape layout hiddenDimension vocabularySize)
    (.invalid_argument "LM head requires compatible contiguous backend FP32 tensors")

def LMHead.execute (layout : TensorLayout) (vocabularySize hiddenDimension : Nat)
    (hiddenStates weights : Grid K) : Except StdError (Grid K) := do
  check layout vocabularySize hiddenDimension hiddenStates weights
  match layout with
  | .InputOutput => matmul hiddenStates weights hiddenStates.rows vocabularySize
  | .OutputInput => return outputInput vocabularySize hiddenDimension hiddenStates weights

/-- with the logits that were allocated -/
def LMHead.executeCuda (cublas : Cublas K) (logits : Nat → K) (layout : TensorLayout)
    (vocabularySize hiddenDimension : Nat) (hiddenStates weights : Grid K) :
    Except StdError (Grid K) := do
  check layout vocabularySize hiddenDimension hiddenStates weights
  match layout with
  | .InputOutput =>
    CudaTensorBackend.matmul cublas hiddenStates weights
      (allocateTensor logits hiddenStates.rows vocabularySize)
  | .OutputInput => execute .OutputInput vocabularySize hiddenDimension hiddenStates weights

theorem LMHead.executeCuda_of_host {cublas : Cublas K} {layout : TensorLayout}
    {vocabularySize hiddenDimension : Nat} {hiddenStates weights g : Grid K} (logits : Nat → K)
    (hcublas : cublas.Documented)
    (h : execute layout vocabularySize hiddenDimension hiddenStates weights = .ok g)
    (hrows : hiddenStates.rows ≤ intMax) (hhidden : hiddenDimension ≤ intMax)
    (hvocabulary : vocabularySize ≤ intMax) :
    executeCuda cublas logits layout vocabularySize hiddenDimension hiddenStates weights = .ok g := by
  obtain ⟨u, hcheck, hproduct⟩ := bind_eq_ok.mp h
  have hshape := throwIf_eq_ok.mp hcheck
  push Not at hshape
  refine bind_eq_ok.mpr ⟨u, hcheck, ?_⟩
  cases layout with
  | InputOutput =>
    have hcolumns : weights.columns = vocabularySize := congrArg Prod.snd hshape.2
    have hproduct' : matmul hiddenStates weights (allocateTensor logits hiddenStates.rows
        vocabularySize).rows (allocateTensor logits hiddenStates.rows vocabularySize).columns =
          .ok g := hproduct
    refine CudaTensorBackend.matmul_of_host hcublas hproduct' hrows ?_ ?_
    · rw [hshape.1]
      exact hhidden
    · rw [hcolumns]
      exact hvocabulary
  | OutputInput => exact h

/-- `RMSNorm(backend, hiddenDimension, finalNormalization.epsilon)` -/
def ModelRuntime.finalNormalization (runtime : ModelRuntime K) : RMSNorm :=
  ⟨runtime.architecture.hiddenDimension.toNat, runtime.architecture.finalNormalization.epsilon⟩

omit [Field K] in
/-- an architecture that was accepted has a normalization that can be made -/
theorem ModelRuntime.made_finalNormalization (runtime : ModelRuntime K) :
    runtime.finalNormalization.Made := by
  have hreturns : Fallible.Returns runtime.architecture.validate fun _ =>
      runtime.architecture.hiddenDimension ≠ 0 ∧
        runtime.architecture.finalNormalization.epsilon.isFinite ≠ false ∧
        runtime.architecture.finalNormalization.epsilon.notPositive ≠ true := by
    refine Fallible.Returns.guard fun h => ?_
    push Not at h
    refine .then fun _ => .then fun _ => (Fallible.returns_throwIf _ _).mono fun _ hnorm => ?_
    push Not at hnorm
    exact ⟨h.2.1, hnorm.2⟩
  obtain ⟨hhidden, hepsilon⟩ := hreturns true () runtime.accepted
  refine throwIf_bind_eq_ok.mpr ⟨?_, rfl⟩
  push Not
  exact ⟨fun h => hhidden (UInt64.toNat_inj.mp h), hepsilon⟩

variable [LinearOrder K]

/-! ## forward -/

namespace ModelRuntime

def forwardImpl (N : Numerics K) (runtime : ModelRuntime K) (tokenIds : List Nat) :
    Fallible StdError (PassState K) (ModelForwardResult K) := do
  let s ← read
  settle s.context.validate
  Fallible.throwIf (tokenIds = [] ∨ tokenIds.length ≠ s.context.batchSize ∨
      s.context.hiddenDimension ≠ runtime.architecture.hiddenDimension.toNat)
    (.invalid_argument "forward token batch and inference context do not match architecture")
  let embeddings ← settle (Embedding.execute runtime.architecture.vocabularySize.toNat
    runtime.architecture.hiddenDimension.toNat tokenIds runtime.embeddingWeights)
  let transformer ← runtime.transformer.executeImpl N true embeddings
  let normalizedHiddenStates ← settle
    (runtime.finalNormalization.execute N transformer.output runtime.finalNormWeights)
  let logits ← settle (LMHead.execute runtime.lmHeadLayout runtime.architecture.vocabularySize.toNat
    runtime.architecture.hiddenDimension.toNat normalizedHiddenStates runtime.lmHeadWeights)
  return { embeddings, transformer, normalizedHiddenStates, logits }

end ModelRuntime

/-- what the device is free in, from the tokens to the logits -/
structure ForwardRun (K : Type) where
  blocks : LayerId → BlockRun K
  finalNorm : NormRun K
  logits : Nat → K
  deriving Inhabited

namespace CudaForward

def forwardImpl (cublas : Cublas K) (N : Numerics K) (mode : Int8GemmMode) (run : ForwardRun K)
    (runtime : ModelRuntime K) (tokenIds : List Nat) :
    Fallible StdError (CudaPassState K) (ModelForwardResult K) := do
  let s ← read
  settle s.context.validate
  Fallible.throwIf (tokenIds = [] ∨ tokenIds.length ≠ s.context.batchSize ∨
      s.context.hiddenDimension ≠ runtime.architecture.hiddenDimension.toNat)
    (.invalid_argument "forward token batch and inference context do not match architecture")
  let embeddings ← settle (Embedding.execute runtime.architecture.vocabularySize.toNat
    runtime.architecture.hiddenDimension.toNat tokenIds runtime.embeddingWeights)
  let transformer ← CudaModelRuntime.executeImpl cublas N mode run.blocks runtime.transformer
    embeddings
  let normalizedHiddenStates ← settle (runtime.finalNormalization.executeCuda N run.finalNorm
    transformer.output runtime.finalNormWeights)
  let logits ← settle (LMHead.executeCuda cublas run.logits runtime.lmHeadLayout
    runtime.architecture.vocabularySize.toNat runtime.architecture.hiddenDimension.toNat
    normalizedHiddenStates runtime.lmHeadWeights)
  return { embeddings, transformer, normalizedHiddenStates, logits }

/-- what the launches and the calls of cuBLAS can count, for this many tokens -/
structure Limits (runtime : ModelRuntime K) (tokens : Nat) : Prop where
  layers : CudaModelRuntime.Limits runtime.transformer tokens
  vocabulary : runtime.architecture.vocabularySize.toNat ≤ intMax

section
variable {cublas : Cublas K} {N : Numerics K} {mode : Int8GemmMode} {run : ForwardRun K}
  {runtime : ModelRuntime K} {tokenIds : List Nat} {s : PassState K} {t : CudaPassState K}

/-- the transformer keeps the shape of the hidden states -/
theorem shape_of_executeImpl {transformer : TransformerModelRuntime K} {hiddenStates : Grid K}
    {r : ModelExecutionResult K} {s' : PassState K}
    (h : Gives (transformer.executeImpl N true hiddenStates) s r s') :
    r.output.rows = hiddenStates.rows ∧ r.output.columns = hiddenStates.columns := by
  unfold TransformerModelRuntime.executeImpl at h
  obtain ⟨_, -, h⟩ := Fallible.gives_settle_bind.mp (Fallible.gives_read_bind.mp h)
  obtain ⟨-, h⟩ := Fallible.gives_throwIf_bind.mp h
  obtain ⟨-, h⟩ := Fallible.gives_throwIf_bind.mp h
  obtain ⟨results, s₁, hlayers, h⟩ := Fallible.gives_bind.mp h
  obtain ⟨rfl, rfl⟩ := Fallible.gives_pure.mp h
  refine Fallible.gives_forEach (I := fun _ results _ => results.2.rows = hiddenStates.rows ∧
    results.2.columns = hiddenStates.columns) ?_ ⟨rfl, rfl⟩ hlayers
  rintro seen tensors todo results s results' s' - ⟨hrows, hcolumns⟩ hlayer
  obtain ⟨hrows', hcolumns'⟩ := CudaModelRuntime.shape_of_executeLayer hlayer
  exact ⟨hrows'.trans hrows, hcolumns'.trans hcolumns⟩

theorem sameShape_of_executeImpl {transformer : TransformerModelRuntime K} {hiddenStates : Grid K}
    {r : ModelExecutionResult K} {s' : PassState K}
    (h : Gives (transformer.executeImpl N true hiddenStates) s r s') : SameShape s.cache s'.cache := by
  unfold TransformerModelRuntime.executeImpl at h
  obtain ⟨_, hvalid, h⟩ := Fallible.gives_settle_bind.mp (Fallible.gives_read_bind.mp h)
  obtain ⟨hshape, h⟩ := Fallible.gives_throwIf_bind.mp h
  obtain ⟨hcache, h⟩ := Fallible.gives_throwIf_bind.mp h
  obtain ⟨results, s₁, hlayers, h⟩ := Fallible.gives_bind.mp h
  obtain ⟨rfl, rfl⟩ := Fallible.gives_pure.mp h
  obtain ⟨hbatch, -⟩ := throwIf_bind_eq_ok.mp hvalid
  push Not at hbatch hshape hcache
  obtain ⟨hcount, hheads, hdimension⟩ := hcache rfl
  have hready : PassReady transformer s hiddenStates :=
    ⟨hshape.1.symm, hshape.2.2.trans hshape.2.1.symm, hshape.2.1, hshape.1 ▸ hbatch.1, hheads,
      hdimension⟩
  have hlength : s.cache.layers.length = 0 + transformer.layers.length := by
    rw [transformer.complete, Nat.zero_add]
    exact hcount
  obtain ⟨-, hframe, -⟩ := layers_pass hready hlength hlayers
  exact ⟨hframe.maximum, hframe.keyValueHeads, hframe.headDimension, hframe.length⟩

/-- the extents of the cache, after a forward pass -/
theorem sameShape_of_forwardImpl {r : ModelForwardResult K} {s' : PassState K}
    (h : Gives (runtime.forwardImpl N tokenIds) s r s') : SameShape s.cache s'.cache := by
  unfold ModelRuntime.forwardImpl at h
  obtain ⟨_, -, h⟩ := Fallible.gives_settle_bind.mp (Fallible.gives_read_bind.mp h)
  obtain ⟨-, h⟩ := Fallible.gives_throwIf_bind.mp h
  obtain ⟨embeddings, -, h⟩ := Fallible.gives_settle_bind.mp h
  obtain ⟨transformer, s₁, htransformer, h⟩ := Fallible.gives_bind.mp h
  obtain ⟨_, -, h⟩ := Fallible.gives_settle_bind.mp h
  obtain ⟨_, -, h⟩ := Fallible.gives_settle_bind.mp h
  obtain ⟨-, rfl⟩ := Fallible.gives_pure.mp h
  exact sameShape_of_executeImpl htransformer

theorem forward_replaces (hcublas : cublas.Documented)
    (hinput : runtime.transformer.block.inputNormalization.Made)
    (hpost : runtime.transformer.block.normalization.Made)
    (hlimits : Limits runtime tokenIds.length) (h : SamePass t s) :
    Replaces SamePass (forwardImpl cublas N mode run runtime tokenIds) t
      (runtime.forwardImpl N tokenIds) s := by
  unfold forwardImpl ModelRuntime.forwardImpl
  refine .read_bind ?_
  rw [h.context]
  refine .settle_bind fun _ hvalid => ⟨hvalid, .throwIf_bind fun hbatch => ⟨hbatch,
    .settle_bind fun embeddings hembeddings => ⟨hembeddings, ?_⟩⟩⟩
  push Not at hbatch
  have hshape : embeddings.rows = tokenIds.length ∧
      embeddings.columns = runtime.architecture.hiddenDimension.toNat := by
    obtain ⟨-, hembeddings⟩ := throwIf_bind_eq_ok.mp hembeddings
    obtain ⟨-, hembeddings⟩ := throwIf_bind_eq_ok.mp hembeddings
    obtain rfl := pure_eq_ok.mp hembeddings
    exact ⟨rfl, rfl⟩
  refine Replaces.bind (CudaModelRuntime.executeImpl_replaces hcublas hinput hpost
    (hshape.1.symm ▸ hlimits.layers) h) fun transformer t₁ s₁ hgives hsame => ?_
  obtain ⟨hrows, hcolumns⟩ := shape_of_executeImpl hgives
  have hsized : transformer.output.rows ≠ 0 ∧
      transformer.output.rows * transformer.output.columns < 2 ^ 31 := by
    rw [hrows, hcolumns, hshape.1, hshape.2, ← runtime.compatible.2.1]
    exact ⟨fun h => hbatch.1 (List.eq_nil_of_length_eq_zero h), hlimits.layers.attention.hidden⟩
  have hwide : transformer.output.columns ≠ 0 := by
    rw [hcolumns, hshape.2]
    exact runtime.made_finalNormalization.accepted.1
  refine .settle_bind fun normalized hnormalized => ⟨RMSNorm.executeCuda_of_host run.finalNorm
    runtime.made_finalNormalization hnormalized hsized.1 hsized.2, .settle_bind fun logits hlogits =>
      ⟨LMHead.executeCuda_of_host run.logits hcublas hlogits ?_ ?_ hlimits.vocabulary,
        Replaces.pure hsame _⟩⟩
  · obtain ⟨-, rfl⟩ := RMSNorm.execute_eq_ok.mp hnormalized
    show transformer.output.rows ≤ intMax
    have hle := Nat.le_mul_of_pos_right transformer.output.rows (Nat.pos_of_ne_zero hwide)
    unfold intMax
    omega
  · have hle := Nat.le_mul_of_pos_left transformer.output.columns (Nat.pos_of_ne_zero hsized.1)
    rw [← hshape.2, ← hcolumns]
    unfold intMax
    omega

end

end CudaForward

end HyperMoE.Transformer
