import HyperMoE.Runtime.CudaMoERuntime
import HyperMoE.Transformer.CudaAttention
import HyperMoE.Transformer.Incremental

/-!
# The model on the device

`TransformerBlock.cpp`, `RMSNorm.cpp` and `TransformerModelRuntime.cpp` with the backend for CUDA:
every tensor of a pass is new, every operation is a launch or a call of cuBLAS, and the keys and
values are in a cache that grows.

* `BlockRun`                     what the device is free in, for one layer;
* `CudaTransformerBlock.execute` the layer;
* `CudaModelRuntime.run`         all layers;
* `session`                      passes and calls on one cache, as they come;
* `block_replaces` ... `session_of_host`   the device takes the place of the host.
-/

namespace HyperMoE.Transformer

open Lib Lib.Outcome Tensor Models Backend
open HyperMoE.Runtime
open CudaTensorBackend (Order allocateTensor intMax)
open Lib.Fallible (Gives Replaces Simulates read settle)

variable {K : Type}

structure NormRun (K : Type) where
  output : Nat → K
  order : Order
  deriving Inhabited

/-- the new tensors of a layer, and the orders of its launches -/
structure BlockRun (K : Type) where
  inputNorm : NormRun K
  attention : CudaAttention.AttentionRun K
  residual : Nat → K
  norm : NormRun K
  moe : LayerRun K
  output : Nat → K
  deriving Inhabited

/-- the context of the pass and the cache of the session -/
structure CudaPassState (K : Type) where
  context : InferenceContext K
  cache : CudaKVCache K

/-! ## normalization -/

/-- the constructor -/
def RMSNorm.make (hiddenDimension : Nat) (epsilon : Binary32) : Except StdError RMSNorm := do
  throwIf (hiddenDimension = 0 ∨ epsilon.isFinite = false ∨ epsilon.notPositive = true)
    (.invalid_argument "RMSNorm configuration is invalid")
  return ⟨hiddenDimension, epsilon⟩

/-- `norm` came out of the constructor -/
def RMSNorm.Made (norm : RMSNorm) : Prop := make norm.hiddenDimension norm.epsilon = .ok norm

theorem RMSNorm.Made.accepted {norm : RMSNorm} (h : norm.Made) : norm.hiddenDimension ≠ 0 ∧
    norm.epsilon.isFinite = true ∧ norm.epsilon.notPositive = false := by
  obtain ⟨hchecked, -⟩ := throwIf_bind_eq_ok.mp h
  push Not at hchecked
  simpa using hchecked

variable [Field K]

def RMSNorm.executeCuda (N : Numerics K) (run : NormRun K) (norm : RMSNorm) (input : Grid K)
    (weight : List K) : Except StdError (Grid K) := do
  throwIf (input.columns ≠ norm.hiddenDimension ∨ weight.length ≠ norm.hiddenDimension)
    (.invalid_argument "RMSNorm requires compatible contiguous backend FP32 tensors")
  CudaTensorBackend.rmsNorm N run.order input weight
    (allocateTensor run.output input.rows input.columns) norm.epsilon

theorem RMSNorm.executeCuda_of_host {N : Numerics K} {norm : RMSNorm} {input g : Grid K}
    {weight : List K} (run : NormRun K) (hmade : norm.Made)
    (h : norm.execute N input weight = .ok g) (hrows : input.rows ≠ 0)
    (hcount : input.rows * input.columns < 2 ^ 31) :
    norm.executeCuda N run input weight = .ok g := by
  obtain ⟨hpositive, hfinite, hepsilon⟩ := hmade.accepted
  obtain ⟨⟨hcolumns, hweight⟩, rfl⟩ := RMSNorm.execute_eq_ok.mp h
  have hwide : 0 < input.columns := hcolumns ▸ Nat.pos_of_ne_zero hpositive
  have hwidth := Nat.le_mul_of_pos_left input.columns (Nat.pos_of_ne_zero hrows)
  have htall := Nat.le_mul_of_pos_right input.rows hwide
  refine throwIf_bind_eq_ok.mpr ⟨by push Not; exact ⟨hcolumns, hweight⟩, ?_⟩
  have hshape : (allocateTensor run.output input.rows input.columns).rows = input.rows ∧
      (allocateTensor run.output input.rows input.columns).columns = input.columns := ⟨rfl, rfl⟩
  rw [CudaTensorBackend.rmsNorm_eq hshape (hweight.trans hcolumns.symm) hfinite hepsilon
    (by unfold intMax; omega) (by omega)]
  refine congrArg Except.ok (Grid.ext_get rfl hcolumns fun row hrow column hcolumn => ?_)
  have hrow' : row < input.rows := hrow
  have hcolumn' : column < input.columns := hcolumn
  have hread : ∀ c < input.columns, (input.row row).getD c 0 = input.get row c := fun c hc =>
    Grid.getD_row hc
  have hsum : ∑ c ∈ Finset.range input.columns,
      (input.row row).getD c 0 * (input.row row).getD c 0 =
      ∑ c ∈ Finset.range input.columns, input.get row c * input.get row c :=
    Finset.sum_congr rfl fun c hc => by rw [hread c (Finset.mem_range.mp hc)]
  rw [Grid.get_generate _ hrow' hcolumn', ← hcolumns, Grid.get_mapRows _ hrow' hcolumn', rmsNormRow,
    ← hcolumns, Grid.getD_map_range _ hcolumn']
  simp only [hsum]
  rw [hread column hcolumn']

/-! ## one layer -/

namespace CudaTransformerBlock

variable [LinearOrder K]

def onCache {α : Type} (x : Fallible StdError (CudaKVCache K) α) :
    Fallible StdError (CudaPassState K) α :=
  Fallible.zoom CudaPassState.cache (fun cache s => { s with cache }) x

def onContext {α : Type} (x : Fallible StdError (InferenceContext K) α) :
    Fallible StdError (CudaPassState K) α :=
  Fallible.zoom CudaPassState.context (fun context s => { s with context }) x

def normalizeInput (N : Numerics K) (run : NormRun K) (block : TransformerBlock K)
    (inputNorm : Option (List K)) (hiddenStates : Grid K) : Except StdError (Grid K) :=
  inputNorm.elim (pure hiddenStates) (block.inputNormalization.executeCuda N run hiddenStates)

def addResidual (cublas : Cublas K) (residual : Nat → K) (inputNorm : Option (List K))
    (hiddenStates output : Grid K) : Except StdError (Grid K) :=
  inputNorm.elim (pure output) fun _ => CudaTensorBackend.add cublas hiddenStates output
    (allocateTensor residual hiddenStates.rows hiddenStates.columns)

def execute (cublas : Cublas K) (N : Numerics K) (mode : Int8GemmMode) (run : BlockRun K)
    (block : TransformerBlock K) (hiddenStates : Grid K) (weights : TransformerBlockWeights K) :
    Fallible StdError (CudaPassState K) (TransformerBlockResult K) := do
  let s ← read
  settle s.context.validate
  Fallible.throwIf (hiddenStates.rows ≠ s.context.batchSize ∨
      hiddenStates.columns ≠ s.context.hiddenDimension)
    (.invalid_argument "transformer block hidden states do not match inference context")
  let attentionInput ← settle
    (normalizeInput N run.inputNorm block weights.inputNorm hiddenStates)
  let attention ← onCache (CudaAttention.execute cublas N run.attention attentionInput
    weights.attention { weights.attentionConfiguration with
      layerIndex := s.context.layerIndex, positionOffset := s.context.sequencePosition })
  Fallible.throwIf (attention.output.rows ≠ hiddenStates.rows ∨
      attention.output.columns ≠ hiddenStates.columns)
    (.invalid_argument "attention output must preserve transformer hidden shape")
  let postAttentionInput ← settle
    (addResidual cublas run.residual weights.inputNorm hiddenStates attention.output)
  let normalized ← settle
    (block.normalization.executeCuda N run.norm postAttentionInput weights.norm)
  let moe ← settle (CudaMoERuntime.executeBatch cublas N mode run.moe block.moe.activation
    block.moe.weights block.moe.config s.context.layerIndex normalized weights.router)
  Fallible.throwIf (moe.output.rows ≠ postAttentionInput.rows ∨
      moe.output.columns ≠ postAttentionInput.columns)
    (.invalid_argument "MoE output is incompatible with residual input")
  let output ← settle (CudaTensorBackend.add cublas postAttentionInput moe.output
    (allocateTensor run.output postAttentionInput.rows postAttentionInput.columns))
  onContext (InferenceContext.recordRouting moe.routing)
  return { attentionInput, attention, postAttentionInput, normalized, moe, output }

/-- what the launches of a pass can count -/
structure Limits (block : TransformerBlock K) (weights : TransformerBlockWeights K)
    (layerId : LayerId) (rows width : Nat) : Prop where
  attention : ∀ layerIndex positionOffset configuration, CpuAttention.inferHeadDimension
    { weights.attentionConfiguration with layerIndex, positionOffset }
    weights.attention.query.columns = .ok configuration →
      CudaAttention.Limits configuration rows width
  moe : CudaMoERuntime.Limits block.moe.weights block.moe.config layerId rows width

/-- the same context, and caches that hold the same -/
structure SamePass (t : CudaPassState K) (s : PassState K) : Prop where
  context : t.context = s.context
  cache : Same s.cache t.cache

section
variable {cublas : Cublas K} {N : Numerics K} {mode : Int8GemmMode} {run : BlockRun K}
  {block : TransformerBlock K} {hiddenStates : Grid K} {weights : TransformerBlockWeights K}
  {s : PassState K} {t : CudaPassState K}

omit [LinearOrder K] in
theorem normalizeInput_of_host {inputNorm : Option (List K)} {g : Grid K} (norm : NormRun K)
    (hmade : block.inputNormalization.Made)
    (h : block.normalizeInput N inputNorm hiddenStates = .ok g) (hrows : hiddenStates.rows ≠ 0)
    (hcount : hiddenStates.rows * hiddenStates.columns < 2 ^ 31) :
    normalizeInput N norm block inputNorm hiddenStates = .ok g ∧ g.rows = hiddenStates.rows ∧
      g.columns = hiddenStates.columns := by
  cases inputNorm with
  | none =>
    obtain rfl := pure_eq_ok.mp h
    exact ⟨rfl, rfl, rfl⟩
  | some weight =>
    refine ⟨RMSNorm.executeCuda_of_host norm hmade h hrows hcount, ?_⟩
    obtain ⟨⟨hcolumns, -⟩, rfl⟩ := RMSNorm.execute_eq_ok.mp h
    exact ⟨rfl, hcolumns.symm⟩

omit [LinearOrder K] in
theorem addResidual_of_host {inputNorm : Option (List K)} {output g : Grid K} (residual : Nat → K)
    (hcublas : cublas.Documented)
    (h : TransformerBlock.addResidual inputNorm hiddenStates output = .ok g)
    (houtput : output.rows = hiddenStates.rows ∧ output.columns = hiddenStates.columns)
    (hcount : hiddenStates.rows * hiddenStates.columns < 2 ^ 31) :
    addResidual cublas residual inputNorm hiddenStates output = .ok g ∧
      g.rows = hiddenStates.rows ∧ g.columns = hiddenStates.columns := by
  cases inputNorm with
  | none =>
    obtain rfl := pure_eq_ok.mp h
    exact ⟨rfl, houtput⟩
  | some weight =>
    refine ⟨CudaTensorBackend.add_of_host hcublas h ⟨rfl, rfl⟩ (by unfold intMax; omega), ?_⟩
    obtain ⟨-, rfl⟩ := add_eq_ok.mp h
    exact ⟨rfl, rfl⟩

omit [Field K] [LinearOrder K] in
theorem onContext_replaces {α : Type} (x : Fallible StdError (InferenceContext K) α)
    (h : SamePass t s) : Replaces SamePass (onContext x) t (TransformerBlock.onContext x) s :=
  .zoom (Replaces.same x h.context) fun _ _ hcontext => ⟨hcontext, h.cache⟩

/-- The layer: with the same context and caches that hold the same, the device answers what the host
answers, and they are the same afterwards. -/
theorem block_replaces (hcublas : cublas.Documented)
    (hinput : block.inputNormalization.Made) (hpost : block.normalization.Made)
    (hcache : weights.attentionConfiguration.kvCache = true)
    (hlimits : Limits block weights s.context.layerIndex hiddenStates.rows hiddenStates.columns)
    (h : SamePass t s) :
    Replaces SamePass (execute cublas N mode run block hiddenStates weights) t
      (block.execute N hiddenStates weights) s := by
  unfold execute TransformerBlock.execute
  refine .read_bind ?_
  rw [h.context]
  refine .settle_bind fun _ hvalid => ⟨hvalid, .throwIf_bind fun hshape => ⟨hshape, ?_⟩⟩
  push Not at hshape
  obtain ⟨hbatch, -⟩ := throwIf_bind_eq_ok.mp hvalid
  push Not at hbatch
  have hrows : hiddenStates.rows ≠ 0 := hshape.1 ▸ hbatch.1
  have hcount := hlimits.moe.hidden
  refine .settle_bind fun attentionInput hnormalize => ?_
  obtain ⟨hnormalize', hinputRows, hinputColumns⟩ :=
    normalizeInput_of_host run.inputNorm hinput hnormalize hrows hcount
  refine ⟨hnormalize', Replaces.bind (Simulates.zoom (CudaAttention.execute_replaces hcublas hcache ?_ h.cache)
    fun d c hsame => SamePass.mk h.context hsame) fun attention t₁ s₁ _ hsame => ?_⟩
  · intro configuration hinfer
    rw [hinputRows, hinputColumns]
    exact hlimits.attention _ _ configuration hinfer
  · refine .throwIf_bind fun hattention => ⟨hattention, .settle_bind fun postAttentionInput hadd => ?_⟩
    push Not at hattention
    obtain ⟨hadd', hpostRows, hpostColumns⟩ :=
      addResidual_of_host run.residual hcublas hadd hattention hcount
    refine ⟨hadd', .settle_bind fun normalized hnormalized => ⟨RMSNorm.executeCuda_of_host run.norm
      hpost hnormalized (hpostRows ▸ hrows) (by rw [hpostRows, hpostColumns]; exact hcount), ?_⟩⟩
    have hshape' : normalized.rows = hiddenStates.rows ∧
        normalized.columns = hiddenStates.columns := by
      obtain ⟨⟨hcolumns, -⟩, rfl⟩ := RMSNorm.execute_eq_ok.mp hnormalized
      exact ⟨hpostRows, hcolumns.symm.trans hpostColumns⟩
    refine .settle_bind fun moe hmoe => ⟨?_, .throwIf_bind fun hresult => ⟨hresult,
      .settle_bind fun output hadd => ⟨?_, ?_⟩⟩⟩
    · refine CudaMoERuntime.executeBatch_of_host hcublas run.moe ?_ hmoe
      rw [hshape'.1, hshape'.2]
      exact hlimits.moe
    · refine CudaTensorBackend.add_of_host hcublas hadd ⟨rfl, rfl⟩ ?_
      rw [hpostRows, hpostColumns]
      unfold intMax
      omega
    · exact Replaces.bind (onContext_replaces _ hsame) fun _ _ _ _ hsame => Replaces.pure hsame _

/-- a layer keeps the shape of the hidden states -/
theorem shape_of_execute {r : TransformerBlockResult K} {s' : PassState K}
    (h : Gives (block.execute N hiddenStates weights) s r s') :
    r.output.rows = hiddenStates.rows ∧ r.output.columns = hiddenStates.columns := by
  unfold TransformerBlock.execute at h
  rw [Fallible.gives_read_bind, Fallible.gives_settle_bind] at h
  obtain ⟨-, -, h⟩ := h
  obtain ⟨-, h⟩ := Fallible.gives_throwIf_bind.mp h
  obtain ⟨attentionInput, -, h⟩ := Fallible.gives_settle_bind.mp h
  obtain ⟨attention, s₁, -, h⟩ := Fallible.gives_bind.mp h
  obtain ⟨hattention, h⟩ := Fallible.gives_throwIf_bind.mp h
  obtain ⟨postAttentionInput, hresidual, h⟩ := Fallible.gives_settle_bind.mp h
  obtain ⟨normalized, -, h⟩ := Fallible.gives_settle_bind.mp h
  obtain ⟨moe, -, h⟩ := Fallible.gives_settle_bind.mp h
  obtain ⟨-, h⟩ := Fallible.gives_throwIf_bind.mp h
  obtain ⟨output, hadd, h⟩ := Fallible.gives_settle_bind.mp h
  obtain ⟨_, s₂, -, h⟩ := Fallible.gives_bind.mp h
  obtain ⟨rfl, rfl⟩ := Fallible.gives_pure.mp h
  obtain ⟨-, rfl⟩ := add_eq_ok.mp hadd
  push Not at hattention
  cases hnorm : weights.inputNorm with
  | none =>
    rw [hnorm] at hresidual
    obtain rfl := pure_eq_ok.mp hresidual
    exact hattention
  | some weight =>
    rw [hnorm] at hresidual
    obtain ⟨-, rfl⟩ := add_eq_ok.mp hresidual
    exact ⟨rfl, rfl⟩

end

end CudaTransformerBlock

/-! ## all layers -/

namespace CudaModelRuntime
open CudaTransformerBlock (SamePass onContext)

variable [LinearOrder K]

def executeLayer (cublas : Cublas K) (N : Numerics K) (mode : Int8GemmMode)
    (run : LayerId → BlockRun K) (runtime : TransformerModelRuntime K) (layerId : LayerId)
    (tensors : LayerTensors K) (results : List (LayerExecution K) × Grid K) :
    Fallible StdError (CudaPassState K) (List (LayerExecution K) × Grid K) := do
  onContext (InferenceContext.advanceLayer layerId)
  let result ← CudaTransformerBlock.execute cublas N mode (run layerId) runtime.block results.2
    (TransformerModelRuntime.layerWeights runtime.architecture layerId true tensors)
  return (results.1 ++ [{
    layerId := layerId
    routing := result.moe.routing.tokens
    attentionOutput := result.attention.output
    expertOutputs := result.moe.expertOutputs
    output := result.output }], result.output)

/-- with the cache of the session -/
def executeImpl (cublas : Cublas K) (N : Numerics K) (mode : Int8GemmMode)
    (run : LayerId → BlockRun K) (runtime : TransformerModelRuntime K) (hiddenStates : Grid K) :
    Fallible StdError (CudaPassState K) (ModelExecutionResult K) := do
  let s ← read
  settle s.context.validate
  Fallible.throwIf (hiddenStates.rows ≠ s.context.batchSize ∨
      hiddenStates.columns ≠ runtime.architecture.hiddenDimension.toNat ∨
      s.context.hiddenDimension ≠ runtime.architecture.hiddenDimension.toNat)
    (.invalid_argument "model input and inference context do not match architecture")
  Fallible.throwIf (s.cache.layers.length ≠ runtime.architecture.layerCount.toNat ∨
        s.cache.keyValueHeads ≠ runtime.architecture.keyValueHeads.toNat ∨
        s.cache.headDimension ≠ runtime.architecture.headDimension.toNat)
    (.invalid_argument "model architecture and session KV cache disagree")
  let results ← Fallible.forEach (executeLayer cublas N mode run runtime) 0 ([], hiddenStates)
    runtime.layers
  return { layers := results.1, output := results.2 }

def run (cublas : Cublas K) (N : Numerics K) (mode : Int8GemmMode) (blocks : LayerId → BlockRun K)
    (runtime : TransformerModelRuntime K) (position : Nat) (hiddenStates : Grid K) :
    Fallible StdError (CudaKVCache K) (Grid K) := do
  let result ← Fallible.zoom
    (fun cache => ⟨TransformerModelRuntime.passContext runtime.architecture position hiddenStates,
      cache⟩) (fun s _ => s.cache) (executeImpl cublas N mode blocks runtime hiddenStates)
  return result.output

/-- what the launches of a pass can count, in every layer -/
structure Limits (runtime : TransformerModelRuntime K) (rows : Nat) : Prop where
  attention : CudaAttention.Limits (TransformerModelRuntime.attentionConfiguration
    runtime.architecture 0 true) rows runtime.architecture.hiddenDimension.toNat
  moe : ∀ layerId, CudaMoERuntime.Limits runtime.block.moe.weights runtime.block.moe.config layerId
    rows runtime.architecture.hiddenDimension.toNat

omit [Field K] [LinearOrder K] in
theorem Limits.mono {runtime : TransformerModelRuntime K} {rows r : Nat} (h : Limits runtime rows)
    (hpos : 0 < r) (hle : r ≤ rows) : Limits runtime r :=
  ⟨h.attention.mono hle, fun layerId => (h.moe layerId).mono hpos hle⟩

section
variable {cublas : Cublas K} {N : Numerics K} {mode : Int8GemmMode} {run : LayerId → BlockRun K}
  {runtime : TransformerModelRuntime K} {hiddenStates : Grid K} {s : PassState K}
  {t : CudaPassState K} {c : KVCache K} {d : CudaKVCache K}

theorem layer_replaces (hcublas : cublas.Documented)
    (hinput : runtime.block.inputNormalization.Made) (hpost : runtime.block.normalization.Made)
    {layerId : LayerId} {tensors : LayerTensors K} {results : List (LayerExecution K) × Grid K}
    (hcolumns : results.2.columns = runtime.architecture.hiddenDimension.toNat)
    (hlimits : Limits runtime results.2.rows) (h : SamePass t s) :
    Replaces SamePass (executeLayer cublas N mode run runtime layerId tensors results) t
      (runtime.executeLayer N true layerId tensors results) s := by
  unfold executeLayer TransformerModelRuntime.executeLayer
  refine Replaces.bind (CudaTransformerBlock.onContext_replaces _ h) fun _ t₁ s₁ hadvance hsame => ?_
  refine Replaces.bind (CudaTransformerBlock.block_replaces hcublas hinput hpost rfl ⟨?_, ?_⟩ hsame)
    fun _ _ _ _ hsame => Replaces.pure hsame _
  · intro layerIndex positionOffset configuration hinfer
    obtain rfl := Except.ok.inj
      ((if_neg (dimensions_of_accepted runtime).2 : _ = pure _).symm.trans hinfer)
    rw [hcolumns]
    exact ⟨hlimits.attention.query, hlimits.attention.keyValue, hlimits.attention.hidden,
      hlimits.attention.heads⟩
  · rw [hcolumns]
    exact hlimits.moe _

theorem shape_of_executeLayer {layerId : LayerId} {tensors : LayerTensors K}
    {results results' : List (LayerExecution K) × Grid K} {s' : PassState K}
    (h : Gives (runtime.executeLayer N true layerId tensors results) s results' s') :
    results'.2.rows = results.2.rows ∧ results'.2.columns = results.2.columns := by
  obtain ⟨r, hblock, rfl⟩ := gives_executeLayer.mp h
  exact CudaTransformerBlock.shape_of_execute hblock

theorem executeImpl_replaces (hcublas : cublas.Documented)
    (hinput : runtime.block.inputNormalization.Made) (hpost : runtime.block.normalization.Made)
    (hlimits : Limits runtime hiddenStates.rows) (h : SamePass t s) :
    Replaces SamePass (executeImpl cublas N mode run runtime hiddenStates) t
      (runtime.executeImpl N true hiddenStates) s := by
  unfold executeImpl TransformerModelRuntime.executeImpl
  refine .read_bind ?_
  rw [h.context]
  refine .settle_bind fun _ hvalid => ⟨hvalid, .throwIf_bind fun hshape => ⟨hshape,
    .throwIf_bind fun hkept => ⟨?_, Replaces.bind ?_ fun results _ _ _ hsame =>
      Replaces.pure hsame _⟩⟩⟩
  · push Not at hkept ⊢
    obtain ⟨hlayers, hheads, hdimension⟩ := hkept rfl
    exact ⟨h.cache.length.trans hlayers, h.cache.keyValueHeads.trans hheads,
      h.cache.headDimension.trans hdimension⟩
  · push Not at hshape
    refine Replaces.forEach (fun results => results.2.rows = hiddenStates.rows ∧
      results.2.columns = runtime.architecture.hiddenDimension.toNat) ?_ ?_ 0 ⟨rfl, hshape.2.1⟩ h
    · rintro layerId tensors results t s - ⟨hrows, hcolumns⟩ hsame
      exact layer_replaces hcublas hinput hpost hcolumns (hrows ▸ hlimits) hsame
    · rintro layerId tensors results s results' s' - ⟨hrows, hcolumns⟩ hgives
      obtain ⟨hrows', hcolumns'⟩ := shape_of_executeLayer hgives
      exact ⟨hrows'.trans hrows, hcolumns'.trans hcolumns⟩

theorem run_replaces (hcublas : cublas.Documented) {blocks : LayerId → BlockRun K}
    (hinput : runtime.block.inputNormalization.Made) (hpost : runtime.block.normalization.Made)
    (position : Nat) (hlimits : Limits runtime hiddenStates.rows) (h : Same c d) :
    Replaces (fun d c => Same c d) (CudaModelRuntime.run cublas N mode blocks runtime position
      hiddenStates) d (runtime.run N position hiddenStates) c := by
  unfold CudaModelRuntime.run TransformerModelRuntime.run
  exact Replaces.bind (R := fun d c => Same c d) (Simulates.zoom
    (executeImpl_replaces hcublas hinput hpost hlimits ⟨rfl, h⟩) fun _ _ hsame => hsame.cache)
      fun result _ _ _ hsame => Replaces.pure (R := fun d c => Same c d) hsame _

end

end CudaModelRuntime

/-! ## a session -/

/-- what is done with a cache: passes from positions that the caller chooses, and calls between them;
`blocks` is what the device does in a pass -/
inductive SessionStep (K : Type) where
  | pass (position : Nat) (hiddenStates : Grid K) (blocks : LayerId → BlockRun K)
  | call (request : Call K)

/-- the hidden states of a pass, or what a call returns -/
abbrev SessionAnswer (K : Type) := Grid K ⊕ Option (KVCacheSnapshot K)

section
variable [LinearOrder K] {cublas : Cublas K} {N : Numerics K} {mode : Int8GemmMode}
  {runtime : TransformerModelRuntime K} {c : KVCache K} {d : CudaKVCache K}

def SessionStep.onHost (N : Numerics K) (runtime : TransformerModelRuntime K) :
    SessionStep K → Fallible StdError (KVCache K) (SessionAnswer K)
  | .pass position hiddenStates _ => do return .inl (← runtime.run N position hiddenStates)
  | .call request => do return .inr (← KVCache.perform request)

def SessionStep.onDevice (cublas : Cublas K) (N : Numerics K) (mode : Int8GemmMode)
    (runtime : TransformerModelRuntime K) :
    SessionStep K → Fallible StdError (CudaKVCache K) (SessionAnswer K)
  | .pass position hiddenStates blocks => do
    return .inl (← CudaModelRuntime.run cublas N mode blocks runtime position hiddenStates)
  | .call request => do return .inr (← CudaKVCache.perform request)

/-- the answers of all steps; the first that throws ends it -/
def session {σ : Type} (perform : SessionStep K → Fallible StdError σ (SessionAnswer K))
    (steps : List (SessionStep K)) : Fallible StdError σ (List (SessionAnswer K)) :=
  Fallible.forEach (fun _ step answers => do return answers ++ [← perform step]) 0 [] steps

/-- the passes are not too long for the launches -/
def SessionStep.Within (runtime : TransformerModelRuntime K) : SessionStep K → Prop
  | .pass _ hiddenStates _ => CudaModelRuntime.Limits runtime hiddenStates.rows
  | .call _ => True

omit [Field K] [LinearOrder K] in
theorem perform_replaces (h : Same c d) (call : Call K) : Replaces (fun d c => Same c d)
    (CudaKVCache.perform call) d (KVCache.perform call) c := by
  intro a c' hx
  have hagree := agree_perform h call
  unfold Agree at hagree
  rw [show (KVCache.perform call).exec c = (.ok a, c') from hx] at hagree
  cases hy : (CudaKVCache.perform call).exec d with
  | mk r d' =>
    rw [hy] at hagree
    cases r with
    | ok b =>
      obtain ⟨rfl, hsame⟩ := hagree
      exact ⟨_, d', hy, rfl, hsame⟩
    | error e => exact hagree.elim

theorem step_replaces (hcublas : cublas.Documented)
    (hinput : runtime.block.inputNormalization.Made) (hpost : runtime.block.normalization.Made)
    {step : SessionStep K} (hwithin : step.Within runtime) (h : Same c d) :
    Replaces (fun d c => Same c d) (step.onDevice cublas N mode runtime) d
      (step.onHost N runtime) c := by
  cases step with
  | pass position hiddenStates blocks =>
    exact Replaces.bind (f := fun g => do return Sum.inl g) (g := fun g => do return Sum.inl g)
      (CudaModelRuntime.run_replaces hcublas hinput hpost position hwithin h)
      fun _ _ _ _ hsame => Replaces.pure (R := fun d c => Same c d) hsame _
  | call request =>
    exact Replaces.bind (f := fun a => do return Sum.inr a) (g := fun a => do return Sum.inr a)
      (perform_replaces h request) fun _ _ _ _ hsame =>
      Replaces.pure (R := fun d c => Same c d) hsame _

/-- Caches that were made alike: what the host answers in a session, the device answers, whatever new
tensors hold and in whatever order the threads come; and the caches hold the same afterwards. -/
theorem session_of_host (hcublas : cublas.Documented)
    (hinput : runtime.block.inputNormalization.Made) (hpost : runtime.block.normalization.Made)
    {available : Bool} {layers sequence heads dimension : Nat}
    (hc : KVCache.make K layers sequence heads dimension = .ok c)
    (hd : CudaKVCache.make K available layers sequence heads dimension = .ok d)
    {steps : List (SessionStep K)} (hsteps : ∀ step ∈ steps, step.Within runtime)
    {answers : List (SessionAnswer K)} {c' : KVCache K}
    (h : Gives (session (SessionStep.onHost N runtime) steps) c answers c') :
    ∃ d', Gives (session (SessionStep.onDevice cublas N mode runtime) steps) d answers d' ∧
      SameCache c' d' := by
  have hreplaces : Replaces (fun d c => Same c d)
      (session (SessionStep.onDevice cublas N mode runtime) steps) d
      (session (SessionStep.onHost N runtime) steps) c := by
    refine .forEach (fun _ => True) ?_ (fun _ _ _ _ _ _ _ _ _ => trivial) 0 trivial (same_make hc hd)
    intro _ step answers d c hstep _ hsame
    exact Replaces.bind (step_replaces hcublas hinput hpost (hsteps step hstep) hsame)
      fun _ _ _ _ hsame => Replaces.pure (R := fun d c => Same c d) hsame _
  obtain ⟨_, d', hdevice, rfl, hsame⟩ := hreplaces answers c' h
  exact ⟨d', hdevice, hsame.sameCache⟩

end

/-! Two passes of a small model, and a look at its cache. -/

def smallSession : List (SessionStep ℚ) :=
  [.pass 0 ⟨1, 2, [1, 2], length_smallGate⟩ default, .pass 1 ⟨2, 2, [0, 1, 3, 1], rfl⟩ default,
    .call (.snapshot 0)]

def smallCudaCache : CudaKVCache ℚ where
  maximumSequenceLength := 4
  keyValueHeads := 1
  headDimension := 2
  layers := [{}]

theorem multiplies_small {rows inner columns : Nat} (hrows : 0 < rows ∧ rows ≤ 4)
    (hinner : 0 < inner ∧ inner ≤ 2) (hcolumns : 0 < columns ∧ columns ≤ 2) :
    Multiplies rows inner columns where
  rows_pos := hrows.1
  inner_pos := hinner.1
  columns_pos := hcolumns.1
  output := (Nat.mul_le_mul hrows.2 hcolumns.2).trans_lt (by decide)
  left := (Nat.mul_le_mul hrows.2 hinner.2).trans_lt (by decide)
  right := (Nat.mul_le_mul hinner.2 hcolumns.2).trans_lt (by decide)

theorem within_smallModel {rows : Nat} (hpos : 0 < rows) (hrows : rows ≤ 4) :
    CudaModelRuntime.Limits smallModel rows where
  attention := by
    refine ⟨?_, ?_, ?_, ?_⟩
    · show rows * (1 * 2) < 2 ^ 31
      omega
    · show rows * (1 * 2) < 2 ^ 31
      omega
    · show rows * 2 < 2 ^ 31
      omega
    · show 1 ≤ 65535
      omega
  moe layerId := by
    refine ⟨?_, ?_, ?_⟩
    · show rows * 2 < 2 ^ 31
      omega
    · show rows * 1 < 2 ^ 31
      omega
    · intro expertId binding hbinding
      obtain rfl := Option.some.inj hbinding
      exact ⟨multiplies_small ⟨hpos, hrows⟩ (by decide) (by decide),
        multiplies_small ⟨hpos, hrows⟩ (by decide) (by decide),
        multiplies_small ⟨hpos, hrows⟩ (by decide) (by decide)⟩

theorem session_of_host_small : ∃ answers c' d',
    Gives (session (SessionStep.onHost HyperMoE.Runtime.smallNumerics smallModel) smallSession)
      smallCache answers c' ∧
    Gives (session (SessionStep.onDevice Cublas.elementwise HyperMoE.Runtime.smallNumerics .Reference
      smallModel) smallSession) smallCudaCache answers d' ∧ SameCache c' d' := by
  have hok : ((session (SessionStep.onHost HyperMoE.Runtime.smallNumerics smallModel)
      smallSession).exec smallCache).1.isOk = true := by
    decide +kernel
  cases hexec : (session (SessionStep.onHost HyperMoE.Runtime.smallNumerics smallModel)
      smallSession).exec smallCache with
  | mk r c' =>
    rw [hexec] at hok
    cases r with
    | error e => exact nomatch hok
    | ok answers =>
      have hsteps : ∀ step ∈ smallSession, step.Within smallModel := by
        intro step hstep
        simp only [smallSession, List.mem_cons, List.not_mem_nil, or_false] at hstep
        obtain rfl | rfl | rfl := hstep
        · exact within_smallModel (by decide) (by decide)
        · exact within_smallModel (by decide) (by decide)
        · trivial
      have hinput : smallModel.block.inputNormalization.Made := rfl
      have hpost : smallModel.block.normalization.Made := rfl
      obtain ⟨d', hdevice, hsame⟩ := session_of_host Cublas.documented_elementwise hinput hpost
        (show KVCache.make ℚ 1 4 1 2 = .ok smallCache from rfl)
        (show CudaKVCache.make ℚ true 1 4 1 2 = .ok smallCudaCache from rfl) hsteps hexec
      exact ⟨answers, c', d', hexec, hdevice, hsame⟩

end HyperMoE.Transformer
