import HyperMoE.Lib.Simulation
import HyperMoE.Tensor.CudaTensorBackend
import HyperMoE.Transformer.AttentionKernel
import HyperMoE.Transformer.AttentionRows
import HyperMoE.Transformer.CacheRefinement

/-!
# Attention on the device

`CudaAttention.cpp` with the kernels of this repository: the steps of the reference, each as a call
of cuBLAS or as a launch, and the keys and values in the cache of the device.

* `AttentionRun`           what the device is free in;
* `deviceSnapshot`         the tensors of a layer, as the kernel reads them;
* `CudaAttention.execute`  the whole;
* `Projects.of_host`, `remember_of_host`, `attend_of_host`   the three parts;
* `execute_replaces`       device and host.
-/

namespace HyperMoE.Transformer

open Lib Lib.Outcome Lib.Extended Tensor Backend
open CudaTensorBackend (Order allocateTensor written intMax)

variable {K : Type}

/-! ## the cache -/

/-- `CudaKVDeviceSnapshot`: views of what is in use of a layer -/
structure CudaKVDeviceSnapshot (K : Type) where
  keys : HeadView K
  values : HeadView K
  firstPosition : Nat

/-- the view of a slice that was just taken, which is as long as it was asked for -/
def sliceView (tokens heads dimension : Nat) (values : List K) : Except StdError (HeadView K) :=
  if h : values.length = tokens * heads * dimension then
    .ok ⟨tokens, heads, dimension, values, h⟩
  else .error (.out_of_range "tensor view slice exceeds storage")

def CudaKVCache.deviceSnapshot (layer : Nat) :
    Fallible StdError (CudaKVCache K) (CudaKVDeviceSnapshot K) := do
  let c ← Fallible.read
  Fallible.throwIf (layer ≥ c.layers.length) (.out_of_range "CUDA KV cache layer is invalid")
  let s := c.storage layer
  Fallible.throwIf (s.tokens = 0) (.logic_error "CUDA KV cache layer has no device snapshot")
  let count := s.tokens * c.keyValueHeads * c.headDimension
  let keys ← Fallible.settle (CudaKVCache.copyFrom s.keys 0 count)
  let keys ← Fallible.settle (sliceView s.tokens c.keyValueHeads c.headDimension keys)
  let values ← Fallible.settle (CudaKVCache.copyFrom s.values 0 count)
  let values ← Fallible.settle (sliceView s.tokens c.keyValueHeads c.headDimension values)
  return ⟨keys, values, s.firstPosition⟩

namespace CudaAttention

/-! ## the device -/

/-- the blocks of `dim3(tokens, heads)`, in the order in which they come -/
structure BlockOrder where
  blocks : Nat → Nat → List (Nat × Nat)
  perm : ∀ tokens heads,
    (blocks tokens heads).Perm ((List.range tokens).product (List.range heads))

instance : Inhabited BlockOrder := ⟨⟨_, fun _ _ => .refl _⟩⟩

instance {K : Type} [Inhabited K] : Inhabited (Fresh K) := ⟨⟨default, default⟩⟩

theorem BlockOrder.nodup (order : BlockOrder) (tokens heads : Nat) :
    (order.blocks tokens heads).Nodup :=
  (order.perm tokens heads).nodup_iff.mpr (List.nodup_range.product List.nodup_range)

theorem BlockOrder.mem (order : BlockOrder) {tokens heads row head : Nat} (hrow : row < tokens)
    (hhead : head < heads) : (row, head) ∈ order.blocks tokens heads :=
  (order.perm tokens heads).mem_iff.mpr
    (List.mem_product.mpr ⟨List.mem_range.mpr hrow, List.mem_range.mpr hhead⟩)

/-- what new tensors hold, and the orders of the launches -/
structure AttentionRun (K : Type) where
  query : Nat → K
  key : Nat → K
  value : Nat → K
  normalizedQuery : Nat → K
  normalizedKey : Nat → K
  scores : Nat → Extended K
  probabilities : Nat → Extended K
  context : Nat → K
  output : Nat → K
  queryNorm : Order
  keyNorm : Order
  queryRotation : Order
  keyRotation : Order
  blocks : BlockOrder
  /-- what new tensors of the cache hold -/
  fresh : Fresh K
  deriving Inhabited

/-! ## the steps -/

/-- `view.reshape({rows, columns})` of a matrix -/
def reshapeMatrix (g : Grid K) (rows columns : Nat) : Except StdError (Grid K) :=
  if h : g.rows * g.columns = rows * columns then .ok ⟨rows, columns, g.values, g.sized.trans h⟩
  else .error (.invalid_argument "reshape must preserve the element count")

def inferHeadDimension (requested : AttentionConfiguration) (queryColumns : Nat) :
    Except StdError AttentionConfiguration :=
  if requested.headDimension = 0 then
    if requested.headCount = 0 ∨ queryColumns % requested.headCount ≠ 0 then
      throw (.invalid_argument "CUDA attention cannot infer head dimension")
    else pure { requested with headDimension := queryColumns / requested.headCount }
  else pure requested

def checkHeads (configuration : AttentionConfiguration) : Except StdError Unit :=
  throwIf (configuration.headCount = 0 ∨ configuration.keyValueHeadCount = 0 ∨
      configuration.headDimension = 0 ∨
      configuration.headCount % configuration.keyValueHeadCount ≠ 0 ∨
      configuration.headCount > maxSize / configuration.headDimension ∨
      configuration.keyValueHeadCount > maxSize / configuration.headDimension)
    (.invalid_argument "CUDA attention head configuration is invalid")

/-- the two products may wrap -/
def checkProjections (hidden : Grid K) (weights : AttentionWeights K)
    (configuration : AttentionConfiguration) (queryWidth keyValueWidth : Nat) :
    Except StdError Unit :=
  throwIf (weights.query.rows ≠ hidden.columns ∨ weights.query.columns ≠ queryWidth ∨
      weights.key.rows ≠ hidden.columns ∨ weights.key.columns ≠ keyValueWidth ∨
      weights.value.rows ≠ weights.key.rows ∨ weights.value.columns ≠ weights.key.columns ∨
      weights.output.rows ≠ queryWidth ∨ weights.output.columns ≠ hidden.columns ∨
      configuration.ropeTheta.isFinite = false ∨ configuration.ropeTheta.notPositive = true ∨
      configuration.positionOffset > maxSize)
    (.invalid_argument "CUDA attention projections are incompatible")

variable [Field K]

/-- a tensor with its heads as rows, normalized, and back -/
def normalizeTensor (N : Numerics K) (order : Order) (memory : Nat → K) (values : Grid K)
    (headCount dimension : Nat) (weight : List K) (epsilon : Binary32) :
    Except StdError (Grid K) := do
  let rows ← reshapeMatrix values (values.rows * headCount) dimension
  let output ← reshapeMatrix (allocateTensor memory values.rows values.columns)
    (values.rows * headCount) dimension
  let normalized ← CudaTensorBackend.rmsNorm N order rows weight output epsilon
  reshapeMatrix normalized values.rows values.columns

def normalizeHeads (N : Numerics K) (run : AttentionRun K) (weights : AttentionWeights K)
    (configuration : AttentionConfiguration) (query key : Grid K) :
    Except StdError (Grid K × Grid K) :=
  match weights.queryNorm, weights.keyNorm with
  | none, none => pure (query, key)
  | some queryNorm, some keyNorm => do
    throwIf (queryNorm.length ≠ configuration.projectionHeadDimension ∨
        keyNorm.length ≠ configuration.projectionHeadDimension ∨
        configuration.queryKeyNormEpsilon.isFinite = false ∨
        configuration.queryKeyNormEpsilon.notPositive = true)
      (.invalid_argument "CUDA attention Q/K normalization is incompatible")
    let query ← normalizeTensor N run.queryNorm run.normalizedQuery query configuration.headCount
      configuration.projectionHeadDimension queryNorm configuration.queryKeyNormEpsilon
    let key ← normalizeTensor N run.keyNorm run.normalizedKey key configuration.keyValueHeadCount
      configuration.projectionHeadDimension keyNorm configuration.queryKeyNormEpsilon
    return (query, key)
  | _, _ => throw
      (.invalid_argument "CUDA attention requires both query and key normalization weights")

def rotate (N : Numerics K) (run : AttentionRun K) (configuration : AttentionConfiguration)
    (tokenCount : Nat) (query key : Grid K) : Except StdError (Grid K × Grid K) :=
  if configuration.rotaryEmbedding then do
    let query ← CudaTensorBackend.applyRoPE N run.queryRotation query tokenCount
      configuration.headCount configuration.headDimension configuration.positionOffset
      configuration.ropeTheta
    let key ← CudaTensorBackend.applyRoPE N run.keyRotation key tokenCount
      configuration.keyValueHeadCount configuration.headDimension configuration.positionOffset
      configuration.ropeTheta
    return (query, key)
  else pure (query, key)

/-- from the hidden states to query, key and value -/
def project (cublas : Cublas K) (N : Numerics K) (run : AttentionRun K) (hidden : Grid K)
    (weights : AttentionWeights K) (configuration : AttentionConfiguration) :
    Except StdError (Grid K × Grid K × Grid K) := do
  checkHeads configuration
  let queryWidth := configuration.headCount * configuration.projectionHeadDimension % 2 ^ 64
  let keyValueWidth :=
    configuration.keyValueHeadCount * configuration.projectionHeadDimension % 2 ^ 64
  checkProjections hidden weights configuration queryWidth keyValueWidth
  let query ← CudaTensorBackend.matmul cublas hidden weights.query
    (allocateTensor run.query hidden.rows queryWidth)
  let key ← CudaTensorBackend.matmul cublas hidden weights.key
    (allocateTensor run.key hidden.rows keyValueWidth)
  let value ← CudaTensorBackend.matmul cublas hidden weights.value
    (allocateTensor run.value hidden.rows keyValueWidth)
  let heads ← normalizeHeads N run weights configuration query key
  let heads ← rotate N run configuration hidden.rows heads.1 heads.2
  return (heads.1, heads.2, value)

omit [Field K] in
/-- the keys and values that the kernel is given -/
def remember (run : AttentionRun K) (configuration : AttentionConfiguration) (key value : Grid K) :
    Fallible StdError (CudaKVCache K) (CudaKVDeviceSnapshot K) := do
  let keys ← Fallible.settle
    (reshape key key.rows configuration.keyValueHeadCount configuration.headDimension)
  let values ← Fallible.settle
    (reshape value value.rows configuration.keyValueHeadCount configuration.headDimension)
  if configuration.kvCache then do
    let c ← Fallible.read
    Fallible.throwIf (c.keyValueHeads ≠ configuration.keyValueHeadCount ∨
        c.headDimension ≠ configuration.headDimension)
      (.invalid_argument "native CUDA attention requires a compatible CUDA KV cache")
    CudaKVCache.append configuration.layerIndex configuration.positionOffset keys values run.fresh
    CudaKVCache.deviceSnapshot configuration.layerIndex
  else return ⟨keys, values, configuration.positionOffset⟩

omit [Field K] in
def attentionArguments (configuration : AttentionConfiguration) (cached : CudaKVDeviceSnapshot K)
    (query : Grid K) : AttentionArguments K where
  query := query.values
  key := cached.keys.values
  value := cached.values.values
  queryTokens := query.rows
  keyTokens := cached.keys.tokens
  queryHeads := configuration.headCount
  keyValueHeads := configuration.keyValueHeadCount
  headDimension := configuration.headDimension
  queryPositionOffset := configuration.positionOffset
  keyPositionOffset := cached.firstPosition
  causal := configuration.causal

/-- the largest `gridDim.y` -/
def maxGridY : Nat := 65535

omit [Field K] in
/-- the buffers of the kernel, as they were allocated -/
def attentionBuffers (run : AttentionRun K) (configuration : AttentionConfiguration)
    (keyTokens : Nat) (query : Grid K) : AttentionBuffers K where
  scores := (List.range (configuration.headCount * query.rows * keyTokens)).map run.scores
  probabilities :=
    (List.range (configuration.headCount * query.rows * keyTokens)).map run.probabilities
  context := (allocateTensor run.context query.rows query.columns).values

variable [LinearOrder K]

/-- `CudaTensorBackend::causalAttention`, with the tensors that `execute` gives it -/
def causalAttention (N : Numerics K) (run : AttentionRun K) (configuration : AttentionConfiguration)
    (cached : CudaKVDeviceSnapshot K) (query : Grid K) : Except StdError (Grid K) := do
  let expectedQueryWidth ← CudaTensorBackend.checkedProduct configuration.headCount
    configuration.headDimension "CUDA attention query"
  let keys := cached.keys
  let values := cached.values
  throwIf (values.tokens ≠ keys.tokens ∨ values.heads ≠ keys.heads ∨
      values.dimension ≠ keys.dimension ∨ configuration.headCount = 0 ∨
      configuration.keyValueHeadCount = 0 ∨ configuration.headDimension = 0 ∨
      configuration.headCount % configuration.keyValueHeadCount ≠ 0 ∨ query.rows > 2 ^ 32 - 1 ∨
      configuration.headCount > 2 ^ 32 - 1 ∨ query.columns ≠ expectedQueryWidth ∨
      keys.heads ≠ configuration.keyValueHeadCount ∨ keys.dimension ≠ configuration.headDimension ∨
      configuration.positionOffset > maxSize - query.rows ∨
      cached.firstPosition > maxSize - keys.tokens ∨
      (configuration.causal = true ∧ configuration.positionOffset < cached.firstPosition))
    (.invalid_argument "CUDA attention tensor metadata is incompatible")
  let buffers := if configuration.headCount > maxGridY then none else
    launch (causalAttentionKernel N (attentionArguments configuration cached query))
      (run.blocks.blocks query.rows configuration.headCount)
      (attentionBuffers run configuration keys.tokens query)
  written "CUDA causal attention kernel" query.rows query.columns
    (buffers.map AttentionBuffers.context)

def execute (cublas : Cublas K) (N : Numerics K) (run : AttentionRun K) (hidden : Grid K)
    (weights : AttentionWeights K) (requested : AttentionConfiguration) :
    Fallible StdError (CudaKVCache K) (AttentionResult K) := do
  let configuration ← Fallible.settle (inferHeadDimension requested weights.query.columns)
  let (query, key, value) ← Fallible.settle (project cublas N run hidden weights configuration)
  let cached ← remember run configuration key value
  let context ← Fallible.settle (causalAttention N run configuration cached query)
  let output ← Fallible.settle (CudaTensorBackend.matmul cublas context weights.output
    (allocateTensor run.output hidden.rows hidden.columns))
  return { query, key, value, context, output }

/-! ## heads as rows -/

section
variable {N : Numerics K} {order : Order} {values g : Grid K} {headCount dimension position : Nat}

omit [Field K] [LinearOrder K] in
theorem reshapeMatrix_eq {rows columns : Nat} (h : g.rows * g.columns = rows * columns) :
    reshapeMatrix g rows columns = .ok ⟨rows, columns, g.values, g.sized.trans h⟩ :=
  dif_pos h

omit [LinearOrder K] in
/-- the heads of a tensor are its rows, one after another -/
theorem get_heads {rows : Nat} (hcolumns : g.columns = headCount * dimension)
    (hsized : g.values.length = rows * dimension) (r head feature : Nat) :
    (⟨rows, dimension, g.values, hsized⟩ : Grid K).get (r * headCount + head) feature =
      g.get r (head * dimension + feature) := by
  show g.values.getD ((r * headCount + head) * dimension + feature) 0 = _
  rw [Grid.get, hcolumns, Nat.add_mul, Nat.mul_assoc, Nat.add_assoc]

omit [LinearOrder K] in
theorem reshape_generate {rows : Nat} (hcolumns : g.columns = headCount * dimension)
    (f : Nat → Nat → K) :
    reshapeMatrix (Grid.generate (rows * headCount) dimension f) rows g.columns =
      .ok (Grid.generate rows (headCount * dimension) fun r c =>
        f (r * headCount + c / dimension) (c % dimension)) := by
  have hsized : rows * headCount * dimension = rows * g.columns := by rw [hcolumns, Nat.mul_assoc]
  refine (reshapeMatrix_eq (g := Grid.generate (rows * headCount) dimension f) hsized).trans
    (congrArg _ (Grid.ext_get rfl hcolumns fun r hr c hc => ?_))
  have hr' : r < rows := hr
  have hc' : c < headCount * dimension := hcolumns ▸ hc
  have hpos : 0 < dimension := Nat.pos_of_mul_pos_left (Nat.zero_lt_of_lt hc')
  have hhead : c / dimension < headCount := (Nat.div_lt_iff_lt_mul hpos).mpr hc'
  have hback := get_heads (g := ⟨rows, g.columns, (Grid.generate (rows * headCount) dimension f).values,
    (Grid.generate (rows * headCount) dimension f).sized.trans hsized⟩) hcolumns
    (Grid.generate (rows * headCount) dimension f).sized r (c / dimension) (c % dimension)
  rw [Nat.div_add_mod'] at hback
  rw [Grid.get_generate _ hr' hc', ← hback]
  exact Grid.get_generate f (Grid.address_lt hr' hhead) (Nat.mod_lt c hpos)

omit [LinearOrder K] in
theorem normalizeTensor_of_host {memory : Nat → K} {weight : List K} {epsilon : Binary32}
    (h : applyHeadRmsNorm N values weight headCount dimension epsilon = .ok g)
    (hcolumns : values.columns = headCount * dimension) (hrows : values.rows * headCount < 2 ^ 31)
    (hdimension : dimension ≤ intMax) :
    normalizeTensor N order memory values headCount dimension weight epsilon = .ok g := by
  obtain ⟨⟨hweight, hfinite, hpositive⟩, rfl⟩ := applyHeadRmsNorm_eq_ok.mp h
  have hsized : values.rows * values.columns = values.rows * headCount * dimension := by
    rw [hcolumns, Nat.mul_assoc]
  refine bind_eq_ok.mpr ⟨_, reshapeMatrix_eq hsized, bind_eq_ok.mpr
    ⟨⟨_, _, _, _⟩, reshapeMatrix_eq (g := allocateTensor memory values.rows values.columns) hsized,
      bind_eq_ok.mpr ⟨_, CudaTensorBackend.rmsNorm_eq ⟨rfl, rfl⟩ hweight hfinite hpositive
        hdimension hrows, (reshape_generate hcolumns _).trans
          (congrArg _ (Grid.ext_get rfl rfl fun r hr c hc => ?_))⟩⟩⟩
  have hr' : r < values.rows := hr
  have hc' : c < headCount * dimension := hc
  have hpos : 0 < dimension := Nat.pos_of_mul_pos_left (Nat.zero_lt_of_lt hc')
  have hhead : c / dimension < headCount := (Nat.div_lt_iff_lt_mul hpos).mpr hc'
  have hrow : ∀ feature < dimension, (values.row r).getD (c / dimension * dimension + feature) 0 =
      values.get r (c / dimension * dimension + feature) := fun feature hfeature =>
    Grid.getD_row (hcolumns ▸ Grid.address_lt hhead hfeature)
  have hsum : ∑ feature ∈ Finset.range dimension,
      (values.row r).getD (c / dimension * dimension + feature) 0 *
        (values.row r).getD (c / dimension * dimension + feature) 0 =
      ∑ feature ∈ Finset.range dimension, values.get r (c / dimension * dimension + feature) *
        values.get r (c / dimension * dimension + feature) :=
    Finset.sum_congr rfl fun feature hfeature => by rw [hrow feature (Finset.mem_range.mp hfeature)]
  rw [Grid.get_mapRows _ hr' hc', headRmsNormRow, Grid.getD_map_range _ hc',
    Grid.get_generate _ hr' hc']
  simp only [get_heads hcolumns, hsum]
  rw [Nat.div_add_mod', Grid.getD_row (hcolumns ▸ hc')]

/-! ## pairs of a row -/

omit [LinearOrder K] in
theorem ropeValue_eq (theta : Binary32) (heven : dimension % 2 = 0)
    (hcolumns : values.columns = headCount * dimension) {r c : Nat} (hc : c < headCount * dimension) :
    ropeValue N theta headCount dimension position values.values (r * (headCount * dimension) + c) =
      (ropeRow N theta headCount dimension (position + r) (values.row r)).getD c 0 := by
  have hpos : 0 < dimension := Nat.pos_of_mul_pos_left (Nat.zero_lt_of_lt hc)
  have hhead : c / dimension < headCount := (Nat.div_lt_iff_lt_mul hpos).mpr hc
  have hfeature : c % dimension < dimension := Nat.mod_lt c hpos
  have hhalf : c % dimension / 2 < dimension / 2 := by omega
  -- the pair, counted from the first of the tensor
  have haddress : r * (headCount * dimension) + c =
      (r * headCount + c / dimension) * (dimension / 2) * 2 + c % dimension := by
    rw [Nat.mul_assoc _ (dimension / 2), show dimension / 2 * 2 = dimension by omega, Nat.add_mul,
      Nat.mul_assoc r, Nat.add_assoc, Nat.div_add_mod']
  have hpair : (r * (headCount * dimension) + c) / 2 =
      (r * headCount + c / dimension) * (dimension / 2) + c % dimension / 2 := by omega
  have hbase : (r * (headCount * dimension) + c) / 2 * 2 = r * values.columns +
      (c / dimension * dimension + (c % dimension - c % dimension % 2)) := by
    have hdiv := Nat.div_add_mod' c dimension
    rw [hcolumns]
    omega
  have hbound : c / dimension * dimension + (c % dimension - c % dimension % 2) + 1 <
      values.columns := by
    rw [hcolumns, Nat.add_assoc]
    exact Grid.address_lt hhead (by omega)
  have hfirst : values.values.getD ((r * (headCount * dimension) + c) / 2 * 2) 0 =
      (values.row r).getD (c / dimension * dimension + (c % dimension - c % dimension % 2)) 0 := by
    rw [hbase, Grid.getD_row (Nat.lt_of_succ_lt hbound)]
    rfl
  have hsecond : values.values.getD ((r * (headCount * dimension) + c) / 2 * 2 + 1) 0 =
      (values.row r).getD (c / dimension * dimension + (c % dimension - c % dimension % 2) + 1) 0 := by
    rw [hbase, Grid.getD_row hbound]
    rfl
  have hdimension : (r * (headCount * dimension) + c) / 2 % (dimension / 2) * 2 =
      c % dimension - c % dimension % 2 := by
    rw [hpair, Grid.address_mod _ hhalf]
    omega
  have htoken : (r * (headCount * dimension) + c) / 2 / (dimension / 2) / headCount = r := by
    rw [hpair, Grid.address_div _ hhalf, Grid.address_div _ hhead]
  have hside : (r * (headCount * dimension) + c) % 2 = c % dimension % 2 := by omega
  unfold ropeValue
  rw [ropeRow, Grid.getD_map_range _ hc, hfirst, hsecond, hdimension, htoken, hside]

omit [LinearOrder K] in
theorem applyRoPE_of_host {theta : Binary32}
    (h : applyRoPE N theta values headCount dimension position = .ok g)
    (hcount : values.rows * (headCount * dimension) < 2 ^ 31) :
    CudaTensorBackend.applyRoPE N order values values.rows headCount dimension position theta =
      .ok g := by
  obtain ⟨⟨htheta, hshape⟩, rfl⟩ := applyRoPE_eq_ok.mp h
  push Not at htheta hshape
  obtain ⟨hrows, hheads, hpos, heven, hcolumns, hposition⟩ := hshape
  rw [Nat.mul_assoc] at hcolumns
  have hwidth := Nat.eq_of_mul_eq_mul_left (Nat.pos_of_ne_zero hrows) hcolumns
  have hcount' : values.rows * headCount ≤ values.rows * headCount * dimension :=
    Nat.le_mul_of_pos_right _ (Nat.pos_of_ne_zero hpos)
  rw [← Nat.mul_assoc] at hcount
  have hpairs : values.rows * headCount * (dimension / 2) ≤ values.rows * headCount * dimension :=
    Nat.mul_le_mul_left _ (Nat.div_le_self _ _)
  unfold CudaTensorBackend.applyRoPE
  rw [CudaTensorBackend.checkedProduct_eq (by omega)]
  show (CudaTensorBackend.checkedProduct _ _ _ >>= _) = _
  rw [CudaTensorBackend.checkedProduct_eq (by omega)]
  show (throwIf _ _ >>= _) = _
  rw [throwIf_bind_of_not, launch_rope N theta position heven (order.scheduled (by omega))
    (by rw [values.sized, hwidth, Nat.mul_assoc])]
  · rw [hwidth]
    refine CudaTensorBackend.written_of_getD _ ?_ _ fun r hr c hc => ?_
    · rw [List.length_map, List.length_range, Nat.mul_assoc]
    · rw [← ropeValue_eq theta heven hwidth hc, Nat.mul_assoc values.rows]
      exact Grid.getD_map_range _ (Grid.address_lt hr hc)
  · push Not
    unfold maxSize at hposition
    refine ⟨hrows, hheads, hpos, heven, ?_, by omega, htheta.1, htheta.2⟩
    rw [hwidth, Nat.mul_assoc]

end

/-! ## the three parts -/

/-- what cuBLAS and the launches can count -/
structure Limits (configuration : AttentionConfiguration) (rows width : Nat) : Prop where
  query : rows * (configuration.headCount * configuration.headDimension) < 2 ^ 31
  keyValue : rows * (configuration.keyValueHeadCount * configuration.headDimension) < 2 ^ 31
  hidden : rows * width < 2 ^ 31
  heads : configuration.headCount ≤ maxGridY

theorem Limits.mono {configuration : AttentionConfiguration} {rows width r : Nat}
    (h : Limits configuration rows width) (hle : r ≤ rows) : Limits configuration r width :=
  ⟨(Nat.mul_le_mul_right _ hle).trans_lt h.query, (Nat.mul_le_mul_right _ hle).trans_lt h.keyValue,
    (Nat.mul_le_mul_right _ hle).trans_lt h.hidden, h.heads⟩

/-- no extent is larger than a number of elements -/
theorem Limits.extents {configuration : AttentionConfiguration} {rows width : Nat}
    (h : Limits configuration rows width) (hrows : rows ≠ 0) (hheads : configuration.headCount ≠ 0)
    (hdimension : configuration.headDimension ≠ 0) : rows ≤ intMax ∧
      configuration.headCount * configuration.headDimension ≤ intMax ∧
      configuration.keyValueHeadCount * configuration.headDimension ≤ intMax ∧ width ≤ intMax := by
  have hpos := Nat.pos_of_ne_zero hrows
  have hwidth : 0 < configuration.headCount * configuration.headDimension :=
    Nat.mul_pos (Nat.pos_of_ne_zero hheads) (Nat.pos_of_ne_zero hdimension)
  have hquery := h.query
  have hle := Nat.le_mul_of_pos_right rows hwidth
  have hle' := Nat.le_mul_of_pos_left (configuration.headCount * configuration.headDimension) hpos
  have hkeyValue := (Nat.le_mul_of_pos_left _ hpos).trans_lt h.keyValue
  have hhidden := (Nat.le_mul_of_pos_left _ hpos).trans_lt h.hidden
  unfold intMax
  omega

section
variable {cublas : Cublas K} {N : Numerics K} {run : AttentionRun K} {weights : AttentionWeights K}
  {configuration : AttentionConfiguration} {hidden query key : Grid K}

omit [LinearOrder K] in
theorem normalizeHeads_of_host {heads : Grid K × Grid K}
    (h : CpuAttention.normalizeHeads N weights configuration query key = .ok heads)
    (hquery : query.columns = configuration.headCount * configuration.projectionHeadDimension)
    (hkey : key.columns = configuration.keyValueHeadCount * configuration.projectionHeadDimension)
    (hqueryRows : query.rows * configuration.headCount < 2 ^ 31)
    (hkeyRows : key.rows * configuration.keyValueHeadCount < 2 ^ 31)
    (hdimension : configuration.projectionHeadDimension ≤ intMax) :
    normalizeHeads N run weights configuration query key = .ok heads := by
  unfold CpuAttention.normalizeHeads at h
  unfold normalizeHeads
  cases hnorms : weights.queryNorm with
  | none =>
    cases hnorms' : weights.keyNorm with
    | none =>
      rw [hnorms, hnorms'] at h
      exact h
    | some keyNorm =>
      rw [hnorms, hnorms'] at h
      exact nomatch h
  | some queryNorm =>
    cases hnorms' : weights.keyNorm with
    | none =>
      rw [hnorms, hnorms'] at h
      exact nomatch h
    | some keyNorm =>
      rw [hnorms, hnorms'] at h
      obtain ⟨query', hquery', h⟩ := bind_eq_ok.mp h
      obtain ⟨key', hkey', h⟩ := bind_eq_ok.mp h
      obtain ⟨⟨hqueryNorm, hfinite, hpositive⟩, -⟩ := applyHeadRmsNorm_eq_ok.mp hquery'
      obtain ⟨⟨hkeyNorm, -, -⟩, -⟩ := applyHeadRmsNorm_eq_ok.mp hkey'
      refine throwIf_bind_eq_ok.mpr ⟨?_, bind_eq_ok.mpr
        ⟨query', normalizeTensor_of_host hquery' hquery hqueryRows hdimension, bind_eq_ok.mpr
          ⟨key', normalizeTensor_of_host hkey' hkey hkeyRows hdimension, h⟩⟩⟩
      rw [hfinite, hpositive]
      push Not
      exact ⟨hqueryNorm, hkeyNorm, Bool.noConfusion, Bool.noConfusion⟩

omit [LinearOrder K] in
theorem rotate_of_host {heads : Grid K × Grid K} {tokenCount : Nat}
    (h : CpuAttention.rotate N configuration query key = .ok heads)
    (hquery : query.rows = tokenCount) (hkey : key.rows = tokenCount)
    (hlimits : tokenCount * (configuration.headCount * configuration.headDimension) < 2 ^ 31)
    (hlimits' : tokenCount * (configuration.keyValueHeadCount * configuration.headDimension) < 2 ^ 31) :
    rotate N run configuration tokenCount query key = .ok heads := by
  unfold CpuAttention.rotate at h
  unfold rotate
  split at h
  · next hrotary =>
    obtain ⟨query', hquery', h⟩ := bind_eq_ok.mp h
    obtain ⟨key', hkey', h⟩ := bind_eq_ok.mp h
    obtain rfl := hquery
    rw [if_pos hrotary]
    refine bind_eq_ok.mpr ⟨query', applyRoPE_of_host hquery' hlimits, bind_eq_ok.mpr ⟨key', ?_, h⟩⟩
    rw [← hkey] at hlimits' ⊢
    exact applyRoPE_of_host hkey' hlimits'
  · next hrotary =>
    rw [if_neg hrotary]
    exact h

/-- what a projection on the host went through -/
structure Projects (N : Numerics K) (hidden : Grid K) (weights : AttentionWeights K)
    (configuration : AttentionConfiguration) (query key value : Grid K) : Prop where
  heads : configuration.headCount ≠ 0 ∧ configuration.projectionHeadDimension ≠ 0 ∧
    configuration.headCount ≤ maxSize / configuration.projectionHeadDimension
  keyValueHeads : configuration.keyValueHeadCount ≠ 0 ∧
    configuration.keyValueHeadCount ≤ maxSize / configuration.projectionHeadDimension
  grouped : configuration.headCount % configuration.keyValueHeadCount = 0
  output : weights.output.rows = configuration.headCount * configuration.projectionHeadDimension ∧
    weights.output.columns = hidden.columns
  theta : configuration.ropeTheta.isFinite ≠ false ∧ configuration.ropeTheta.notPositive ≠ true
  position : configuration.positionOffset + hidden.rows ≤ maxSize
  parts : ∃ query₀ key₀ heads,
    matmul hidden weights.query hidden.rows
      (configuration.headCount * configuration.projectionHeadDimension) = .ok query₀ ∧
    matmul hidden weights.key hidden.rows
      (configuration.keyValueHeadCount * configuration.projectionHeadDimension) = .ok key₀ ∧
    matmul hidden weights.value hidden.rows
      (configuration.keyValueHeadCount * configuration.projectionHeadDimension) = .ok value ∧
    CpuAttention.normalizeHeads N weights configuration query₀ key₀ = .ok heads ∧
    CpuAttention.rotate N configuration heads.1 heads.2 = .ok (query, key)

section
variable {value : Grid K}

omit [LinearOrder K] in
theorem projects_of_eq_ok
    (h : CpuAttention.project N hidden weights configuration = .ok (query, key, value)) :
    Projects N hidden weights configuration query key value := by
  unfold CpuAttention.project at h
  obtain ⟨queryWidth, hwidth, h⟩ := bind_eq_ok.mp h
  obtain ⟨keyValueWidth, hwidth', h⟩ := bind_eq_ok.mp h
  obtain ⟨hheads, rfl⟩ := checkedWidth_eq_ok.mp hwidth
  obtain ⟨hkeyValueHeads, rfl⟩ := checkedWidth_eq_ok.mp hwidth'
  obtain ⟨u, hchecked, h⟩ := bind_eq_ok.mp h
  obtain ⟨⟨hgrouped, -, -, -, houtput⟩, htheta, hposition⟩ := checkDimensions_eq_ok.mp hchecked
  obtain ⟨query₀, hquery, h⟩ := bind_eq_ok.mp h
  obtain ⟨key₀, hkey, h⟩ := bind_eq_ok.mp h
  obtain ⟨value₀, hvalue, h⟩ := bind_eq_ok.mp h
  obtain ⟨heads, hnormalized, h⟩ := bind_eq_ok.mp h
  obtain ⟨⟨query', key'⟩, hrotated, h⟩ := bind_eq_ok.mp h
  obtain ⟨rfl, rfl, rfl⟩ : query' = query ∧ key' = key ∧ value₀ = value := by
    simpa only [Prod.mk.injEq] using pure_eq_ok.mp h
  push Not at hheads hkeyValueHeads htheta
  exact ⟨hheads, ⟨hkeyValueHeads.1, hkeyValueHeads.2.2⟩, hgrouped, houtput, htheta, hposition,
    query₀, key₀, heads, hquery, hkey, hvalue, hnormalized, hrotated⟩

omit [LinearOrder K] in
/-- the tokens stay, and the values have whole heads -/
theorem Projects.shape (h : Projects N hidden weights configuration query key value) :
    query.rows = hidden.rows ∧ key.rows = hidden.rows ∧ value.rows = hidden.rows ∧
      value.columns = configuration.keyValueHeadCount * configuration.projectionHeadDimension ∧
      (configuration.projectionHeadDimension = configuration.headDimension →
        query.columns = configuration.headCount * configuration.headDimension) := by
  obtain ⟨query₀, key₀, heads, hquery, hkey, hvalue, hnormalized, hrotated⟩ := h.parts
  obtain ⟨⟨-, -, hqueryColumns⟩, rfl⟩ := matmul_eq_ok.mp hquery
  obtain ⟨-, rfl⟩ := matmul_eq_ok.mp hkey
  obtain ⟨⟨-, -, hvalueColumns⟩, rfl⟩ := matmul_eq_ok.mp hvalue
  obtain ⟨-, rfl⟩ := normalizeHeads_eq_ok.mp hnormalized
  unfold CpuAttention.rotate at hrotated
  split at hrotated
  · obtain ⟨query', hquery', hrotated⟩ := bind_eq_ok.mp hrotated
    obtain ⟨key', hkey', hrotated⟩ := bind_eq_ok.mp hrotated
    obtain ⟨-, rfl⟩ := applyRoPE_eq_ok.mp hquery'
    obtain ⟨-, rfl⟩ := applyRoPE_eq_ok.mp hkey'
    obtain ⟨rfl, rfl⟩ := Prod.mk.inj (pure_eq_ok.mp hrotated)
    exact ⟨headNormGrid_rows _, headNormGrid_rows _, rfl, hvalueColumns.symm, fun _ => rfl⟩
  · obtain ⟨rfl, rfl⟩ := Prod.mk.inj (pure_eq_ok.mp hrotated)
    refine ⟨headNormGrid_rows _, headNormGrid_rows _, rfl, hvalueColumns.symm, fun hdimension => ?_⟩
    rw [headNormGrid_columns hqueryColumns.symm, hdimension]

omit [LinearOrder K] in
theorem Projects.of_host (run : AttentionRun K) (hcublas : cublas.Documented)
    (h : Projects N hidden weights configuration query key value) (hrows : hidden.rows ≠ 0)
    (hdimension : configuration.projectionHeadDimension = configuration.headDimension)
    (hlimits : Limits configuration hidden.rows hidden.columns) :
    project cublas N run hidden weights configuration = .ok (query, key, value) := by
  obtain ⟨query₀, key₀, heads, hquery', hkey', hvalue', hnormalized, hrotated⟩ := h.parts
  have hheads := h.heads
  have hkeyValueHeads := h.keyValueHeads
  have hposition := h.position
  rw [hdimension] at hheads hkeyValueHeads hquery' hkey' hvalue'
  obtain ⟨hquery, hqueryEq⟩ := matmul_eq_ok.mp hquery'
  obtain ⟨hkey, hkeyEq⟩ := matmul_eq_ok.mp hkey'
  obtain ⟨hvalue, -⟩ := matmul_eq_ok.mp hvalue'
  obtain ⟨-, hheadGrids⟩ := normalizeHeads_eq_ok.mp hnormalized
  have hpos := Nat.pos_of_ne_zero hheads.2.1
  have hheadsBound : hidden.rows * configuration.headCount < 2 ^ 31 :=
    (Nat.mul_le_mul_left _ (Nat.le_mul_of_pos_right _ hpos)).trans_lt hlimits.query
  have hkeyValueBound : hidden.rows * configuration.keyValueHeadCount < 2 ^ 31 :=
    (Nat.mul_le_mul_left _ (Nat.le_mul_of_pos_right _ hpos)).trans_lt hlimits.keyValue
  obtain ⟨hrowsBound, hqueryBound, hkeyBound, hhiddenBound⟩ :=
    hlimits.extents hrows hheads.1 hheads.2.1
  unfold project
  rw [hdimension, Nat.mod_eq_of_lt (by unfold intMax at hqueryBound; omega),
    Nat.mod_eq_of_lt (by unfold intMax at hkeyBound; omega)]
  refine bind_eq_ok.mpr ⟨(), throwIf_eq_ok.mpr ?_, bind_eq_ok.mpr ⟨(), throwIf_eq_ok.mpr ?_,
    bind_eq_ok.mpr ⟨query₀, ?_, bind_eq_ok.mpr ⟨key₀, ?_, bind_eq_ok.mpr ⟨value, ?_,
      bind_eq_ok.mpr ⟨heads, ?_, bind_eq_ok.mpr ⟨(query, key), ?_, rfl⟩⟩⟩⟩⟩⟩⟩
  · push Not
    exact ⟨hheads.1, hkeyValueHeads.1, hheads.2.1, h.grouped, hheads.2.2, hkeyValueHeads.2⟩
  · push Not
    exact ⟨hquery.1, hquery.2.2.symm, hkey.1, hkey.2.2.symm, hvalue.1.trans hkey.1.symm,
      hvalue.2.2.symm.trans hkey.2.2, hdimension ▸ h.output.1, h.output.2, h.theta.1, h.theta.2, by omega⟩
  · exact CudaTensorBackend.matmul_of_host hcublas hquery' hrowsBound hhiddenBound
      (hquery.2.2 ▸ hqueryBound)
  · exact CudaTensorBackend.matmul_of_host hcublas hkey' hrowsBound hhiddenBound
      (hkey.2.2 ▸ hkeyBound)
  · exact CudaTensorBackend.matmul_of_host hcublas hvalue' hrowsBound hhiddenBound
      (hvalue.2.2 ▸ hkeyBound)
  · refine normalizeHeads_of_host hnormalized ?_ ?_ ?_ ?_ ?_
    · rw [hqueryEq, hdimension]
      exact hquery.2.2.symm
    · rw [hkeyEq, hdimension]
      exact hkey.2.2.symm
    · rw [hqueryEq]
      exact hheadsBound
    · rw [hkeyEq]
      exact hkeyValueBound
    · rw [hdimension]
      exact (Nat.le_mul_of_pos_left _ (Nat.pos_of_ne_zero hheads.1)).trans hqueryBound
  · refine rotate_of_host hrotated ?_ ?_ hlimits.query hlimits.keyValue
    · rw [hheadGrids, hqueryEq]
      exact headNormGrid_rows _
    · rw [hheadGrids, hkeyEq]
      exact headNormGrid_rows _

end

end

/-- the tensors of a layer, as the kernel sees them, and their copy on the host -/
structure Shows (shown : CudaKVDeviceSnapshot K) (cached : KVCacheSnapshot K) : Prop where
  tokens : shown.keys.tokens = cached.positions.length ∧ shown.values.tokens = cached.positions.length
  heads : shown.keys.heads = cached.keyValueHeads ∧ shown.values.heads = cached.keyValueHeads
  dimension : shown.keys.dimension = cached.headDimension ∧
    shown.values.dimension = cached.headDimension
  keys : shown.keys.values = cached.keys
  values : shown.values.values = cached.values
  first : shown.firstPosition = 0
  positions : cached.positions = List.range cached.positions.length

section
variable {c c' : KVCache K} {d : CudaKVCache K} {layer : Nat} {run : AttentionRun K}
  {configuration : AttentionConfiguration} {key value : Grid K} {cached : KVCacheSnapshot K}

omit [Field K] [LinearOrder K] in
theorem sliceView_eq {tokens heads dimension : Nat} {values : List K}
    (h : values.length = tokens * heads * dimension) :
    sliceView tokens heads dimension values = .ok ⟨tokens, heads, dimension, values, h⟩ :=
  dif_pos h

omit [Field K] [LinearOrder K] in
theorem gives_deviceSnapshot (h : Same c d) (hlayer : layer < c.layers.length)
    (hne : (c.layer layer).positions.length ≠ 0) :
    ∃ shown, Fallible.Gives (CudaKVCache.deviceSnapshot layer) d shown d ∧
      Shows shown (c.copy layer) := by
  have hholds := h.layers layer
  have hsized := c.sized_layer layer
  obtain ⟨hkeys, hvalues⟩ := hholds.length hsized
  have htokens : (d.storage layer).tokens ≠ 0 := hholds.tokens ▸ hne
  have hpos : 0 < (d.storage layer).tokens * c.keyValueHeads * c.headDimension :=
    Nat.mul_pos (Nat.mul_pos (Nat.pos_of_ne_zero htokens) h.positive.1) h.positive.2
  have hfrom := hholds.keys.copyFrom (List.ne_nil_of_length_pos (hkeys ▸ hpos))
  have hfrom' := hholds.values.copyFrom (List.ne_nil_of_length_pos (hvalues ▸ hpos))
  rw [hkeys] at hfrom
  rw [hvalues] at hfrom'
  refine ⟨⟨⟨_, _, _, _, hkeys⟩, ⟨_, _, _, _, hvalues⟩, (d.storage layer).firstPosition⟩, ?_,
    ⟨hholds.tokens, hholds.tokens⟩, ⟨rfl, rfl⟩, ⟨rfl, rfl⟩, rfl, rfl, hholds.first, hsized.positions⟩
  unfold CudaKVCache.deviceSnapshot
  rw [Fallible.gives_read_bind, Fallible.gives_throwIf_bind]
  refine ⟨Nat.not_le.mpr (h.length ▸ hlayer), Fallible.gives_throwIf_bind.mpr ⟨htokens, ?_⟩⟩
  rw [h.keyValueHeads, h.headDimension]
  refine Fallible.gives_settle_bind.mpr ⟨_, hfrom, Fallible.gives_settle_bind.mpr
    ⟨_, sliceView_eq hkeys, Fallible.gives_settle_bind.mpr ⟨_, hfrom', Fallible.gives_settle_bind.mpr
      ⟨_, sliceView_eq hvalues, Fallible.gives_pure.mpr ⟨rfl, rfl⟩⟩⟩⟩⟩

omit [Field K] [LinearOrder K] in
theorem append_of_host {first : Nat} {keys values : HeadView K} (fresh : Fresh K) (h : Same c d)
    (hextended : c.Extended layer first keys values c') :
    ∃ d', Fallible.Gives (CudaKVCache.append layer first keys values fresh) d () d' ∧ Same c' d' := by
  have happended : Fallible.wp (CudaKVCache.append layer first keys values fresh) _ d :=
    wp_append fresh h hextended.tokens_ne_zero
  rw [KVCache.appended_eq_ok.mpr hextended] at happended
  exact ⟨_, Prod.ext happended.1 rfl, happended.2⟩

omit [Field K] [LinearOrder K] in
theorem of_reshape_eq_ok {g : Grid K} {tokens heads dimension : Nat} {view : HeadView K}
    (h : reshape g tokens heads dimension = .ok view) :
    g.rows * g.columns = tokens * heads * dimension ∧ view.tokens = tokens := by
  unfold reshape at h
  split at h
  · next hsized =>
    obtain rfl := Except.ok.inj h
    exact ⟨hsized, rfl⟩
  · exact nomatch h

omit [Field K] [LinearOrder K] in
/-- A cache takes tokens with whole heads, at least one. -/
theorem remember_of_host (run : AttentionRun K) (hcache : configuration.kvCache = true) (h : Same c d)
    (hremember : Fallible.Gives (CpuAttention.remember configuration key value) c cached c') :
    (key.rows ≠ 0 ∧ value.rows * value.columns =
        value.rows * configuration.keyValueHeadCount * configuration.headDimension) ∧
    ∃ d' shown, Fallible.Gives (remember run configuration key value) d shown d' ∧ Same c' d' ∧
      Shows shown cached ∧ cached.keyValueHeads = configuration.keyValueHeadCount ∧
      cached.headDimension = configuration.headDimension := by
  unfold CpuAttention.remember at hremember
  rw [if_pos hcache, Fallible.gives_read_bind, Fallible.gives_throwIf_bind,
    Fallible.gives_settle_bind] at hremember
  obtain ⟨hdimensions, keyView, hkeyView, hremember⟩ := hremember
  obtain ⟨valueView, hvalueView, hremember⟩ := Fallible.gives_settle_bind.mp hremember
  obtain ⟨u, c₁, happend, hsnapshot⟩ := Fallible.gives_bind.mp hremember
  obtain ⟨hlayer, rfl, rfl⟩ := KVCache.gives_snapshot.mp hsnapshot
  push Not at hdimensions
  have hextended := KVCache.gives_append.mp happend
  have hne := hextended.tokens_ne_zero
  obtain ⟨d', happend', hsame⟩ := append_of_host run.fresh h hextended
  have hpositions : (c₁.layer configuration.layerIndex).positions.length ≠ 0 := by
    unfold KVCache.layer
    rw [hextended.layers, getD_set _ _ _ hextended.layer_lt, if_pos rfl]
    show (_ ++ (List.range keyView.tokens).map _).length ≠ 0
    rw [List.length_append, List.length_map, List.length_range]
    omega
  obtain ⟨shown, hshown, hshows⟩ := gives_deviceSnapshot hsame hlayer hpositions
  refine ⟨⟨(of_reshape_eq_ok hkeyView).2 ▸ hne, (of_reshape_eq_ok hvalueView).1⟩, d', shown, ?_,
    hsame, hshows, hextended.keyValueHeads.trans hdimensions.1,
    hextended.headDimension.trans hdimensions.2⟩
  unfold remember
  rw [hkeyView, hvalueView, Fallible.gives_ok_bind, Fallible.gives_ok_bind, if_pos hcache,
    Fallible.gives_read_bind, Fallible.gives_throwIf_bind, h.keyValueHeads, h.headDimension]
  push Not
  exact ⟨hdimensions, Fallible.gives_bind.mpr ⟨(), d', happend', hshown⟩⟩

end

section
variable {N : Numerics K} {run : AttentionRun K} {configuration : AttentionConfiguration}
  {shown : CudaKVDeviceSnapshot K} {cached : KVCacheSnapshot K} {query g : Grid K}

omit [LinearOrder K] in
/-- an element of a view, as it is found in the copy -/
theorem getElem?_view {view : HeadView K} {values : List K} {tokens heads dimension : Nat}
    (hvalues : view.values = values) (htokens : view.tokens = tokens) (hheads : view.heads = heads)
    (hdimension : view.dimension = dimension) {column head feature : Nat} (hcolumn : column < tokens)
    (hhead : head < heads) (hfeature : feature < dimension) :
    view.values[(column * heads + head) * dimension + feature]? =
      some (values.getD ((column * heads + head) * dimension + feature) 0) := by
  have hlt : (column * heads + head) * dimension + feature < view.values.length := by
    rw [view.sized, htokens, hheads, hdimension]
    exact Grid.address_lt (Grid.address_lt hcolumn hhead) hfeature
  rw [← hvalues, List.getElem?_eq_getElem hlt, List.getD_eq_getElem _ _ hlt]

omit [LinearOrder K] in
theorem describes (h : Shows shown cached)
    (hheads : cached.keyValueHeads = configuration.keyValueHeadCount)
    (hdimension : cached.headDimension = configuration.headDimension)
    (hgrouped : configuration.headCount % configuration.keyValueHeadCount = 0)
    (hcolumns : query.columns = configuration.headCount * configuration.headDimension) :
    Describes (attentionArguments configuration shown query) configuration cached.columns query where
  queryTokens := rfl
  queryWidth := hcolumns
  queryValues := rfl
  keyTokens := h.tokens.1.symm
  queryHeads := rfl
  keyValueHeads := rfl
  headDimension := rfl
  causal := rfl
  queryPosition := rfl
  position column hcolumn := by
    have hlt : column < cached.positions.length := h.tokens.1 ▸ hcolumn
    show cached.positions.getD column 0 = shown.firstPosition + column
    rw [h.positions, h.first, List.getD_eq_getElem _ _ (by rwa [List.length_range]),
      List.getElem_range, Nat.zero_add]
  grouped head hhead := by
    have hdiv : configuration.keyValueHeadCount *
        (configuration.headCount / configuration.keyValueHeadCount) = configuration.headCount :=
      Nat.mul_div_cancel' (Nat.dvd_of_mod_eq_zero hgrouped)
    refine Nat.div_lt_of_lt_mul ?_
    show head < configuration.headCount / configuration.keyValueHeadCount *
      configuration.keyValueHeadCount
    rw [Nat.mul_comm, hdiv]
    exact hhead
  key column hcolumn head hhead feature hfeature := by
    have hget := getElem?_view h.keys rfl (h.heads.1.trans hheads) (h.dimension.1.trans hdimension)
      hcolumn hhead hfeature
    rw [← hheads, ← hdimension] at hget
    show shown.keys.values[(column * configuration.keyValueHeadCount + head) *
      configuration.headDimension + feature]? = _
    rw [← hheads, ← hdimension]
    exact hget
  value column hcolumn head hhead feature hfeature := by
    have hget := getElem?_view h.values (h.tokens.2.trans h.tokens.1.symm) (h.heads.2.trans hheads)
      (h.dimension.2.trans hdimension) hcolumn hhead hfeature
    rw [← hheads, ← hdimension] at hget
    show shown.values.values[(column * configuration.keyValueHeadCount + head) *
      configuration.headDimension + feature]? = _
    rw [← hheads, ← hdimension]
    exact hget

/-- what the host attends to, the blocks attend to -/
theorem attend_of_host (run : AttentionRun K) (h : Shows shown cached)
    (hheads : cached.keyValueHeads = configuration.keyValueHeadCount)
    (hdimension : cached.headDimension = configuration.headDimension)
    (hgrouped : configuration.headCount % configuration.keyValueHeadCount = 0)
    (hpos : configuration.headCount ≠ 0 ∧ configuration.keyValueHeadCount ≠ 0 ∧
      configuration.headDimension ≠ 0) (hrows : query.rows ≠ 0)
    (hcolumns : query.columns = configuration.headCount * configuration.headDimension)
    (hposition : configuration.positionOffset + query.rows ≤ maxSize)
    {width : Nat} (hlimits : Limits configuration query.rows width)
    (hattend : CpuAttention.attend N configuration cached.columns query = .ok g) :
    causalAttention N run configuration shown query = .ok g := by
  obtain ⟨hdenominator, rfl⟩ := (attend_eq_ok hcolumns).mp hattend
  have hquery := hlimits.query
  have hbound : query.rows ≤ query.rows * (configuration.headCount * configuration.headDimension) :=
    Nat.le_mul_of_pos_right _
      (Nat.mul_pos (Nat.pos_of_ne_zero hpos.1) (Nat.pos_of_ne_zero hpos.2.2))
  have hheadCount := hlimits.heads
  unfold maxGridY at hheadCount
  unfold maxSize at hposition
  have hdescribes := describes h hheads hdimension hgrouped hcolumns
  have hsized : (attentionBuffers run configuration shown.keys.tokens query).Sized
      (attentionArguments configuration shown query) := by
    refine ⟨?_, ?_, ?_⟩
    · exact (List.length_map _).trans List.length_range
    · exact (List.length_map _).trans List.length_range
    · exact (Grid.sized _).trans (congrArg _ hcolumns)
  obtain ⟨s', hlaunch, hcontext⟩ := launch_causalAttention (N := N) hdescribes hsized
    (run.blocks.nodup query.rows configuration.headCount)
    (fun row hrow head hhead => run.blocks.mem hrow hhead) (fun row hrow head hhead =>
      not_le.mp (hdenominator head (List.mem_range.mpr hhead) row (List.mem_range.mpr hrow)))
  have hwidth := Nat.le_mul_of_pos_left (configuration.headCount * configuration.headDimension)
    (Nat.pos_of_ne_zero hrows)
  unfold causalAttention
  rw [CudaTensorBackend.checkedProduct_eq (by omega)]
  refine throwIf_bind_eq_ok.mpr ⟨?_, ?_⟩
  · push Not
    refine ⟨h.tokens.2.trans h.tokens.1.symm, h.heads.2.trans h.heads.1.symm,
      h.dimension.2.trans h.dimension.1.symm, hpos.1, hpos.2.1, hpos.2.2, hgrouped, ?_, ?_, hcolumns,
      h.heads.1.trans hheads, h.dimension.1.trans hdimension, ?_, ?_, fun _ => ?_⟩
    · omega
    · omega
    · unfold maxSize
      omega
    · rw [h.first]
      exact Nat.zero_le _
    · rw [h.first]
      exact Nat.zero_le _
  · show CudaTensorBackend.written _ _ _ (Option.map _ (if _ then _ else _)) = _
    rw [if_neg (Nat.not_lt.mpr hlimits.heads), hlaunch]
    show CudaTensorBackend.written _ _ _ (some s'.context) = _
    rw [hcontext]
    refine (CudaTensorBackend.written_eq _ (Grid.generate query.rows query.columns _)).trans
      (congrArg _ (Grid.ext_get rfl hcolumns fun r hr c hc => ?_))
    have hr' : r < query.rows := hr
    have hc' : c < query.columns := hc
    rw [Grid.get_generate _ hr' hc']
    rw [hcolumns] at hc'
    rw [Grid.get_mapRowsAt _ hr' hc', contextRow, Grid.getD_map_range _ hc']
    rfl

end

/-! ## the whole -/

section
variable {c : KVCache K} {d : CudaKVCache K} {cublas : Cublas K} {N : Numerics K}
  {run : AttentionRun K} {weights : AttentionWeights K} {hidden : Grid K}
  {requested : AttentionConfiguration}

omit [Field K] [LinearOrder K] in
theorem inferHeadDimension_of_host {configuration : AttentionConfiguration} {columns : Nat}
    (h : CpuAttention.inferHeadDimension requested columns = .ok configuration) :
    inferHeadDimension requested columns = .ok configuration := by
  unfold CpuAttention.inferHeadDimension at h
  unfold inferHeadDimension
  split at h
  · next hzero =>
    rw [if_pos hzero]
    split at h
    · exact nomatch h
    · next hcolumns =>
      rw [if_neg hcolumns]
      exact h
  · next hgiven =>
    rw [if_neg hgiven]
    exact h

/-- With caches that hold the same, the device answers what the host answers. -/
theorem execute_replaces (hcublas : cublas.Documented) (hcache : requested.kvCache = true)
    (hlimits : ∀ configuration,
      CpuAttention.inferHeadDimension requested weights.query.columns = .ok configuration →
        Limits configuration hidden.rows hidden.columns) (h : Same c d) :
    Fallible.Replaces (fun d c => Same c d) (execute cublas N run hidden weights requested) d
      (CpuAttention.execute N hidden weights requested) c := by
  intro r c' hexecute
  unfold CpuAttention.execute at hexecute
  obtain ⟨configuration, hinfer, hexecute⟩ := Fallible.gives_settle_bind.mp hexecute
  obtain ⟨⟨query, key, value⟩, hproject, hexecute⟩ := Fallible.gives_settle_bind.mp hexecute
  obtain ⟨cached, c₁, hremember, hexecute⟩ := Fallible.gives_bind.mp hexecute
  obtain ⟨context, hattend, hexecute⟩ := Fallible.gives_settle_bind.mp hexecute
  obtain ⟨output, houtput, hexecute⟩ := Fallible.gives_settle_bind.mp hexecute
  obtain ⟨rfl, rfl⟩ := Fallible.gives_pure.mp hexecute
  have hlimits := hlimits configuration hinfer
  have hcache' : configuration.kvCache = true := by
    unfold CpuAttention.inferHeadDimension at hinfer
    split at hinfer
    · split at hinfer
      · exact nomatch hinfer
      · obtain rfl := pure_eq_ok.mp hinfer
        exact hcache
    · obtain rfl := pure_eq_ok.mp hinfer
      exact hcache
  have hprojects := projects_of_eq_ok hproject
  obtain ⟨hqueryRows, hkeyRows, hvalueRows, hvalueColumns, hqueryColumns⟩ := hprojects.shape
  obtain ⟨⟨hne, hvalueSized⟩, d', shown, hremember', hsame, hshows, hheads, hdimension⟩ :=
    remember_of_host run hcache' h hremember
  have hrows : hidden.rows ≠ 0 := hkeyRows ▸ hne
  have hwhole : configuration.projectionHeadDimension = configuration.headDimension := by
    rw [hvalueColumns, Nat.mul_assoc] at hvalueSized
    exact Nat.eq_of_mul_eq_mul_left (Nat.pos_of_ne_zero hprojects.keyValueHeads.1)
      (Nat.eq_of_mul_eq_mul_left (Nat.pos_of_ne_zero (hvalueRows ▸ hrows)) hvalueSized)
  have hproject' := hprojects.of_host run hcublas hrows hwhole hlimits
  have hattend' := attend_of_host run hshows hheads hdimension hprojects.grouped
    ⟨hprojects.heads.1, hprojects.keyValueHeads.1, hwhole ▸ hprojects.heads.2.1⟩
    (hqueryRows ▸ hrows) (hqueryColumns hwhole) (hqueryRows ▸ hprojects.position)
    (hqueryRows.symm ▸ hlimits) hattend
  obtain ⟨hrowsBound, hqueryBound, -, hhiddenBound⟩ := hlimits.extents hrows hprojects.heads.1
    (hwhole ▸ hprojects.heads.2.1)
  obtain ⟨⟨hcontext, hcontextRows, hcolumns⟩, -⟩ := matmul_eq_ok.mp houtput
  refine ⟨_, d', ?_, rfl, hsame⟩
  refine Fallible.gives_settle_bind.mpr ⟨configuration, inferHeadDimension_of_host hinfer,
    Fallible.gives_settle_bind.mpr ⟨(query, key, value), hproject', Fallible.gives_bind.mpr
      ⟨shown, d', hremember', Fallible.gives_settle_bind.mpr ⟨context, hattend',
        Fallible.gives_settle_bind.mpr ⟨output, ?_, Fallible.gives_pure.mpr ⟨rfl, rfl⟩⟩⟩⟩⟩⟩
  refine CudaTensorBackend.matmul_of_host hcublas houtput (hcontextRows ▸ hrowsBound) ?_
    (hcolumns ▸ hhiddenBound)
  rw [← hcontext, hprojects.output.1, hwhole]
  exact hqueryBound

end

end CudaAttention

end HyperMoE.Transformer
