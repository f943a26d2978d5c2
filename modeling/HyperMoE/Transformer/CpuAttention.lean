import Mathlib.Algebra.Order.Field.Basic
import HyperMoE.Tensor.CpuTensorBackend
import HyperMoE.Transformer.KVCache

/-!
# Attention

`CpuAttention.cpp`, `RoPE.cpp`: projections, the normalization of the heads, the rotation by the
absolute positions, the append to the cache, and the attention over everything in it.

* `headRmsNormRow`, `ropeRow`   what is done to the row of one token;
* `headContext`                 one head of one token;
* `CpuAttention.execute`        the whole;
* `headValues_masked`           columns behind the position of the token do not count.
-/

namespace HyperMoE.Transformer

open Lib Lib.Outcome Tensor

/-- `std::numeric_limits<std::size_t>::max()` -/
def maxSize : Nat := 2 ^ 64 - 1

structure AttentionWeights (K : Type) where
  query : Grid K
  key : Grid K
  value : Grid K
  output : Grid K
  queryNorm : Option (List K) := none
  keyNorm : Option (List K) := none

structure AttentionConfiguration where
  headCount : Nat := 1
  keyValueHeadCount : Nat := 1
  headDimension : Nat := 0
  projectionHeadDimension : Nat := 0
  causal : Bool := false
  rotaryEmbedding : Bool := false
  ropeTheta : Binary32 := ⟨0x461c4000⟩
  queryKeyNormEpsilon : Binary32 := ⟨0x358637bd⟩
  layerIndex : Nat := 0
  positionOffset : Nat := 0
  /-- whether a cache is given -/
  kvCache : Bool := false
  deriving DecidableEq, Repr

/-- The scores and probabilities, scratch of the kernel, are not kept. -/
structure AttentionResult (K : Type) where
  query : Grid K
  key : Grid K
  value : Grid K
  context : Grid K
  output : Grid K
  deriving DecidableEq

variable {K : Type} [Field K]

/-! ## one row -/

/-- the heads of a row, each divided by the root of its mean square and scaled -/
def headRmsNormRow (N : Numerics K) (weight : List K) (headCount headDimension : Nat)
    (epsilon : Binary32) (row : List K) : List K :=
  (List.range (headCount * headDimension)).map fun index =>
    let base := index / headDimension * headDimension
    let squareSum := ∑ feature ∈ Finset.range headDimension,
      row.getD (base + feature) 0 * row.getD (base + feature) 0
    let inverseRms := 1 / N.sqrt (squareSum / headDimension + N.ofFloat epsilon)
    row.getD index 0 * inverseRms * weight.getD (index % headDimension) 0

/-- the pairs of features of a row, each turned by the angle of its position -/
def ropeRow (N : Numerics K) (theta : Binary32) (headCount headDimension position : Nat)
    (row : List K) : List K :=
  (List.range (headCount * headDimension)).map fun index =>
    let dimension := index % headDimension - index % headDimension % 2
    let base := index / headDimension * headDimension
    let exponent := (dimension : K) / headDimension
    let angle := (position : K) / N.pow (N.ofFloat theta) exponent
    let first := row.getD (base + dimension) 0
    let second := row.getD (base + dimension + 1) 0
    if index % headDimension % 2 = 0 then first * N.cos angle - second * N.sin angle
    else first * N.sin angle + second * N.cos angle

def applyHeadRmsNorm (N : Numerics K) (values : Grid K) (weight : List K)
    (headCount headDimension : Nat) (epsilon : Binary32) : Except StdError (Grid K) := do
  throwIf (weight.length ≠ headDimension ∨ epsilon.isFinite = false ∨ epsilon.notPositive = true)
    (.invalid_argument "attention Q/K normalization is incompatible")
  return values.mapRows (headCount * headDimension)
    (headRmsNormRow N weight headCount headDimension epsilon)

/-- `RoPE rope(theta); rope.apply(values, tokenCount, headCount, headDimension, positionOffset);`
The numbers of tokens and of elements are those of a tensor, hence below `maxSize`. -/
def applyRoPE (N : Numerics K) (theta : Binary32) (values : Grid K)
    (headCount headDimension positionOffset : Nat) : Except StdError (Grid K) := do
  throwIf (theta.isFinite = false ∨ theta.notPositive = true)
    (.invalid_argument "RoPE theta must be positive and finite")
  throwIf (values.rows = 0 ∨ headCount = 0 ∨ headDimension = 0 ∨ headDimension % 2 ≠ 0 ∨
      values.rows * values.columns ≠ values.rows * headCount * headDimension ∨
      positionOffset + values.rows > maxSize)
    (.invalid_argument "RoPE tensor dimensions are invalid")
  return values.mapRowsAt positionOffset (headCount * headDimension)
    (ropeRow N theta headCount headDimension)

/-! ## one head -/

/-- what a head reads of the cache: the columns, each with its position, and their elements by head
and feature -/
structure CachedColumns (K : Type) where
  count : Nat
  position : Nat → Nat
  key : Nat → Nat → Nat → K
  value : Nat → Nat → Nat → K

def KVCacheSnapshot.columns (s : KVCacheSnapshot K) : CachedColumns K where
  count := s.tokenCount
  position column := s.positions.getD column 0
  key column head feature :=
    s.keys.getD ((column * s.keyValueHeads + head) * s.headDimension + feature) 0
  value column head feature :=
    s.values.getD ((column * s.keyValueHeads + head) * s.headDimension + feature) 0

section
variable (N : Numerics K) (configuration : AttentionConfiguration) (cached : CachedColumns K)
  (queryPosition : Nat) (query : List K) (head : Nat)

def keyValueHead : Nat := head / (configuration.headCount / configuration.keyValueHeadCount)

/-- a score; `none` is the minus infinity of a masked column -/
def score (column : Nat) : Option K :=
  if configuration.causal ∧ cached.position column > queryPosition then none
  else some ((∑ feature ∈ Finset.range configuration.headDimension,
      query.getD (head * configuration.headDimension + feature) 0 *
        cached.key column (keyValueHead configuration head) feature) *
    (1 / N.sqrt configuration.headDimension))

variable [LinearOrder K]

/-- `maximum = std::max(maximum, score)`, from minus infinity on -/
def maxScore : Option K → Option K → Option K
  | maximum, none => maximum
  | none, some score => some score
  | some maximum, some score => some (max maximum score)

def maximum : Option K :=
  ((List.range cached.count).map (score N configuration cached queryPosition query head)).foldl
    maxScore none

def probability (column : Nat) : K :=
  (score N configuration cached queryPosition query head column).elim 0 fun score =>
    N.exp (score - (maximum N configuration cached queryPosition query head).getD 0)

def denominator : K :=
  ∑ column ∈ Finset.range cached.count,
    probability N configuration cached queryPosition query head column

/-- the features of the head: the values of the columns, weighted -/
def headValues : List K :=
  (List.range configuration.headDimension).map fun feature =>
    ∑ column ∈ Finset.range cached.count,
      probability N configuration cached queryPosition query head column /
        denominator N configuration cached queryPosition query head *
        cached.value column (keyValueHead configuration head) feature

def headContext : Except StdError (List K) := do
  throwIf (denominator N configuration cached queryPosition query head ≤ 0)
    (.runtime_error "attention softmax normalization failed")
  return headValues N configuration cached queryPosition query head

end

/-! ## what a head depends on -/

section
variable [LinearOrder K] {N : Numerics K} {configuration : AttentionConfiguration}
  {cached cached' : CachedColumns K} {p : Nat} {query : List K} {head heads : Nat}

/-- the same columns, for this many heads and features -/
structure CachedColumns.Agree (heads dimension : Nat) (cached cached' : CachedColumns K) :
    Prop where
  count : cached'.count = cached.count
  position : ∀ column < cached.count, cached'.position column = cached.position column
  key : ∀ column < cached.count, ∀ head < heads, ∀ feature < dimension,
      cached'.key column head feature = cached.key column head feature
  value : ∀ column < cached.count, ∀ head < heads, ∀ feature < dimension,
      cached'.value column head feature = cached.value column head feature

/-- the first columns only -/
def CachedColumns.upTo (cached : CachedColumns K) (n : Nat) : CachedColumns K :=
  { cached with count := n }

omit [LinearOrder K] in
theorem score_congr (h : cached.Agree heads configuration.headDimension cached')
    (hhead : keyValueHead configuration head < heads) {column : Nat}
    (hcolumn : column < cached.count) :
    score N configuration cached' p query head column =
      score N configuration cached p query head column := by
  have hdot : ∑ feature ∈ Finset.range configuration.headDimension,
      query.getD (head * configuration.headDimension + feature) 0 *
        cached'.key column (keyValueHead configuration head) feature =
      ∑ feature ∈ Finset.range configuration.headDimension,
      query.getD (head * configuration.headDimension + feature) 0 *
        cached.key column (keyValueHead configuration head) feature := by
    apply Finset.sum_congr rfl
    intro feature hfeature
    rw [h.key column hcolumn _ hhead feature (Finset.mem_range.mp hfeature)]
  unfold score
  rw [h.position column hcolumn, hdot]

theorem maximum_congr (h : cached.Agree heads configuration.headDimension cached')
    (hhead : keyValueHead configuration head < heads) :
    maximum N configuration cached' p query head = maximum N configuration cached p query head := by
  unfold maximum
  rw [h.count]
  congr 1
  apply List.map_congr_left
  intro column hcolumn
  exact score_congr h hhead (List.mem_range.mp hcolumn)

theorem probability_congr (h : cached.Agree heads configuration.headDimension cached')
    (hhead : keyValueHead configuration head < heads) {column : Nat}
    (hcolumn : column < cached.count) :
    probability N configuration cached' p query head column =
      probability N configuration cached p query head column := by
  unfold probability
  rw [score_congr h hhead hcolumn, maximum_congr h hhead]

theorem denominator_congr (h : cached.Agree heads configuration.headDimension cached')
    (hhead : keyValueHead configuration head < heads) :
    denominator N configuration cached' p query head =
      denominator N configuration cached p query head := by
  unfold denominator
  rw [h.count]
  apply Finset.sum_congr rfl
  intro column hcolumn
  exact probability_congr h hhead (Finset.mem_range.mp hcolumn)

theorem headValues_congr (h : cached.Agree heads configuration.headDimension cached')
    (hhead : keyValueHead configuration head < heads) :
    headValues N configuration cached' p query head =
      headValues N configuration cached p query head := by
  unfold headValues
  apply List.map_congr_left
  intro feature hfeature
  rw [h.count]
  apply Finset.sum_congr rfl
  intro column hcolumn
  have hlt := Finset.mem_range.mp hcolumn
  rw [probability_congr h hhead hlt, denominator_congr h hhead,
    h.value column hlt _ hhead feature (List.mem_range.mp hfeature)]

/-! ## masked columns -/

variable {n : Nat}

/-- the columns from `n` on are masked -/
def Masked (configuration : AttentionConfiguration) (cached : CachedColumns K) (p n : Nat) : Prop :=
  configuration.causal = true ∧ n ≤ cached.count ∧
    ∀ column, n ≤ column → column < cached.count → p < cached.position column

omit [LinearOrder K] in
theorem score_masked (h : Masked configuration cached p n) {column : Nat} (hn : n ≤ column)
    (hcolumn : column < cached.count) : score N configuration cached p query head column = none :=
  if_pos ⟨h.1, h.2.2 column hn hcolumn⟩

omit [Field K] in
theorem foldl_maxScore_none (scores : List (Option K)) (start : Option K)
    (h : ∀ score ∈ scores, score = none) : scores.foldl maxScore start = start := by
  induction scores with
  | nil => rfl
  | cons score scores ih =>
    rw [List.foldl_cons, h score List.mem_cons_self]
    exact ih fun score' h' => h score' (List.mem_cons_of_mem _ h')

theorem maximum_masked (h : Masked configuration cached p n) :
    maximum N configuration (cached.upTo n) p query head =
      maximum N configuration cached p query head := by
  obtain ⟨k, hk⟩ := Nat.exists_eq_add_of_le h.2.1
  show ((List.range n).map (score N configuration cached p query head)).foldl maxScore none = _
  rw [maximum, hk, List.range_add, List.map_append, List.foldl_append]
  refine (foldl_maxScore_none _ _ fun s hs => ?_).symm
  rw [List.map_map] at hs
  obtain ⟨i, hi, rfl⟩ := List.mem_map.mp hs
  have hlt : n + i < cached.count := by
    have hi' := List.mem_range.mp hi
    omega
  exact score_masked h (Nat.le_add_right n i) hlt

theorem probability_masked (h : Masked configuration cached p n) (column : Nat) :
    probability N configuration (cached.upTo n) p query head column =
      probability N configuration cached p query head column := by
  unfold probability
  rw [maximum_masked h]
  rfl

theorem probability_eq_zero (h : Masked configuration cached p n) {column : Nat}
    (hcolumn : column ∈ Finset.range cached.count) (hnot : column ∉ Finset.range n) :
    probability N configuration cached p query head column = 0 := by
  rw [Finset.mem_range] at hcolumn hnot
  unfold probability
  rw [score_masked h (Nat.le_of_not_lt hnot) hcolumn]
  rfl

theorem denominator_masked (h : Masked configuration cached p n) :
    denominator N configuration (cached.upTo n) p query head =
      denominator N configuration cached p query head := by
  have hsum : denominator N configuration (cached.upTo n) p query head =
      ∑ column ∈ Finset.range n, probability N configuration cached p query head column :=
    Finset.sum_congr rfl fun column _ => probability_masked h column
  rw [hsum, denominator]
  exact Finset.sum_subset (Finset.range_mono h.2.1) fun _ => probability_eq_zero h

theorem headValues_masked (h : Masked configuration cached p n) :
    headValues N configuration (cached.upTo n) p query head =
      headValues N configuration cached p query head := by
  unfold headValues
  apply List.map_congr_left
  intro feature _
  rw [denominator_masked h]
  refine Eq.trans ?_ (Finset.sum_subset (Finset.range_mono h.2.1) fun column hcolumn hnot => ?_)
  · exact Finset.sum_congr rfl fun column _ => by rw [probability_masked h]; rfl
  · rw [probability_eq_zero h hcolumn hnot, zero_div, zero_mul]

end

/-! ## the whole -/

namespace CpuAttention

variable [LinearOrder K]

/-- the head size of the configuration, or the one that the query projection implies -/
def inferHeadDimension (requested : AttentionConfiguration) (queryColumns : Nat) :
    Except StdError AttentionConfiguration :=
  if requested.headDimension = 0 then
    if requested.headCount = 0 ∨ queryColumns % requested.headCount ≠ 0 then
      throw (.invalid_argument "query width cannot infer attention head size")
    else pure { requested with headDimension := queryColumns / requested.headCount }
  else pure requested

def checkedWidth (heads dimension : Nat) : Except StdError Nat := do
  throwIf (heads = 0 ∨ dimension = 0 ∨ heads > maxSize / dimension)
    (.invalid_argument "attention head dimensions are invalid")
  return heads * dimension

def checkDimensions (hidden : Grid K) (weights : AttentionWeights K)
    (configuration : AttentionConfiguration) (queryWidth keyValueWidth : Nat) :
    Except StdError Unit := do
  throwIf (configuration.headCount % configuration.keyValueHeadCount ≠ 0 ∨
      weights.query.rows ≠ hidden.columns ∨ weights.key.rows ≠ hidden.columns ∨
      weights.value.rows ≠ hidden.columns ∨ weights.query.columns ≠ queryWidth ∨
      weights.key.columns ≠ keyValueWidth ∨ weights.value.columns ≠ keyValueWidth ∨
      weights.output.rows ≠ queryWidth ∨ weights.output.columns ≠ hidden.columns)
    (.invalid_argument "attention projection dimensions are incompatible")
  throwIf (configuration.ropeTheta.isFinite = false ∨ configuration.ropeTheta.notPositive = true ∨
      configuration.positionOffset + hidden.rows > maxSize)
    (.invalid_argument "attention position configuration is invalid")

/-- the optional normalization of the heads of query and key -/
def normalizeHeads (N : Numerics K) (weights : AttentionWeights K)
    (configuration : AttentionConfiguration) (query key : Grid K) :
    Except StdError (Grid K × Grid K) :=
  match weights.queryNorm, weights.keyNorm with
  | none, none => pure (query, key)
  | some queryNorm, some keyNorm => do
    let query ← applyHeadRmsNorm N query queryNorm configuration.headCount
      configuration.projectionHeadDimension configuration.queryKeyNormEpsilon
    let key ← applyHeadRmsNorm N key keyNorm configuration.keyValueHeadCount
      configuration.projectionHeadDimension configuration.queryKeyNormEpsilon
    return (query, key)
  | _, _ => throw
      (.invalid_argument "attention requires both query and key normalization weights")

def rotate (N : Numerics K) (configuration : AttentionConfiguration) (query key : Grid K) :
    Except StdError (Grid K × Grid K) :=
  if configuration.rotaryEmbedding then do
    let query ← applyRoPE N configuration.ropeTheta query configuration.headCount
      configuration.headDimension configuration.positionOffset
    let key ← applyRoPE N configuration.ropeTheta key configuration.keyValueHeadCount
      configuration.headDimension configuration.positionOffset
    return (query, key)
  else pure (query, key)

/-- the keys and values so far: those of the cache, or those of this call -/
def remember (configuration : AttentionConfiguration) (key value : Grid K) :
    Fallible StdError (KVCache K) (KVCacheSnapshot K) :=
  if configuration.kvCache then do
    let c ← Fallible.read
    Fallible.throwIf (c.keyValueHeads ≠ configuration.keyValueHeadCount ∨
        c.headDimension ≠ configuration.headDimension)
      (.invalid_argument "attention and KV cache dimensions disagree")
    let keyView ← Fallible.settle
      (reshape key key.rows configuration.keyValueHeadCount configuration.headDimension)
    let valueView ← Fallible.settle
      (reshape value value.rows configuration.keyValueHeadCount configuration.headDimension)
    KVCache.append configuration.layerIndex configuration.positionOffset keyView valueView
    KVCache.snapshot configuration.layerIndex
  else pure {
    positions := (List.range key.rows).map fun token => configuration.positionOffset + token
    keys := key.values
    values := value.values
    keyValueHeads := configuration.keyValueHeadCount
    headDimension := configuration.headDimension }

/-- `for (head ...) for (row ...)`, and the features of the heads side by side in the rows -/
def attend (N : Numerics K) (configuration : AttentionConfiguration) (cached : CachedColumns K)
    (query : Grid K) : Except StdError (Grid K) := do
  let heads ← collect (fun head => collect (fun row =>
      headContext N configuration cached (configuration.positionOffset + row) (query.row row) head)
    (List.range query.rows)) (List.range configuration.headCount)
  return Grid.generate query.rows query.columns fun row column =>
    (((heads.getD (column / configuration.headDimension) []).getD row []).getD
      (column % configuration.headDimension) 0)

/-- the projections, with their heads normalized and rotated -/
def project (N : Numerics K) (hidden : Grid K) (weights : AttentionWeights K)
    (configuration : AttentionConfiguration) : Except StdError (Grid K × Grid K × Grid K) := do
  let queryWidth ← checkedWidth configuration.headCount configuration.projectionHeadDimension
  let keyValueWidth ←
    checkedWidth configuration.keyValueHeadCount configuration.projectionHeadDimension
  checkDimensions hidden weights configuration queryWidth keyValueWidth
  let query ← matmul hidden weights.query hidden.rows queryWidth
  let key ← matmul hidden weights.key hidden.rows keyValueWidth
  let value ← matmul hidden weights.value hidden.rows keyValueWidth
  let heads ← normalizeHeads N weights configuration query key
  let heads ← rotate N configuration heads.1 heads.2
  return (heads.1, heads.2, value)

def execute (N : Numerics K) (hidden : Grid K) (weights : AttentionWeights K)
    (requested : AttentionConfiguration) :
    Fallible StdError (KVCache K) (AttentionResult K) := do
  let configuration ← Fallible.settle (inferHeadDimension requested weights.query.columns)
  let (query, key, value) ← Fallible.settle (project N hidden weights configuration)
  let cached ← remember configuration key value
  let context ← Fallible.settle (attend N configuration cached.columns query)
  let output ← Fallible.settle (matmul context weights.output hidden.rows hidden.columns)
  return { query, key, value, context, output }

end CpuAttention

end HyperMoE.Transformer
