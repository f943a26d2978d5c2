import HyperMoE.Transformer.CpuAttention

/-!
# Attention, row by row

What `CpuAttention::execute` does to one token: its key and its value go to the cache, and its
answer is made of its query and of what the cache holds.

* `queryRow`, `keyRow`, `valueRow`   the projections of a row at its position;
* `AttentionWeights.Fits`            what the checks ask of weights and configuration;
* `cachedColumns`                    the tokens of the cache as the columns of a head;
* `attentionRow`                     the answer to a row;
* `gives_execute`                    the whole, in these terms.
-/

namespace HyperMoE.Transformer

open Lib Lib.Outcome Tensor

variable {K : Type} [Field K]

/-! ## projections -/

section
variable (N : Numerics K) (weights : AttentionWeights K) (configuration : AttentionConfiguration)

def headNormRow (norm : Option (List K)) (headCount : Nat) (row : List K) : List K :=
  norm.elim row fun weight => headRmsNormRow N weight headCount
    configuration.projectionHeadDimension configuration.queryKeyNormEpsilon row

/-- a row through one projection, normalized and rotated -/
def projectionRow (weight : Grid K) (norm : Option (List K)) (headCount position : Nat)
    (row : List K) : List K :=
  ropeRow N configuration.ropeTheta headCount configuration.headDimension position
    (headNormRow N configuration norm headCount
      (mulRow weight.rows weight.columns weight.get row))

def queryRow : Nat → List K → List K :=
  projectionRow N configuration weights.query weights.queryNorm configuration.headCount

def keyRow : Nat → List K → List K :=
  projectionRow N configuration weights.key weights.keyNorm configuration.keyValueHeadCount

def valueRow (row : List K) : List K :=
  mulRow weights.value.rows weights.value.columns weights.value.get row

end

/-- the normalization weights of the heads: both, or none of them -/
def AttentionWeights.NormsFit (weights : AttentionWeights K)
    (configuration : AttentionConfiguration) : Prop :=
  match weights.queryNorm, weights.keyNorm with
  | none, none => True
  | some queryNorm, some keyNorm =>
    queryNorm.length = configuration.projectionHeadDimension ∧
    keyNorm.length = configuration.projectionHeadDimension ∧
    configuration.queryKeyNormEpsilon.isFinite = true ∧
    configuration.queryKeyNormEpsilon.notPositive = false
  | _, _ => False

/-- what `CpuAttention::execute` asks of the weights, for rows of this width -/
structure AttentionWeights.Fits (weights : AttentionWeights K)
    (configuration : AttentionConfiguration) (width : Nat) : Prop where
  heads : ¬ (configuration.headCount = 0 ∨ configuration.projectionHeadDimension = 0 ∨
    configuration.headCount > maxSize / configuration.projectionHeadDimension)
  keyValueHeads : ¬ (configuration.keyValueHeadCount = 0 ∨
    configuration.projectionHeadDimension = 0 ∨
    configuration.keyValueHeadCount > maxSize / configuration.projectionHeadDimension)
  grouped : configuration.headCount % configuration.keyValueHeadCount = 0
  query : weights.query.rows = width ∧
    weights.query.columns = configuration.headCount * configuration.projectionHeadDimension
  key : weights.key.rows = width ∧
    weights.key.columns = configuration.keyValueHeadCount * configuration.projectionHeadDimension
  value : weights.value.rows = width ∧
    weights.value.columns = configuration.keyValueHeadCount * configuration.projectionHeadDimension
  output : weights.output.rows = configuration.headCount * configuration.projectionHeadDimension ∧
    weights.output.columns = width
  theta : ¬ (configuration.ropeTheta.isFinite = false ∨ configuration.ropeTheta.notPositive = true)
  norms : weights.NormsFit configuration
  even : configuration.headDimension % 2 = 0
  /-- whole heads are rotated -/
  rotated : configuration.projectionHeadDimension = configuration.headDimension

section
variable {N : Numerics K} {weights : AttentionWeights K} {configuration : AttentionConfiguration}
  {hidden g g' : Grid K} {norm : Option (List K)} {headCount position : Nat}

@[simp] theorem length_ropeRow (theta : Binary32) (headCount headDimension position : Nat)
    (row : List K) :
    (ropeRow N theta headCount headDimension position row).length = headCount * headDimension := by
  rw [ropeRow, List.length_map, List.length_range]

@[simp] theorem length_headRmsNormRow (weight : List K) (headCount headDimension : Nat)
    (epsilon : Binary32) (row : List K) :
    (headRmsNormRow N weight headCount headDimension epsilon row).length =
      headCount * headDimension := by
  rw [headRmsNormRow, List.length_map, List.length_range]

theorem checkedWidth_eq_ok {heads dimension width : Nat} :
    CpuAttention.checkedWidth heads dimension = .ok width ↔
      ¬ (heads = 0 ∨ dimension = 0 ∨ heads > maxSize / dimension) ∧ width = heads * dimension := by
  unfold CpuAttention.checkedWidth
  rw [throwIf_bind_eq_ok, pure_eq_ok, @eq_comm _ width]

theorem applyHeadRmsNorm_eq_ok {values : Grid K} {weight : List K} {headDimension : Nat}
    {epsilon : Binary32} : applyHeadRmsNorm N values weight headCount headDimension epsilon = .ok g ↔
      (weight.length = headDimension ∧ epsilon.isFinite = true ∧ epsilon.notPositive = false) ∧
      g = values.mapRows (headCount * headDimension)
        (headRmsNormRow N weight headCount headDimension epsilon) := by
  unfold applyHeadRmsNorm
  rw [throwIf_bind_eq_ok, pure_eq_ok, @eq_comm _ g]
  push Not
  rw [Bool.ne_false_iff, ne_eq, Bool.not_eq_true]

/-- what `RoPE` asks of a tensor of this shape -/
def Rotates (theta : Binary32) (rows columns headCount headDimension position : Nat) : Prop :=
  ¬ (theta.isFinite = false ∨ theta.notPositive = true) ∧
  ¬ (rows = 0 ∨ headCount = 0 ∨ headDimension = 0 ∨ headDimension % 2 ≠ 0 ∨
    rows * columns ≠ rows * headCount * headDimension ∨ position + rows > maxSize)

theorem applyRoPE_eq_ok {values : Grid K} {theta : Binary32} {headDimension : Nat} :
    applyRoPE N theta values headCount headDimension position = .ok g ↔
      Rotates theta values.rows values.columns headCount headDimension position ∧
      g = values.mapRowsAt position (headCount * headDimension)
        (ropeRow N theta headCount headDimension) := by
  unfold Rotates
  unfold applyRoPE
  rw [throwIf_bind_eq_ok, throwIf_bind_eq_ok, pure_eq_ok, @eq_comm _ g, and_assoc]

/-- the heads of all rows, normalized -/
def headNormGrid (N : Numerics K) (configuration : AttentionConfiguration) (norm : Option (List K))
    (headCount : Nat) (values : Grid K) : Grid K :=
  norm.elim values fun weight => values.mapRows (headCount * configuration.projectionHeadDimension)
    (headRmsNormRow N weight headCount configuration.projectionHeadDimension
      configuration.queryKeyNormEpsilon)

theorem normalizeHeads_eq_ok {heads : Grid K × Grid K} :
    CpuAttention.normalizeHeads N weights configuration g g' = .ok heads ↔
      weights.NormsFit configuration ∧
      heads = (headNormGrid N configuration weights.queryNorm configuration.headCount g,
        headNormGrid N configuration weights.keyNorm configuration.keyValueHeadCount g') := by
  unfold CpuAttention.normalizeHeads AttentionWeights.NormsFit headNormGrid
  cases weights.queryNorm with
  | none =>
    cases weights.keyNorm with
    | none =>
      rw [pure_eq_ok, true_and, @eq_comm _ heads]
      rfl
    | some keyNorm => exact ⟨fun h => (nomatch h), fun h => absurd h.1 id⟩
  | some queryNorm =>
    cases weights.keyNorm with
    | none => exact ⟨fun h => (nomatch h), fun h => absurd h.1 id⟩
    | some keyNorm =>
      rw [bind_known fun _ => applyHeadRmsNorm_eq_ok, bind_known fun _ => applyHeadRmsNorm_eq_ok,
        pure_eq_ok, @eq_comm _ heads]
      constructor
      · rintro ⟨⟨hquery, hfinite, hpositive⟩, ⟨hkey, -⟩, rfl⟩
        exact ⟨⟨hquery, hkey, hfinite, hpositive⟩, rfl⟩
      · rintro ⟨⟨hquery, hkey, hfinite, hpositive⟩, rfl⟩
        exact ⟨⟨hquery, hfinite, hpositive⟩, ⟨hkey, hfinite, hpositive⟩, rfl⟩

/-- one projection after its head norm and its rotation -/
theorem mapRowsAt_headNormGrid (weight : Grid K) :
    (headNormGrid N configuration norm headCount
      (hidden.mapRows weight.columns (mulRow weight.rows weight.columns weight.get))).mapRowsAt
        position (headCount * configuration.headDimension)
        (ropeRow N configuration.ropeTheta headCount configuration.headDimension) =
    hidden.mapRowsAt position (headCount * configuration.headDimension)
      (projectionRow N configuration weight norm headCount) := by
  cases norm with
  | none =>
    show (hidden.mapRows _ _).mapRowsAt _ _ _ = _
    rw [Grid.mapRows_eq_mapRowsAt position,
      Grid.mapRowsAt_mapRowsAt fun _ row _ => length_mulRow _ _ _ row]
    rfl
  | some norm =>
    show ((hidden.mapRows _ _).mapRows _ _).mapRowsAt _ _ _ = _
    rw [Grid.mapRows_mapRows (length_mulRow _ _ _), Grid.mapRows_eq_mapRowsAt position,
      Grid.mapRowsAt_mapRowsAt fun _ _ _ => length_headRmsNormRow _ _ _ _ _]
    rfl

omit [Field K] in
theorem checkDimensions_eq_ok {queryWidth keyValueWidth : Nat} {u : Unit} :
    CpuAttention.checkDimensions hidden weights configuration queryWidth keyValueWidth = .ok u ↔
      (configuration.headCount % configuration.keyValueHeadCount = 0 ∧
        (weights.query.rows = hidden.columns ∧ weights.query.columns = queryWidth) ∧
        (weights.key.rows = hidden.columns ∧ weights.key.columns = keyValueWidth) ∧
        (weights.value.rows = hidden.columns ∧ weights.value.columns = keyValueWidth) ∧
        (weights.output.rows = queryWidth ∧ weights.output.columns = hidden.columns)) ∧
      ¬ (configuration.ropeTheta.isFinite = false ∨ configuration.ropeTheta.notPositive = true) ∧
      configuration.positionOffset + hidden.rows ≤ maxSize := by
  unfold CpuAttention.checkDimensions
  rw [throwIf_bind_eq_ok, throwIf_eq_ok]
  push Not
  constructor
  · rintro ⟨⟨hgrouped, hqr, hkr, hvr, hqc, hkc, hvc, hor, hoc⟩, htheta, hpositive, hposition⟩
    exact ⟨⟨hgrouped, ⟨hqr, hqc⟩, ⟨hkr, hkc⟩, ⟨hvr, hvc⟩, hor, hoc⟩, ⟨htheta, hpositive⟩, hposition⟩
  · rintro ⟨⟨hgrouped, ⟨hqr, hqc⟩, ⟨hkr, hkc⟩, ⟨hvr, hvc⟩, hor, hoc⟩, ⟨htheta, hpositive⟩, hposition⟩
    exact ⟨⟨hgrouped, hqr, hkr, hvr, hqc, hkc, hvc, hor, hoc⟩, htheta, hpositive, hposition⟩

/-- the heads of query and key rotated, if whole heads are -/
theorem rotate_eq_ok (hrotary : configuration.rotaryEmbedding = true) {query key : Grid K}
    {heads : Grid K × Grid K} :
    CpuAttention.rotate N configuration query key = .ok heads ↔
      (Rotates configuration.ropeTheta query.rows query.columns configuration.headCount
          configuration.headDimension configuration.positionOffset ∧
        Rotates configuration.ropeTheta key.rows key.columns configuration.keyValueHeadCount
          configuration.headDimension configuration.positionOffset) ∧
      heads = (query.mapRowsAt configuration.positionOffset
          (configuration.headCount * configuration.headDimension)
          (ropeRow N configuration.ropeTheta configuration.headCount configuration.headDimension),
        key.mapRowsAt configuration.positionOffset
          (configuration.keyValueHeadCount * configuration.headDimension)
          (ropeRow N configuration.ropeTheta configuration.keyValueHeadCount
            configuration.headDimension)) := by
  unfold CpuAttention.rotate
  rw [if_pos hrotary, bind_known fun _ => applyRoPE_eq_ok, bind_known fun _ => applyRoPE_eq_ok,
    pure_eq_ok, @eq_comm _ heads, and_assoc]

theorem headNormGrid_rows (values : Grid K) :
    (headNormGrid N configuration norm headCount values).rows = values.rows := by
  cases norm with
  | none => rfl
  | some norm => rfl

theorem headNormGrid_columns {width : Nat} {f : List K → List K}
    (h : width = headCount * configuration.projectionHeadDimension) :
    (headNormGrid N configuration norm headCount (hidden.mapRows width f)).columns =
      headCount * configuration.projectionHeadDimension := by
  cases norm with
  | none => exact h
  | some norm => rfl

/-- The projections are made if weights and configuration fit, and then row by row. -/
theorem project_eq_ok (hrotary : configuration.rotaryEmbedding = true) (hrows : hidden.rows ≠ 0)
    (hdimension : configuration.headDimension ≠ 0) {projected : Grid K × Grid K × Grid K} :
    CpuAttention.project N hidden weights configuration = .ok projected ↔
      (weights.Fits configuration hidden.columns ∧
        configuration.positionOffset + hidden.rows ≤ maxSize) ∧
      projected = (hidden.mapRowsAt configuration.positionOffset
          (configuration.headCount * configuration.headDimension) (queryRow N weights configuration),
        hidden.mapRowsAt configuration.positionOffset
          (configuration.keyValueHeadCount * configuration.headDimension)
          (keyRow N weights configuration),
        hidden.mapRows weights.value.columns (valueRow weights)) := by
  unfold CpuAttention.project
  rw [bind_known fun _ => checkedWidth_eq_ok, bind_known fun _ => checkedWidth_eq_ok,
    bind_known fun u => checkDimensions_eq_ok.trans (and_iff_left (Subsingleton.elim u ())).symm,
    bind_known fun _ => matmul_rows_eq_ok rfl, bind_known fun _ => matmul_rows_eq_ok rfl,
    bind_known fun _ => matmul_rows_eq_ok rfl, bind_known fun _ => normalizeHeads_eq_ok,
    bind_known fun _ => rotate_eq_ok hrotary, pure_eq_ok]
  simp only [mapRowsAt_headNormGrid, headNormGrid_rows, Grid.mapRows_rows]
  constructor
  · rintro ⟨hheads, hkeyValueHeads, ⟨⟨hgrouped, hquery, hkey, hvalue, houtput⟩, htheta, hposition⟩, -, -,
      -, hnorms, ⟨⟨-, hqueryRope⟩, -⟩, rfl⟩
    push Not at hqueryRope
    obtain ⟨-, hcount, -, heven, hcolumns, -⟩ := hqueryRope
    rw [headNormGrid_columns hquery.2, Nat.mul_assoc] at hcolumns
    have hrotated := Nat.eq_of_mul_eq_mul_left (Nat.pos_of_ne_zero hcount)
      (Nat.eq_of_mul_eq_mul_left (Nat.pos_of_ne_zero hrows) hcolumns)
    exact ⟨⟨⟨hheads, hkeyValueHeads, hgrouped, hquery, hkey, hvalue, houtput, htheta, hnorms, heven,
      hrotated⟩, hposition⟩, rfl⟩
  · rintro ⟨⟨h, hposition⟩, rfl⟩
    have hrope : ∀ (weight : Grid K) (norm : Option (List K)) (headCount : Nat), headCount ≠ 0 →
        weight.columns = headCount * configuration.projectionHeadDimension →
        Rotates configuration.ropeTheta hidden.rows (headNormGrid N configuration norm headCount
          (hidden.mapRows weight.columns (mulRow weight.rows weight.columns weight.get))).columns
          headCount configuration.headDimension configuration.positionOffset := by
      intro weight norm headCount hcount hcolumns
      refine ⟨h.theta, ?_⟩
      push Not
      refine ⟨hrows, hcount, hdimension, h.even, ?_, hposition⟩
      rw [headNormGrid_columns hcolumns, h.rotated, Nat.mul_assoc]
    have hheads := h.heads
    have hkeyValueHeads := h.keyValueHeads
    push Not at hheads hkeyValueHeads
    refine ⟨h.heads, h.keyValueHeads, ⟨⟨h.grouped, h.query, h.key, h.value, h.output⟩, h.theta,
      hposition⟩, ⟨h.query.1, h.query.2.symm⟩, ⟨h.key.1, h.key.2.symm⟩, ⟨h.value.1, h.value.2.symm⟩,
      h.norms, ⟨?_, ?_⟩, rfl⟩
    · exact hrope _ _ _ hheads.1 h.query.2
    · exact hrope _ _ _ hkeyValueHeads.1 h.key.2

theorem length_queryRow (position : Nat) (row : List K) :
    (queryRow N weights configuration position row).length =
      configuration.headCount * configuration.headDimension := length_ropeRow _ _ _ _ _

theorem length_keyRow (position : Nat) (row : List K) :
    (keyRow N weights configuration position row).length =
      configuration.keyValueHeadCount * configuration.headDimension := length_ropeRow _ _ _ _ _

theorem length_valueRow (row : List K) :
    (valueRow weights row).length = weights.value.columns := length_mulRow _ _ _ _

end

/-! ## the cache -/

/-- the tokens of a layer, as a head reads them -/
def cachedColumns (headDimension : Nat) (m : List (List K × List K)) : CachedColumns K where
  count := m.length
  position column := column
  key column head feature := (m.getD column ([], [])).1.getD (head * headDimension + feature) 0
  value column head feature := (m.getD column ([], [])).2.getD (head * headDimension + feature) 0

section
variable {configuration : AttentionConfiguration} {c c' : KVCache K} {layer : Nat}

/-- a snapshot shows the tokens of the layer -/
theorem agree_copy (hheads : c.keyValueHeads = configuration.keyValueHeadCount)
    (hdimension : c.headDimension = configuration.headDimension) :
    (cachedColumns configuration.headDimension (c.entries layer)).Agree
      configuration.keyValueHeadCount configuration.headDimension (c.copy layer).columns := by
  have hsized := c.sized_layer layer
  have hlength : (cachedColumns configuration.headDimension (c.entries layer)).count =
      (c.layer layer).positions.length := KVCache.length_entries
  have hentry : ∀ column < (c.layer layer).positions.length, (c.entries layer).getD column ([], []) =
      (Grid.rowAt (c.keyValueHeads * c.headDimension) (c.layer layer).keys column,
        Grid.rowAt (c.keyValueHeads * c.headDimension) (c.layer layer).values column) := by
    intro column hcolumn
    rw [List.getD_eq_getElem _ _ (by rwa [KVCache.length_entries])]
    simp only [KVCache.entries, LayerStorage.entries, List.getElem_map, List.getElem_range]
  have hget : ∀ (values : List K) (column head feature : Nat), head < c.keyValueHeads →
      feature < c.headDimension →
      values.getD ((column * c.keyValueHeads + head) * c.headDimension + feature) 0 =
      (Grid.rowAt (c.keyValueHeads * c.headDimension) values column).getD
        (head * c.headDimension + feature) 0 := by
    intro values column head feature hhead hfeature
    rw [Grid.getD_rowAt (Grid.address_lt hhead hfeature), Nat.add_mul, Nat.mul_assoc, Nat.add_assoc]
  refine ⟨hlength.symm, fun column hcolumn => ?_, fun column hcolumn head hhead feature hfeature => ?_,
    fun column hcolumn head hhead feature hfeature => ?_⟩
  · rw [hlength] at hcolumn
    show (c.layer layer).positions.getD column 0 = column
    rw [hsized.positions, List.getD_eq_getElem _ _ (by rwa [List.length_range]), List.getElem_range]
  · rw [hlength] at hcolumn
    rw [← hheads] at hhead
    rw [← hdimension] at hfeature
    show (c.layer layer).keys.getD _ 0 = ((c.entries layer).getD column ([], [])).1.getD _ 0
    rw [hentry column hcolumn, ← hdimension]
    exact hget _ column head feature hhead hfeature
  · rw [hlength] at hcolumn
    rw [← hheads] at hhead
    rw [← hdimension] at hfeature
    show (c.layer layer).values.getD _ 0 = ((c.entries layer).getD column ([], [])).2.getD _ 0
    rw [hentry column hcolumn, ← hdimension]
    exact hget _ column head feature hhead hfeature

/-- keys and values are appended to the cache, and what it then holds is read -/
theorem gives_remember (hcache : configuration.kvCache = true) {key value : Grid K}
    (hkey : key.columns = configuration.keyValueHeadCount * configuration.headDimension)
    (hvalue : value.columns = configuration.keyValueHeadCount * configuration.headDimension)
    (hrows : key.rows = value.rows) (hne : key.rows ≠ 0) {cached : KVCacheSnapshot K} :
    Fallible.Gives (CpuAttention.remember configuration key value) c cached c' ↔
      (c.keyValueHeads = configuration.keyValueHeadCount ∧
        c.headDimension = configuration.headDimension) ∧
      c.Appends configuration.layerIndex configuration.positionOffset
        ((List.range key.rows).map fun token => (key.row token, value.row token)) c' ∧
      cached = c'.copy configuration.layerIndex := by
  have hkeyView := reshape_eq_ok hkey
  have hvalueView := reshape_eq_ok hvalue
  unfold CpuAttention.remember
  rw [if_pos hcache, Fallible.gives_read_bind, Fallible.gives_throwIf_bind, hkeyView, hvalueView,
    Fallible.gives_ok_bind, Fallible.gives_ok_bind, Fallible.gives_bind]
  push Not
  constructor
  · rintro ⟨hdimensions, _, c₁, happend, h⟩
    obtain ⟨-, hcached, rfl⟩ := KVCache.gives_snapshot.mp h
    obtain ⟨-, -, happends⟩ :=
      (KVCache.extended_iff hkey hvalue hrows).mp (KVCache.gives_append.mp happend)
    exact ⟨hdimensions, happends, hcached⟩
  · rintro ⟨hdimensions, happends, rfl⟩
    refine ⟨hdimensions, (), c', ?_, KVCache.gives_snapshot.mpr ⟨?_, rfl, rfl⟩⟩
    · exact KVCache.gives_append.mpr
        ((KVCache.extended_iff hkey hvalue hrows).mpr ⟨hdimensions, hne, happends⟩)
    · rw [happends.layers, List.length_set]
      exact happends.layer_lt

end

/-! ## the answer -/

variable [LinearOrder K]

/-- the heads side by side -/
def contextRow (N : Numerics K) (configuration : AttentionConfiguration) (cached : CachedColumns K)
    (position : Nat) (query : List K) : List K :=
  (List.range (configuration.headCount * configuration.headDimension)).map fun column =>
    (headValues N configuration cached position query (column / configuration.headDimension)).getD
      (column % configuration.headDimension) 0

/-- every head of the row can be normalized -/
def Attends (N : Numerics K) (weights : AttentionWeights K) (configuration : AttentionConfiguration)
    (m : List (List K × List K)) (position : Nat) (row : List K) : Prop :=
  ∀ head < configuration.headCount, 0 < denominator N configuration
    (cachedColumns configuration.headDimension m) position
    (queryRow N weights configuration position row) head

/-- the answer to a row, from a cache with these tokens -/
def attentionRow (N : Numerics K) (weights : AttentionWeights K)
    (configuration : AttentionConfiguration) (m : List (List K × List K)) (position : Nat)
    (row : List K) : List K :=
  mulRow weights.output.rows weights.output.columns weights.output.get
    (contextRow N configuration (cachedColumns configuration.headDimension m) position
      (queryRow N weights configuration position row))

section
variable {N : Numerics K} {weights : AttentionWeights K} {configuration : AttentionConfiguration}
  {cached cached' : CachedColumns K} {hidden query g : Grid K} {position : Nat} {row : List K}
  {m : List (List K × List K)}

@[simp] theorem length_contextRow :
    (contextRow N configuration cached position row).length =
      configuration.headCount * configuration.headDimension := by
  rw [contextRow, List.length_map, List.length_range]

theorem div_lt_of_mem_range {column headCount headDimension : Nat}
    (h : column ∈ List.range (headCount * headDimension)) : column / headDimension < headCount := by
  rw [List.mem_range] at h
  exact Nat.div_lt_of_lt_mul (Nat.mul_comm headCount headDimension ▸ h)

omit [Field K] [LinearOrder K] in
/-- every head has a head of the cache -/
theorem keyValueHead_lt {head width : Nat} (h : weights.Fits configuration width)
    (hhead : head < configuration.headCount) :
    keyValueHead configuration head < configuration.keyValueHeadCount := by
  have hdiv : configuration.keyValueHeadCount *
      (configuration.headCount / configuration.keyValueHeadCount) = configuration.headCount :=
    Nat.mul_div_cancel' (Nat.dvd_of_mod_eq_zero h.grouped)
  apply Nat.div_lt_of_lt_mul
  rw [Nat.mul_comm, hdiv]
  exact hhead

theorem contextRow_congr {heads : Nat}
    (hheads : ∀ head < configuration.headCount, keyValueHead configuration head < heads)
    (h : cached.Agree heads configuration.headDimension cached') :
    contextRow N configuration cached' position row = contextRow N configuration cached position row := by
  apply List.map_congr_left
  intro column hcolumn
  rw [headValues_congr h (hheads _ (div_lt_of_mem_range hcolumn))]

theorem contextRow_masked {n : Nat} (h : Masked configuration cached position n) :
    contextRow N configuration (cached.upTo n) position row =
      contextRow N configuration cached position row := by
  apply List.map_congr_left
  intro column _
  rw [headValues_masked h]

theorem attend_eq_ok (hcolumns : query.columns = configuration.headCount * configuration.headDimension) :
    CpuAttention.attend N configuration cached query = .ok g ↔
      (∀ head ∈ List.range configuration.headCount, ∀ row ∈ List.range query.rows,
        ¬ denominator N configuration cached (configuration.positionOffset + row) (query.row row)
          head ≤ 0) ∧
      g = query.mapRowsAt configuration.positionOffset
        (configuration.headCount * configuration.headDimension)
        (contextRow N configuration cached) := by
  have hhead : ∀ (row head : Nat) (values : List K),
      headContext N configuration cached (configuration.positionOffset + row) (query.row row) head =
        .ok values ↔
      ¬ denominator N configuration cached (configuration.positionOffset + row) (query.row row)
        head ≤ 0 ∧
      values = headValues N configuration cached (configuration.positionOffset + row)
        (query.row row) head := by
    intro row head values
    unfold headContext
    rw [throwIf_bind_eq_ok, pure_eq_ok, @eq_comm _ values]
  have hcontext : (Grid.generate query.rows query.columns fun row column =>
      (((((List.range configuration.headCount).map fun head => (List.range query.rows).map fun row =>
        headValues N configuration cached (configuration.positionOffset + row) (query.row row)
          head).getD (column / configuration.headDimension) []).getD row []).getD
        (column % configuration.headDimension) 0)) =
      query.mapRowsAt configuration.positionOffset query.columns
        (contextRow N configuration cached) := by
    refine Grid.ext_get rfl rfl fun row hrow column hcolumn => ?_
    have hrow' : row < query.rows := hrow
    have hcolumn' : column < query.columns := hcolumn
    have hmem : column ∈ List.range (configuration.headCount * configuration.headDimension) := by
      rw [← hcolumns]
      exact List.mem_range.mpr hcolumn'
    rw [Grid.get_generate _ hrow' hcolumn', Grid.get_mapRowsAt _ hrow' hcolumn', contextRow,
      Grid.getD_map_range _ (List.mem_range.mp hmem),
      Grid.getD_map_range _ (div_lt_of_mem_range hmem), Grid.getD_map_range _ hrow']
  unfold CpuAttention.attend
  rw [bind_known fun _ => collect_known fun head _ => collect_known fun row _ => hhead row head _,
    pure_eq_ok, hcontext, hcolumns, @eq_comm _ g]

/-- what the attention does: the tokens go to the cache, and every row is answered from it -/
structure Attended (N : Numerics K) (weights : AttentionWeights K)
    (configuration : AttentionConfiguration) (hidden : Grid K) (c c' : KVCache K) (out : Grid K) :
    Prop where
  fits : weights.Fits configuration hidden.columns
  position : configuration.positionOffset + hidden.rows ≤ maxSize
  keyValueHeads : c.keyValueHeads = configuration.keyValueHeadCount
  headDimension : c.headDimension = configuration.headDimension
  appends : c.Appends configuration.layerIndex configuration.positionOffset
    (hidden.rowList.mapIdx fun i row =>
      (keyRow N weights configuration (configuration.positionOffset + i) row, valueRow weights row)) c'
  attends : ∀ i < hidden.rows, Attends N weights configuration (c'.entries configuration.layerIndex)
    (configuration.positionOffset + i) (hidden.row i)
  output : out = hidden.mapRowsAt configuration.positionOffset hidden.columns
    (attentionRow N weights configuration (c'.entries configuration.layerIndex))

omit [LinearOrder K] in
theorem tokens_eq :
    ((List.range hidden.rows).map fun token =>
      ((hidden.mapRowsAt configuration.positionOffset
          (configuration.keyValueHeadCount * configuration.headDimension)
          (keyRow N weights configuration)).row token,
        (hidden.mapRows weights.value.columns (valueRow weights)).row token)) =
      hidden.rowList.mapIdx fun i row =>
        (keyRow N weights configuration (configuration.positionOffset + i) row,
          valueRow weights row) := by
  apply List.ext_getElem
  · rw [List.length_map, List.length_range, List.length_mapIdx, Grid.length_rowList]
  · intro i hi hi'
    have hlt : i < hidden.rows := by rwa [List.length_map, List.length_range] at hi
    rw [List.getElem_map, List.getElem_range, List.getElem_mapIdx, Grid.getElem_rowList,
      Grid.row_mapRowsAt (fun position row _ => length_keyRow position row) hlt,
      Grid.row_mapRows length_valueRow hlt]

/-- query, context and output are one pass over the rows -/
theorem mapRows_contextRow (hfits : weights.Fits configuration hidden.columns)
    (h : (cachedColumns configuration.headDimension m).Agree configuration.keyValueHeadCount
      configuration.headDimension cached) :
    ((hidden.mapRowsAt configuration.positionOffset
      (configuration.headCount * configuration.headDimension)
      (queryRow N weights configuration)).mapRowsAt configuration.positionOffset
        (configuration.headCount * configuration.headDimension)
        (contextRow N configuration cached)).mapRows weights.output.columns
          (mulRow weights.output.rows weights.output.columns weights.output.get) =
      hidden.mapRowsAt configuration.positionOffset hidden.columns
        (attentionRow N weights configuration m) := by
  rw [Grid.mapRowsAt_mapRowsAt fun position row _ => length_queryRow position row,
    Grid.mapRows_eq_mapRowsAt configuration.positionOffset,
    Grid.mapRowsAt_mapRowsAt fun _ _ _ => length_contextRow, ← hfits.output.2]
  congr 1
  funext position row
  rw [contextRow_congr (fun _ => keyValueHead_lt hfits) h]
  rfl

theorem gives_execute (hrotary : configuration.rotaryEmbedding = true)
    (hcache : configuration.kvCache = true) (hdimension : configuration.headDimension ≠ 0)
    (hrows : hidden.rows ≠ 0) {c c' : KVCache K} {out : Grid K} :
    (∃ r, Fallible.Gives (CpuAttention.execute N hidden weights configuration) c r c' ∧
      r.output = out) ↔ Attended N weights configuration hidden c c' out := by
  have hinfer : CpuAttention.inferHeadDimension configuration weights.query.columns =
      .ok configuration := if_neg hdimension
  have hkey : (hidden.mapRowsAt configuration.positionOffset
      (configuration.keyValueHeadCount * configuration.headDimension)
      (keyRow N weights configuration)).columns =
        configuration.keyValueHeadCount * configuration.headDimension := rfl
  have hvalue : weights.Fits configuration hidden.columns →
      (hidden.mapRows weights.value.columns (valueRow weights)).columns =
        configuration.keyValueHeadCount * configuration.headDimension := by
    intro hfits
    rw [Grid.mapRows_columns, hfits.value.2, hfits.rotated]
  have hquery : ∀ i < hidden.rows, (hidden.mapRowsAt configuration.positionOffset
      (configuration.headCount * configuration.headDimension) (queryRow N weights configuration)).row i =
        queryRow N weights configuration (configuration.positionOffset + i) (hidden.row i) :=
    fun i hi => Grid.row_mapRowsAt (fun position row _ => length_queryRow position row) hi
  have hcontext : weights.Fits configuration hidden.columns →
      (hidden.mapRowsAt configuration.positionOffset
        (configuration.headCount * configuration.headDimension)
        (queryRow N weights configuration)).columns = weights.output.rows := by
    intro hfits
    rw [Grid.mapRowsAt_columns, hfits.output.1, hfits.rotated]
  have hrows' : ∀ cached : CachedColumns K, hidden.rows = ((hidden.mapRowsAt
      configuration.positionOffset (configuration.headCount * configuration.headDimension)
      (queryRow N weights configuration)).mapRowsAt configuration.positionOffset
        (configuration.headCount * configuration.headDimension)
        (contextRow N configuration cached)).rows := fun _ => rfl
  have hshown : c.keyValueHeads = configuration.keyValueHeadCount →
      c.headDimension = configuration.headDimension → ∀ {new}, c.Appends configuration.layerIndex
        configuration.positionOffset new c' →
      (cachedColumns configuration.headDimension (c'.entries configuration.layerIndex)).Agree
        configuration.keyValueHeadCount configuration.headDimension
        (c'.copy configuration.layerIndex).columns := by
    intro hheads hdim new happends
    exact agree_copy (happends.keyValueHeads.trans hheads) (happends.headDimension.trans hdim)
  unfold CpuAttention.execute
  rw [hinfer]
  constructor
  · rintro ⟨r, h, rfl⟩
    rw [Fallible.gives_ok_bind,
      Fallible.gives_known_bind fun _ => project_eq_ok hrotary hrows hdimension] at h
    obtain ⟨⟨hfits, hposition⟩, h⟩ := h
    obtain ⟨cached, c₁, hremember, h⟩ := Fallible.gives_bind.mp h
    obtain ⟨⟨hheads, hdim⟩, happends, rfl⟩ :=
      (gives_remember hcache hkey (hvalue hfits) rfl hrows).mp hremember
    rw [Fallible.gives_known_bind fun _ => attend_eq_ok rfl,
      Fallible.gives_known_bind fun _ => matmul_rows_eq_ok (hrows' _), Fallible.gives_pure] at h
    obtain ⟨hdenominator, -, rfl, rfl⟩ := h
    have hagree := hshown hheads hdim happends
    rw [Grid.mapRowsAt_rows, tokens_eq] at happends
    refine ⟨hfits, hposition, hheads, hdim, happends, fun i hi head hhead => ?_, ?_⟩
    · have hpositive := hdenominator head (List.mem_range.mpr hhead) i (List.mem_range.mpr hi)
      rw [hquery i hi, denominator_congr hagree (keyValueHead_lt hfits hhead), not_le] at hpositive
      exact hpositive
    · exact mapRows_contextRow hfits hagree
  · intro h
    have happends := h.appends
    rw [← tokens_eq] at happends
    have hagree := hshown h.keyValueHeads h.headDimension happends
    have hremember := (gives_remember hcache hkey (hvalue h.fits) rfl hrows).mpr
      ⟨⟨h.keyValueHeads, h.headDimension⟩, happends, rfl⟩
    have hpositive : ∀ head ∈ List.range configuration.headCount, ∀ i ∈ List.range hidden.rows,
        ¬ denominator N configuration (c'.copy configuration.layerIndex).columns
          (configuration.positionOffset + i) ((hidden.mapRowsAt configuration.positionOffset
            (configuration.headCount * configuration.headDimension)
            (queryRow N weights configuration)).row i) head ≤ 0 := by
      intro head hhead i hi
      have hhead' := List.mem_range.mp hhead
      have hi' := List.mem_range.mp hi
      rw [hquery i hi', denominator_congr hagree (keyValueHead_lt h.fits hhead'), not_le]
      exact h.attends i hi' head hhead'
    exact ⟨_, Fallible.gives_ok_bind.mpr ((Fallible.gives_known_bind fun _ =>
      project_eq_ok hrotary hrows hdimension).mpr ⟨⟨h.fits, h.position⟩,
      Fallible.gives_bind.mpr ⟨_, c', hremember,
        (Fallible.gives_known_bind fun _ => attend_eq_ok rfl).mpr ⟨hpositive,
          (Fallible.gives_known_bind fun _ => matmul_rows_eq_ok (hrows' _)).mpr
            ⟨⟨(hcontext h.fits).symm, h.fits.output.2.symm⟩, Fallible.gives_pure.mpr ⟨rfl, rfl⟩⟩⟩⟩⟩),
      (mapRows_contextRow h.fits hagree).trans h.output.symm⟩

/-! ## what lies behind the row -/

omit [LinearOrder K] in
theorem agree_take (headDimension heads dimension n : Nat) (hn : n ≤ m.length) :
    ((cachedColumns headDimension m).upTo n).Agree heads dimension
      (cachedColumns headDimension (m.take n)) := by
  have hget : ∀ column < n, (m.take n).getD column ([], []) = m.getD column ([], []) := by
    intro column hcolumn
    rw [List.getD_eq_getElem _ _ (by rw [List.length_take]; omega), List.getElem_take,
      List.getD_eq_getElem _ _ (by omega)]
  refine ⟨?_, fun _ _ => rfl, fun column hcolumn head _ feature _ => ?_,
    fun column hcolumn head _ feature _ => ?_⟩
  · show (m.take n).length = n
    rw [List.length_take, Nat.min_eq_left hn]
  · show ((m.take n).getD column ([], [])).1.getD _ 0 = (m.getD column ([], [])).1.getD _ 0
    rw [hget column hcolumn]
  · show ((m.take n).getD column ([], [])).2.getD _ 0 = (m.getD column ([], [])).2.getD _ 0
    rw [hget column hcolumn]

omit [LinearOrder K] in
theorem masked_cachedColumns (hcausal : configuration.causal = true) (h : position < m.length) :
    Masked configuration (cachedColumns configuration.headDimension m) position (position + 1) :=
  ⟨hcausal, h, fun _ hcolumn _ => hcolumn⟩

omit [Field K] [LinearOrder K] in
theorem keyValueHead_lt_headCount {head : Nat} (h : head < configuration.headCount) :
    keyValueHead configuration head < configuration.headCount :=
  Nat.lt_of_le_of_lt (Nat.div_le_self _ _) h

theorem attends_take (hcausal : configuration.causal = true) (h : position < m.length) :
    Attends N weights configuration (m.take (position + 1)) position row ↔
      Attends N weights configuration m position row := by
  refine forall₂_congr fun head hhead => ?_
  rw [denominator_congr (agree_take _ _ _ _ h) (keyValueHead_lt_headCount hhead),
    denominator_masked (masked_cachedColumns hcausal h)]

theorem attentionRow_take (hcausal : configuration.causal = true) (h : position < m.length) :
    attentionRow N weights configuration (m.take (position + 1)) position row =
      attentionRow N weights configuration m position row := by
  unfold attentionRow
  rw [contextRow_congr (fun _ => keyValueHead_lt_headCount) (agree_take _ _ _ _ h),
    contextRow_masked (masked_cachedColumns hcausal h)]

end

end HyperMoE.Transformer
