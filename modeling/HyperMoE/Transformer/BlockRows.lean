import HyperMoE.Transformer.AttentionRows
import HyperMoE.Transformer.TransformerModelRuntime

/-!
# A layer, row by row

* `moeRow`, `Answers`        the mixture of experts on the row of one token;
* `LayerTensors.Fits`        what the checks of a layer ask of its tensors;
* `blockRow`, `BlockAnswers` the whole layer on the row of one token;
* `gives_block`              `TransformerBlock::execute`, in these terms.
-/

namespace HyperMoE.Transformer

open Lib Lib.Outcome Tensor Models Router Experts
open HyperMoE.Runtime

variable {K : Type} [Field K] [LinearOrder K]

/-! ## the mixture of experts -/

namespace MoELayer

/-- the router configuration is valid, and the router fits rows of this width -/
def RouterFits (moe : MoELayer K) (router : Grid K) (width : Nat) : Prop :=
  (moe.config.validate.exec true).1 = .ok () ∧ width = router.rows ∧
    router.columns = moe.config.expertCount.toNat

variable (N : Numerics K) (moe : MoELayer K) (layerId : LayerId) (router : Grid K) (width : Nat)

/-- the row is routed, and to experts that take it -/
def Answers (row : List K) : Prop :=
  ∃ d, routeToken N layerId row router width moe.config = .ok d ∧
    ∀ expert ∈ d.selectedExpertIds, mlpAccepts moe.weights layerId expert width width

def moeRow (row : List K) : List K :=
  (List.range width).map fun h =>
    (routeToken N layerId row router width moe.config).toOption.elim 0 fun d =>
      mixture d (mlpRows N moe.activation moe.weights layerId) row h

variable {N moe layerId router width} {g out : Grid K}

@[simp] theorem length_moeRow (row : List K) :
    (moe.moeRow N layerId router width row).length = width := by
  rw [moeRow, List.length_map, List.length_range]

omit [Field K] [LinearOrder K] in
theorem routerFits_iff :
    validateInputs g router moe.config = .ok () ↔ moe.RouterFits router g.columns := by
  unfold validateInputs RouterFits
  rw [bind_eq_ok]
  constructor
  · rintro ⟨u, hconfig, h⟩
    rw [throwIf_eq_ok] at h
    push Not at h
    exact ⟨hconfig, h⟩
  · rintro ⟨hconfig, h⟩
    refine ⟨(), hconfig, ?_⟩
    rw [throwIf_eq_ok]
    push Not
    exact h

omit [LinearOrder K] in
theorem width_of_accepts {expert : ExpertId} {inputWidth outputWidth : Nat}
    (h : mlpAccepts moe.weights layerId expert inputWidth outputWidth) :
    (mlpRuntime N moe.activation moe.weights).outputWidth layerId expert = .ok outputWidth := by
  obtain ⟨binding, hbinding, haccepts⟩ := h
  show (requireWeights moe.weights layerId expert >>= _) = _
  unfold requireWeights
  rw [hbinding]
  exact congrArg Except.ok haccepts.output

/-- the output of the layer, row by row -/
theorem output_eq_mapRows {r : BatchLayerExecutionResult K}
    (h : moe.executeExpertsBatch N layerId g router = .ok r)
    (hcolumns : r.output.columns = g.columns) :
    r.output = g.mapRows g.columns (moe.moeRow N layerId router g.columns) := by
  obtain ⟨hroute, hmixes⟩ :=
    (executeBatch_mixes (rowWise_mlp N moe.activation moe.weights)).1 r h
  obtain ⟨-, htokens, -, -⟩ := routeBatch_eq_ok.mp hroute
  refine Grid.ext_get hmixes.rows hcolumns fun t ht c hc => ?_
  have ht' : t < g.rows := by rwa [hmixes.rows] at ht
  have htoken : t < r.routing.tokens.length := by rwa [hmixes.tokens]
  have hc' : c < g.columns := by rwa [hcolumns] at hc
  rw [hmixes.output t htoken c hc, Grid.get_mapRows _ ht' hc', moeRow, Grid.getD_map_range _ hc',
    (collect_range_eq_ok.mp htokens).2 t htoken]
  rfl

/-- The layer answers a batch if it answers each of its rows. -/
theorem executeExpertsBatch_iff (hrows : g.rows ≠ 0) :
    (∃ r, moe.executeExpertsBatch N layerId g router = .ok r ∧ r.output.columns = g.columns ∧
      r.output = out) ↔
      moe.RouterFits router g.columns ∧
      (∀ i < g.rows, moe.Answers N layerId router g.columns (g.row i)) ∧
      out = g.mapRows g.columns (moe.moeRow N layerId router g.columns) := by
  have hE := rowWise_mlp N moe.activation moe.weights
  constructor
  · rintro ⟨r, h, hcolumns, rfl⟩
    have houtput := output_eq_mapRows h hcolumns
    obtain ⟨hroute, -, hbatches, first, -, width, -, hrun, hcombine⟩ := executeBatch_eq_ok.mp h
    obtain ⟨hinputs, htokens, -, -⟩ := routeBatch_eq_ok.mp hroute
    obtain ⟨hlength, hget⟩ := collect_range_eq_ok.mp htokens
    have hdecided := (routeBatch_decided hroute).2
    have hwidth : width = g.columns := by
      rw [← hcolumns, hcombine, columns_combineOutputs]
    refine ⟨routerFits_iff.mp hinputs, fun i hi => ?_, houtput⟩
    have hi' : i < r.routing.tokens.length := by rwa [hlength]
    refine ⟨r.routing.tokens[i], hget i hi', fun expert hexpert => ?_⟩
    obtain ⟨group, hgroup, rfl⟩ := ((routeBatch_groups hroute).mem_experts hdecided).mpr
      ⟨_, List.getElem_mem hi', hexpert⟩
    have haccepts := ((runBatches_eq_ok hE).mp hrun).1 (batchOf layerId group)
      (hbatches ▸ List.mem_map_of_mem hgroup)
    rwa [hwidth] at haccepts
  · rintro ⟨hfits, hanswers, rfl⟩
    have hrouted : ∀ t ∈ List.range g.rows,
        ∃ d, routeToken N layerId (g.row t) router g.columns moe.config = .ok d :=
      fun t ht => (hanswers t (List.mem_range.mp ht)).imp fun d hd => hd.1
    obtain ⟨tokens, htokens⟩ := exists_collect hrouted
    obtain ⟨routing, hroute, rfl⟩ : ∃ routing, routeBatch N layerId g router moe.config =
        .ok routing ∧ routing.tokens = tokens :=
      ⟨⟨layerId, tokens, (({} : Grouped ExpertId (ExpertTokenGroup K)).placeAll groupOps
        (assignments tokens)).groups.insertionSort fun left right =>
          left.expertId ≤ right.expertId⟩,
        routeBatch_eq_ok.mpr ⟨routerFits_iff.mpr hfits, htokens, rfl, rfl⟩, rfl⟩
    have haccepts : ∀ group ∈ routing.expertGroups, mlpAccepts moe.weights layerId group.expertId g.columns g.columns := by
      intro group hgroup
      obtain ⟨d, hd, hexpert⟩ := ((routeBatch_groups hroute).mem_experts
        (routeBatch_decided hroute).2).mp ⟨group, hgroup, rfl⟩
      obtain ⟨i, hi, rfl⟩ := List.getElem_of_mem hd
      obtain ⟨hlength, hget⟩ := collect_range_eq_ok.mp htokens
      obtain ⟨d', hd', hall⟩ := hanswers i (hlength ▸ hi)
      obtain rfl := Except.ok.inj ((hget i hi).symm.trans hd')
      exact hall _ hexpert
    obtain ⟨r, hr⟩ := (executeBatch_mixes hE).2 _ g.columns hroute hrows fun group hgroup =>
      ⟨width_of_accepts (haccepts group hgroup), haccepts group hgroup⟩
    have hcolumns : r.output.columns = g.columns := by
      obtain ⟨hroute', -, hbatches, first, hfirst, width, hwidth, -, hcombine⟩ :=
        executeBatch_eq_ok.mp hr
      obtain rfl := Except.ok.inj (hroute'.symm.trans hroute)
      rw [hbatches] at hfirst
      obtain ⟨group, hgroup, rfl⟩ := List.mem_map.mp (List.mem_of_head? hfirst)
      obtain rfl := Except.ok.inj (hwidth.symm.trans (width_of_accepts (haccepts group hgroup)))
      rw [hcombine, columns_combineOutputs]
    exact ⟨r, hr, hcolumns, output_eq_mapRows hr hcolumns⟩

end MoELayer

/-! ## the context -/

namespace InferenceContext

variable {context context' : InferenceContext K}

omit [Field K] [LinearOrder K] in
theorem validate_empty (hbatch : context.batchSize ≠ 0) (hhidden : context.hiddenDimension ≠ 0)
    (hrouting : context.routingDecisions = []) : context.validate = .ok () := by
  unfold validate
  rw [hrouting]
  refine throwIf_bind_eq_ok.mpr ⟨?_, throwIf_bind_eq_ok.mpr ⟨?_, throwIf_eq_ok.mpr ?_⟩⟩
  · push Not
    exact ⟨hbatch, hhidden⟩
  · exact fun h => h.1 rfl
  · exact fun ⟨_, h, _⟩ => nomatch h

omit [Field K] [LinearOrder K] in
theorem context_of_recordRouting {routing : BatchRouterDecision K} {u : Unit}
    (h : Fallible.Gives (recordRouting routing) context u context') :
    context' = { context with routingDecisions := routing.tokens } := by
  unfold recordRouting at h
  rw [Fallible.gives_read_bind, Fallible.gives_throwIf_bind, Fallible.gives_update_bind,
    Fallible.gives_read_bind, Fallible.gives_settle] at h
  exact h.2.2.symm

omit [Field K] [LinearOrder K] in
/-- a valid decision for this layer and this batch is recorded -/
theorem gives_recordRouting {routing : BatchRouterDecision K} (hvalid : routing.valid)
    (hlayer : routing.layerId = context.layerIndex)
    (htokens : routing.tokens.length = context.batchSize) (hhidden : context.hiddenDimension ≠ 0) :
    Fallible.Gives (recordRouting routing) context ()
      { context with routingDecisions := routing.tokens } := by
  unfold recordRouting
  rw [Fallible.gives_read_bind, Fallible.gives_throwIf_bind, Fallible.gives_update_bind,
    Fallible.gives_read_bind, Fallible.gives_settle]
  refine ⟨?_, ?_, rfl⟩
  · push Not
    exact ⟨hvalid, hlayer, htokens⟩
  · unfold validate
    refine throwIf_bind_eq_ok.mpr ⟨?_, throwIf_bind_eq_ok.mpr ⟨?_, throwIf_eq_ok.mpr ?_⟩⟩
    · push Not
      refine ⟨?_, hhidden⟩
      rw [← htokens]
      exact fun hzero => hvalid.1 (List.eq_nil_of_length_eq_zero hzero)
    · exact fun h => h.2 htokens
    · rintro ⟨decision, hdecision, h⟩
      obtain ⟨hdec, hid⟩ := hvalid.2.1 decision hdecision
      rcases h with h | h
      · exact h hdec
      · exact h (hid.trans hlayer)

end InferenceContext

/-! ## the layer -/

section
variable (N : Numerics K) (block : TransformerBlock K) (tensors : LayerTensors K)
  (configuration : AttentionConfiguration) (layerId : LayerId) (width : Nat)

/-- what the checks of a layer ask of its tensors, for rows of this width -/
structure LayerTensors.Fits : Prop where
  input : width = block.inputNormalization.hiddenDimension ∧
    tensors.inputNorm.length = block.inputNormalization.hiddenDimension
  attention : tensors.attention.Fits configuration width
  postAttention : width = block.normalization.hiddenDimension ∧
    tensors.postAttentionNorm.length = block.normalization.hiddenDimension
  router : block.moe.RouterFits tensors.router width

def inputRow (row : List K) : List K :=
  rmsNormRow N block.inputNormalization tensors.inputNorm row

def residualRow (m : List (List K × List K)) (position : Nat) (row : List K) : List K :=
  List.zipWith (· + ·) row
    (attentionRow N tensors.attention configuration m position (inputRow N block tensors row))

def normalizedRow (m : List (List K × List K)) (position : Nat) (row : List K) : List K :=
  rmsNormRow N block.normalization tensors.postAttentionNorm
    (residualRow N block tensors configuration m position row)

def BlockAnswers (m : List (List K × List K)) (position : Nat) (row : List K) : Prop :=
  Attends N tensors.attention configuration m position (inputRow N block tensors row) ∧
    block.moe.Answers N layerId tensors.router width
      (normalizedRow N block tensors configuration m position row)

/-- the answer of the layer -/
def blockRow (m : List (List K × List K)) (position : Nat) (row : List K) : List K :=
  List.zipWith (· + ·) (residualRow N block tensors configuration m position row)
    (block.moe.moeRow N layerId tensors.router width
      (normalizedRow N block tensors configuration m position row))

/-- what goes to the cache -/
def tokenOf (position : Nat) (row : List K) : List K × List K :=
  (keyRow N tensors.attention configuration position (inputRow N block tensors row),
    valueRow tensors.attention (inputRow N block tensors row))

end

section
variable {N : Numerics K} {block : TransformerBlock K} {tensors : LayerTensors K}
  {configuration : AttentionConfiguration} {layerId : LayerId} {width position : Nat}
  {m : List (List K × List K)} {row : List K}

omit [LinearOrder K] in
theorem length_inputRow :
    (inputRow N block tensors row).length = block.inputNormalization.hiddenDimension :=
  length_rmsNormRow _ _ _ _

theorem length_normalizedRow :
    (normalizedRow N block tensors configuration m position row).length =
      block.normalization.hiddenDimension := length_rmsNormRow _ _ _ _

theorem length_residualRow (hfits : tensors.Fits block configuration width)
    (hrow : row.length = width) :
    (residualRow N block tensors configuration m position row).length = width := by
  rw [residualRow, List.length_zipWith, hrow, attentionRow, length_mulRow, hfits.attention.output.2,
    Nat.min_self]

theorem length_blockRow (hfits : tensors.Fits block configuration width)
    (hrow : row.length = width) :
    (blockRow N block tensors configuration layerId width m position row).length = width := by
  rw [blockRow, List.length_zipWith, length_residualRow hfits hrow, MoELayer.length_moeRow,
    Nat.min_self]

variable {hidden : Grid K}

/-- the input of the attention plus its output -/
theorem zipWith_residual (hfits : tensors.Fits block configuration hidden.columns) :
    Grid.zipWith (· + ·) hidden ((hidden.mapRows hidden.columns
      (inputRow N block tensors)).mapRowsAt position hidden.columns
        (attentionRow N tensors.attention configuration m)) =
      hidden.mapRowsAt position hidden.columns (residualRow N block tensors configuration m) := by
  have hattention : ∀ p (row : List K), (attentionRow N tensors.attention configuration m p
      (inputRow N block tensors row)).length = hidden.columns := by
    intro p row
    rw [attentionRow, length_mulRow, hfits.attention.output.2]
  rw [Grid.mapRows_eq_mapRowsAt position, Grid.mapRowsAt_mapRowsAt fun _ _ _ =>
    length_inputRow.trans hfits.input.1.symm]
  conv_lhs => arg 2; rw [← @Grid.mapRowsAt_id _ _ hidden position]
  rw [Grid.zipWith_mapRowsAt (fun _ _ h => h) fun p row _ => hattention p row]
  rfl

theorem mapRows_normalized (hfits : tensors.Fits block configuration hidden.columns) :
    (hidden.mapRowsAt position hidden.columns
      (residualRow N block tensors configuration m)).mapRows block.normalization.hiddenDimension
        (rmsNormRow N block.normalization tensors.postAttentionNorm) =
      hidden.mapRowsAt position hidden.columns (normalizedRow N block tensors configuration m) := by
  rw [← hfits.postAttention.1, Grid.mapRows_eq_mapRowsAt position,
    Grid.mapRowsAt_mapRowsAt fun _ _ hrow => length_residualRow hfits hrow]
  rfl

/-- the second residual -/
theorem zipWith_block (hfits : tensors.Fits block configuration hidden.columns) :
    Grid.zipWith (· + ·)
      (hidden.mapRowsAt position hidden.columns (residualRow N block tensors configuration m))
      ((hidden.mapRowsAt position hidden.columns
        (normalizedRow N block tensors configuration m)).mapRows hidden.columns
          (block.moe.moeRow N layerId tensors.router hidden.columns)) =
      hidden.mapRowsAt position hidden.columns
        (blockRow N block tensors configuration layerId hidden.columns m) := by
  rw [Grid.mapRows_eq_mapRowsAt position, Grid.mapRowsAt_mapRowsAt fun _ _ _ =>
      length_normalizedRow.trans hfits.postAttention.1.symm,
    Grid.zipWith_mapRowsAt (fun _ _ hrow => length_residualRow hfits hrow)
      fun _ _ _ => MoELayer.length_moeRow _]
  rfl

/-- what a layer does: the tokens go to the cache, and every row is answered from it -/
structure BlockDone (N : Numerics K) (block : TransformerBlock K) (tensors : LayerTensors K)
    (configuration : AttentionConfiguration) (hidden : Grid K) (c c' : KVCache K) (out : Grid K) :
    Prop where
  fits : tensors.Fits block configuration hidden.columns
  position : configuration.positionOffset + hidden.rows ≤ maxSize
  keyValueHeads : c.keyValueHeads = configuration.keyValueHeadCount
  headDimension : c.headDimension = configuration.headDimension
  appends : c.Appends configuration.layerIndex configuration.positionOffset
    (hidden.rowList.mapIdx fun i row =>
      tokenOf N block tensors configuration (configuration.positionOffset + i) row) c'
  answers : ∀ i < hidden.rows, BlockAnswers N block tensors configuration configuration.layerIndex
    hidden.columns (c'.entries configuration.layerIndex) (configuration.positionOffset + i)
    (hidden.row i)
  output : out = hidden.mapRowsAt configuration.positionOffset hidden.columns
    (blockRow N block tensors configuration configuration.layerIndex hidden.columns
      (c'.entries configuration.layerIndex))

omit [LinearOrder K] in
theorem tokens_input (hinput : hidden.columns = block.inputNormalization.hiddenDimension ∧
    tensors.inputNorm.length = block.inputNormalization.hiddenDimension) :
    ((hidden.mapRows hidden.columns (inputRow N block tensors)).rowList.mapIdx
      fun i row => (keyRow N tensors.attention configuration (configuration.positionOffset + i) row,
        valueRow tensors.attention row)) =
      hidden.rowList.mapIdx fun i row =>
        tokenOf N block tensors configuration (configuration.positionOffset + i) row := by
  rw [Grid.rowList_mapRows fun row => length_inputRow.trans hinput.1.symm]
  apply List.ext_getElem
  · rw [List.length_mapIdx, List.length_map, List.length_mapIdx]
  · intro i _ _
    rw [List.getElem_mapIdx, List.getElem_mapIdx, List.getElem_map]
    rfl

omit [LinearOrder K] in
/-- the tokens of the rows are appended, if they fit -/
theorem exists_tokens {c : KVCache K} (hfits : tensors.Fits block configuration hidden.columns)
    (hrows : hidden.rows ≠ 0) (hheads : c.keyValueHeads = configuration.keyValueHeadCount)
    (hdimension : c.headDimension = configuration.headDimension)
    (hlayer : configuration.layerIndex < c.layers.length)
    (hstart : (c.entries configuration.layerIndex).length = configuration.positionOffset)
    (hcapacity : configuration.positionOffset + hidden.rows ≤ c.maximumSequenceLength) :
    ∃ c', c.Appends configuration.layerIndex configuration.positionOffset
      (hidden.rowList.mapIdx fun i row =>
        tokenOf N block tensors configuration (configuration.positionOffset + i) row) c' := by
  have hwidth : c.keyValueHeads * c.headDimension =
      configuration.keyValueHeadCount * configuration.headDimension := by rw [hheads, hdimension]
  rw [← tokens_input hfits.input, ← tokens_eq]
  refine KVCache.exists_appends rfl hrows hwidth.symm ?_ hlayer hstart hcapacity
  rw [Grid.mapRows_columns, hfits.attention.value.2, hfits.attention.rotated, hwidth]

/-- the attention of a layer works on the normalized rows -/
theorem attended_iff {c c' : KVCache K} {g : Grid K}
    (hinput : hidden.columns = block.inputNormalization.hiddenDimension ∧
      tensors.inputNorm.length = block.inputNormalization.hiddenDimension) :
    Attended N tensors.attention configuration
      (hidden.mapRows hidden.columns (inputRow N block tensors)) c c' g ↔
    tensors.attention.Fits configuration hidden.columns ∧
    configuration.positionOffset + hidden.rows ≤ maxSize ∧
    c.keyValueHeads = configuration.keyValueHeadCount ∧
    c.headDimension = configuration.headDimension ∧
    c.Appends configuration.layerIndex configuration.positionOffset
      (hidden.rowList.mapIdx fun i row =>
        tokenOf N block tensors configuration (configuration.positionOffset + i) row) c' ∧
    (∀ i < hidden.rows, Attends N tensors.attention configuration
      (c'.entries configuration.layerIndex) (configuration.positionOffset + i)
      (inputRow N block tensors (hidden.row i))) ∧
    g = (hidden.mapRows hidden.columns (inputRow N block tensors)).mapRowsAt
      configuration.positionOffset hidden.columns
      (attentionRow N tensors.attention configuration (c'.entries configuration.layerIndex)) := by
  have hlength : ∀ row, (inputRow N block tensors row).length = hidden.columns :=
    fun row => length_inputRow.trans hinput.1.symm
  have hrow : ∀ i < hidden.rows, (hidden.mapRows hidden.columns (inputRow N block tensors)).row i =
      inputRow N block tensors (hidden.row i) := fun i hi => Grid.row_mapRows hlength hi
  constructor
  · intro h
    refine ⟨h.fits, h.position, h.keyValueHeads, h.headDimension, ?_, fun i hi => ?_, h.output⟩
    · rw [← tokens_input hinput]
      exact h.appends
    · rw [← hrow i hi]
      exact h.attends i hi
  · rintro ⟨hfits, hposition, hheads, hdim, happends, hattends, houtput⟩
    refine ⟨hfits, hposition, hheads, hdim, ?_, fun i hi => ?_, houtput⟩
    · rw [tokens_input hinput]
      exact happends
    · rw [hrow i hi]
      exact hattends i hi

/-! ## the block -/

section
variable {s s' : PassState K} {a : Models.Runtime.ModelArchitecture}

/-- the configuration of the attention in this pass -/
def passConfiguration (a : Models.Runtime.ModelArchitecture) (context : InferenceContext K) :
    AttentionConfiguration :=
  { TransformerModelRuntime.attentionConfiguration a context.layerIndex true with
    layerIndex := context.layerIndex, positionOffset := context.sequencePosition }

/-- a context for this batch, as a layer starts with it -/
structure InferenceContext.Ready (context : InferenceContext K) (hidden : Grid K) : Prop where
  batchSize : context.batchSize = hidden.rows
  hiddenDimension : context.hiddenDimension = hidden.columns
  rows : hidden.rows ≠ 0
  columns : hidden.columns ≠ 0
  routing : context.routingDecisions = []

omit [LinearOrder K] in
theorem normalizeInput_eq_ok {g : Grid K} : block.normalizeInput N
    (TransformerModelRuntime.layerWeights a layerId true tensors).inputNorm hidden = .ok g ↔
      (hidden.columns = block.inputNormalization.hiddenDimension ∧
        tensors.inputNorm.length = block.inputNormalization.hiddenDimension) ∧
      g = hidden.mapRows block.inputNormalization.hiddenDimension (inputRow N block tensors) :=
  RMSNorm.execute_eq_ok

omit [LinearOrder K] in
theorem addResidual_eq_ok {output g : Grid K} : TransformerBlock.addResidual
    (TransformerModelRuntime.layerWeights a layerId true tensors).inputNorm hidden output = .ok g ↔
      (hidden.rows = output.rows ∧ hidden.columns = output.columns) ∧
      g = Grid.zipWith (· + ·) hidden output :=
  elementwise_eq_ok

theorem block_gives (hready : s.context.Ready hidden) (hdimension : a.headDimension.toNat ≠ 0)
    {r : TransformerBlockResult K}
    (h : Fallible.Gives (block.execute N hidden (TransformerModelRuntime.layerWeights a layerId true
      tensors)) s r s') :
    BlockDone N block tensors (passConfiguration a s.context) hidden s.cache s'.cache r.output ∧
      s'.context = { s.context with routingDecisions := r.moe.routing.tokens } := by
  unfold TransformerBlock.execute at h
  rw [Fallible.gives_read_bind, Fallible.gives_settle_bind] at h
  obtain ⟨_, -, h⟩ := h
  rw [Fallible.gives_throwIf_bind, Fallible.gives_known_bind fun _ => normalizeInput_eq_ok] at h
  obtain ⟨-, hinput, h⟩ := h
  rw [← hinput.1] at h
  obtain ⟨attention, s₁, hattention, h⟩ := Fallible.gives_bind.mp h
  obtain ⟨c₁, hattention', rfl⟩ := Fallible.gives_zoom.mp hattention
  have hrows : (hidden.mapRows hidden.columns (inputRow N block tensors)).rows ≠ 0 := hready.rows
  have hexecute : Fallible.Gives (CpuAttention.execute N
      (hidden.mapRows hidden.columns (inputRow N block tensors)) tensors.attention
      (passConfiguration a s.context)) s.cache attention c₁ := hattention'
  have hattended : Attended N tensors.attention (passConfiguration a s.context)
      (hidden.mapRows hidden.columns (inputRow N block tensors)) s.cache c₁ attention.output :=
    (gives_execute rfl rfl hdimension hrows).mp ⟨attention, hexecute, rfl⟩
  obtain ⟨hfits, hposition, hheads, hdim, happends, hattends, houtput⟩ :=
    (attended_iff hinput).mp hattended
  rw [Fallible.gives_throwIf_bind, Fallible.gives_known_bind fun _ => addResidual_eq_ok,
    Fallible.gives_known_bind fun _ => RMSNorm.execute_eq_ok, Fallible.gives_settle_bind] at h
  obtain ⟨-, -, hpost, moe, hmoe, h⟩ := h
  rw [Fallible.gives_throwIf_bind, Fallible.gives_known_bind fun _ => add_eq_ok] at h
  obtain ⟨hshape, -, h⟩ := h
  push Not at hshape
  obtain ⟨_, s₂, hrecord, h⟩ := Fallible.gives_bind.mp h
  obtain ⟨context, hrecord', rfl⟩ := Fallible.gives_zoom.mp hrecord
  obtain ⟨rfl, rfl⟩ := Fallible.gives_pure.mp h
  have hnormalizedRows : ((Grid.zipWith (· + ·) hidden attention.output).mapRows
      block.normalization.hiddenDimension
      (rmsNormRow N block.normalization tensors.postAttentionNorm)).rows ≠ 0 := hready.rows
  obtain ⟨hrouter, hanswers, hmoeOutput⟩ := (MoELayer.executeExpertsBatch_iff hnormalizedRows).mp
    ⟨moe, hmoe, hshape.2.trans hpost.1, rfl⟩
  have hall : tensors.Fits block (passConfiguration a s.context) hidden.columns :=
    ⟨hinput, hfits, hpost, hpost.1.symm ▸ hrouter⟩
  have hresidual : Grid.zipWith (· + ·) hidden attention.output =
      hidden.mapRowsAt s.context.sequencePosition hidden.columns (residualRow N block tensors
        (passConfiguration a s.context) (c₁.entries s.context.layerIndex)) := by
    rw [houtput]
    exact zipWith_residual hall
  rw [hresidual, mapRows_normalized hall] at hanswers hmoeOutput
  refine ⟨⟨hall, hposition, hheads, hdim, happends, fun i hi => ⟨hattends i hi, ?_⟩, ?_⟩,
    InferenceContext.context_of_recordRouting hrecord'⟩
  · have hi' := hanswers i hi
    rw [Grid.row_mapRowsAt (fun _ _ _ => length_normalizedRow.trans hall.postAttention.1.symm) hi]
      at hi'
    exact hi'
  · show Grid.zipWith (· + ·) (Grid.zipWith (· + ·) hidden attention.output) moe.output = _
    rw [hmoeOutput, hresidual]
    exact zipWith_block hall

/-- the decision of a mixture layer is one that the context records -/
theorem recorded_of_execute {g : Grid K} (hrows : g.rows ≠ 0) {r : BatchLayerExecutionResult K}
    {context : InferenceContext K} {router : Grid K}
    (h : block.moe.executeExpertsBatch N context.layerIndex g router = .ok r)
    (hbatch : context.batchSize = g.rows) (hhidden : context.hiddenDimension ≠ 0) :
    Fallible.Gives (InferenceContext.recordRouting r.routing) context ()
      { context with routingDecisions := r.routing.tokens } := by
  obtain ⟨hroute, -⟩ := executeBatch_eq_ok.mp h
  obtain ⟨-, -, hlayer, -⟩ := routeBatch_eq_ok.mp hroute
  refine InferenceContext.gives_recordRouting (valid_of_routeBatch hroute hrows) hlayer ?_ hhidden
  rw [(routeBatch_decided hroute).1, hbatch]

/-- A layer that has all it asks for returns. -/
theorem gives_block (hready : s.context.Ready hidden) (hdimension : a.headDimension.toNat ≠ 0)
    {c' : KVCache K} {out : Grid K}
    (h : BlockDone N block tensors (passConfiguration a s.context) hidden s.cache c' out) :
    ∃ r s', Fallible.Gives (block.execute N hidden (TransformerModelRuntime.layerWeights a layerId
      true tensors)) s r s' ∧ r.output = out ∧ s'.cache = c' := by
  have hinput := h.fits.input
  have hpost := h.fits.postAttention
  have hrows : (hidden.mapRows hidden.columns (inputRow N block tensors)).rows ≠ 0 := hready.rows
  obtain ⟨attention, hexecute, hattention⟩ := (gives_execute (N := N) rfl rfl hdimension hrows).mpr
    ((attended_iff hinput).mpr ⟨h.fits.attention, h.position, h.keyValueHeads, h.headDimension,
      h.appends, fun i hi => (h.answers i hi).1, rfl⟩)
  obtain ⟨post, hpostDef⟩ : ∃ g, g = Grid.zipWith (· + ·) hidden attention.output := ⟨_, rfl⟩
  obtain ⟨normalized, hnormalizedDef⟩ : ∃ g, g = post.mapRows block.normalization.hiddenDimension
    (rmsNormRow N block.normalization tensors.postAttentionNorm) := ⟨_, rfl⟩
  have hresidual : post = hidden.mapRowsAt s.context.sequencePosition hidden.columns
      (residualRow N block tensors (passConfiguration a s.context)
        (c'.entries s.context.layerIndex)) := by
    rw [hpostDef, hattention]
    exact zipWith_residual h.fits
  have hnormalized : normalized = hidden.mapRowsAt s.context.sequencePosition hidden.columns
      (normalizedRow N block tensors (passConfiguration a s.context)
        (c'.entries s.context.layerIndex)) := by
    rw [hnormalizedDef, hresidual]
    exact mapRows_normalized h.fits
  have hnormalizedRows : normalized.rows = hidden.rows := by rw [hnormalized, Grid.mapRowsAt_rows]
  have hnormalizedColumns : normalized.columns = hidden.columns := by
    rw [hnormalized, Grid.mapRowsAt_columns]
  have hpostRows : post.rows = hidden.rows := by rw [hresidual, Grid.mapRowsAt_rows]
  have hpostColumns : post.columns = hidden.columns := by rw [hresidual, Grid.mapRowsAt_columns]
  have hne : normalized.rows ≠ 0 := hnormalizedRows.symm ▸ hready.rows
  have hrouter : block.moe.RouterFits tensors.router normalized.columns :=
    hnormalizedColumns.symm ▸ h.fits.router
  have hanswers : ∀ i < normalized.rows, block.moe.Answers N s.context.layerIndex tensors.router
      normalized.columns (normalized.row i) := by
    intro i hi
    have hi' : i < hidden.rows := hnormalizedRows ▸ hi
    rw [hnormalizedColumns, hnormalized, Grid.row_mapRowsAt
      (fun _ _ _ => length_normalizedRow.trans hpost.1.symm) hi']
    exact (h.answers i hi').2
  obtain ⟨moe, hmoe, hcolumns, houtput⟩ :=
    (MoELayer.executeExpertsBatch_iff hne).mpr ⟨hrouter, hanswers, rfl⟩
  rw [hnormalizedColumns] at hcolumns houtput
  have hmoeRows : moe.output.rows = hidden.rows := by rw [houtput, Grid.mapRows_rows, hnormalizedRows]
  have hrecord := recorded_of_execute hne hmoe (hready.batchSize.trans hnormalizedRows.symm)
    (hready.hiddenDimension.symm ▸ hready.columns)
  have hattentionRows : attention.output.rows = hidden.rows := by rw [hattention]; rfl
  have hattentionColumns : attention.output.columns = hidden.columns := by rw [hattention]; rfl
  refine ⟨⟨hidden.mapRows block.inputNormalization.hiddenDimension (inputRow N block tensors),
    attention, post, normalized, moe, Grid.zipWith (· + ·) post moe.output⟩,
    ⟨{ s.context with routingDecisions := moe.routing.tokens }, c'⟩, ?_, ?_, rfl⟩
  · unfold TransformerBlock.execute
    rw [Fallible.gives_read_bind, Fallible.gives_settle_bind]
    refine ⟨(), InferenceContext.validate_empty (hready.batchSize.symm ▸ hready.rows)
      (hready.hiddenDimension.symm ▸ hready.columns) hready.routing, ?_⟩
    rw [Fallible.gives_throwIf_bind, Fallible.gives_known_bind fun _ => normalizeInput_eq_ok,
      ← hinput.1]
    refine ⟨?_, ⟨rfl, hinput.2.trans hinput.1.symm⟩, Fallible.gives_bind.mpr ⟨attention,
      ⟨s.context, c'⟩, Fallible.gives_zoom.mpr ⟨c', hexecute, rfl⟩, ?_⟩⟩
    · push Not
      exact ⟨hready.batchSize.symm, hready.hiddenDimension.symm⟩
    rw [Fallible.gives_throwIf_bind, Fallible.gives_known_bind fun _ => addResidual_eq_ok,
      ← hpostDef, Fallible.gives_known_bind fun _ => RMSNorm.execute_eq_ok, Fallible.gives_settle_bind]
    refine ⟨?_, ⟨hattentionRows.symm, hattentionColumns.symm⟩,
      ⟨hpostColumns.trans hpost.1, hpost.2⟩, moe, hnormalizedDef ▸ hmoe, ?_⟩
    · push Not
      exact ⟨hattentionRows, hattentionColumns⟩
    rw [Fallible.gives_throwIf_bind, Fallible.gives_known_bind fun _ => add_eq_ok]
    refine ⟨?_, ⟨hpostRows.trans hmoeRows.symm, hpostColumns.trans hcolumns.symm⟩,
      Fallible.gives_bind.mpr ⟨(), _, Fallible.gives_zoom.mpr ⟨_, hrecord, rfl⟩,
        Fallible.gives_pure.mpr ⟨?_, rfl⟩⟩⟩
    · push Not
      exact ⟨hmoeRows.trans hpostRows.symm, hcolumns.trans hpostColumns.symm⟩
    · rw [hnormalizedDef]
      rfl
  · show Grid.zipWith (· + ·) post moe.output = _
    rw [houtput, hresidual, hnormalized, h.output]
    exact zipWith_block h.fits

end

end

end HyperMoE.Transformer
