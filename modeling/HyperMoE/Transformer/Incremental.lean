import HyperMoE.Lib.Causal
import HyperMoE.Transformer.BlockRows

/-!
# Decoding in pieces

Rows read piece by piece, at consecutive positions and with one cache, are answered as they are
when all of them are read at once, and leave the same cache.

* `causalLayer`       a layer of the model as a causal layer over the tokens of the cache;
* `layer_steps`       the layer does what the causal layer does;
* `pass_of_run`, `run_of_pass`   a pass of the model is a pass of the causal layers;
* `run_iff_pieces`    one pass and many.
-/

namespace HyperMoE.Transformer

open Lib Lib.Causal Tensor Models
open TransformerModelRuntime

variable {K : Type} [Field K] [LinearOrder K]

/-- `layer` of the model, for caches of at most `maximum` tokens -/
def causalLayer (N : Numerics K) (runtime : TransformerModelRuntime K) (maximum : Nat)
    (layer : LayerId) (tensors : LayerTensors K) :
    CausalLayer (List K) (List K × List K) where
  admits position _ := tensors.Fits runtime.block
      (attentionConfiguration runtime.architecture layer true)
      runtime.architecture.hiddenDimension.toNat ∧ position < maxSize ∧ position < maximum
  entry := tokenOf N runtime.block tensors (attentionConfiguration runtime.architecture layer true)
  answers := BlockAnswers N runtime.block tensors
    (attentionConfiguration runtime.architecture layer true) layer
    runtime.architecture.hiddenDimension.toNat
  answer := blockRow N runtime.block tensors
    (attentionConfiguration runtime.architecture layer true) layer
    runtime.architecture.hiddenDimension.toNat
  answers_take m p row h := by
    unfold BlockAnswers normalizedRow residualRow
    rw [attends_take rfl h, attentionRow_take rfl h]
  answer_take m p row h := by
    unfold blockRow normalizedRow residualRow
    rw [attentionRow_take rfl h]

def causalLayers (N : Numerics K) (runtime : TransformerModelRuntime K) (maximum : Nat) :
    LayerId → List (LayerTensors K) → List (CausalLayer (List K) (List K × List K))
  | _, [] => []
  | layer, tensors :: rest => causalLayer N runtime maximum layer tensors ::
      causalLayers N runtime maximum (layer + 1) rest

/-! ## one layer -/

section
variable {N : Numerics K} {runtime : TransformerModelRuntime K} {s s' : PassState K} {layer : Nat}
  {tensors : LayerTensors K} {hidden : Grid K} {acc : List (LayerExecution K)}

omit [Field K] [LinearOrder K] in
theorem fits_pass {context : InferenceContext K} {block : TransformerBlock K} {width : Nat}
    (hlayer : context.layerIndex = layer) :
    tensors.Fits block (passConfiguration runtime.architecture context) width ↔
      tensors.Fits block (attentionConfiguration runtime.architecture layer true) width := by
  subst hlayer
  constructor
  · rintro ⟨hinput, h, hpost, hrouter⟩
    exact ⟨hinput, ⟨h.heads, h.keyValueHeads, h.grouped, h.query, h.key, h.value, h.output, h.theta,
      h.norms, h.even, h.rotated⟩, hpost, hrouter⟩
  · rintro ⟨hinput, h, hpost, hrouter⟩
    exact ⟨hinput, ⟨h.heads, h.keyValueHeads, h.grouped, h.query, h.key, h.value, h.output, h.theta,
      h.norms, h.even, h.rotated⟩, hpost, hrouter⟩

omit [Field K] [LinearOrder K] in
theorem dimensions_of_accepted (runtime : TransformerModelRuntime K) :
    runtime.architecture.hiddenDimension.toNat ≠ 0 ∧ runtime.architecture.headDimension.toNat ≠ 0 := by
  have hreturns : Fallible.Returns runtime.architecture.validate fun _ =>
      runtime.architecture.hiddenDimension ≠ 0 ∧ runtime.architecture.headDimension ≠ 0 := by
    refine Fallible.Returns.guard fun h => ?_
    push Not at h
    exact fun _ _ _ => ⟨h.2.1, h.2.2.2.2.1⟩
  obtain ⟨hhidden, hhead⟩ := hreturns true () runtime.accepted
  exact ⟨fun h => hhidden (UInt64.toNat_inj.mp h), fun h => hhead (UInt64.toNat_inj.mp h)⟩

/-- a pass over these rows, as every layer meets it -/
structure PassReady (runtime : TransformerModelRuntime K) (s : PassState K) (hidden : Grid K) :
    Prop where
  batchSize : s.context.batchSize = hidden.rows
  hiddenDimension : s.context.hiddenDimension = hidden.columns
  columns : hidden.columns = runtime.architecture.hiddenDimension.toNat
  rows : hidden.rows ≠ 0
  keyValueHeads : s.cache.keyValueHeads = runtime.architecture.keyValueHeads.toNat
  headDimension : s.cache.headDimension = runtime.architecture.headDimension.toNat

/-- the state with which the block of a layer starts -/
def layerStart (s : PassState K) (layer : LayerId) : PassState K :=
  { s with context := { s.context with layerIndex := layer, routingDecisions := [] } }

omit [Field K] [LinearOrder K] in
theorem PassReady.ready (h : PassReady runtime s hidden) :
    (layerStart s layer).context.Ready hidden where
  batchSize := h.batchSize
  hiddenDimension := h.hiddenDimension
  rows := h.rows
  columns := h.columns.symm ▸ (dimensions_of_accepted runtime).1
  routing := rfl

theorem gives_executeLayer {results : List (LayerExecution K) × Grid K} :
    Fallible.Gives (executeLayer N runtime true layer tensors (acc, hidden)) s results s' ↔
      ∃ r, Fallible.Gives (runtime.block.execute N hidden
        (layerWeights runtime.architecture layer true tensors)) (layerStart s layer) r s' ∧
      results = (acc ++ [{
        layerId := layer
        routing := r.moe.routing.tokens
        attentionOutput := r.attention.output
        expertOutputs := r.moe.expertOutputs
        output := r.output }], r.output) := by
  unfold executeLayer
  rw [Fallible.gives_bind]
  constructor
  · rintro ⟨_, s₁, hadvance, h⟩
    obtain ⟨context, hadvance', rfl⟩ := Fallible.gives_zoom.mp hadvance
    obtain rfl := Fallible.gives_update.mp hadvance'
    obtain ⟨r, s₂, hblock, h⟩ := Fallible.gives_bind.mp h
    obtain ⟨rfl, rfl⟩ := Fallible.gives_pure.mp h
    exact ⟨r, hblock, rfl⟩
  · rintro ⟨r, hblock, rfl⟩
    exact ⟨(), layerStart s layer, Fallible.gives_zoom.mpr ⟨_, Fallible.gives_update.mpr rfl, rfl⟩,
      Fallible.gives_bind.mpr ⟨r, s', hblock, Fallible.gives_pure.mpr ⟨rfl, rfl⟩⟩⟩

/-- what a layer leaves as it was -/
structure LayerFrame (layer : Nat) (s s' : PassState K) : Prop where
  batchSize : s'.context.batchSize = s.context.batchSize
  hiddenDimension : s'.context.hiddenDimension = s.context.hiddenDimension
  position : s'.context.sequencePosition = s.context.sequencePosition
  maximum : s'.cache.maximumSequenceLength = s.cache.maximumSequenceLength
  keyValueHeads : s'.cache.keyValueHeads = s.cache.keyValueHeads
  headDimension : s'.cache.headDimension = s.cache.headDimension
  length : s'.cache.layers.length = s.cache.layers.length
  before : ∀ i < layer, s'.cache.entries i = s.cache.entries i

/-- The layer of the model does what the causal layer does. -/
theorem layer_steps (hready : PassReady runtime s hidden)
    {results : List (LayerExecution K) × Grid K}
    (h : Fallible.Gives (executeLayer N runtime true layer tensors (acc, hidden)) s results s') :
    Steps (causalLayer N runtime s.cache.maximumSequenceLength layer tensors)
      s.context.sequencePosition (s.cache.entries layer) hidden.rowList (s'.cache.entries layer)
      results.2.rowList ∧
    LayerFrame layer s s' ∧ s'.cache.memories.drop (layer + 1) = s.cache.memories.drop (layer + 1) ∧
    results.2.rows = hidden.rows ∧ results.2.columns = hidden.columns := by
  obtain ⟨r, hblock, rfl⟩ := gives_executeLayer.mp h
  obtain ⟨hdone, hcontext⟩ := block_gives hready.ready (dimensions_of_accepted runtime).2 hblock
  have hfits := (fits_pass rfl).mp hdone.fits
  have happends := hdone.appends
  have hcapacity := happends.capacity
  rw [List.length_mapIdx] at hcapacity
  have houtput : r.output.rowList = hidden.rowList.mapIdx fun i row =>
      (causalLayer N runtime s.cache.maximumSequenceLength layer tensors).answer
        (s'.cache.entries layer) (s.context.sequencePosition + i) row := by
    rw [hdone.output, Grid.rowList_mapRowsAt fun _ _ hrow => length_blockRow hdone.fits hrow,
      hready.columns]
    rfl
  refine ⟨⟨happends.start, fun i hi => ?_, happends.entries, fun i hi => ?_, houtput⟩,
    ⟨by rw [hcontext]; rfl, by rw [hcontext]; rfl, by rw [hcontext]; rfl, happends.maximum,
      happends.keyValueHeads, happends.headDimension, ?_, fun i hi => ?_⟩, happends.drop, ?_, ?_⟩
  · have hposition := hdone.position
    rw [Grid.length_rowList] at hi hcapacity
    have hstart : (passConfiguration runtime.architecture (layerStart s layer).context).positionOffset =
      s.context.sequencePosition := rfl
    have hmaximum : (layerStart s layer).cache = s.cache := rfl
    rw [hstart] at hposition hcapacity
    rw [hmaximum] at hcapacity
    refine ⟨hready.columns ▸ hfits, ?_, ?_⟩
    · omega
    · omega
  · rw [Grid.length_rowList] at hi
    have hanswers := hdone.answers i hi
    rw [hready.columns] at hanswers
    rw [Grid.getElem_rowList]
    exact hanswers
  · rw [happends.layers, List.length_set]
    rfl
  · exact happends.entries_ne (Nat.ne_of_lt hi)
  · rw [hdone.output]
    rfl
  · rw [hdone.output]
    rfl

/-- A layer that the causal layer can do returns. -/
theorem layer_gives (acc : List (LayerExecution K)) (hready : PassReady runtime s hidden) (hlayer : layer < s.cache.layers.length)
    {m : List (List K × List K)} {outs : List (List K)}
    (h : Steps (causalLayer N runtime s.cache.maximumSequenceLength layer tensors)
      s.context.sequencePosition (s.cache.entries layer) hidden.rowList m outs) :
    ∃ results s', Fallible.Gives (executeLayer N runtime true layer tensors (acc, hidden)) s results
      s' := by
  have hrows : 0 < hidden.rowList.length := by
    rw [Grid.length_rowList]
    exact Nat.pos_of_ne_zero hready.rows
  obtain ⟨hfits, -, -⟩ := h.admitted 0 hrows
  obtain ⟨-, hmaxSize, hmaximum⟩ := h.admitted (hidden.rowList.length - 1) (by omega)
  rw [Grid.length_rowList] at hmaxSize hmaximum hrows
  have hstart := h.start
  rw [← hready.columns] at hfits
  have hpass : tensors.Fits runtime.block (passConfiguration runtime.architecture
    (layerStart s layer).context) hidden.columns := (fits_pass rfl).mpr hfits
  have hcapacity : s.context.sequencePosition + hidden.rows ≤ s.cache.maximumSequenceLength := by
    omega
  have hposition : s.context.sequencePosition + hidden.rows ≤ maxSize := by omega
  obtain ⟨c', happends⟩ := exists_tokens (N := N) hpass hready.rows hready.keyValueHeads
    hready.headDimension hlayer hstart hcapacity
  have hmemory : c'.entries layer = m := happends.entries.trans h.memory.symm
  have hanswers : ∀ i < hidden.rows, BlockAnswers N runtime.block tensors
      (passConfiguration runtime.architecture (layerStart s layer).context) layer hidden.columns
      (c'.entries layer) (s.context.sequencePosition + i) (hidden.row i) := by
    intro i hi
    have hi' : i < hidden.rowList.length := by rwa [Grid.length_rowList]
    have hanswered := h.answered i hi'
    rw [Grid.getElem_rowList, ← hmemory] at hanswered
    rw [hready.columns]
    exact hanswered
  obtain ⟨r, s', hblock, -⟩ := gives_block hready.ready (dimensions_of_accepted runtime).2
    ⟨hpass, hposition, hready.keyValueHeads, hready.headDimension, happends, hanswers, rfl⟩
  exact ⟨_, s', gives_executeLayer.mpr ⟨r, hblock, rfl⟩⟩

/-! ## all layers -/

omit [LinearOrder K] in
theorem LayerFrame.ready (h : LayerFrame layer s s') (hready : PassReady runtime s hidden)
    {out : Grid K} (hrows : out.rows = hidden.rows) (hcolumns : out.columns = hidden.columns) :
    PassReady runtime s' out where
  batchSize := h.batchSize.trans (hready.batchSize.trans hrows.symm)
  hiddenDimension := h.hiddenDimension.trans (hready.hiddenDimension.trans hcolumns.symm)
  columns := hcolumns.trans hready.columns
  rows := hrows.symm ▸ hready.rows
  keyValueHeads := h.keyValueHeads.trans hready.keyValueHeads
  headDimension := h.headDimension.trans hready.headDimension

/-- The loop over the layers is a pass of the causal layers. -/
theorem layers_pass {ts : List (LayerTensors K)} {results : List (LayerExecution K) × Grid K}
    (hready : PassReady runtime s hidden) (hlength : s.cache.layers.length = layer + ts.length)
    (h : Fallible.Gives (Fallible.forEach (executeLayer N runtime true) layer (acc, hidden) ts) s
      results s') :
    Pass (causalLayers N runtime s.cache.maximumSequenceLength layer ts) s.context.sequencePosition
      (s.cache.memories.drop layer) hidden.rowList (s'.cache.memories.drop layer)
      results.2.rowList ∧ LayerFrame layer s s' ∧ results.2.columns = hidden.columns := by
  induction ts generalizing s layer acc hidden with
  | nil =>
    obtain ⟨rfl, rfl⟩ := Fallible.gives_pure.mp h
    exact ⟨⟨rfl, rfl⟩, ⟨rfl, rfl, rfl, rfl, rfl, rfl, rfl, fun _ _ => rfl⟩, rfl⟩
  | cons tensors ts ih =>
    obtain ⟨⟨acc', mid⟩, s₁, hlayer, hrest⟩ := Fallible.gives_bind.mp h
    obtain ⟨hsteps, hframe, hdrop, hrows, hcolumns⟩ := layer_steps hready hlayer
    rw [List.length_cons] at hlength
    have hlength' : s₁.cache.layers.length = layer + 1 + ts.length := by
      rw [hframe.length, hlength]
      omega
    obtain ⟨hpass, hframe', hcolumns'⟩ := ih (hframe.ready hready hrows hcolumns) hlength' hrest
    rw [hframe.maximum, hframe.position, hdrop] at hpass
    have hlt : layer < s.cache.layers.length := by omega
    have hlt' : layer < s'.cache.layers.length := by
      rw [hframe'.length]
      omega
    refine ⟨⟨_, _, _, _, mid.rowList, KVCache.drop_memories hlt, KVCache.drop_memories hlt',
      hframe'.before layer (Nat.lt_succ_self layer) ▸ hsteps, hpass⟩,
      ⟨hframe'.batchSize.trans hframe.batchSize, hframe'.hiddenDimension.trans hframe.hiddenDimension,
        hframe'.position.trans hframe.position, hframe'.maximum.trans hframe.maximum,
        hframe'.keyValueHeads.trans hframe.keyValueHeads,
        hframe'.headDimension.trans hframe.headDimension, hframe'.length.trans hframe.length,
        fun i hi => (hframe'.before i (Nat.lt_succ_of_lt hi)).trans (hframe.before i hi)⟩,
      hcolumns'.trans hcolumns⟩

theorem layers_give (acc : List (LayerExecution K)) {ts : List (LayerTensors K)}
    {ms : List (List (List K × List K))} {outs : List (List K)} (hready : PassReady runtime s hidden)
    (hlength : s.cache.layers.length = layer + ts.length)
    (h : Pass (causalLayers N runtime s.cache.maximumSequenceLength layer ts)
      s.context.sequencePosition (s.cache.memories.drop layer) hidden.rowList ms outs) :
    ∃ results s', Fallible.Gives (Fallible.forEach (executeLayer N runtime true) layer (acc, hidden) ts)
      s results s' := by
  induction ts generalizing s layer acc hidden ms with
  | nil => exact ⟨_, _, Fallible.gives_pure.mpr ⟨rfl, rfl⟩⟩
  | cons tensors ts ih =>
    rw [List.length_cons] at hlength
    have hlt : layer < s.cache.layers.length := by omega
    obtain ⟨m, rest, m', rest', mid, hms, rfl, hsteps, hpass⟩ := h
    rw [KVCache.drop_memories hlt] at hms
    obtain ⟨rfl, rfl⟩ := List.cons.inj hms
    obtain ⟨results, s₁, hlayer⟩ := layer_gives acc hready hlt hsteps
    obtain ⟨hsteps', hframe, hdrop, hrows, hcolumns⟩ := layer_steps hready hlayer
    obtain ⟨rfl, rfl⟩ := hsteps.unique hsteps'
    have hlength' : s₁.cache.layers.length = layer + 1 + ts.length := by
      rw [hframe.length, hlength]
      omega
    rw [← hframe.maximum, ← hframe.position, ← hdrop] at hpass
    obtain ⟨results', s₂, hrest⟩ := ih results.1 (hframe.ready hready hrows hcolumns)
      hlength' hpass
    exact ⟨results', s₂, Fallible.gives_bind.mpr ⟨results, s₁, hlayer, hrest⟩⟩

/-! ## a pass of the model -/

/-- the cache fits the model -/
structure CacheFits (runtime : TransformerModelRuntime K) (c : KVCache K) : Prop where
  layers : c.layers.length = runtime.architecture.layerCount.toNat
  keyValueHeads : c.keyValueHeads = runtime.architecture.keyValueHeads.toNat
  headDimension : c.headDimension = runtime.architecture.headDimension.toNat

/-- same capacity and shape -/
structure SameShape (c c' : KVCache K) : Prop where
  maximum : c'.maximumSequenceLength = c.maximumSequenceLength
  keyValueHeads : c'.keyValueHeads = c.keyValueHeads
  headDimension : c'.headDimension = c.headDimension
  length : c'.layers.length = c.layers.length

variable {c c' : KVCache K} {n : Nat} {out : Grid K}

omit [Field K] [LinearOrder K] in
theorem CacheFits.of_same (h : CacheFits runtime c) (hsame : SameShape c c') :
    CacheFits runtime c' where
  layers := hsame.length.trans h.layers
  keyValueHeads := hsame.keyValueHeads.trans h.keyValueHeads
  headDimension := hsame.headDimension.trans h.headDimension

/-- the state of a pass -/
def passStart (runtime : TransformerModelRuntime K) (n : Nat) (hidden : Grid K) (c : KVCache K) :
    PassState K := ⟨passContext runtime.architecture n hidden, c⟩

theorem gives_run : Fallible.Gives (run N runtime n hidden) c out c' ↔
    (hidden.rows ≠ 0 ∧ hidden.columns = runtime.architecture.hiddenDimension.toNat ∧
      CacheFits runtime c) ∧
    ∃ results s', Fallible.Gives (Fallible.forEach (executeLayer N runtime true) 0 ([], hidden)
      runtime.layers) (passStart runtime n hidden c) results s' ∧ results.2 = out ∧
      s'.cache = c' := by
  unfold run
  rw [Fallible.gives_bind]
  constructor
  · rintro ⟨result, _, hzoom, h⟩
    obtain ⟨s', himpl, rfl⟩ := Fallible.gives_zoom.mp hzoom
    obtain ⟨rfl, rfl⟩ := Fallible.gives_pure.mp h
    unfold executeImpl at himpl
    rw [Fallible.gives_read_bind, Fallible.gives_settle_bind] at himpl
    obtain ⟨_, hvalidate, himpl⟩ := himpl
    rw [Fallible.gives_throwIf_bind, Fallible.gives_throwIf_bind] at himpl
    obtain ⟨hshape, hcache, himpl⟩ := himpl
    push Not at hshape hcache
    obtain ⟨results, s₁, hlayers, hresult⟩ := Fallible.gives_bind.mp himpl
    obtain ⟨rfl, rfl⟩ := Fallible.gives_pure.mp hresult
    obtain ⟨hbatch, -⟩ := Outcome.throwIf_bind_eq_ok.mp hvalidate
    push Not at hbatch
    obtain ⟨hcount, hheads, hdimension⟩ := hcache rfl
    exact ⟨⟨hbatch.1, hshape.2.1, hcount, hheads, hdimension⟩, results, _, hlayers, rfl, rfl⟩
  · rintro ⟨⟨hrows, hcolumns, hfits⟩, results, s', hlayers, rfl, rfl⟩
    refine ⟨⟨results.1, results.2⟩, s'.cache, Fallible.gives_zoom.mpr ⟨s', ?_, rfl⟩,
      Fallible.gives_pure.mpr ⟨rfl, rfl⟩⟩
    unfold executeImpl
    rw [Fallible.gives_read_bind, Fallible.gives_settle_bind]
    refine ⟨(), InferenceContext.validate_empty hrows (dimensions_of_accepted runtime).1 rfl, ?_⟩
    rw [Fallible.gives_throwIf_bind, Fallible.gives_throwIf_bind]
    refine ⟨?_, ?_, Fallible.gives_bind.mpr ⟨results, s', hlayers, Fallible.gives_pure.mpr
      ⟨rfl, rfl⟩⟩⟩
    · push Not
      exact ⟨rfl, hcolumns, rfl⟩
    · push Not
      exact fun _ => ⟨hfits.layers, hfits.keyValueHeads, hfits.headDimension⟩

omit [Field K] [LinearOrder K] in
theorem passStart_ready (hrows : hidden.rows ≠ 0)
    (hcolumns : hidden.columns = runtime.architecture.hiddenDimension.toNat)
    (hfits : CacheFits runtime c) : PassReady runtime (passStart runtime n hidden c) hidden where
  batchSize := rfl
  hiddenDimension := hcolumns.symm
  columns := hcolumns
  rows := hrows
  keyValueHeads := hfits.keyValueHeads
  headDimension := hfits.headDimension

theorem pass_of_run (h : Fallible.Gives (run N runtime n hidden) c out c') :
    Pass (causalLayers N runtime c.maximumSequenceLength 0 runtime.layers) n c.memories
      hidden.rowList c'.memories out.rowList ∧ SameShape c c' ∧ CacheFits runtime c ∧
    hidden.rows ≠ 0 ∧ hidden.columns = runtime.architecture.hiddenDimension.toNat ∧
    out.columns = hidden.columns := by
  obtain ⟨⟨hrows, hcolumns, hfits⟩, results, s', hlayers, rfl, rfl⟩ := gives_run.mp h
  have hlength : (passStart runtime n hidden c).cache.layers.length = 0 + runtime.layers.length := by
    rw [runtime.complete, Nat.zero_add]
    exact hfits.layers
  obtain ⟨hpass, hframe, hcolumns'⟩ :=
    layers_pass (passStart_ready hrows hcolumns hfits) hlength hlayers
  exact ⟨hpass, ⟨hframe.maximum, hframe.keyValueHeads, hframe.headDimension, hframe.length⟩, hfits,
    hrows, hcolumns, hcolumns'⟩

theorem run_of_pass (hrows : hidden.rows ≠ 0)
    (hcolumns : hidden.columns = runtime.architecture.hiddenDimension.toNat)
    (hfits : CacheFits runtime c) {ms : List (List (List K × List K))} {outs : List (List K)}
    (h : Pass (causalLayers N runtime c.maximumSequenceLength 0 runtime.layers) n c.memories
      hidden.rowList ms outs) : ∃ out c', Fallible.Gives (run N runtime n hidden) c out c' := by
  have hlength : (passStart runtime n hidden c).cache.layers.length = 0 + runtime.layers.length := by
    rw [runtime.complete, Nat.zero_add]
    exact hfits.layers
  obtain ⟨results, s', hlayers⟩ := layers_give (N := N) []
    (passStart_ready hrows hcolumns hfits) hlength h
  exact ⟨_, _, gives_run.mpr ⟨⟨hrows, hcolumns, hfits⟩, results, s', hlayers, rfl, rfl⟩⟩

/-! ## pieces -/

/-- `g` cut into pieces with at least one row each -/
structure Split (g : Grid K) where
  pieces : List (Grid K)
  nonempty : pieces ≠ []
  rows : ∀ p ∈ pieces, p.rows ≠ 0
  columns : ∀ p ∈ pieces, p.columns = g.columns
  whole : (pieces.map Grid.rowList).flatten = g.rowList

/-- the pieces one after another, each at the position behind the one before it -/
def runPieces (N : Numerics K) (runtime : TransformerModelRuntime K) :
    Nat → List (Grid K) → Fallible StdError (KVCache K) (List (Grid K))
  | _, [] => pure []
  | n, p :: ps => do
    let out ← run N runtime n p
    let outs ← runPieces N runtime (n + p.rows) ps
    return out :: outs

theorem pieces_of_runs {ps outs : List (Grid K)}
    (h : Fallible.Gives (runPieces N runtime n ps) c outs c') :
    Pieces (causalLayers N runtime c.maximumSequenceLength 0 runtime.layers) n c.memories
      (ps.map Grid.rowList) c'.memories (outs.map Grid.rowList) ∧ SameShape c c' ∧
    List.Forall₂ (fun p out => out.rows = p.rows ∧ out.columns = p.columns ∧ p.rows ≠ 0 ∧
      p.columns = runtime.architecture.hiddenDimension.toNat) ps outs := by
  induction ps generalizing n c outs with
  | nil =>
    obtain ⟨rfl, rfl⟩ := Fallible.gives_pure.mp h
    exact ⟨⟨rfl, rfl⟩, ⟨rfl, rfl, rfl, rfl⟩, List.Forall₂.nil⟩
  | cons p ps ih =>
    obtain ⟨out, c₁, hrun, h⟩ := Fallible.gives_bind.mp h
    obtain ⟨outs', c₂, hrest, h⟩ := Fallible.gives_bind.mp h
    obtain ⟨rfl, rfl⟩ := Fallible.gives_pure.mp h
    obtain ⟨hpass, hsame, -, hrows, hwidth, hcolumns⟩ := pass_of_run hrun
    obtain ⟨hpieces, hsame', hall⟩ := ih hrest
    have hout : out.rows = p.rows := by
      have hlength := hpass.length
      rwa [Grid.length_rowList, Grid.length_rowList] at hlength
    rw [hsame.maximum, ← Grid.length_rowList] at hpieces
    exact ⟨⟨c₁.memories, out.rowList, outs'.map Grid.rowList, hpass, hpieces, rfl⟩,
      ⟨hsame'.maximum.trans hsame.maximum, hsame'.keyValueHeads.trans hsame.keyValueHeads,
        hsame'.headDimension.trans hsame.headDimension, hsame'.length.trans hsame.length⟩,
      List.Forall₂.cons ⟨hout, hcolumns, hrows, hwidth⟩ hall⟩

theorem runs_of_pieces {ps : List (Grid K)} {ms : List (List (List K × List K))}
    {outs : List (List (List K))} (hfits : CacheFits runtime c) (hrows : ∀ p ∈ ps, p.rows ≠ 0)
    (hcolumns : ∀ p ∈ ps, p.columns = runtime.architecture.hiddenDimension.toNat)
    (h : Pieces (causalLayers N runtime c.maximumSequenceLength 0 runtime.layers) n c.memories
      (ps.map Grid.rowList) ms outs) :
    ∃ outs c', Fallible.Gives (runPieces N runtime n ps) c outs c' := by
  induction ps generalizing n c outs with
  | nil => exact ⟨_, _, Fallible.gives_pure.mpr ⟨rfl, rfl⟩⟩
  | cons p ps ih =>
    obtain ⟨mid, outp, rest, hpass, hpieces, rfl⟩ := h
    obtain ⟨out, c₁, hrun⟩ := run_of_pass (hrows p List.mem_cons_self)
      (hcolumns p List.mem_cons_self) hfits hpass
    obtain ⟨hpass', hsame, -⟩ := pass_of_run hrun
    obtain ⟨rfl, rfl⟩ := hpass.unique hpass'
    rw [Grid.length_rowList, ← hsame.maximum] at hpieces
    obtain ⟨outs', c₂, hrest⟩ := ih (hfits.of_same hsame)
      (fun q hq => hrows q (List.mem_cons_of_mem _ hq))
      (fun q hq => hcolumns q (List.mem_cons_of_mem _ hq)) hpieces
    exact ⟨out :: outs', c₂, Fallible.gives_bind.mpr ⟨out, c₁, hrun, Fallible.gives_bind.mpr
      ⟨outs', c₂, hrest, Fallible.gives_pure.mpr ⟨rfl, rfl⟩⟩⟩⟩

omit [Field K] [LinearOrder K] in
theorem forall_right {R : Grid K → Grid K → Prop} {P : Grid K → Prop} {ps outs : List (Grid K)}
    (h : List.Forall₂ R ps outs) (hR : ∀ p ∈ ps, ∀ o, R p o → P o) : ∀ o ∈ outs, P o := by
  induction h with
  | nil => exact fun o ho => nomatch ho
  | cons hpo _ ih =>
    intro o ho
    rcases List.mem_cons.mp ho with rfl | ho
    · exact hR _ List.mem_cons_self _ hpo
    · exact ih (fun p hp => hR p (List.mem_cons_of_mem _ hp)) o ho

/-- pieces in, pieces out -/
theorem whole_of_runs {g : Grid K} (split : Split g) {outs : List (Grid K)}
    (h : Fallible.Gives (runPieces N runtime n split.pieces) c outs c') :
    Pass (causalLayers N runtime c.maximumSequenceLength 0 runtime.layers) n c.memories g.rowList
      c'.memories (outs.map Grid.rowList).flatten ∧ SameShape c c' ∧ CacheFits runtime c ∧
    g.rows ≠ 0 ∧ g.columns = runtime.architecture.hiddenDimension.toNat ∧ outs ≠ [] ∧
    List.Forall₂ (fun p o => o.rows = p.rows) split.pieces outs ∧
    ∀ o ∈ outs, o.rows ≠ 0 ∧ o.columns = g.columns := by
  obtain ⟨p, ps, hps⟩ := List.exists_cons_of_ne_nil split.nonempty
  have hp : p ∈ split.pieces := hps ▸ List.mem_cons_self
  obtain ⟨hpieces, hsame, hall⟩ := pieces_of_runs h
  have hoptions : ∀ o ∈ outs, o.rows ≠ 0 ∧ o.columns = g.columns := by
    refine forall_right hall fun q hq o ho => ⟨?_, ?_⟩
    · rw [ho.1]
      exact ho.2.2.1
    · rw [ho.2.1, split.columns q hq]
  have hrows : g.rows ≠ 0 := by
    intro hzero
    have hflatten := congrArg List.length split.whole
    rw [hps, List.map_cons, List.flatten_cons, List.length_append, Grid.length_rowList,
      Grid.length_rowList, hzero] at hflatten
    exact split.rows p hp (by omega)
  rw [hps] at h
  obtain ⟨out, c₁, hrun, -⟩ := Fallible.gives_bind.mp h
  obtain ⟨-, -, hfits, -, hwidth, -⟩ := pass_of_run hrun
  have hne : outs ≠ [] := by
    intro hnil
    rw [hps, hnil] at hall
    exact nomatch hall
  rw [hps, List.map_cons] at hpieces
  have hpass := pass_of_pieces hpieces
  rw [← List.map_cons, ← hps, split.whole] at hpass
  exact ⟨hpass, hsame, hfits, hrows, (split.columns p hp).symm.trans hwidth, hne,
    hall.imp fun _ _ ho => ho.1, hoptions⟩

/-- Rows read at once are answered as they are in pieces, and leave the same cache. -/
theorem run_iff_pieces (N : Numerics K) (runtime : TransformerModelRuntime K) (n : Nat)
    (c c' : KVCache K) {g : Grid K} (split : Split g) (out : Grid K) :
    Fallible.Gives (run N runtime n g) c out c' ↔
      ∃ outs : Split out, List.Forall₂ (fun p o => o.rows = p.rows) split.pieces outs.pieces ∧
        Fallible.Gives (runPieces N runtime n split.pieces) c outs.pieces c' := by
  constructor
  · intro h
    obtain ⟨hpass, hsame, hfits, -, hwidth, hcolumns⟩ := pass_of_run h
    obtain ⟨p, ps, hps⟩ := List.exists_cons_of_ne_nil split.nonempty
    have hwhole := hpass
    rw [← split.whole, hps, List.map_cons] at hpass
    obtain ⟨outs, hpieces, -⟩ := pieces_of_pass hpass
    rw [← List.map_cons, ← hps] at hpieces
    obtain ⟨outs', c₁, hruns⟩ := runs_of_pieces hfits split.rows
      (fun q hq => (split.columns q hq).trans hwidth) hpieces
    obtain ⟨hpass', hsame', -, -, -, hne, hall, houts⟩ := whole_of_runs split hruns
    obtain ⟨hmemories, hflatten⟩ := hwhole.unique hpass'
    obtain rfl : c' = c₁ := KVCache.eq_of_memories (hsame.maximum.trans hsame'.maximum.symm)
      (hsame.keyValueHeads.trans hsame'.keyValueHeads.symm)
      (hsame.headDimension.trans hsame'.headDimension.symm) hmemories
    exact ⟨⟨outs', hne, fun o ho => (houts o ho).1,
      fun o ho => (houts o ho).2.trans hcolumns.symm, hflatten.symm⟩, hall, hruns⟩
  · rintro ⟨outs, -, h⟩
    obtain ⟨hpass, hsame, hfits, hrows, hwidth, hne, -, houts⟩ := whole_of_runs split h
    rw [outs.whole] at hpass
    obtain ⟨out', c₁, hrun⟩ := run_of_pass hrows hwidth hfits hpass
    obtain ⟨hpass', hsame', -, -, -, hcolumns⟩ := pass_of_run hrun
    obtain ⟨hmemories, hrowList⟩ := hpass.unique hpass'
    obtain rfl : c' = c₁ := KVCache.eq_of_memories (hsame.maximum.trans hsame'.maximum.symm)
      (hsame.keyValueHeads.trans hsame'.keyValueHeads.symm)
      (hsame.headDimension.trans hsame'.headDimension.symm) hmemories
    obtain ⟨o, ho⟩ := List.exists_mem_of_ne_nil _ hne
    obtain rfl : out = out' :=
      Grid.ext_rowList ((outs.columns o ho).symm.trans ((houts o ho).2.trans hcolumns.symm)) hrowList
    exact hrun

end

/-! A model of one layer with one head and one expert, and three tokens: at once, and as one and two. -/

def smallArchitecture : Models.Runtime.ModelArchitecture :=
  { layerCount := 1, hiddenDimension := 2, headDimension := 2, projectionHeadDimension := 2,
    expertCount := 1 }

theorem length_smallGate : [(1 : ℚ), 2].length = 2 * 1 := rfl

theorem length_smallUp : [(1 : ℚ), -1].length = 2 * 1 := rfl

def smallModel : TransformerModelRuntime ℚ where
  architecture := smallArchitecture
  accepted := rfl
  block := {
    inputNormalization := ⟨2, ⟨0x358637bd⟩⟩
    normalization := ⟨2, ⟨0x358637bd⟩⟩
    moe := {
      activation := .SiLU
      weights := fun _ _ => some ⟨.fp32 ⟨2, 1, [1, 2], length_smallGate⟩,
        .fp32 ⟨2, 1, [1, -1], length_smallUp⟩, .fp32 ⟨1, 2, [1, 1], rfl⟩⟩
      config := { expertCount := 1, topK := 1 } } }
  layers := [{
    attention := {
      query := ⟨2, 2, [1, 0, 0, 1], rfl⟩
      key := ⟨2, 2, [0, 1, 1, 0], rfl⟩
      value := ⟨2, 2, [1, 1, 0, 1], rfl⟩
      output := ⟨2, 2, [1, 0, 0, 1], rfl⟩ }
    postAttentionNorm := [1, 1]
    router := ⟨2, 1, [1, 1], rfl⟩
    inputNorm := [1, 2] }]
  complete := rfl

def smallCache : KVCache ℚ where
  maximumSequenceLength := 4
  keyValueHeads := 1
  headDimension := 2
  layers := [{}]
  sized := fun _ hs => List.mem_singleton.mp hs ▸ KVCache.sized_empty _ _

example :
    ((run HyperMoE.Runtime.smallNumerics smallModel 0 ⟨3, 2, [1, 2, 0, 1, 3, 1], rfl⟩).exec
      smallCache).1.toOption.map Grid.values =
    ((runPieces HyperMoE.Runtime.smallNumerics smallModel 0
      [⟨1, 2, [1, 2], rfl⟩, ⟨2, 2, [0, 1, 3, 1], rfl⟩]).exec smallCache).1.toOption.map
        (fun outs => outs.flatMap Grid.values) ∧
    ((run HyperMoE.Runtime.smallNumerics smallModel 0 ⟨3, 2, [1, 2, 0, 1, 3, 1], rfl⟩).exec
      smallCache).1.isOk = true := by
  decide +kernel

end HyperMoE.Transformer
