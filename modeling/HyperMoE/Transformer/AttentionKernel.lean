import HyperMoE.Backend.CudaKernels
import HyperMoE.Lib.Extended
import HyperMoE.Transformer.CpuAttention

/-!
# The kernel of the attention

`causalAttentionKernel` of `CudaKernels.cu`: a block of one thread for each row and head.  It fills
its parts of the scores, of the probabilities and of the context, one loop after the other.

* `causalAttentionKernel`   one block;
* `Describes`               the arguments stand for a query and for the columns of a cache;
* `scores_loop` ... `context_loop`   what each loop leaves;
* `launch_causalAttention`  all blocks, in any order.
-/

namespace HyperMoE.Transformer

open Lib Lib.Extended Tensor Backend

variable {K : Type}

/-! ## one block -/

/-- what the kernel reads -/
structure AttentionArguments (K : Type) where
  query : List K
  key : List K
  value : List K
  queryTokens : Nat
  keyTokens : Nat
  queryHeads : Nat
  keyValueHeads : Nat
  headDimension : Nat
  queryPositionOffset : Nat
  keyPositionOffset : Nat
  causal : Bool

/-- what it writes -/
structure AttentionBuffers (K : Type) where
  scores : List (Extended K)
  probabilities : List (Extended K)
  context : List K

/-- `fmaxf`, for which a value that is not a number does not count -/
def fmax [LinearOrder K] (x y : Extended K) : Extended K :=
  if x = nan then y else if less x y then y else x

section
variable [Field K] (N : Numerics K) (a : AttentionArguments K) (row head : Nat)

def AttentionArguments.keyValueHead : Nat := head / (a.queryHeads / a.keyValueHeads)

def AttentionArguments.queryWidth : Nat := a.queryHeads * a.headDimension

def AttentionArguments.scoreBase : Nat := (head * a.queryTokens + row) * a.keyTokens

/-- `double dot = 0.0; for (feature ...) dot += query[queryIndex] * key[keyIndex];` -/
def dotColumn (column : Nat) : Option K :=
  (List.range a.headDimension).foldlM (fun dot feature => do
    let query ← a.query[row * a.queryWidth + head * a.headDimension + feature]?
    let key ← a.key[(column * a.keyValueHeads + a.keyValueHead head) * a.headDimension + feature]?
    return dot + query * key) 0

/-- the context of the block: its first element -/
def AttentionArguments.contextBase : Nat := row * a.queryWidth + head * a.headDimension

def clearContext (s : AttentionBuffers K) : Option (AttentionBuffers K) := do
  let context ← (List.range a.headDimension).foldlM (fun context feature =>
    put context (a.contextBase row head + feature) 0) s.context
  return { s with context }

variable [LinearOrder K]

/-- a round of the first loop, on the buffers and the maximum -/
def scoreColumn (s : AttentionBuffers K × Extended K) (column : Nat) :
    Option (AttentionBuffers K × Extended K) := do
  let keyPosition := a.keyPositionOffset + column
  if a.causal ∧ keyPosition > a.queryPositionOffset + row then
    let scores ← put s.1.scores (a.scoreBase row head + column) (infinite true)
    return ({ s.1 with scores }, s.2)
  else
    let dot ← dotColumn a row head column
    let score := finite (dot * (1 / N.sqrt a.headDimension))
    let scores ← put s.1.scores (a.scoreBase row head + column) score
    return ({ s.1 with scores }, fmax s.2 score)

/-- `isfinite(score) ? expf(score - maximum) : 0.0F`; beside a finite score the maximum is finite -/
def exponential (maximum : Extended K) : Extended K → Option K
  | finite score =>
    match maximum with
    | finite maximum => some (N.exp (score - maximum))
    | _ => none
  | _ => some 0

/-- a round of the second loop, on the buffers and the denominator -/
def probabilityColumn (maximum : Extended K) (s : AttentionBuffers K × K) (column : Nat) :
    Option (AttentionBuffers K × K) := do
  let score ← s.1.scores[a.scoreBase row head + column]?
  let probability ← exponential N maximum score
  let probabilities ← put s.1.probabilities (a.scoreBase row head + column) (finite probability)
  return ({ s.1 with probabilities }, s.2 + probability)

/-- the number that is read from an array; in exact arithmetic there is one -/
def number : Extended K → Option K
  | finite x => some x
  | _ => none

/-- a round of the last loop -/
def contextColumn (denominator : K) (s : AttentionBuffers K) (column : Nat) :
    Option (AttentionBuffers K) := do
  let stored ← s.probabilities[a.scoreBase row head + column]?
  let probability ← number (div stored (finite denominator))
  let probabilities ← put s.probabilities (a.scoreBase row head + column) (finite probability)
  let context ← (List.range a.headDimension).foldlM (fun context feature => do
    let value ←
      a.value[(column * a.keyValueHeads + a.keyValueHead head) * a.headDimension + feature]?
    let old ← context[a.contextBase row head + feature]?
    put context (a.contextBase row head + feature) (old + probability * value)) s.context
  return { s with probabilities, context }

/-- a denominator of exact arithmetic is finite -/
def causalAttentionKernel (block : Nat × Nat) (s : AttentionBuffers K) :
    Option (AttentionBuffers K) :=
  let row := block.1
  let head := block.2
  if row ≥ a.queryTokens ∨ head ≥ a.queryHeads then some s else do
  let (s, maximum) ←
    (List.range a.keyTokens).foldlM (scoreColumn N a row head) (s, infinite true)
  let (s, denominator) ←
    (List.range a.keyTokens).foldlM (probabilityColumn N a row head maximum) (s, 0)
  if denominator ≤ 0 then
    let probabilities ← put s.probabilities (a.scoreBase row head) nan
    return { s with probabilities }
  else
    let s ← clearContext a row head s
    (List.range a.keyTokens).foldlM (contextColumn a row head denominator) s

end

/-! ## what the arguments stand for -/

structure Describes [Field K] (a : AttentionArguments K) (configuration : AttentionConfiguration)
    (cached : CachedColumns K) (query : Grid K) : Prop where
  queryTokens : query.rows = a.queryTokens
  queryWidth : query.columns = a.queryHeads * a.headDimension
  queryValues : a.query = query.values
  keyTokens : cached.count = a.keyTokens
  queryHeads : configuration.headCount = a.queryHeads
  keyValueHeads : configuration.keyValueHeadCount = a.keyValueHeads
  headDimension : configuration.headDimension = a.headDimension
  causal : configuration.causal = a.causal
  queryPosition : configuration.positionOffset = a.queryPositionOffset
  position : ∀ column < a.keyTokens, cached.position column = a.keyPositionOffset + column
  grouped : ∀ head < a.queryHeads, a.keyValueHead head < a.keyValueHeads
  key : ∀ column < a.keyTokens, ∀ head < a.keyValueHeads, ∀ feature < a.headDimension,
    a.key[(column * a.keyValueHeads + head) * a.headDimension + feature]? =
      some (cached.key column head feature)
  value : ∀ column < a.keyTokens, ∀ head < a.keyValueHeads, ∀ feature < a.headDimension,
    a.value[(column * a.keyValueHeads + head) * a.headDimension + feature]? =
      some (cached.value column head feature)

/-- the shapes of the buffers -/
structure AttentionBuffers.Sized (a : AttentionArguments K) (s : AttentionBuffers K) : Prop where
  scores : s.scores.length = a.queryHeads * a.queryTokens * a.keyTokens
  probabilities : s.probabilities.length = a.queryHeads * a.queryTokens * a.keyTokens
  context : s.context.length = a.queryTokens * (a.queryHeads * a.headDimension)

/-- a score of the host in an array of the device -/
def ofScore : Option K → Extended K
  | none => infinite true
  | some score => finite score

section
variable [Field K] [LinearOrder K] {N : Numerics K} {a : AttentionArguments K}
  {configuration : AttentionConfiguration} {cached : CachedColumns K} {query : Grid K}
  {row head : Nat} {s : AttentionBuffers K}

omit [Field K] in
theorem fmax_ofScore (maximum : Option K) (score : K) :
    fmax (ofScore maximum) (finite score) = ofScore (maxScore maximum (some score)) := by
  cases maximum with
  | none => rfl
  | some maximum =>
    show (if decide (maximum < score) = true then finite score else finite maximum) =
      finite (max maximum score)
    rw [max_def]
    by_cases hlt : maximum < score
    · rw [if_pos (decide_eq_true hlt), if_pos hlt.le]
    · rw [if_neg (by rw [decide_eq_true_eq]; exact hlt)]
      split
      · next hle => rw [le_antisymm hle (not_lt.mp hlt)]
      · rfl

omit [LinearOrder K] in
theorem dotColumn_eq (h : Describes a configuration cached query) (hrow : row < a.queryTokens)
    (hhead : head < a.queryHeads) {column : Nat} (hcolumn : column < a.keyTokens) :
    dotColumn a row head column = some (∑ feature ∈ Finset.range configuration.headDimension,
      (query.row row).getD (head * configuration.headDimension + feature) 0 *
        cached.key column (keyValueHead configuration head) feature) := by
  have hread : ∀ feature ∈ List.range a.headDimension, ∀ dot : K, (do
      let query ← a.query[row * a.queryWidth + head * a.headDimension + feature]?
      let key ← a.key[(column * a.keyValueHeads + a.keyValueHead head) * a.headDimension + feature]?
      return dot + query * key : Option K) = some (dot +
        (query.row row).getD (head * a.headDimension + feature) 0 *
          cached.key column (a.keyValueHead head) feature) := by
    intro feature hfeature dot
    have hlt := List.mem_range.mp hfeature
    have hcell : head * a.headDimension + feature < query.columns := by
      rw [h.queryWidth]
      exact Grid.address_lt hhead hlt
    rw [h.key column hcolumn _ (h.grouped head hhead) feature hlt, h.queryValues,
      Nat.add_assoc, AttentionArguments.queryWidth, ← h.queryWidth,
      getElem?_values (h.queryTokens.symm ▸ hrow) hcell, Grid.getD_row hcell]
    rfl
  rw [dotColumn, foldlM_sum hread, zero_add, h.headDimension]
  unfold keyValueHead AttentionArguments.keyValueHead
  rw [h.queryHeads, h.keyValueHeads]
  rfl

omit [Field K] [LinearOrder K] in
theorem scoreIndex_lt (hrow : row < a.queryTokens) (hhead : head < a.queryHeads) {column : Nat}
    (hcolumn : column < a.keyTokens) :
    a.scoreBase row head + column < a.queryHeads * a.queryTokens * a.keyTokens :=
  Grid.address_lt (Grid.address_lt hhead hrow) hcolumn

/-- the host's score, in the row and head of a block -/
abbrev blockScore (N : Numerics K) (configuration : AttentionConfiguration)
    (cached : CachedColumns K) (query : Grid K) (row head column : Nat) : Option K :=
  score N configuration cached (configuration.positionOffset + row) (query.row row) head column

/-! ## the loops -/

theorem scoreColumn_eq (h : Describes a configuration cached query) (hs : s.Sized a)
    (hrow : row < a.queryTokens) (hhead : head < a.queryHeads) (highest : Option K) {column : Nat}
    (hcolumn : column < a.keyTokens) :
    scoreColumn N a row head (s, ofScore highest) column =
      some ({ s with
          scores := s.scores.set (a.scoreBase row head + column)
            (ofScore (blockScore N configuration cached query row head column)) },
        ofScore (maxScore highest (blockScore N configuration cached query row head column))) := by
  have hlt : a.scoreBase row head + column < s.scores.length :=
    hs.scores.symm ▸ scoreIndex_lt hrow hhead hcolumn
  have hmask : (a.causal = true ∧ a.keyPositionOffset + column > a.queryPositionOffset + row) ↔
      (configuration.causal = true ∧
        cached.position column > configuration.positionOffset + row) := by
    rw [h.causal, h.position column hcolumn, h.queryPosition]
  unfold scoreColumn blockScore score
  dsimp only
  by_cases hmasked : configuration.causal = true ∧
      cached.position column > configuration.positionOffset + row
  · rw [if_pos (hmask.mpr hmasked), if_pos hmasked, put_eq hlt]
    cases highest <;> rfl
  · rw [if_neg (mt hmask.mp hmasked), if_neg hmasked, dotColumn_eq h hrow hhead hcolumn]
    show (put s.scores _ _).bind _ = _
    rw [put_eq hlt, ← fmax_ofScore, h.headDimension]
    rfl

/-- the scores of a block, and their maximum -/
theorem scores_loop (h : Describes a configuration cached query) (hs : s.Sized a)
    (hrow : row < a.queryTokens) (hhead : head < a.queryHeads) :
    ∃ s', (List.range a.keyTokens).foldlM (scoreColumn N a row head) (s, infinite true) =
        some (s', ofScore (maximum N configuration cached (configuration.positionOffset + row)
          (query.row row) head)) ∧
      s'.Sized a ∧ s'.context = s.context ∧ ∀ column < a.keyTokens,
        s'.scores[a.scoreBase row head + column]? =
          some (ofScore (blockScore N configuration cached query row head column)) := by
  have hloop := foldlM_range (scoreColumn N a row head) (n := a.keyTokens)
    (s := (s, infinite true))
    (fun i (t : AttentionBuffers K × Extended K) => t.1.Sized a ∧ t.1.context = s.context ∧
      t.2 = ofScore (((List.range i).map (blockScore N configuration cached query row head)).foldl
        maxScore none) ∧ ∀ column < i, t.1.scores[a.scoreBase row head + column]? =
          some (ofScore (blockScore N configuration cached query row head column)))
    ⟨hs, rfl, rfl, fun _ hc => absurd hc (Nat.not_lt_zero _)⟩ ?_
  · obtain ⟨⟨s', highest⟩, hrun, hsized, hcontext, hhighest, hscores⟩ := hloop
    obtain rfl : highest = _ := hhighest
    refine ⟨s', ?_, hsized, hcontext, hscores⟩
    rw [hrun, maximum, h.keyTokens]
  · rintro i hi ⟨t, highest⟩ ⟨hsized, hcontext, hhighest, hscores⟩
    obtain rfl : highest = _ := hhighest
    have hlt : a.scoreBase row head + i < t.scores.length :=
      hsized.scores.symm ▸ scoreIndex_lt hrow hhead hi
    refine ⟨_, scoreColumn_eq h hsized hrow hhead _ hi, ⟨?_, hsized.probabilities, hsized.context⟩,
      hcontext, ?_, fun column hcolumn => ?_⟩
    · exact List.length_set.trans hsized.scores
    · rw [List.range_succ, List.map_append, List.foldl_append]
      rfl
    · rcases Nat.lt_succ_iff_lt_or_eq.mp hcolumn with hc | rfl
      · exact (List.getElem?_set_ne (by omega)).trans (hscores column hc)
      · exact List.getElem?_set_self hlt

/-- the exponentials of a block, and their sum -/
theorem probabilities_loop (h : Describes a configuration cached query) (hs : s.Sized a)
    (hrow : row < a.queryTokens) (hhead : head < a.queryHeads)
    (hscores : ∀ column < a.keyTokens, s.scores[a.scoreBase row head + column]? =
      some (ofScore (blockScore N configuration cached query row head column))) :
    ∃ s', (List.range a.keyTokens).foldlM (probabilityColumn N a row head
        (ofScore (maximum N configuration cached (configuration.positionOffset + row)
          (query.row row) head))) (s, 0) =
        some (s', denominator N configuration cached (configuration.positionOffset + row)
          (query.row row) head) ∧
      s'.Sized a ∧ s'.context = s.context ∧ ∀ column < a.keyTokens,
        s'.probabilities[a.scoreBase row head + column]? = some (finite (probability N configuration
          cached (configuration.positionOffset + row) (query.row row) head column)) := by
  let value column := probability N configuration cached (configuration.positionOffset + row)
    (query.row row) head column
  -- beside a finite score there is a maximum
  have hmaximum : ∀ column < a.keyTokens, ∀ x,
      blockScore N configuration cached query row head column = some x →
      ∃ m, maximum N configuration cached (configuration.positionOffset + row)
        (query.row row) head = some m := by
    intro column hcolumn x hx
    have hmem : some x ∈ (List.range cached.count).map
        (blockScore N configuration cached query row head) :=
      List.mem_map.mpr ⟨column, List.mem_range.mpr (h.keyTokens.symm ▸ hcolumn), hx⟩
    have hfold : ∀ (scores : List (Option K)) (start : Option K),
        (some x ∈ scores ∨ start.isSome) → (scores.foldl maxScore start).isSome := by
      intro scores
      induction scores with
      | nil => exact fun start hstart => hstart.resolve_left List.not_mem_nil
      | cons score scores ih =>
        intro start hstart
        refine ih _ ?_
        rcases hstart with hstart | hstart
        · rcases List.mem_cons.mp hstart with rfl | hmem
          · exact .inr (by cases start <;> rfl)
          · exact .inl hmem
        · obtain ⟨m, rfl⟩ := Option.isSome_iff_exists.mp hstart
          exact .inr (by cases score <;> rfl)
    exact Option.isSome_iff_exists.mp (hfold _ none (.inl hmem))
  have hloop := foldlM_range (probabilityColumn N a row head
      (ofScore (maximum N configuration cached (configuration.positionOffset + row)
        (query.row row) head))) (n := a.keyTokens) (s := (s, (0 : K)))
    (fun i (t : AttentionBuffers K × K) => t.1.Sized a ∧ t.1.context = s.context ∧
      t.1.scores = s.scores ∧ t.2 = ∑ column ∈ Finset.range i, value column ∧
      ∀ column < i, t.1.probabilities[a.scoreBase row head + column]? =
        some (finite (value column)))
    ⟨hs, rfl, rfl, Finset.sum_range_zero _ |>.symm, fun _ hc => absurd hc (Nat.not_lt_zero _)⟩ ?_
  · obtain ⟨⟨s', sum⟩, hrun, hsized, hcontext, -, hsum, hprobabilities⟩ := hloop
    obtain rfl : sum = _ := hsum
    refine ⟨s', ?_, hsized, hcontext, hprobabilities⟩
    rw [hrun, denominator, h.keyTokens]
  · rintro i hi ⟨t, sum⟩ ⟨hsized, hcontext, hsame, hsum, hprobabilities⟩
    obtain rfl : sum = _ := hsum
    replace hsame : t.scores = s.scores := hsame
    have hlt : a.scoreBase row head + i < t.probabilities.length :=
      hsized.probabilities.symm ▸ scoreIndex_lt hrow hhead hi
    have hvalue : exponential N (ofScore (maximum N configuration cached
        (configuration.positionOffset + row) (query.row row) head))
        (ofScore (blockScore N configuration cached query row head i)) = some (value i) := by
      show _ = some ((blockScore N configuration cached query row head i).elim 0 fun score =>
        N.exp (score - (maximum N configuration cached (configuration.positionOffset + row)
          (query.row row) head).getD 0))
      cases hx : blockScore N configuration cached query row head i with
      | none => rfl
      | some x =>
        obtain ⟨m, hm⟩ := hmaximum i hi x hx
        rw [hm]
        rfl
    refine ⟨({ t with
        probabilities := t.probabilities.set (a.scoreBase row head + i) (finite (value i)) }, (∑ column ∈ Finset.range i, value column) + value i), ?_,
      ⟨hsized.scores, List.length_set.trans hsized.probabilities, hsized.context⟩, hcontext, hsame,
      (Finset.sum_range_succ _ _).symm, fun column hcolumn => ?_⟩
    · unfold probabilityColumn
      dsimp only
      rw [hsame, hscores i hi]
      show (exponential N _ _).bind _ = _
      rw [hvalue]
      show (put t.probabilities _ _).bind _ = _
      rw [put_eq hlt]
      rfl
    · rcases Nat.lt_succ_iff_lt_or_eq.mp hcolumn with hc | rfl
      · exact (List.getElem?_set_ne (by omega)).trans (hprobabilities column hc)
      · exact List.getElem?_set_self hlt

omit [Field K] [LinearOrder K] in
theorem AttentionBuffers.Sized.contextBase_le (hs : s.Sized a) (hrow : row < a.queryTokens)
    (hhead : head < a.queryHeads) :
    a.contextBase row head + a.headDimension ≤ s.context.length := by
  have hcell : (row * a.queryHeads + head) * a.headDimension + a.headDimension ≤
      a.queryTokens * a.queryHeads * a.headDimension := by
    rw [← Nat.succ_mul]
    exact Nat.mul_le_mul_right _ (Grid.address_lt hrow hhead)
  rw [hs.context, AttentionArguments.contextBase, AttentionArguments.queryWidth, ← Nat.mul_assoc,
    ← Nat.mul_assoc, ← Nat.add_mul]
  exact hcell

/-- one column for all features: its value, weighted, is added to the context of the block -/
theorem contextColumn_eq (h : Describes a configuration cached query) (hs : s.Sized a)
    (hrow : row < a.queryTokens) (hhead : head < a.queryHeads) {total weight : K} (htotal : total ≠ 0)
    {column : Nat} (hcolumn : column < a.keyTokens)
    (hstored : s.probabilities[a.scoreBase row head + column]? = some (finite weight)) :
    ∃ s', contextColumn a row head total s column = some s' ∧ s'.Sized a ∧
      (∀ other, other ≠ column → s'.probabilities[a.scoreBase row head + other]? =
        s.probabilities[a.scoreBase row head + other]?) ∧
      ∀ c, s'.context[c]? =
        if a.contextBase row head ≤ c ∧ c < a.contextBase row head + a.headDimension then
          some (s.context.getD c 0 + weight / total * cached.value column (a.keyValueHead head)
            (c - a.contextBase row head))
        else s.context[c]? := by
  have hlt : a.scoreBase row head + column < s.probabilities.length :=
    hs.probabilities.symm ▸ scoreIndex_lt hrow hhead hcolumn
  have hbound := hs.contextBase_le hrow hhead
  obtain ⟨context, hloop, hlength, hget⟩ := foldlM_fill (fun context feature => do
      let value ←
        a.value[(column * a.keyValueHeads + a.keyValueHead head) * a.headDimension + feature]?
      let old ← context[a.contextBase row head + feature]?
      put context (a.contextBase row head + feature) (old + weight / total * value))
    (fun feature => s.context.getD (a.contextBase row head + feature) 0 +
      weight / total * cached.value column (a.keyValueHead head) feature) hbound
    (fun feature hfeature context hlength hold => by
      have hcell : a.contextBase row head + feature < s.context.length := by omega
      rw [h.value column hcolumn _ (h.grouped head hhead) feature hfeature, hold,
        List.getElem?_eq_getElem hcell, List.getD_eq_getElem _ _ hcell]
      rfl)
  refine ⟨⟨s.scores, s.probabilities.set (a.scoreBase row head + column) (finite (weight / total)),
    context⟩, ?_, ⟨hs.scores, List.length_set.trans hs.probabilities, hlength.trans hs.context⟩,
    fun other hne => List.getElem?_set_ne (by omega), fun c => ?_⟩
  · unfold contextColumn
    rw [hstored]
    show (number (div (finite weight) (finite total))).bind _ = _
    rw [div_finite _ htotal]
    show (put s.probabilities _ _).bind _ = _
    rw [put_eq hlt]
    show Option.bind _ _ = _
    rw [hloop]
    rfl
  · rw [hget]
    by_cases hc : a.contextBase row head ≤ c ∧ c < a.contextBase row head + a.headDimension
    · rw [if_pos hc, if_pos hc, Nat.add_sub_cancel' hc.1]
    · rw [if_neg hc, if_neg hc]

/-- the context of a block, from the exponentials on -/
theorem context_loop (h : Describes a configuration cached query) (hs : s.Sized a)
    (hrow : row < a.queryTokens) (hhead : head < a.queryHeads) {total : K} (htotal : total ≠ 0)
    (weight : Nat → K) (hstored : ∀ column < a.keyTokens,
      s.probabilities[a.scoreBase row head + column]? = some (finite (weight column))) :
    ∃ s', (do
        let s ← clearContext a row head s
        (List.range a.keyTokens).foldlM (contextColumn a row head total) s) = some s' ∧
      s'.Sized a ∧ ∀ c, s'.context[c]? =
        if a.contextBase row head ≤ c ∧ c < a.contextBase row head + a.headDimension then
          some (∑ column ∈ Finset.range a.keyTokens, weight column / total *
            cached.value column (a.keyValueHead head) (c - a.contextBase row head))
        else s.context[c]? := by
  have hbound := hs.contextBase_le hrow hhead
  obtain ⟨context, hclear, hlength, hget⟩ := foldlM_fill (fun context feature =>
    put context (a.contextBase row head + feature) 0) (fun _ => (0 : K)) hbound
    fun _ _ _ _ _ => rfl
  have hcleared : clearContext a row head s = some { s with context } := by
    unfold clearContext
    rw [hclear]
    rfl
  have hloop := foldlM_range (contextColumn a row head total) (n := a.keyTokens)
    (s := { s with context })
    (fun i (t : AttentionBuffers K) => t.Sized a ∧
      (∀ column < a.keyTokens, i ≤ column → t.probabilities[a.scoreBase row head + column]? =
        some (finite (weight column))) ∧
      ∀ c, t.context[c]? =
        if a.contextBase row head ≤ c ∧ c < a.contextBase row head + a.headDimension then
          some (∑ column ∈ Finset.range i, weight column / total *
            cached.value column (a.keyValueHead head) (c - a.contextBase row head))
        else s.context[c]?)
    ⟨⟨hs.scores, hs.probabilities, hlength.trans hs.context⟩, fun column hc _ => hstored column hc,
      fun c => by rw [hget, Finset.sum_range_zero]⟩ ?_
  · obtain ⟨s', hrun, hsized, -, hcontext⟩ := hloop
    refine ⟨s', ?_, hsized, hcontext⟩
    rw [hcleared]
    exact hrun
  · rintro i hi t ⟨hsized, hprobabilities, hcontext⟩
    obtain ⟨t', hrun, hsized', hframe, hcontext'⟩ :=
      contextColumn_eq h hsized hrow hhead htotal hi (hprobabilities i hi (Nat.le_refl i))
    refine ⟨t', hrun, hsized', fun column hc hle => ?_, fun c => ?_⟩
    · rw [hframe column (by omega), hprobabilities column hc (by omega)]
    · rw [hcontext']
      by_cases hc : a.contextBase row head ≤ c ∧ c < a.contextBase row head + a.headDimension
      · have hold := hcontext c
        rw [if_pos hc] at hold
        rw [if_pos hc, if_pos hc, Finset.sum_range_succ, List.getD_eq_getElem?_getD, hold]
        rfl
      · rw [if_neg hc, if_neg hc, hcontext, if_neg hc]

/-! ## all blocks -/

/-- what the host computes at an element of the context -/
def contextValue (N : Numerics K) (configuration : AttentionConfiguration)
    (cached : CachedColumns K) (query : Grid K) (row column : Nat) : K :=
  (headValues N configuration cached (configuration.positionOffset + row) (query.row row)
    (column / configuration.headDimension)).getD (column % configuration.headDimension) 0

theorem block_writes (h : Describes a configuration cached query) (hs : s.Sized a)
    (hrow : row < a.queryTokens) (hhead : head < a.queryHeads)
    (hpos : 0 < denominator N configuration cached (configuration.positionOffset + row)
      (query.row row) head) :
    ∃ s', causalAttentionKernel N a (row, head) s = some s' ∧ s'.Sized a ∧ ∀ c, s'.context[c]? =
      if a.contextBase row head ≤ c ∧ c < a.contextBase row head + a.headDimension then
        some ((headValues N configuration cached (configuration.positionOffset + row)
          (query.row row) head).getD (c - a.contextBase row head) 0)
      else s.context[c]? := by
  obtain ⟨s₁, hscores, hsized₁, hcontext₁, hget₁⟩ := scores_loop h hs hrow hhead
  obtain ⟨s₂, hprobabilities, hsized₂, hcontext₂, hget₂⟩ :=
    probabilities_loop h hsized₁ hrow hhead hget₁
  obtain ⟨s₃, hcontext, hsized₃, hget₃⟩ := context_loop h hsized₂ hrow hhead hpos.ne' _ hget₂
  refine ⟨s₃, ?_, hsized₃, fun c => ?_⟩
  · unfold causalAttentionKernel
    dsimp only
    rw [if_neg (not_or.mpr ⟨Nat.not_le.mpr hrow, Nat.not_le.mpr hhead⟩), hscores]
    show Option.bind (List.foldlM (probabilityColumn N a row head _) (s₁, 0) _) _ = _
    rw [hprobabilities]
    show (if _ ≤ (0 : K) then _ else _) = _
    rw [if_neg (not_le.mpr hpos)]
    exact hcontext
  · rw [hget₃, hcontext₂, hcontext₁]
    by_cases hc : a.contextBase row head ≤ c ∧ c < a.contextBase row head + a.headDimension
    · rw [if_pos hc, if_pos hc, headValues, List.getD_eq_getElem?_getD, List.getElem?_map,
        List.getElem?_range (by rw [h.headDimension]; omega), h.keyTokens]
      unfold AttentionArguments.keyValueHead keyValueHead
      rw [h.queryHeads, h.keyValueHeads]
      rfl
    · rw [if_neg hc, if_neg hc]

/-- the blocks of `dim3(queryTokens, queryHeads)`, in any order -/
theorem launch_causalAttention (h : Describes a configuration cached query) (hs : s.Sized a)
    {order : List (Nat × Nat)} (hnodup : order.Nodup)
    (hall : ∀ row < a.queryTokens, ∀ head < a.queryHeads, (row, head) ∈ order)
    (hpos : ∀ row < a.queryTokens, ∀ head < a.queryHeads, 0 < denominator N configuration cached
      (configuration.positionOffset + row) (query.row row) head) :
    ∃ s', launch (causalAttentionKernel N a) order s = some s' ∧ s'.context =
      (Grid.generate query.rows query.columns (contextValue N configuration cached query)).values := by
  let owned (c : Nat) : Nat × Nat :=
    (c / a.queryWidth, c % a.queryWidth / a.headDimension)
  have hlaunch : ∃ s', launch (causalAttentionKernel N a) order s = some s' ∧ s'.Sized a ∧
      ∀ c < a.queryTokens * a.queryWidth, owned c ∈ order → s'.context[c]? =
        some (contextValue N configuration cached query (c / a.queryWidth) (c % a.queryWidth)) := by
    refine launch_induct (fun (done : List (Nat × Nat)) (s' : AttentionBuffers K) => s'.Sized a ∧
      ∀ c < a.queryTokens * a.queryWidth, owned c ∈ done → s'.context[c]? =
        some (contextValue N configuration cached query (c / a.queryWidth) (c % a.queryWidth)))
      ?_ hnodup ⟨hs, fun _ _ hc => absurd hc List.not_mem_nil⟩
    rintro done ⟨row, head⟩ t - - ⟨hsized, hdone⟩
    by_cases hidle : row ≥ a.queryTokens ∨ head ≥ a.queryHeads
    · refine ⟨t, if_pos hidle, hsized, fun c hc howned => hdone c hc ?_⟩
      refine (List.mem_append.mp howned).resolve_right fun hlast => ?_
      obtain ⟨hrow, hhead⟩ := Prod.mk.inj (List.mem_singleton.mp hlast)
      have hwidth : 0 < a.queryWidth := Nat.pos_of_mul_pos_left (Nat.zero_lt_of_lt hc)
      have hdimension : 0 < a.headDimension := Nat.pos_of_mul_pos_left hwidth
      have hrow' : c / a.queryWidth < a.queryTokens := (Nat.div_lt_iff_lt_mul hwidth).mpr hc
      have hhead' : c % a.queryWidth / a.headDimension < a.queryHeads :=
        (Nat.div_lt_iff_lt_mul hdimension).mpr (Nat.mod_lt c hwidth)
      omega
    · rw [not_or, Nat.not_le, Nat.not_le] at hidle
      obtain ⟨hrow, hhead⟩ := hidle
      obtain ⟨t', hrun, hsized', hget⟩ := block_writes h hsized hrow hhead (hpos row hrow head hhead)
      refine ⟨t', hrun, hsized', fun c hc howned => ?_⟩
      have hwidth : 0 < a.queryWidth := Nat.pos_of_mul_pos_left (Nat.zero_lt_of_lt hc)
      have hdimension : 0 < a.headDimension := Nat.pos_of_mul_pos_left hwidth
      have hdiv := Nat.div_add_mod' c a.queryWidth
      have hdiv' := Nat.div_add_mod' (c % a.queryWidth) a.headDimension
      have hmod := Nat.mod_lt (c % a.queryWidth) hdimension
      rw [hget]
      by_cases hown : owned c = (row, head)
      · obtain ⟨hrow', hhead'⟩ := Prod.mk.inj hown
        rw [hrow'] at hdiv
        rw [hhead'] at hdiv'
        unfold AttentionArguments.contextBase
        rw [if_pos (by omega), contextValue, h.headDimension, hrow', hhead',
          show c - (row * a.queryWidth + head * a.headDimension) =
            c % a.queryWidth % a.headDimension by omega]
      · rw [if_neg]
        · refine hdone c hc ((List.mem_append.mp howned).resolve_right fun hlast => ?_)
          exact hown (List.mem_singleton.mp hlast)
        · rintro ⟨hle, hlt⟩
          unfold AttentionArguments.contextBase at hle hlt
          have hhead' : head * a.headDimension + a.headDimension ≤ a.queryWidth := by
            rw [← Nat.succ_mul]
            exact Nat.mul_le_mul_right _ hhead
          have hrow' : c / a.queryWidth = row :=
            Nat.div_eq_of_lt_le (by omega) (by rw [Nat.succ_mul]; omega)
          rw [hrow'] at hdiv
          refine hown (Prod.ext hrow' (Nat.div_eq_of_lt_le ?_ ?_))
          · show head * a.headDimension ≤ c % a.queryWidth
            omega
          · show c % a.queryWidth < (head + 1) * a.headDimension
            rw [Nat.succ_mul]
            omega
  obtain ⟨s', hrun, hsized, hget⟩ := hlaunch
  refine ⟨s', hrun, ?_⟩
  have hcolumns : query.columns = a.queryWidth := h.queryWidth
  show s'.context = (List.range (query.rows * query.columns)).map fun c =>
    contextValue N configuration cached query (c / query.columns) (c % query.columns)
  rw [h.queryTokens, hcolumns]
  refine eq_map_range hsized.context fun c hc => hget c hc ?_
  have hwidth : 0 < a.queryWidth := Nat.pos_of_mul_pos_left (Nat.zero_lt_of_lt hc)
  have hdimension : 0 < a.headDimension := Nat.pos_of_mul_pos_left hwidth
  exact hall _ ((Nat.div_lt_iff_lt_mul hwidth).mpr hc) _
    ((Nat.div_lt_iff_lt_mul hdimension).mpr (Nat.mod_lt c hwidth))

end

end HyperMoE.Transformer
