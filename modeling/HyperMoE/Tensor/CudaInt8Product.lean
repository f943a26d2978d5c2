import HyperMoE.Backend.CooperativeProduct
import HyperMoE.Tensor.CudaTensorBackend

/-!
# The INT8 product on the device

`matmulInt8Impl` of `CudaTensorBackend.cpp`: the plan, and the kernels that it names.

* `Multiplies`          extents for which there is a plan;
* `ProductRun`          what the device is free in;
* `matmulInt8`          the product;
* `matmulInt8_of_host`  it is the product of the host.
-/

namespace HyperMoE.Tensor

open Lib Lib.Cells Lib.Outcome Lib.Fallible Models Backend

/-! ## plans -/

/-- extents with a plan: none is zero, and the elements can be counted by the launches -/
structure Multiplies (rows inner columns : Nat) : Prop where
  rows_pos : 0 < rows
  inner_pos : 0 < inner
  columns_pos : 0 < columns
  output : rows * columns < 2 ^ 28
  left : rows * inner < 2 ^ 31
  right : inner * columns < 2 ^ 31

/-- fewer rows, but at least one -/
theorem Multiplies.mono {rows inner columns r : Nat} (h : Multiplies rows inner columns)
    (hpos : 0 < r) (hle : r ≤ rows) : Multiplies r inner columns :=
  { h with
    rows_pos := hpos
    output := (Nat.mul_le_mul_right _ hle).trans_lt h.output
    left := (Nat.mul_le_mul_right _ hle).trans_lt h.left }

section
variable {exact : Bool} {a b rows inner columns : UInt64} {mode : Int8GemmMode}

theorem wp_product_fits {Q : Except StdError UInt64 → Bool → Prop} (h : a.toNat * b.toNat < 2 ^ 64)
    (hQ : ∀ c : UInt64, c.toNat = a.toNat * b.toNat → Q (.ok c) exact) :
    wp (Backend.product a b) Q exact := by
  unfold Backend.product
  rw [wp_bind, wp_throwIf, if_neg]
  · exact Watched.wp_mul h hQ
  · rintro ⟨hb, hlt⟩
    have hpos : 0 < b.toNat := Nat.pos_of_ne_zero fun h0 => hb (UInt64.toNat_inj.mp h0)
    rw [gt_iff_lt, UInt64.lt_iff_toNat_lt, UInt64.toNat_div, Watched.toNat_maxWord,
      Nat.div_lt_iff_lt_mul hpos] at hlt
    omega

theorem wp_sizes_fits {elements : UInt64} {implementation : Int8GemmMode}
    (h : Multiplies rows.toNat inner.toNat columns.toNat)
    (helements : elements.toNat = rows.toNat * columns.toNat) :
    wp (sizes rows inner columns elements implementation) (fun r _ => ∃ plan, r = .ok plan ∧
      plan.blocks.toNat < 2 ^ 31 ∧ plan.scratchElements.toNat < 2 ^ 31) exact := by
  have houtput := h.output
  have hrows := h.rows_pos
  have hcolumns := h.columns_pos
  unfold sizes
  split
  · rw [wp_bind]
    refine wp_divideUp (by decide) fun blocks hblocks => ⟨_, rfl, ?_, Nat.two_pow_pos 31⟩
    have hblocks' : blocks.toNat = (elements.toNat + 255) / 256 := hblocks
    show blocks.toNat < 2 ^ 31
    omega
  · rw [wp_bind]
    refine wp_divideUp (by decide) fun divided _ => ?_
    dsimp only
    have hpartitions : (if divided < 8 then divided else 8).toNat ≤ 8 := by
      split
      · next hlt => exact Nat.le_of_lt (UInt64.lt_iff_toNat_lt.mp hlt)
      · exact Nat.le_refl 8
    generalize (if divided < 8 then divided else 8) = partitions at hpartitions
    -- rows and tiles of columns, each at most eight times
    have hle : rows.toNat * partitions.toNat ≤ rows.toNat * 8 := Nat.mul_le_mul_left _ hpartitions
    have hrowsLe : rows.toNat ≤ rows.toNat * columns.toNat := Nat.le_mul_of_pos_right _ hcolumns
    rw [wp_bind]
    refine wp_product_fits (by omega) fun rowPartitions hrowPartitions => ?_
    dsimp only
    rw [wp_bind]
    refine wp_divideUp (by decide) fun columnTiles hcolumnTiles => ?_
    have htiles : columnTiles.toNat ≤ columns.toNat := by
      have hcolumnTiles' : columnTiles.toNat = (columns.toNat + 31) / 32 := hcolumnTiles
      omega
    have hblocks : rowPartitions.toNat * columnTiles.toNat < 2 ^ 31 := by
      calc rowPartitions.toNat * columnTiles.toNat
          ≤ rows.toNat * 8 * columns.toNat := by
            rw [hrowPartitions]
            exact Nat.mul_le_mul hle htiles
        _ = rows.toNat * columns.toNat * 8 := Nat.mul_right_comm _ _ _
        _ < 2 ^ 31 := by omega
    dsimp only
    rw [wp_bind]
    refine wp_product_fits (by omega) fun blocks hblocks' => ?_
    dsimp only
    have hscratch : elements.toNat * partitions.toNat < 2 ^ 31 := by
      calc elements.toNat * partitions.toNat
          ≤ elements.toNat * 8 := Nat.mul_le_mul_left _ hpartitions
        _ < 2 ^ 31 := by omega
    split
    · rw [wp_bind]
      refine wp_product_fits (by omega) fun scratchElements hscratch' => ⟨_, rfl, ?_, ?_⟩
      · exact hblocks'.trans_lt hblocks
      · exact hscratch'.trans_lt hscratch
    · exact ⟨_, rfl, hblocks'.trans_lt hblocks, Nat.two_pow_pos 31⟩

theorem exists_plan (mode : Int8GemmMode) (h : Multiplies rows.toNat inner.toNat columns.toNat) :
    ∃ plan, ((planInt8Gemm rows inner columns mode).exec true).1 = .ok plan := by
  have hplan : wp (planInt8Gemm rows inner columns mode) (fun r _ => ∃ plan, r = .ok plan) true := by
    have hne : ∀ {n : UInt64}, 0 < n.toNat → n ≠ 0 := fun hn h0 => by
      rw [h0] at hn
      exact absurd hn (Nat.lt_irrefl 0)
    have houtput := h.output
    have hleft := h.left
    have hright := h.right
    unfold planInt8Gemm
    rw [wp_bind, wp_throwIf, if_neg (by
      rintro (h0 | h0 | h0)
      · exact hne h.rows_pos h0
      · exact hne h.inner_pos h0
      · exact hne h.columns_pos h0)]
    dsimp only
    rw [wp_bind]
    refine wp_product_fits (by omega) fun elements helements => ?_
    dsimp only
    rw [wp_bind]
    refine wp_product_fits (by omega) fun _ _ => ?_
    dsimp only
    rw [wp_bind]
    refine wp_product_fits (by omega) fun _ _ => ?_
    dsimp only
    rw [wp_bind]
    refine wp_mono (wp_sizes_fits h helements) ?_
    rintro r exact' ⟨plan, rfl, hblocks, hscratch⟩
    dsimp only
    rw [wp_bind, wp_throwIf, if_neg]
    · exact ⟨plan, rfl⟩
    · rintro (hlt | hlt)
      · have hlt' : 0x7fffffff < plan.blocks.toNat := UInt64.lt_iff_toNat_lt.mp hlt
        omega
      · have hlt' : (2 ^ 64 - 1) / 4 < plan.scratchElements.toNat := UInt64.lt_iff_toNat_lt.mp hlt
        omega
  exact hplan

end

/-! ## the product -/

/-- what the device is free in: what blocks find in their shared memory, and the orders -/
structure ProductRun (K : Type) where
  schedule : Int8GemmPlan → Nat → Schedule
  valid : ∀ plan elements, (schedule plan elements).Valid plan elements
  threads : CudaTensorBackend.Order
  shared : Nat → Shared K
  sized : ∀ block, (shared block).inputTile.length = 256 ∧ (shared block).sums.length = 256

variable {K : Type}

/-- one block after another, and in each of them one thread after another -/
def ascending (plan : Int8GemmPlan) (elements : Nat) : Schedule where
  blocks := List.range plan.blocks.toNat
  threads _ _ := List.range 256
  reduction := List.range (Backend.blocks elements * threadsPerBlock)

theorem valid_ascending (plan : Int8GemmPlan) (elements : Nat) :
    (ascending plan elements).Valid plan elements := by
  refine ⟨.refl _, fun block phase => ?_, .refl _⟩
  simp only [ascending]
  exact List.Perm.refl _

instance [Inhabited K] : Inhabited (ProductRun K) := ⟨{
  schedule := ascending
  valid := valid_ascending
  threads := default
  shared := fun _ => ⟨List.replicate 256 default, List.replicate 256 default, []⟩
  sized := fun _ => ⟨List.length_replicate, List.length_replicate⟩ }⟩

/-- an array that was written to its end -/
def contents (cells : Cells K) : Option (List K) := cells.mapM id

theorem contents_filled (n : Nat) (value : Nat → K) :
    contents (filled n value) = some ((List.range n).map value) := by
  unfold contents filled
  induction List.range n with
  | nil => rfl
  | cons c l ih =>
    rw [List.map_cons, List.mapM_cons, ih]
    rfl

variable [Field K]

/-- A tensor in memory is addressable. -/
def matmulInt8 (N : Numerics K) (mode : Int8GemmMode) (run : ProductRun K) (left : Grid K)
    (right : Grid Int8) (parameters : QuantizationParameters) (output : Grid K) :
    Except StdError (Grid K) := do
  ((validateParameters .INT8 parameters).exec true).1
  throwIf (right.rows ≠ left.columns ∨ output.rows ≠ left.rows ∨ output.columns ≠ right.columns)
    (.invalid_argument "CUDA INT8 weight matmul dimensions are incompatible")
  let plan ← ((planInt8Gemm (UInt64.ofNat left.rows) (UInt64.ofNat left.columns)
    (UInt64.ofNat right.columns) mode).exec true).1
  if h : left.rows * left.columns * 4 < 2 ^ 64 ∧ right.rows = left.columns then
    let o : Operands K := ⟨⟨left, h.1⟩, right, h.2, N.ofFloat parameters.scale, parameters.zeroPoint⟩
    let cells := if plan.implementation = .Cooperative then
        (int8WeightMatmulCooperative o plan (run.schedule plan (o.rows * o.columns))
          run.shared).map Prod.snd
      else int8WeightMatmul o (run.threads.threads (o.rows * o.columns))
    CudaTensorBackend.written "CUDA INT8 weight matmul kernel" output.rows output.columns
      (cells.bind contents)
  else throw (.runtime_error "CUDA INT8 weight matmul kernel")

section
variable {o : Operands K}

omit [Field K] in
/-- one partition would do -/
theorem Multiplies.planned (h : Multiplies o.rows o.inner o.columns) :
    ∃ plan, Planned o.rows o.inner o.columns plan := by
  have houtput := h.output
  have hright := h.right
  have hle : o.rows * ((o.columns + 31) / 32) ≤ o.rows * o.columns := by
    have hcolumns := h.columns_pos
    exact Nat.mul_le_mul_left _ (by omega)
  have hblocks : (UInt64.ofNat (o.rows * ((o.columns + 31) / 32))).toNat =
      o.rows * ((o.columns + 31) / 32) := UInt64.toNat_ofNat_of_lt' (by
    show _ < 2 ^ 64
    omega)
  exact ⟨{ blocks := UInt64.ofNat (o.rows * ((o.columns + 31) / 32)) }, {
    rows_pos := h.rows_pos
    inner_pos := h.inner_pos
    columns_pos := h.columns_pos
    right_lt := by omega
    partitions_pos := Nat.one_pos
    partitions_le := (by decide : 1 ≤ 8)
    blocks := hblocks.trans (by
      show _ = o.rows * 1 * _
      rw [Nat.mul_one])
    blocks_lt := by
      rw [hblocks]
      omega
    scratch := rfl }⟩

/-- the blocks, and where there are partitions their sums -/
theorem cooperative_output {plan : Int8GemmPlan} (hplan : Planned o.rows o.inner o.columns plan)
    (run : ProductRun K) : ∃ scratch, int8WeightMatmulCooperative o plan
      (run.schedule plan (o.rows * o.columns)) run.shared =
        some (scratch, filled (o.rows * o.columns) (referenceValue o)) := by
  have hvalid := run.valid plan (o.rows * o.columns)
  have hdestination := cooperative_destination hplan hvalid.blocks hvalid.threads
    (fun block => (run.sized block).1) fun block => (run.sized block).2
  unfold int8WeightMatmulCooperative
  dsimp only
  by_cases hone : plan.partitions.toNat = 1
  · have hvalue : destinationValue o 1 = referenceValue o := by
      funext c
      rw [destinationValue, rangeSum, rangeLast_eq, Nat.mod_one, Nat.zero_add, rangeFirst_zero,
        rangeFirst_all Nat.one_pos, Nat.div_one, referenceValue, Finset.range_eq_Ico]
    rw [hone, Nat.mul_one, hvalue] at hdestination
    refine ⟨fresh plan.scratchElements.toNat, ?_⟩
    rw [if_pos hone, hone, hdestination]
    rfl
  · have hmany : plan.partitions.toNat > 1 := by
      have hpos := hplan.partitions_pos
      omega
    have hscratch : plan.scratchElements.toNat = o.rows * plan.partitions.toNat * o.columns := by
      rw [hplan.scratch, if_pos hmany, Nat.mul_right_comm]
    refine ⟨filled (o.rows * plan.partitions.toNat * o.columns)
      (destinationValue o plan.partitions.toNat), ?_⟩
    rw [if_neg hone, hscratch, hdestination]
    exact Option.bind_eq_some_iff.mpr ⟨_, rfl, Option.bind_eq_some_iff.mpr
      ⟨_, reduction_output hplan hvalid.reduction, rfl⟩⟩

end

variable {N : Numerics K} {mode : Int8GemmMode} {run : ProductRun K} {left output g : Grid K}
  {right : Grid Int8} {parameters : QuantizationParameters}

theorem matmulInt8_of_host
    (h : matmulInt8Weights N left right parameters output.rows output.columns = .ok g)
    (hfits : Multiplies left.rows left.columns right.columns) :
    matmulInt8 N mode run left right parameters output = .ok g := by
  obtain ⟨⟨hparameters, hright, hrows, hcolumns⟩, rfl⟩ := matmulInt8Weights_eq_ok.mp h
  have hleft := hfits.left
  have houtput := hfits.output
  have hword : ∀ {n m : Nat}, 0 < m → n * m < 2 ^ 31 → (UInt64.ofNat n).toNat = n := by
    intro n m hm hlt
    have hle := Nat.le_mul_of_pos_right n hm
    exact UInt64.toNat_ofNat_of_lt' (by
      show _ < 2 ^ 64
      omega)
  have hrowsWord := hword hfits.inner_pos hleft
  have hinnerWord := hword hfits.columns_pos hfits.right
  have hcolumnsWord : (UInt64.ofNat right.columns).toNat = right.columns :=
    hword hfits.rows_pos (by rw [Nat.mul_comm]; omega)
  have hfits' : Multiplies (UInt64.ofNat left.rows).toNat (UInt64.ofNat left.columns).toNat
      (UInt64.ofNat right.columns).toNat := by
    rw [hrowsWord, hinnerWord, hcolumnsWord]
    exact hfits
  obtain ⟨plan, hplan⟩ := exists_plan mode hfits'
  have haddressable : left.rows * left.columns * 4 < 2 ^ 64 ∧ right.rows = left.columns :=
    ⟨by omega, hright⟩
  let o : Operands K := ⟨⟨left, haddressable.1⟩, right, haddressable.2, N.ofFloat parameters.scale,
    parameters.zeroPoint⟩
  have hcells : (if plan.implementation = .Cooperative then
        (int8WeightMatmulCooperative o plan (run.schedule plan (o.rows * o.columns))
          run.shared).map Prod.snd
      else int8WeightMatmul o (run.threads.threads (o.rows * o.columns))) =
      some (filled (o.rows * o.columns) (referenceValue o)) := by
    split
    · next hmode =>
      have hplanned := (wp_planInt8Gemm true _ _ _ mode).2 plan hplan hmode
      rw [hrowsWord, hinnerWord, hcolumnsWord] at hplanned
      obtain ⟨scratch, hrun⟩ := cooperative_output (o := o) hplanned run
      rw [hrun]
      rfl
    · obtain ⟨plan', hplanned⟩ := Multiplies.planned (o := o) hfits
      exact reference_output hplanned (run.threads.perm _)
  unfold matmulInt8
  rw [hparameters]
  refine throwIf_bind_eq_ok.mpr ⟨by push Not; exact ⟨hright, hrows, hcolumns⟩,
    bind_eq_ok.mpr ⟨plan, hplan, ?_⟩⟩
  rw [dif_pos haddressable]
  dsimp only
  rw [hcells]
  show CudaTensorBackend.written _ _ _ (contents _) = _
  rw [contents_filled, hrows, hcolumns, ← product_eq_mapRows]
  refine CudaTensorBackend.written_of_getD _ ?_ _ fun row hrow column hcolumn => ?_
  · rw [List.length_map, List.length_range]
    rfl
  · have hlt : row * right.columns + column < o.rows * o.columns := Grid.address_lt hrow hcolumn
    rw [Grid.getD_map_range _ hlt, referenceValue]
    refine Finset.sum_congr rfl fun index _ => ?_
    show term o ((row * right.columns + column) / right.columns)
      ((row * right.columns + column) % right.columns) index = _
    rw [Grid.address_div row hcolumn, Grid.address_mod row hcolumn]
    rfl

end HyperMoE.Tensor
