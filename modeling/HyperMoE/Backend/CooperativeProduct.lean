import Mathlib.Algebra.Field.Rat
import HyperMoE.Backend.CooperativeBlock

/-!
# The cooperative product

* `block_writes`              what a block adds to its destination;
* `cooperative_destination`   all blocks: the sums of the ranges;
* `reduction_output`          the partitions added up;
* `reference_output`          the reference;
* `cooperative_eq_reference`  the two products.
-/

namespace HyperMoE.Backend

open Lib Cells

variable {K : Type} [Field K] {o : Operands K} {partitions : Nat}

/-! ## the blocks -/

theorem columnTiles_eq (columns : Nat) : columnTiles columns = (columns + 31) / 32 := by
  unfold columnTiles
  split <;> omega

/-- the block that writes an element -/
def blockOf (columns c : Nat) : Nat := c / columns * columnTiles columns + c % columns / 32

theorem tile_lt {columns : Nat} (h : 0 < columns) (c : Nat) :
    c % columns / 32 < columnTiles columns := by
  have := Nat.mod_lt c h
  rw [columnTiles_eq]
  omega

theorem blockOf_eq_iff {columns : Nat} (h : 0 < columns) (c block : Nat) :
    blockOf columns c = block ↔
      c / columns = block / columnTiles columns ∧ c % columns / 32 = block % columnTiles columns := by
  constructor
  · rintro rfl
    exact ⟨(Grid.address_div _ (tile_lt h c)).symm, (Grid.address_mod _ (tile_lt h c)).symm⟩
  · rintro ⟨hdiv, hmod⟩
    rw [blockOf, hdiv, hmod]
    exact Nat.div_add_mod' block (columnTiles columns)

/-- the element `c` of a destination, when it is written -/
def destinationValue (o : Operands K) (partitions c : Nat) : K :=
  rangeSum o partitions (c / o.columns) (c % o.columns)

theorem block_writes {order : Phase → List Nat} {shared : Shared K} {block : Nat}
    {destination : Cells K} (horder : ∀ phase, (order phase).Perm (List.range 256))
    (hpartitions : 0 < partitions) (hcolumns : 0 < o.columns)
    (hrow : block / columnTiles o.columns < o.rows * partitions)
    (hinputTile : shared.inputTile.length = 256) (hsums : shared.sums.length = 256)
    (hfree : ∀ c < o.rows * partitions * o.columns, blockOf o.columns c = block →
      destination[c]? = some none) :
    ∃ written, cooperativeInt8Kernel o partitions order shared block destination = some written ∧
      ∀ c : Nat, written[c]? = if blockOf o.columns c = block
        then some (some (destinationValue o partitions c)) else destination[c]? := by
  have hrow' : block / columnTiles o.columns / partitions < o.rows :=
    Nat.div_lt_of_lt_mul (Nat.mul_comm _ _ ▸ hrow)
  obtain ⟨s, harrays, hs⟩ := block_sums (block % columnTiles o.columns) horder hpartitions hrow'
    hinputTile hsums
  rw [cooperativeInt8Kernel_eq, harrays, Option.bind_some]
  have hlaunch : ∃ written, launch (storeResult o partitions (block % columnTiles o.columns)
        (block / columnTiles o.columns / partitions) (block / columnTiles o.columns % partitions) s)
        (order .finish) destination = some written ∧
      ∀ c : Nat, written[c]? = if c % o.columns % 32 ∈ order .finish
        then (if blockOf o.columns c = block then some (some (destinationValue o partitions c))
          else destination[c]?) else destination[c]? := by
    refine launch_cells (fun (cells : Cells K) (c : Nat) => cells[c]?) (fun c => c % o.columns % 32)
      (fun c => destination[c]?)
      (fun c => if blockOf o.columns c = block then some (some (destinationValue o partitions c))
        else destination[c]?) ?_ ((horder .finish).nodup_iff.mpr List.nodup_range) fun _ => rfl
    intro done thread cells _ hnot hcells
    unfold storeResult
    dsimp only
    split
    · next hwrites =>
      obtain ⟨hlane, hcolumn⟩ := hwrites
      have hthread : thread % 32 = thread := Nat.mod_eq_of_lt (by omega)
      rw [hthread] at hcolumn ⊢
      rw [Nat.div_add_mod' (block / columnTiles o.columns) partitions]
      -- the element that the thread writes
      generalize hc : block / columnTiles o.columns * o.columns +
        (block % columnTiles o.columns * 32 + thread) = c
      have hdiv : c / o.columns = block / columnTiles o.columns := hc ▸ Grid.address_div _ hcolumn
      have hmod : c % o.columns = block % columnTiles o.columns * 32 + thread :=
        hc ▸ Grid.address_mod _ hcolumn
      have hblock : blockOf o.columns c = block := by
        rw [blockOf_eq_iff hcolumns, hdiv, hmod]
        exact ⟨rfl, by omega⟩
      have hlt : c < o.rows * partitions * o.columns := hc ▸ Grid.address_lt hrow hcolumn
      have howner : c % o.columns % 32 = thread := by omega
      have hnone : cells[c]? = some none := by
        rw [hcells, howner, if_neg hnot, hfree c hlt hblock]
      have hvalue : s.sums[thread]? = some (destinationValue o partitions c) := by
        rw [destinationValue, hdiv, hmod]
        exact hs thread (by omega) hcolumn
      refine ⟨cells.set c (some (destinationValue o partitions c)), ?_, fun c' => ?_⟩
      · exact Option.bind_eq_some_iff.mpr ⟨_, hvalue, write_eq hnone _⟩
      · by_cases he : c' = c
        · subst he
          rw [List.getElem?_set_self (List.getElem?_eq_some_iff.mp hnone).1, howner, if_pos rfl,
            if_pos hblock]
        · rw [List.getElem?_set_ne (Ne.symm he)]
          split
          · next hthread' =>
            have hother : blockOf o.columns c' ≠ block := by
              intro hblock'
              obtain ⟨hdiv', hmod'⟩ := (blockOf_eq_iff hcolumns c' block).mp hblock'
              have hc' := Nat.div_add_mod' c' o.columns
              rw [hdiv'] at hc'
              omega
            rw [if_neg hother, hcells, hthread', if_neg hnot]
          · rfl
    · next hidle =>
      refine ⟨cells, rfl, fun c => ?_⟩
      split
      · next hthread =>
        have hother : blockOf o.columns c ≠ block := by
          intro hblock
          obtain ⟨-, hmod⟩ := (blockOf_eq_iff hcolumns c block).mp hblock
          have hlt := Nat.mod_lt c hcolumns
          exact hidle ⟨by omega, by omega⟩
        rw [if_neg hother, hcells, hthread, if_neg hnot]
      · rfl
  obtain ⟨written, hlaunch, hwritten⟩ := hlaunch
  refine ⟨written, hlaunch, fun c => ?_⟩
  rw [hwritten, if_pos]
  refine (horder .finish).mem_iff.mpr (List.mem_range.mpr ?_)
  exact Nat.lt_trans (Nat.mod_lt _ (by decide)) (by decide)

structure Schedule.Valid (schedule : Schedule) (plan : Int8GemmPlan) (elements : Nat) : Prop where
  blocks : schedule.blocks.Perm (List.range plan.blocks.toNat)
  threads : ∀ block phase, (schedule.threads block phase).Perm (List.range 256)
  reduction : schedule.reduction.Perm (List.range (Backend.blocks elements * threadsPerBlock))

variable {plan : Int8GemmPlan} {schedule : Schedule} {shared : Nat → Shared K}

theorem cooperative_destination (hplan : Planned o.rows o.inner o.columns plan)
    (hblocks : schedule.blocks.Perm (List.range plan.blocks.toNat))
    (hthreads : ∀ block phase, (schedule.threads block phase).Perm (List.range 256))
    (hinputTile : ∀ block, (shared block).inputTile.length = 256)
    (hsums : ∀ block, (shared block).sums.length = 256) :
    launch (fun block => cooperativeInt8Kernel o plan.partitions.toNat (schedule.threads block)
        (shared block) block) schedule.blocks
        (fresh (o.rows * plan.partitions.toNat * o.columns)) =
      some (filled (o.rows * plan.partitions.toNat * o.columns)
        (destinationValue o plan.partitions.toNat)) := by
  have hcolumns := hplan.columns_pos
  have hcount : plan.blocks.toNat = o.rows * plan.partitions.toNat * columnTiles o.columns := by
    rw [hplan.blocks, columnTiles_eq]
  have hmem : ∀ block, block ∈ schedule.blocks ↔ block < plan.blocks.toNat :=
    fun block => hblocks.mem_iff.trans List.mem_range
  have hbelow : ∀ c, blockOf o.columns c < plan.blocks.toNat ↔
      c < o.rows * plan.partitions.toNat * o.columns := by
    intro c
    have htile := tile_lt hcolumns c
    rw [hcount, ← Nat.div_lt_iff_lt_mul hcolumns, ← Nat.div_lt_iff_lt_mul (Nat.zero_lt_of_lt htile),
      blockOf, Grid.address_div _ htile]
  have hlaunch : ∃ cells, launch (fun block => cooperativeInt8Kernel o plan.partitions.toNat
        (schedule.threads block) (shared block) block) schedule.blocks
        (fresh (o.rows * plan.partitions.toNat * o.columns)) = some cells ∧
      ∀ c : Nat, cells[c]? = if blockOf o.columns c ∈ schedule.blocks
        then (if c < o.rows * plan.partitions.toNat * o.columns
          then some (some (destinationValue o plan.partitions.toNat c)) else none)
        else if c < o.rows * plan.partitions.toNat * o.columns then some none else none := by
    refine launch_cells (fun (cells : Cells K) (c : Nat) => cells[c]?) (blockOf o.columns) _ _ ?_
      (hblocks.nodup_iff.mpr List.nodup_range) (getElem?_fresh _)
    intro done block cells hblock hnot hcells
    have hlt := (hmem block).mp hblock
    have hrow : block / columnTiles o.columns < o.rows * plan.partitions.toNat := by
      rw [hcount] at hlt
      exact Nat.div_lt_of_lt_mul (Nat.mul_comm _ (columnTiles o.columns) ▸ hlt)
    have hfree : ∀ c < o.rows * plan.partitions.toNat * o.columns, blockOf o.columns c = block →
        cells[c]? = some none := fun c hc he => by rw [hcells, he, if_neg hnot, if_pos hc]
    obtain ⟨written, hkernel, hwritten⟩ := block_writes (hthreads block) hplan.partitions_pos hcolumns
      hrow (hinputTile block) (hsums block) hfree
    refine ⟨written, hkernel, fun c => ?_⟩
    rw [hwritten]
    refine if_ctx_congr Iff.rfl (fun he => ?_) fun _ => rfl
    rw [if_pos ((hbelow c).mp (he ▸ hlt))]
  obtain ⟨cells, hlaunch, hcells⟩ := hlaunch
  rw [hlaunch]
  refine congrArg some (List.ext_getElem? fun c => ?_)
  rw [hcells, getElem?_filled]
  by_cases hlt : c < o.rows * plan.partitions.toNat * o.columns
  · rw [if_pos ((hmem _).mpr ((hbelow c).mpr hlt))]
  · rw [if_neg hlt, if_neg hlt, ite_self]

/-! ## a thread for each element -/

/-- what both products compute -/
def referenceValue (o : Operands K) (c : Nat) : K :=
  ∑ index ∈ Finset.range o.inner, term o (c / o.columns) (c % o.columns) index

theorem threads_cover {elements : Nat} (h : elements < 2 ^ 36) :
    elements ≤ blocks elements * threadsPerBlock := by
  unfold blocks threadsPerBlock
  omega

omit [Field K] in
theorem elements_lt (hplan : Planned o.rows o.inner o.columns plan) :
    o.rows * o.columns < 2 ^ 36 := by
  have htiles : o.columns ≤ (o.columns + 31) / 32 * 32 := by omega
  have hle : o.rows * o.columns ≤ plan.blocks.toNat * 32 := by
    rw [hplan.blocks]
    calc o.rows * o.columns
        ≤ o.rows * ((o.columns + 31) / 32 * 32) := Nat.mul_le_mul_left _ htiles
      _ ≤ o.rows * plan.partitions.toNat * ((o.columns + 31) / 32 * 32) :=
          Nat.mul_le_mul_right _ (Nat.le_mul_of_pos_right _ hplan.partitions_pos)
      _ = o.rows * plan.partitions.toNat * ((o.columns + 31) / 32) * 32 := (Nat.mul_assoc _ _ _).symm
  have := hplan.blocks_lt
  omega

omit [Field K] in
theorem row_lt (hcolumns : 0 < o.columns) {c : Nat} (h : c < o.rows * o.columns) :
    c / o.columns < o.rows := (Nat.div_lt_iff_lt_mul hcolumns).mpr h

theorem reference_output (hplan : Planned o.rows o.inner o.columns plan) {threads : List Nat}
    (hthreads : threads.Perm (List.range (blocks (o.rows * o.columns) * threadsPerBlock))) :
    int8WeightMatmul o threads = some (filled (o.rows * o.columns) (referenceValue o)) := by
  refine launch_filled (referenceValue o) (fun c hc output => ?_)
    (fun c hc output => if_pos hc) (hthreads.nodup_iff.mpr List.nodup_range) fun c hc => ?_
  · have hrow := row_lt hplan.columns_pos hc
    have hcolumn := Nat.mod_lt c hplan.columns_pos
    have hread : ∀ index ∈ List.range o.inner, ∀ sum : K, (do
        let quantized ← o.right.values[index * o.columns + c % o.columns]?
        let value ← o.left.values[c / o.columns * o.inner + index]?
        return sum + value * o.weight quantized : Option K) =
          some (sum + term o (c / o.columns) (c % o.columns) index) := by
      intro index hindex sum
      have hlt := List.mem_range.mp hindex
      rw [right_read hlt hcolumn, left_read hrow hlt]
      rfl
    have hsum := foldlM_sum hread 0
    rw [zero_add] at hsum
    unfold int8WeightMatmulKernel
    rw [if_neg (Nat.not_le.mpr hc)]
    dsimp only
    rw [hsum]
    rfl
  · exact hthreads.mem_iff.mpr (List.mem_range.mpr
      (Nat.lt_of_lt_of_le hc (threads_cover (elements_lt hplan))))

/-- the ranges of the partitions together -/
theorem sum_partitions (hpartitions : 0 < partitions) (row column : Nat) :
    ((List.range partitions).map fun partition =>
      rangeSum o partitions (row * partitions + partition) column).sum =
        ∑ index ∈ Finset.range o.inner, term o row column index := by
  have hrange : ∀ partition ∈ Finset.range partitions,
      rangeSum o partitions (row * partitions + partition) column =
        ∑ index ∈ Finset.Ico (rangeFirst o.inner partitions partition)
          (rangeFirst o.inner partitions (partition + 1)), term o row column index := by
    intro partition hpartition
    have hlt := Finset.mem_range.mp hpartition
    rw [rangeSum, Grid.address_div _ hlt, Grid.address_mod _ hlt, rangeLast_eq]
  calc ((List.range partitions).map fun partition =>
        rangeSum o partitions (row * partitions + partition) column).sum
      = ∑ partition ∈ Finset.range partitions,
          rangeSum o partitions (row * partitions + partition) column := rfl
    _ = ∑ partition ∈ Finset.range partitions,
          ∑ index ∈ Finset.Ico (rangeFirst o.inner partitions partition)
            (rangeFirst o.inner partitions (partition + 1)), term o row column index :=
        Finset.sum_congr rfl hrange
    _ = ∑ index ∈ Finset.range o.inner, term o row column index := by
        rw [sum_ranges _ (rangeFirst_mono o.inner partitions), rangeFirst_zero,
          rangeFirst_all hpartitions, Finset.range_eq_Ico]

theorem reduction_output (hplan : Planned o.rows o.inner o.columns plan) {threads : List Nat}
    (hthreads : threads.Perm (List.range (blocks (o.rows * o.columns) * threadsPerBlock))) :
    launch (reduceInt8PartitionsKernel o plan.partitions.toNat
        (filled (o.rows * plan.partitions.toNat * o.columns)
          (destinationValue o plan.partitions.toNat))) threads (fresh (o.rows * o.columns)) =
      some (filled (o.rows * o.columns) (referenceValue o)) := by
  refine launch_filled (referenceValue o) (fun c hc output => ?_)
    (fun c hc output => if_pos hc) (hthreads.nodup_iff.mpr List.nodup_range) fun c hc => ?_
  · have hrow := row_lt hplan.columns_pos hc
    have hcolumn := Nat.mod_lt c hplan.columns_pos
    have hread : ∀ partition ∈ List.range plan.partitions.toNat, ∀ sum : K, (do
        let value ← (filled (o.rows * plan.partitions.toNat * o.columns)
          (destinationValue o plan.partitions.toNat)).read
            ((c / o.columns * plan.partitions.toNat + partition) * o.columns + c % o.columns)
        return sum + value : Option K) = some (sum + rangeSum o plan.partitions.toNat
          (c / o.columns * plan.partitions.toNat + partition) (c % o.columns)) := by
      intro partition hpartition sum
      have hlt := Grid.address_lt hrow (List.mem_range.mp hpartition)
      rw [read_filled (Grid.address_lt hlt hcolumn), destinationValue, Grid.address_div _ hcolumn,
        Grid.address_mod _ hcolumn]
      rfl
    have hsum := foldlM_sum hread 0
    rw [zero_add, sum_partitions hplan.partitions_pos] at hsum
    unfold reduceInt8PartitionsKernel
    rw [if_neg (Nat.not_le.mpr hc)]
    dsimp only
    rw [hsum]
    rfl
  · exact hthreads.mem_iff.mpr (List.mem_range.mpr
      (Nat.lt_of_lt_of_le hc (threads_cover (elements_lt hplan))))

/-! ## the two products -/

/-- A plan of the code for a cooperative product: it was made without a wrap, its ranges lie end to
end, and every run of it ends with the reference in the output, each element of the output and of
the scratch written once and every access in bounds. -/
theorem cooperative_eq_reference (o : Operands K) (rows inner columns : UInt64) (mode : Int8GemmMode)
    (plan : Int8GemmPlan) (schedule : Schedule) (threads : List Nat) (shared : Nat → Shared K)
    (hrows : o.rows = rows.toNat) (hinner : o.inner = inner.toNat)
    (hcolumns : o.columns = columns.toNat)
    (hplan : ((planInt8Gemm rows inner columns mode).exec true).1 = .ok plan)
    (hmode : plan.implementation = .Cooperative)
    (hschedule : schedule.Valid plan (o.rows * o.columns))
    (hthreads : threads.Perm (List.range (blocks (o.rows * o.columns) * threadsPerBlock)))
    (hinputTile : ∀ block, (shared block).inputTile.length = 256)
    (hsums : ∀ block, (shared block).sums.length = 256) :
    ((planInt8Gemm rows inner columns mode).exec true).2 = true ∧
    (rangeFirst o.inner plan.partitions.toNat 0 = 0 ∧
      (∀ partition, rangeLast o.inner plan.partitions.toNat partition =
        rangeFirst o.inner plan.partitions.toNat (partition + 1)) ∧
      rangeFirst o.inner plan.partitions.toNat plan.partitions.toNat = o.inner) ∧
    ∃ scratch output, int8WeightMatmulCooperative o plan schedule shared = some (scratch, output) ∧
      int8WeightMatmul o threads = some output ∧
      output = filled (o.rows * o.columns) (referenceValue o) ∧
      scratch.length = plan.scratchElements.toNat ∧ ∀ cell ∈ scratch, cell.isSome = true := by
  obtain ⟨hexact, hplanned⟩ := wp_planInt8Gemm true rows inner columns mode
  have hp := hplanned plan hplan hmode
  rw [← hrows, ← hinner, ← hcolumns] at hp
  refine ⟨hexact, ⟨rangeFirst_zero _ _, rangeLast_eq _ _, rangeFirst_all hp.partitions_pos⟩, ?_⟩
  have hdestination := cooperative_destination hp hschedule.blocks hschedule.threads hinputTile hsums
  unfold int8WeightMatmulCooperative
  dsimp only
  by_cases hone : plan.partitions.toNat = 1
  · have hscratch : plan.scratchElements.toNat = 0 := by
      rw [hp.scratch, if_neg (by omega)]
    rw [hone, Nat.mul_one] at hdestination
    have hvalue : destinationValue o 1 = referenceValue o := by
      funext c
      rw [destinationValue, rangeSum, rangeLast_eq, Nat.mod_one, Nat.zero_add, rangeFirst_zero,
        rangeFirst_all Nat.one_pos, Nat.div_one, referenceValue, Finset.range_eq_Ico]
    rw [hvalue] at hdestination
    refine ⟨fresh plan.scratchElements.toNat, _, ?_, reference_output hp hthreads, rfl, ?_, ?_⟩
    · rw [if_pos hone, hone, hdestination]
      rfl
    · exact List.length_replicate
    · rw [hscratch]
      exact fun cell h => absurd h List.not_mem_nil
  · have hmany : plan.partitions.toNat > 1 := by
      have := hp.partitions_pos
      omega
    have hscratch : plan.scratchElements.toNat =
        o.rows * plan.partitions.toNat * o.columns := by
      rw [hp.scratch, if_pos hmany, Nat.mul_right_comm]
    refine ⟨filled (o.rows * plan.partitions.toNat * o.columns)
      (destinationValue o plan.partitions.toNat), _, ?_, reference_output hp hthreads, rfl, ?_, ?_⟩
    · rw [if_neg hone, hscratch]
      exact Option.bind_eq_some_iff.mpr ⟨_, hdestination, Option.bind_eq_some_iff.mpr
        ⟨_, reduction_output hp hschedule.reduction, rfl⟩⟩
    · rw [hscratch, filled, List.length_map, List.length_range]
    · intro cell hcell
      obtain ⟨c, -, rfl⟩ := List.mem_map.mp hcell
      rfl

/-! Two partitions, and a second tile of columns that has one column. -/

def sampleOperands : Operands ℚ where
  left := { Grid.generate 1 513 (fun _ column => (column : ℚ)) with addressable := by decide }
  right := Grid.generate 513 33 fun row column => Int8.ofNat ((row + column) % 7)
  inner_eq := rfl
  scale := 1 / 2
  zeroPoint := 3

def samplePlan : Int8GemmPlan :=
  { implementation := .Cooperative, partitions := 2, blocks := 4, scratchElements := 66 }

def sampleSchedule : Schedule :=
  ⟨[2, 0, 3, 1], fun _ _ => (List.range 256).reverse, List.range (blocks 33 * threadsPerBlock)⟩

theorem cooperative_eq_reference_sample :
    ∃ scratch output, int8WeightMatmulCooperative sampleOperands samplePlan sampleSchedule
        (fun _ => ⟨List.replicate 256 7, List.replicate 256 7, []⟩) = some (scratch, output) ∧
      int8WeightMatmul sampleOperands (List.range (blocks 33 * threadsPerBlock)) = some output ∧
      scratch.length = 66 := by
  have hschedule : sampleSchedule.Valid samplePlan 33 := by
    refine ⟨by decide, fun block phase => ?_, ?_⟩
    · simp only [sampleSchedule]
      exact List.reverse_perm _
    · simp only [sampleSchedule]
      exact List.Perm.refl _
  obtain ⟨-, -, scratch, output, hcooperative, hreference, -, hlength, -⟩ :=
    cooperative_eq_reference sampleOperands 1 513 33 .Cooperative samplePlan sampleSchedule
      (List.range (blocks 33 * threadsPerBlock))
      (fun _ => ⟨List.replicate 256 7, List.replicate 256 7, []⟩) rfl rfl rfl (by decide +kernel) rfl
      hschedule (List.Perm.refl _) (fun _ => List.length_replicate) fun _ => List.length_replicate
  exact ⟨scratch, output, hcooperative, hreference, hlength⟩

end HyperMoE.Backend
