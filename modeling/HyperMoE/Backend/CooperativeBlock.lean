import Mathlib.Tactic.Ring
import HyperMoE.Backend.Int8Gemm

/-!
# A block of the cooperative product

* `Sized`             the arrays of a block have an element for each thread;
* `laneSum`           what a lane has summed up of its column, up to an index;
* `load_phase`, `accumulate_phase`, `store_phase`, `fold_phase`   the phases, in any order;
* `tiles_spec`        the tiles of a range;
* `block_sums`        the sums of a block are those of its range.
-/

namespace HyperMoE.Backend

open Lib

variable {K : Type} [Field K] {o : Operands K}

/-! ## reads -/

theorem getElem?_values {L : Type} [Zero L] {g : Grid L} {r c : Nat} (hr : r < g.rows)
    (hc : c < g.columns) : g.values[r * g.columns + c]? = some (g.get r c) := by
  have hlt : r * g.columns + c < g.values.length := by
    rw [g.sized]
    exact Grid.address_lt hr hc
  rw [List.getElem?_eq_getElem hlt, Grid.get, List.getD_eq_getElem _ _ hlt]

theorem left_read {row index : Nat} (hrow : row < o.rows) (hindex : index < o.inner) :
    o.left.values[row * o.inner + index]? = some (o.left.get row index) :=
  getElem?_values hrow hindex

omit [Field K] in
theorem right_read {index column : Nat} (hindex : index < o.inner) (hcolumn : column < o.columns) :
    o.right.values[index * o.columns + column]? = some (o.right.get index column) :=
  getElem?_values (o.inner_eq.symm ▸ hindex) hcolumn

/-- a product of the sum -/
def term (o : Operands K) (row column index : Nat) : K :=
  o.left.get row index * o.weight (o.right.get index column)

/-- a loop that adds what it reads -/
theorem foldlM_sum {α : Type} {step : K → α → Option K} {value : α → K} {l : List α}
    (h : ∀ a ∈ l, ∀ sum, step sum a = some (sum + value a)) (sum : K) :
    l.foldlM step sum = some (sum + (l.map value).sum) := by
  induction l generalizing sum with
  | nil => simp
  | cons a l ih =>
    rw [List.foldlM_cons, h a List.mem_cons_self]
    show l.foldlM step (sum + value a) = _
    rw [ih fun a' ha => h a' (List.mem_cons_of_mem _ ha), List.map_cons, List.sum_cons, add_assoc]

/-! ## the lanes -/

/-- the sum of a lane over the indices from `first` to `upto` -/
def laneSum (o : Operands K) (row column first upto lane : Nat) : K :=
  ∑ index ∈ Finset.Ico first upto, if (index - first) % 8 = lane then term o row column index else 0

theorem sum_laneSteps {laneK limit : Nat} (hlane : laneK < 8) (f : Nat → K) :
    ((laneSteps laneK limit).map f).sum =
      ∑ k ∈ Finset.range (min 256 limit), if k % 8 = laneK then f k else 0 := by
  have hlist : ∀ l : List Nat, ((l.filter fun k => k < limit).map f).sum =
      (l.map fun k => if k < limit then f k else 0).sum := by
    intro l
    induction l with
    | nil => rfl
    | cons k l ih =>
      rw [List.filter_cons, List.map_cons, List.sum_cons]
      by_cases hk : k < limit
      · rw [if_pos (decide_eq_true hk), List.map_cons, List.sum_cons, ih, if_pos hk]
      · rw [if_neg fun h => hk (of_decide_eq_true h), ih, if_neg hk, zero_add]
  rw [laneSteps, hlist, List.map_map]
  have hsum : ((List.range 32).map ((fun k => if k < limit then f k else 0) ∘
      fun j => laneK + 8 * j)).sum =
        ∑ j ∈ Finset.range 32, if laneK + 8 * j < limit then f (laneK + 8 * j) else 0 := rfl
  rw [hsum, sum_lane hlane 32 fun k => if k < limit then f k else 0]
  have hsub : Finset.range (min 256 limit) ⊆ Finset.range (8 * 32) :=
    Finset.range_subset_range.mpr (Nat.min_le_left _ _)
  rw [← Finset.sum_subset hsub]
  · refine Finset.sum_congr rfl fun k hk => ?_
    rw [if_pos (Nat.lt_of_lt_of_le (Finset.mem_range.mp hk) (Nat.min_le_right _ _))]
  · intro k hk hnot
    have hlimit : ¬ k < limit := fun h =>
      hnot (Finset.mem_range.mpr (Nat.lt_min.mpr ⟨Finset.mem_range.mp hk, h⟩))
    rw [if_neg hlimit, ite_self]

/-- a tile adds the next indices -/
theorem laneSum_tile {row column first tile last laneK : Nat} (hlane : laneK < 8) (i : Nat)
    (htile : tile = first + 256 * i) (hlt : tile < last) :
    laneSum o row column first tile laneK +
        ((laneSteps laneK (last - tile)).map fun k => term o row column (tile + k)).sum =
      laneSum o row column first (min (tile + 256) last) laneK := by
  have hle : tile ≤ min (tile + 256) last := Nat.le_min.mpr ⟨Nat.le_add_right _ _, Nat.le_of_lt hlt⟩
  have hfirst : first ≤ tile := htile ▸ Nat.le_add_right _ _
  have hcount : min (tile + 256) last - tile = min 256 (last - tile) := by omega
  rw [sum_laneSteps hlane, laneSum, laneSum, ← Finset.sum_Ico_consecutive _ hfirst hle,
    Finset.sum_Ico_eq_sum_range _ tile, hcount]
  congr 1
  refine Finset.sum_congr rfl fun k _ => if_congr ?_ rfl rfl
  have hplace : (tile + k - first) % 8 = k % 8 := by omega
  rw [hplace]

theorem sum_laneSum (row column first last : Nat) :
    ∑ lane ∈ Finset.range 8, laneSum o row column first last lane =
      ∑ index ∈ Finset.Ico first last, term o row column index :=
  sum_lanes (by decide) _ (fun index => index - first) _

/-! ## the phases -/

theorem set_of_getElem? {V : Type} {array : List V} {i : Nat} {v : V} (h : array[i]? = some v) :
    array = array.set i v := by
  obtain ⟨hlt, rfl⟩ := List.getElem?_eq_some_iff.mp h
  exact (List.set_getElem_self hlt).symm

/-- the arrays of a block have an element for each thread -/
structure Sized (s : Shared K) : Prop where
  inputTile : s.inputTile.length = 256
  sums : s.sums.length = 256
  registers : s.registers.length = 256

variable {s : Shared K} {threads : List Nat}

/-- what `inputTile` holds for a tile -/
def tileValue (o : Operands K) (row tile last thread : Nat) : K :=
  if thread < last - tile then o.left.get row (tile + thread) else 0

theorem load_phase (tile : Nat) {row last : Nat} (hthreads : threads.Perm (List.range 256))
    (hs : Sized s) (hrow : row < o.rows) (hlast : last ≤ o.inner) :
    ∃ s', launch (loadTile o row tile last) threads s = some s' ∧ Sized s' ∧
      s'.registers = s.registers ∧
      ∀ thread < 256, s'.inputTile[thread]? = some (tileValue o row tile last thread) := by
  suffices hlaunch : ∃ s', launch (loadTile o row tile last) threads s = some s' ∧
      (s'.sums = s.sums ∧ s'.registers = s.registers) ∧ s'.inputTile.length = 256 ∧
      ∀ thread < 256, s'.inputTile[thread]? = some (tileValue o row tile last thread) by
    obtain ⟨s', hlaunch, ⟨hsums, hregisters⟩, hlength, hcells⟩ := hlaunch
    exact ⟨s', hlaunch, ⟨hlength, hsums ▸ hs.sums, hregisters ▸ hs.registers⟩, hregisters, hcells⟩
  refine launch_array Shared.inputTile (fun s' => s'.sums = s.sums ∧ s'.registers = s.registers)
    (tileValue o row tile last) ?_ hthreads hs.inputTile ⟨rfl, rfl⟩
  intro done thread s' _ hthread hI hlength _
  have hvalue : tileElement o row tile last thread = some (tileValue o row tile last thread) := by
    unfold tileElement tileValue
    split
    · next hlt =>
      rw [Nat.add_assoc]
      exact left_read hrow (by omega)
    · rfl
  refine ⟨{ s' with inputTile := s'.inputTile.set thread (tileValue o row tile last thread) },
    ?_, hI, rfl⟩
  exact Option.bind_eq_some_iff.mpr ⟨_, hvalue,
    Option.bind_eq_some_iff.mpr ⟨_, put_eq (hlength.symm ▸ hthread) _, rfl⟩⟩

/-- the register of a thread after the indices up to `upto` -/
def registerAt (o : Operands K) (row columnTile first upto thread : Nat) : K :=
  if columnTile * 32 + thread % 32 < o.columns then
    laneSum o row (columnTile * 32 + thread % 32) first upto (thread / 32)
  else 0

theorem registerAt_first (row columnTile first last thread : Nat) :
    registerAt o row columnTile first (min (first + 256 * 0) last) thread = 0 := by
  unfold registerAt laneSum
  rw [Nat.mul_zero, Nat.add_zero, Finset.Ico_eq_empty_of_le (Nat.min_le_left first last),
    Finset.sum_empty, ite_self]

theorem accumulate_phase (columnTile i : Nat) {row first tile last : Nat}
    (hthreads : threads.Perm (List.range 256)) (hs : Sized s) (hlast : last ≤ o.inner)
    (htile : tile = first + 256 * i) (hlt : tile < last)
    (hinput : ∀ thread < 256, s.inputTile[thread]? = some (tileValue o row tile last thread))
    (hregisters : ∀ thread < 256,
      s.registers[thread]? = some (registerAt o row columnTile first tile thread)) :
    ∃ s', launch (accumulate o columnTile tile last) threads s = some s' ∧ Sized s' ∧
      ∀ thread < 256, s'.registers[thread]? =
        some (registerAt o row columnTile first (min (tile + 256) last) thread) := by
  suffices hlaunch : ∃ s', launch (accumulate o columnTile tile last) threads s = some s' ∧
      (s'.sums = s.sums ∧ s'.inputTile = s.inputTile) ∧ s'.registers.length = 256 ∧
      ∀ thread < 256, s'.registers[thread]? =
        some (registerAt o row columnTile first (min (tile + 256) last) thread) by
    obtain ⟨s', hlaunch, ⟨hsums, htiles⟩, hlength, hcells⟩ := hlaunch
    exact ⟨s', hlaunch, ⟨htiles ▸ hs.inputTile, hsums ▸ hs.sums, hlength⟩, hcells⟩
  refine launch_array Shared.registers (fun s' => s'.sums = s.sums ∧ s'.inputTile = s.inputTile)
    (registerAt o row columnTile first (min (tile + 256) last)) ?_ hthreads hs.registers ⟨rfl, rfl⟩
  intro done thread s' hnot hthread hI hlength hbefore
  have hregister : s'.registers[thread]? = some (registerAt o row columnTile first tile thread) := by
    rw [hbefore thread hthread, if_neg hnot, hregisters thread hthread]
  have hlane : thread / 32 < 8 := by omega
  unfold accumulate
  dsimp only
  by_cases hcolumn : columnTile * 32 + thread % 32 < o.columns
  · have hread : ∀ k ∈ laneSteps (thread / 32) (last - tile), ∀ sum : K, (do
        let quantized ← o.right.values[(tile + k) * o.columns + (columnTile * 32 + thread % 32)]?
        let value ← s'.inputTile[k]?
        return sum + value * o.weight quantized : Option K) =
          some (sum + term o row (columnTile * 32 + thread % 32) (tile + k)) := by
      intro k hk sum
      obtain ⟨hk, hlimit⟩ := List.mem_filter.mp hk
      obtain ⟨j, hj, rfl⟩ := List.mem_map.mp hk
      have hlimit' := of_decide_eq_true hlimit
      have hk256 : thread / 32 + 8 * j < 256 := by
        have := List.mem_range.mp hj
        omega
      rw [right_read (by omega) hcolumn, hI.2, hinput _ hk256, tileValue, if_pos hlimit']
      rfl
    have hsum := foldlM_sum hread (registerAt o row columnTile first tile thread)
    have hnext : registerAt o row columnTile first tile thread +
        ((laneSteps (thread / 32) (last - tile)).map fun k =>
          term o row (columnTile * 32 + thread % 32) (tile + k)).sum =
        registerAt o row columnTile first (min (tile + 256) last) thread := by
      unfold registerAt
      rw [if_pos hcolumn, if_pos hcolumn, laneSum_tile hlane i htile hlt]
    refine ⟨⟨s'.inputTile, s'.sums, s'.registers.set thread
      (registerAt o row columnTile first (min (tile + 256) last) thread)⟩, ?_, hI, rfl⟩
    rw [hnext] at hsum
    rw [if_pos hcolumn]
    exact Option.bind_eq_some_iff.mpr ⟨_, hregister, Option.bind_eq_some_iff.mpr ⟨_, hsum,
      Option.bind_eq_some_iff.mpr ⟨_, put_eq (hlength.symm ▸ hthread) _, rfl⟩⟩⟩
  · have hsame : registerAt o row columnTile first (min (tile + 256) last) thread =
        registerAt o row columnTile first tile thread := by
      unfold registerAt
      rw [if_neg hcolumn, if_neg hcolumn]
    refine ⟨s', if_neg hcolumn, hI, ?_⟩
    rw [hsame]
    exact set_of_getElem? hregister

omit [Field K] in
theorem store_phase (hthreads : threads.Perm (List.range 256)) (hs : Sized s) {value : Nat → K}
    (hregisters : ∀ thread < 256, s.registers[thread]? = some (value thread)) :
    ∃ s', launch storeSum threads s = some s' ∧ Sized s' ∧
      ∀ thread < 256, s'.sums[thread]? = some (value thread) := by
  suffices hlaunch : ∃ s', launch storeSum threads s = some s' ∧
      (s'.inputTile = s.inputTile ∧ s'.registers = s.registers) ∧ s'.sums.length = 256 ∧
      ∀ thread < 256, s'.sums[thread]? = some (value thread) by
    obtain ⟨s', hlaunch, ⟨htiles, hsame⟩, hlength, hcells⟩ := hlaunch
    exact ⟨s', hlaunch, ⟨htiles ▸ hs.inputTile, hlength, hsame ▸ hs.registers⟩, hcells⟩
  refine launch_array Shared.sums
    (fun s' => s'.inputTile = s.inputTile ∧ s'.registers = s.registers) value ?_ hthreads hs.sums
    ⟨rfl, rfl⟩
  intro done thread s' _ hthread hI hlength _
  have hregister : s'.registers[thread]? = some (value thread) := by
    rw [hI.2, hregisters thread hthread]
  refine ⟨⟨s'.inputTile, s'.sums.set thread (value thread), s'.registers⟩, ?_, hI, rfl⟩
  exact Option.bind_eq_some_iff.mpr ⟨_, hregister,
    Option.bind_eq_some_iff.mpr ⟨_, put_eq (hlength.symm ▸ hthread) _, rfl⟩⟩

/-- what the sums are after a round: the rows from `stride` on are added to those before -/
def folded (stride : Nat) (value : Nat → K) (thread : Nat) : K :=
  if thread / 32 < stride then value thread + value (thread + stride * 32) else value thread

theorem fold_phase (stride : Nat) (hthreads : threads.Perm (List.range 256)) (hs : Sized s)
    (hstride : stride ≤ 4) {value : Nat → K}
    (hsums : ∀ thread < 256, s.sums[thread]? = some (value thread)) :
    ∃ s', launch (foldSums stride) threads s = some s' ∧ Sized s' ∧
      ∀ thread < 256, s'.sums[thread]? = some (folded stride value thread) := by
  suffices hlaunch : ∃ s', launch (foldSums stride) threads s = some s' ∧
      (s'.inputTile = s.inputTile ∧ s'.registers = s.registers) ∧ s'.sums.length = 256 ∧
      ∀ thread < 256, s'.sums[thread]? = some (folded stride value thread) by
    obtain ⟨s', hlaunch, ⟨htiles, hsame⟩, hlength, hcells⟩ := hlaunch
    exact ⟨s', hlaunch, ⟨htiles ▸ hs.inputTile, hlength, hsame ▸ hs.registers⟩, hcells⟩
  refine launch_array Shared.sums
    (fun s' => s'.inputTile = s.inputTile ∧ s'.registers = s.registers) (folded stride value) ?_
    hthreads hs.sums ⟨rfl, rfl⟩
  intro done thread s' hnot hthread hI hlength hbefore
  have hlow : s'.sums[thread]? = some (value thread) := by
    rw [hbefore thread hthread, if_neg hnot, hsums thread hthread]
  unfold foldSums
  by_cases hlane : thread / 32 < stride
  · -- the other summand is in a row that this round leaves alone
    have hplace : (thread / 32 + stride) * 32 + thread % 32 = thread + stride * 32 := by omega
    have hhigh : s'.sums[(thread / 32 + stride) * 32 + thread % 32]? =
        some (value (thread + stride * 32)) := by
      rw [hplace, hbefore _ (by omega), hsums _ (by omega)]
      have hkept : folded stride value (thread + stride * 32) = value (thread + stride * 32) :=
        if_neg (by omega)
      rw [hkept, ite_self]
    have hvalue : folded stride value thread = value thread + value (thread + stride * 32) :=
      if_pos hlane
    refine ⟨⟨s'.inputTile, s'.sums.set thread (folded stride value thread), s'.registers⟩, ?_, hI,
      rfl⟩
    rw [if_pos hlane, hvalue]
    exact Option.bind_eq_some_iff.mpr ⟨_, hlow, Option.bind_eq_some_iff.mpr ⟨_, hhigh,
      Option.bind_eq_some_iff.mpr ⟨_, put_eq (hlength.symm ▸ hthread) _, rfl⟩⟩⟩
  · have hvalue : folded stride value thread = value thread := if_neg hlane
    refine ⟨s', if_neg hlane, hI, ?_⟩
    rw [hvalue]
    exact set_of_getElem? hlow

/-- a round halves the rows and keeps their sum -/
theorem sum_folded (stride : Nat) (value : Nat → K) {x : Nat} (hx : x < 32) :
    ∑ lane ∈ Finset.range stride, folded stride value (lane * 32 + x) =
      ∑ lane ∈ Finset.range (stride + stride), value (lane * 32 + x) := by
  rw [← sum_fold stride fun lane => value (lane * 32 + x)]
  refine Finset.sum_congr rfl fun lane hlane => ?_
  have hrow : (lane * 32 + x) / 32 = lane := by omega
  have hplace : lane * 32 + x + stride * 32 = (lane + stride) * 32 + x := by omega
  rw [folded, hrow, if_pos (Finset.mem_range.mp hlane), hplace]

/-- the tiles of a range, without a wrap -/
theorem tiles_spec (columnTile first : Nat) {row last : Nat} {order : Phase → List Nat}
    (horder : ∀ phase, (order phase).Perm (List.range 256)) (hrow : row < o.rows)
    (hlast : last ≤ o.inner) (hbound : last + 256 < 2 ^ 64) (fuel i : Nat)
    (hfuel : last - (first + 256 * i) < fuel) (hs : Sized s)
    (hregisters : ∀ thread < 256, s.registers[thread]? =
      some (registerAt o row columnTile first (min (first + 256 * i) last) thread)) :
    ∃ s', tiles (fun tile s => do
        let s ← launch (loadTile o row tile last) (order (.load tile)) s
        launch (accumulate o columnTile tile last) (order (.accumulate tile)) s)
        last fuel (first + 256 * i) s = some s' ∧ Sized s' ∧
      ∀ thread < 256, s'.registers[thread]? =
        some (registerAt o row columnTile first last thread) := by
  induction fuel generalizing i s with
  | zero => exact absurd hfuel (Nat.not_lt_zero _)
  | succ fuel ih =>
    unfold tiles
    split
    · next hlt =>
      rw [Nat.min_eq_left (Nat.le_of_lt hlt)] at hregisters
      obtain ⟨s₁, hload, hs₁, hsame, hinput⟩ :=
        load_phase (first + 256 * i) (horder (.load (first + 256 * i))) hs hrow hlast
      obtain ⟨s₂, haccumulate, hs₂, hnext⟩ := accumulate_phase columnTile i
        (horder (.accumulate (first + 256 * i))) hs₁ hlast rfl hlt hinput (hsame ▸ hregisters)
      have hstep : first + 256 * i + 256 = first + 256 * (i + 1) := by omega
      obtain ⟨s', htiles, hs', hdone⟩ := ih (i + 1) (by omega) hs₂ (hstep ▸ hnext)
      refine ⟨s', ?_, hs', hdone⟩
      rw [Nat.mod_eq_of_lt (by omega), hstep]
      exact Option.bind_eq_some_iff.mpr ⟨s₂, Option.bind_eq_some_iff.mpr ⟨s₁, hload, haccumulate⟩,
        htiles⟩
    · next hge =>
      rw [Nat.min_eq_right (Nat.le_of_not_lt hge)] at hregisters
      exact ⟨s, rfl, hs, hregisters⟩

/-! ## the ranges -/

section
variable {inner partitions : Nat}

theorem rangeFirst_zero (inner partitions : Nat) : rangeFirst inner partitions 0 = 0 := by
  unfold rangeFirst
  split <;> omega

/-- a range ends where the next one begins -/
theorem rangeLast_eq (inner partitions partition : Nat) :
    rangeLast inner partitions partition = rangeFirst inner partitions (partition + 1) := by
  unfold rangeLast rangeFirst
  rw [Nat.add_mul, Nat.one_mul]
  split
  · split <;> omega
  · rw [if_neg (by omega)]
    omega

/-- and the last one at the end -/
theorem rangeFirst_all (h : 0 < partitions) : rangeFirst inner partitions partitions = inner := by
  have hmod := Nat.mod_lt inner h
  unfold rangeFirst
  rw [if_neg (by omega)]
  exact Nat.div_add_mod inner partitions

theorem rangeFirst_mono (inner partitions partition : Nat) :
    rangeFirst inner partitions partition ≤ rangeFirst inner partitions (partition + 1) := by
  rw [← rangeLast_eq, rangeLast, Nat.add_assoc]
  exact Nat.le_add_right _ _

variable (inner) in
theorem rangeLast_le {partition : Nat} (h : partition < partitions) :
    rangeLast inner partitions partition ≤ inner := by
  rw [rangeLast_eq]
  calc rangeFirst inner partitions (partition + 1)
      ≤ rangeFirst inner partitions partitions :=
        monotone_nat_of_le_succ (rangeFirst_mono inner partitions) h
    _ = inner := rangeFirst_all (Nat.zero_lt_of_lt h)

end

/-! ## the whole block -/

/-- the sum of the range of a partition -/
def rangeSum (o : Operands K) (partitions rowPartition column : Nat) : K :=
  ∑ index ∈ Finset.Ico (rangeFirst o.inner partitions (rowPartition % partitions))
      (rangeLast o.inner partitions (rowPartition % partitions)),
    term o (rowPartition / partitions) column index

/-- the arrays of a block before its last phase -/
def blockArrays (o : Operands K) (partitions : Nat) (order : Phase → List Nat) (shared : Shared K)
    (columnTile rowPartition : Nat) : Option (Shared K) := do
  let row := rowPartition / partitions
  let partition := rowPartition % partitions
  let first := rangeFirst o.inner partitions partition
  let last := rangeLast o.inner partitions partition
  let shared ← tiles (fun tile s => do
    let s ← launch (loadTile o row tile last) (order (.load tile)) s
    launch (accumulate o columnTile tile last) (order (.accumulate tile)) s)
    last (o.inner + 1) first { shared with registers := List.replicate 256 0 }
  let shared ← launch storeSum (order .store) shared
  [4, 2, 1].foldlM (fun s stride => launch (foldSums stride) (order (.fold stride)) s) shared

theorem cooperativeInt8Kernel_eq (partitions : Nat) (order : Phase → List Nat) (shared : Shared K)
    (block : Nat) (destination : Cells K) :
    cooperativeInt8Kernel o partitions order shared block destination =
      (blockArrays o partitions order shared (block % columnTiles o.columns)
        (block / columnTiles o.columns)).bind fun shared =>
          launch (storeResult o partitions (block % columnTiles o.columns)
            (block / columnTiles o.columns / partitions) (block / columnTiles o.columns % partitions)
            shared) (order .finish) destination := by
  unfold cooperativeInt8Kernel blockArrays
  simp only [bind, Option.bind_assoc]

theorem block_sums (columnTile : Nat) {partitions rowPartition : Nat} {order : Phase → List Nat}
    {shared : Shared K} (horder : ∀ phase, (order phase).Perm (List.range 256))
    (hpartitions : 0 < partitions) (hrow : rowPartition / partitions < o.rows)
    (hinputTile : shared.inputTile.length = 256) (hsums : shared.sums.length = 256) :
    ∃ s, blockArrays o partitions order shared columnTile rowPartition = some s ∧
      ∀ x < 32, columnTile * 32 + x < o.columns →
        s.sums[x]? = some (rangeSum o partitions rowPartition (columnTile * 32 + x)) := by
  have hlast := rangeLast_le o.inner (Nat.mod_lt rowPartition hpartitions)
  have hbound : rangeLast o.inner partitions (rowPartition % partitions) + 256 < 2 ^ 64 := by
    have hbytes := o.left.addressable
    have hinner : o.inner * 4 ≤ o.left.rows * o.left.columns * 4 :=
      Nat.mul_le_mul_right _ (Nat.le_mul_of_pos_left _ (Nat.zero_lt_of_lt hrow))
    omega
  let start : Shared K := { shared with registers := List.replicate 256 0 }
  have hstart : Sized start := ⟨hinputTile, hsums, List.length_replicate⟩
  obtain ⟨s₁, htiles, hs₁, hregisters⟩ := tiles_spec columnTile
    (rangeFirst o.inner partitions (rowPartition % partitions)) horder hrow hlast hbound
    (o.inner + 1) 0 (by omega) hstart fun thread hthread => by
      rw [registerAt_first]
      exact List.getElem?_replicate_of_lt hthread
  obtain ⟨s₂, hstore, hs₂, hstored⟩ := store_phase (horder .store) hs₁ hregisters
  obtain ⟨s₃, hfold₄, hs₃, hfolded₄⟩ := fold_phase 4 (horder (.fold 4)) hs₂ (by decide) hstored
  obtain ⟨s₄, hfold₂, hs₄, hfolded₂⟩ := fold_phase 2 (horder (.fold 2)) hs₃ (by decide) hfolded₄
  obtain ⟨s₅, hfold₁, hs₅, hfolded₁⟩ := fold_phase 1 (horder (.fold 1)) hs₄ (by decide) hfolded₂
  refine ⟨s₅, ?_, fun x hx hcolumn => ?_⟩
  · exact Option.bind_eq_some_iff.mpr ⟨s₁, htiles, Option.bind_eq_some_iff.mpr ⟨s₂, hstore,
      Option.bind_eq_some_iff.mpr ⟨s₃, hfold₄, Option.bind_eq_some_iff.mpr ⟨s₄, hfold₂,
        Option.bind_eq_some_iff.mpr ⟨s₅, hfold₁, rfl⟩⟩⟩⟩⟩
  · rw [hfolded₁ x (by omega)]
    refine congrArg some ?_
    generalize hvalue : registerAt o (rowPartition / partitions) columnTile
      (rangeFirst o.inner partitions (rowPartition % partitions))
      (rangeLast o.inner partitions (rowPartition % partitions)) = value
    calc folded 1 (folded 2 (folded 4 value)) x
        = ∑ lane ∈ Finset.range 1, folded 1 (folded 2 (folded 4 value)) (lane * 32 + x) := by
          rw [Finset.sum_range_one, Nat.zero_mul, Nat.zero_add]
      _ = ∑ lane ∈ Finset.range (1 + 1), folded 2 (folded 4 value) (lane * 32 + x) :=
          sum_folded 1 _ hx
      _ = ∑ lane ∈ Finset.range (2 + 2), folded 4 value (lane * 32 + x) := sum_folded 2 _ hx
      _ = ∑ lane ∈ Finset.range (4 + 4), value (lane * 32 + x) := sum_folded 4 _ hx
      _ = rangeSum o partitions rowPartition (columnTile * 32 + x) := by
          rw [rangeSum, ← sum_laneSum]
          refine Finset.sum_congr rfl fun lane _ => ?_
          have hx' : (lane * 32 + x) % 32 = x := by omega
          have hlane : (lane * 32 + x) / 32 = lane := by omega
          rw [← hvalue, registerAt, hx', hlane, if_pos hcolumn]

end HyperMoE.Backend
