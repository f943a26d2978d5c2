import Mathlib.Algebra.Field.Basic
import HyperMoE.Backend.Int8GemmPlan
import HyperMoE.Lib.Grid
import HyperMoE.Lib.Launch
import HyperMoE.Lib.Strides

/-!
# The kernels of the INT8 product

`int8WeightMatmulKernel`, `cooperativeInt8Kernel` and `reduceInt8PartitionsKernel` of
`CudaKernels.cu`, and their launches.  Every access to global memory is checked, and an element of an
output that is written a second time, or read before it is written, is an error as well; so a run
that returns has none of these.  A barrier ends a phase: within a phase the threads of a block come
in any order, and so do the blocks of a launch.

* `int8WeightMatmul`              the reference: a thread for each element;
* `cooperativeInt8Kernel`         a block: tiles of the input, eight lanes, their sums folded;
* `int8WeightMatmulCooperative`   all blocks, and the reduction of the partitions.
-/

namespace HyperMoE.Backend

open Lib

/-- an `FP32` matrix in memory, its bytes addressable -/
structure FloatMatrix (K : Type) extends Grid K where
  addressable : rows * columns * 4 < 2 ^ 64

structure Operands (K : Type) where
  left : FloatMatrix K
  right : Grid Int8
  inner_eq : right.rows = left.columns
  scale : K
  zeroPoint : Int32

namespace Operands
variable {K : Type} (o : Operands K)

def rows : Nat := o.left.rows

def inner : Nat := o.left.columns

def columns : Nat := o.right.columns

/-- `static_cast<float>(quantized - zeroPoint) * scale` -/
def weight [Field K] (quantized : Int8) : K :=
  ((quantized.toInt - o.zeroPoint.toInt : Int) : K) * o.scale

end Operands

variable {K : Type} [Field K]

def threadsPerBlock : Nat := 256

/-- the blocks that have a thread for each element -/
def blocks (elements : Nat) : Nat :=
  ((elements + threadsPerBlock - 1) % 2 ^ 64 / threadsPerBlock) % 2 ^ 32

/-! ## the reference -/

def int8WeightMatmulKernel (o : Operands K) (outputIndex : Nat) (output : Cells K) :
    Option (Cells K) :=
  if outputIndex ≥ o.rows * o.columns then some output else do
  let row := outputIndex / o.columns
  let column := outputIndex % o.columns
  let sum ← (List.range o.inner).foldlM (fun sum index => do
    let quantized ← o.right.values[index * o.columns + column]?
    let value ← o.left.values[row * o.inner + index]?
    return sum + value * o.weight quantized) 0
  output.write outputIndex sum

def int8WeightMatmul (o : Operands K) (threads : List Nat) : Option (Cells K) :=
  launch (int8WeightMatmulKernel o) threads (Cells.fresh (o.rows * o.columns))

/-! ## a block -/

def columnTiles (columns : Nat) : Nat := columns / 32 + if columns % 32 ≠ 0 then 1 else 0

/-- where the range of a partition begins -/
def rangeFirst (inner partitions partition : Nat) : Nat :=
  partition * (inner / partitions) +
    if partition < inner % partitions then partition else inner % partitions

/-- where it ends -/
def rangeLast (inner partitions partition : Nat) : Nat :=
  rangeFirst inner partitions partition + inner / partitions +
    if partition < inner % partitions then 1 else 0

/-- the shared arrays of a block, and the register `sum` of each of its threads; a thread is known by
`threadIdx.y * 32 + threadIdx.x`, which is also the place of `sums[threadIdx.y][threadIdx.x]` -/
structure Shared (K : Type) where
  inputTile : List K
  sums : List K
  registers : List K

/-- `thread < last - tile ? left[row * inner + tile + thread] : 0.0F` -/
def tileElement (o : Operands K) (row tile last thread : Nat) : Option K :=
  if thread < last - tile then o.left.values[row * o.inner + tile + thread]? else some 0

/-- `inputTile[thread] = ...;` -/
def loadTile (o : Operands K) (row tile last thread : Nat) (s : Shared K) : Option (Shared K) := do
  let value ← tileElement o row tile last thread
  let inputTile ← put s.inputTile thread value
  return { s with inputTile }

/-- `for (auto k = laneK; k < 256U && k < limit; k += 8U)` -/
def laneSteps (laneK limit : Nat) : List Nat :=
  ((List.range 32).map fun j => laneK + 8 * j).filter fun k => k < limit

/-- `if (column < columns) ...` -/
def accumulate (o : Operands K) (columnTile tile last thread : Nat) (s : Shared K) :
    Option (Shared K) :=
  let column := columnTile * 32 + thread % 32
  if column < o.columns then do
    let sum ← s.registers[thread]?
    let sum ← (laneSteps (thread / 32) (last - tile)).foldlM (fun sum k => do
      let quantized ← o.right.values[(tile + k) * o.columns + column]?
      let value ← s.inputTile[k]?
      return sum + value * o.weight quantized) sum
    let registers ← put s.registers thread sum
    return { s with registers }
  else some s

/-- `sums[laneK][threadIdx.x] = sum;` -/
def storeSum (thread : Nat) (s : Shared K) : Option (Shared K) := do
  let sum ← s.registers[thread]?
  let sums ← put s.sums thread sum
  return { s with sums }

/-- `if (laneK < stride) sums[laneK][threadIdx.x] += sums[laneK + stride][threadIdx.x];` -/
def foldSums (stride thread : Nat) (s : Shared K) : Option (Shared K) :=
  if thread / 32 < stride then do
    let low ← s.sums[thread]?
    let high ← s.sums[(thread / 32 + stride) * 32 + thread % 32]?
    let sums ← put s.sums thread (low + high)
    return { s with sums }
  else some s

/-- `if (laneK == 0 && column < columns) destination[...] = sums[0][threadIdx.x];` -/
def storeResult (o : Operands K) (partitions columnTile row partition : Nat) (s : Shared K)
    (thread : Nat) (destination : Cells K) : Option (Cells K) :=
  let column := columnTile * 32 + thread % 32
  if thread / 32 = 0 ∧ column < o.columns then do
    let sum ← s.sums[thread % 32]?
    destination.write ((row * partitions + partition) * o.columns + column) sum
  else some destination

/-- `for (auto tile = first; tile < last; tile += 256U) ...` -/
def tiles {S : Type} (body : Nat → S → Option S) (last : Nat) : Nat → Nat → S → Option S
  | 0, _, _ => none
  | fuel + 1, tile, s =>
    if tile < last then (body tile s).bind (tiles body last fuel ((tile + 256) % 2 ^ 64)) else some s

/-- what a barrier ends -/
inductive Phase where
  | load (tile : Nat)
  | accumulate (tile : Nat)
  | store
  | fold (stride : Nat)
  | finish
  deriving DecidableEq

def cooperativeInt8Kernel (o : Operands K) (partitions : Nat) (order : Phase → List Nat)
    (shared : Shared K) (block : Nat) (destination : Cells K) : Option (Cells K) := do
  let columnTile := block % columnTiles o.columns
  let rowPartition := block / columnTiles o.columns
  let row := rowPartition / partitions
  let partition := rowPartition % partitions
  let first := rangeFirst o.inner partitions partition
  let last := rangeLast o.inner partitions partition
  let shared ← tiles (fun tile s => do
    let s ← launch (loadTile o row tile last) (order (.load tile)) s
    launch (accumulate o columnTile tile last) (order (.accumulate tile)) s)
    last (o.inner + 1) first { shared with registers := List.replicate 256 0 }
  let shared ← launch storeSum (order .store) shared
  let shared ← [4, 2, 1].foldlM (fun s stride => launch (foldSums stride) (order (.fold stride)) s)
    shared
  launch (storeResult o partitions columnTile row partition shared) (order .finish) destination

/-! ## the launches -/

def reduceInt8PartitionsKernel (o : Operands K) (partitions : Nat) (partials : Cells K) (index : Nat)
    (output : Cells K) : Option (Cells K) :=
  if index ≥ o.rows * o.columns then some output else do
  let row := index / o.columns
  let column := index % o.columns
  let sum ← (List.range partitions).foldlM (fun sum partition => do
    let value ← partials.read ((row * partitions + partition) * o.columns + column)
    return sum + value) 0
  output.write index sum

/-- the orders of a run -/
structure Schedule where
  blocks : List Nat
  threads : Nat → Phase → List Nat
  reduction : List Nat

/-- the scratch and the output; `shared` is what the blocks find in their shared memory -/
def int8WeightMatmulCooperative (o : Operands K) (plan : Int8GemmPlan) (schedule : Schedule)
    (shared : Nat → Shared K) : Option (Cells K × Cells K) := do
  let partitions := plan.partitions.toNat
  let kernel block := cooperativeInt8Kernel o partitions (schedule.threads block) (shared block) block
  let scratch := Cells.fresh plan.scratchElements.toNat
  let output := Cells.fresh (o.rows * o.columns)
  if partitions = 1 then do
    let output ← launch kernel schedule.blocks output
    return (scratch, output)
  else do
    let scratch ← launch kernel schedule.blocks scratch
    let output ← launch (reduceInt8PartitionsKernel o partitions scratch) schedule.reduction output
    return (scratch, output)

end HyperMoE.Backend
