import Mathlib
import HyperMoE.Lib.Runs
import HyperMoE.Lib.Table
import HyperMoE.Lib.Weight
import HyperMoE.Memory.Tier

/-!
# The pool of device blocks

`CudaMemoryPool.cpp`: blocks of a backend, in use or cached, and the buffers that own the blocks in
use.  A step is what one thread does in one critical section, or one call of the backend outside of
it; so any number of threads may call the operations in any order.

* `alignedSize`, `acquire`, `release`, `drainRound`   the functions of the pool's state;
* `allocate` ... `reset`                              the operations on the pool and its buffers;
* `Action`, `step`                                    one labelled step at a time.

A backend throws, or returns a block that it has not given out; a block is known by its address.  A
`DeviceBuffer` of `allocateDeviceBuffer` keeps no capacity: here it is a `CudaBuffer` like the others.
Objects have names, and one without a block (moved from, reset or destroyed) is not in the table.
The counters are as wide as the address space in which the blocks are disjoint, so they are taken as
unbounded.
-/

namespace HyperMoE.Backend

open Lib Lib.Fallible

abbrev Pointer := Nat
abbrev BufferId := Nat

structure CudaMemoryPoolStats where
  allocatedBytes : Nat := 0
  activeBytes : Nat := 0
  freeBytes : Nat := 0
  peakUsageBytes : Nat := 0
  allocationCount : Nat := 0
  reuseCount : Nat := 0
  deriving DecidableEq

structure CudaBuffer where
  data : Pointer
  size : Nat
  capacity : Nat
  deriving DecidableEq

/-- `device` are the blocks that the backend has given out, `releasing` those of them that a thread is
about to give back, `down` is true after a `shutdown` returned, `doubleFree` after the backend was
given a block that it had not given out -/
structure CudaMemoryPool where
  maximumCachedBytes : Nat
  freeBlocks : List (Nat × Pointer) := []
  activeBlocks : Table Pointer Nat := ∅
  statistics : CudaMemoryPoolStats := {}
  accepting : Bool := true
  buffers : Table BufferId CudaBuffer := ∅
  nextBuffer : BufferId := 0
  device : List Pointer := []
  releasing : List Pointer := []
  down : Bool := false
  doubleFree : Bool := false

namespace CudaMemoryPool

abbrev Code := Fallible Exn CudaMemoryPool

def alignment : Nat := 256

def alignedSize (size : Nat) : Except Exn Nat :=
  if size = 0 then .error (.invalidArgument "memory-pool allocation must be nonzero")
  else if size > 2 ^ 64 - 1 - (alignment - 1) then
    .error (.overflowError "memory-pool allocation size overflow")
  else .ok ((size + alignment - 1) / alignment * alignment)

/-! ## the backend -/

def obtain (pointer : Pointer) (s : CudaMemoryPool) : CudaMemoryPool :=
  { s with device := pointer :: s.device }

def backendFree (pointer : Pointer) (s : CudaMemoryPool) : CudaMemoryPool :=
  if pointer ∈ s.device then { s with device := s.device.erase pointer }
  else { s with doubleFree := true }

/-! ## acquire -/

/-- `freeBlocks.lower_bound(capacity)` -/
def lowerBound (capacity : Nat) (blocks : List (Nat × Pointer)) : Option (Nat × Pointer) :=
  blocks.find? fun block => capacity ≤ block.1

/-- `freeBlocks.emplace`: behind the blocks of the same capacity -/
def emplace (block : Nat × Pointer) : List (Nat × Pointer) → List (Nat × Pointer)
  | [] => [block]
  | b :: rest => if block.1 < b.1 then block :: b :: rest else b :: emplace block rest

def reuse (block : Nat × Pointer) (s : CudaMemoryPool) : CudaMemoryPool :=
  { s with
    freeBlocks := s.freeBlocks.erase block
    statistics := { s.statistics with
      freeBytes := s.statistics.freeBytes - block.1
      reuseCount := s.statistics.reuseCount + 1 } }

def enlarge (pointer : Pointer) (capacity : Nat) (s : CudaMemoryPool) : CudaMemoryPool :=
  { s.obtain pointer with
    statistics := { s.statistics with
      allocatedBytes := s.statistics.allocatedBytes + capacity
      allocationCount := s.statistics.allocationCount + 1 } }

def uncount (wasReused : Bool) (stats : CudaMemoryPoolStats) : CudaMemoryPoolStats :=
  if wasReused then { stats with reuseCount := stats.reuseCount - 1 }
  else { stats with allocationCount := stats.allocationCount - 1 }

/-- the block goes back to the backend -/
def abandon (pointer : Pointer) (capacity : Nat) (wasReused : Bool) (s : CudaMemoryPool) :
    CudaMemoryPool :=
  { s.backendFree pointer with
    statistics := uncount wasReused { s.statistics with
      allocatedBytes := s.statistics.allocatedBytes - capacity } }

def activate (pointer : Pointer) (capacity : Nat) (s : CudaMemoryPool) : CudaMemoryPool :=
  { s with
    activeBlocks := s.activeBlocks.insert pointer capacity
    statistics := { s.statistics with
      activeBytes := s.statistics.activeBytes + capacity
      peakUsageBytes := max s.statistics.peakUsageBytes (s.statistics.activeBytes + capacity) } }

/-- `activeBlocks.emplace`, which throws itself where `stores` is false -/
def enter (pointer : Pointer) (capacity : Nat) (wasReused stores : Bool) : Code (Pointer × Nat) := do
  let s ← read
  if stores = true ∧ s.activeBlocks.lookup pointer = none then do
    update (activate pointer capacity)
    return (pointer, capacity)
  else do
    update (abandon pointer capacity wasReused)
    throw (if stores then .logicError "memory-pool pointer is already active" else .other "bad_alloc")

/-- `outcome` is what the backend answers, if it is asked -/
def acquire (requested : Nat) (outcome : Except Exn Pointer) (stores : Bool) :
    Code (Pointer × Nat) := do
  let capacity ← settle (alignedSize requested)
  let s ← read
  throwIf (s.accepting = false) (.runtimeError "CUDA memory pool is shut down")
  match lowerBound capacity s.freeBlocks with
  | some block => do
    update (reuse block)
    enter block.2 block.1 true stores
  | none => do
    let pointer ← settle outcome
    update (enlarge pointer capacity)
    enter pointer capacity false stores

/-! ## release and drainFreeBlocks -/

def fitsCache (capacity : Nat) (s : CudaMemoryPool) : Bool :=
  s.accepting = true ∧ s.statistics.freeBytes ≤ s.maximumCachedBytes ∧
    capacity ≤ s.maximumCachedBytes - s.statistics.freeBytes

/-- the section of `release`; `freeBlocks.emplace` throws where `stores` is false -/
def release (pointer : Pointer) (stores : Bool) (s : CudaMemoryPool) : CudaMemoryPool :=
  match s.activeBlocks.lookup pointer with
  | none => s
  | some capacity =>
    let s := { s with
      activeBlocks := s.activeBlocks.erase pointer
      statistics := { s.statistics with activeBytes := s.statistics.activeBytes - capacity } }
    if s.fitsCache capacity = true ∧ stores = true then { s with
      freeBlocks := emplace (capacity, pointer) s.freeBlocks
      statistics := { s.statistics with freeBytes := s.statistics.freeBytes + capacity } }
    else { s with
      statistics := { s.statistics with allocatedBytes := s.statistics.allocatedBytes - capacity }
      releasing := pointer :: s.releasing }

/-- a round of `drainFreeBlocks`, which `trim` and `shutdown` call -/
def drainRound (s : CudaMemoryPool) : CudaMemoryPool :=
  match s.freeBlocks with
  | [] => s
  | (capacity, pointer) :: rest => { s with
      freeBlocks := rest
      statistics := { s.statistics with
        allocatedBytes := s.statistics.allocatedBytes - capacity
        freeBytes := s.statistics.freeBytes - capacity }
      releasing := pointer :: s.releasing }

/-! ## buffers -/

/-- a new object takes the block -/
def construct (size : Nat) (block : Pointer × Nat) (s : CudaMemoryPool) : CudaMemoryPool :=
  { s with
    buffers := s.buffers.insert s.nextBuffer ⟨block.1, size, block.2⟩
    nextBuffer := s.nextBuffer + 1 }

def allocate (size : Nat) (outcome : Except Exn Pointer) (stores : Bool) : Code Unit := do
  let block ← acquire size outcome stores
  update (construct size block)

/-- `make_shared` throws where `wraps` is false -/
def allocateDeviceBuffer (size : Nat) (outcome : Except Exn Pointer) (stores wraps caches : Bool) :
    Code Unit := do
  let block ← acquire size outcome stores
  if wraps then update (construct size block)
  else do
    update (release block.1 caches)
    throw (.other "bad_alloc")

/-- `reset`, and the destructor -/
def reset (id : BufferId) (caches : Bool) (s : CudaMemoryPool) : CudaMemoryPool :=
  match s.buffers.lookup id with
  | none => s
  | some buffer => { s with buffers := s.buffers.erase id }.release buffer.data caches

/-- what `source` had is now that of `target`, which had nothing -/
def take (target source : BufferId) (s : CudaMemoryPool) : CudaMemoryPool :=
  match s.buffers.lookup source with
  | none => s
  | some buffer => { s with buffers := (s.buffers.erase source).insert target buffer }

def moveConstruct (source : BufferId) (s : CudaMemoryPool) : CudaMemoryPool :=
  { s.take s.nextBuffer source with nextBuffer := s.nextBuffer + 1 }

def moveAssign (target source : BufferId) (caches : Bool) (s : CudaMemoryPool) : CudaMemoryPool :=
  if target = source then s else (s.reset target caches).take target source

/-! ## the step function -/

inductive Action where
  | allocate (size : Nat) (outcome : Except Exn Pointer) (stores : Bool)
  | allocateDeviceBuffer (size : Nat) (outcome : Except Exn Pointer) (stores wraps caches : Bool)
  | moveConstruct (source : BufferId)
  | moveAssign (target source : BufferId) (caches : Bool)
  | reset (id : BufferId) (caches : Bool)
  /-- a round of the loop of `trim` or `shutdown` -/
  | drain
  /-- the section at the beginning of `shutdown` -/
  | shutdown
  /-- the loop of `shutdown` finds nothing -/
  | shutdownReturns
  /-- the call of the backend behind a round or a release -/
  | free (pointer : Pointer)

/-- a backend does not return a block that it has given out -/
def honest (outcome : Except Exn Pointer) (s : CudaMemoryPool) : Bool :=
  match outcome with
  | .ok pointer => pointer ∉ s.device
  | .error _ => true

def allows (s : CudaMemoryPool) : Action → Bool
  | .allocate _ outcome _ | .allocateDeviceBuffer _ outcome _ _ _ => s.honest outcome
  | .moveConstruct source => source < s.nextBuffer
  | .moveAssign target source _ => target < s.nextBuffer ∧ source < s.nextBuffer
  | .reset _ _ | .drain | .shutdown => true
  | .shutdownReturns => s.accepting = false ∧ s.freeBlocks = []
  | .free pointer => pointer ∈ s.releasing

def perform (s : CudaMemoryPool) : Action → CudaMemoryPool
  | .allocate size outcome stores => ((allocate size outcome stores).exec s).2
  | .allocateDeviceBuffer size outcome stores wraps caches =>
    ((allocateDeviceBuffer size outcome stores wraps caches).exec s).2
  | .moveConstruct source => s.moveConstruct source
  | .moveAssign target source caches => s.moveAssign target source caches
  | .reset id caches => s.reset id caches
  | .drain => s.drainRound
  | .shutdown => { s with accepting := false }
  | .shutdownReturns => { s with down := true }
  | .free pointer => { s.backendFree pointer with releasing := s.releasing.erase pointer }

def step (a : Action) (s : CudaMemoryPool) : Option CudaMemoryPool :=
  if s.allows a = true then some (s.perform a) else none

/-- the state after the steps `as` of a new pool, if they can happen -/
def run (maximumCachedBytes : Nat) (as : List Action) : Option CudaMemoryPool :=
  Runs.run step { maximumCachedBytes } as

end CudaMemoryPool

end HyperMoE.Backend
