import HyperMoE.Transformer.KVCache

/-!
# The key/value cache on the device

`CudaKVCache.cpp`: for each layer two tensors of the device, of which the first `tokens` rows are in
use, and which grow when an append needs more.  The copies of the backend are copies of values, and
an allocation succeeds; what is in new memory is not known.  The views that are appended lie where
the copies can read them.

* `grow`                     the loop that finds a new capacity;
* `sliceBytes`               the part of a tensor that a copy reads or writes;
* `append` ... `reset`       the calls.
-/

namespace HyperMoE.Transformer

open Lib Lib.Fallible Tensor

variable {K : Type}

/-- `CudaKVCache::LayerStorage`; an empty tensor is `none` -/
structure DeviceStorage (K : Type) where
  keys : Option (List K) := none
  values : Option (List K) := none
  tokens : Nat := 0
  capacity : Nat := 0
  firstPosition : Nat := 0
  deriving DecidableEq

structure CudaKVCache (K : Type) where
  maximumSequenceLength : Nat
  keyValueHeads : Nat
  headDimension : Nat
  layers : List (DeviceStorage K)
  deriving DecidableEq

/-- what happens to be in the memory of two new tensors -/
structure Fresh (K : Type) where
  keys : Nat → K
  values : Nat → K

namespace CudaKVCache

/-- the constructor; `available` is said of a backend for CUDA -/
def make (K : Type) (available : Bool)
    (layers maximumSequence heads dimension : Nat) : Except StdError (CudaKVCache K) := do
  if available = false then
    throw (.invalid_argument "CUDA KV cache requires an available CUDA backend")
  let sizing ← KVCache.make K layers maximumSequence heads dimension
  let _ ← sizing.maximumMemoryUsageBytes
  return ⟨maximumSequence, heads, dimension, List.replicate layers {}⟩

def storage (c : CudaKVCache K) (layer : Nat) : DeviceStorage K := c.layers.getD layer {}

def put (layer : Nat) (storage : DeviceStorage K) (c : CudaKVCache K) : CudaKVCache K :=
  { c with layers := c.layers.set layer storage }

/-! ## tensors -/

/-- `backend.allocateTensor` of `count` elements -/
def allocateTensor (memory : Nat → K) (count : Nat) : List K := (List.range count).map memory

/-- `tensor.view().sliceBytes(offsetBytes, shape, FP32)` for a shape of `count` elements: the elements
of the tensor, and the index of the first one in the slice -/
def sliceBytes (tensor : Option (List K)) (offsetBytes count : Nat) :
    Except StdError (List K × Nat) :=
  match tensor with
  | none => .error (.logic_error "cannot slice an invalid tensor view")
  | some elements =>
    if elements.length * 4 = 0 then .error (.logic_error "cannot slice an invalid tensor view")
    else if offsetBytes % 4 ≠ 0 then
      .error (.invalid_argument "tensor view slice offset is not element-aligned")
    else if offsetBytes > elements.length * 4 then
      .error (.out_of_range "tensor view slice offset exceeds storage")
    else if elements.length * 4 - offsetBytes < count * 4 then
      .error (.out_of_range "tensor view slice exceeds storage")
    else .ok (elements, offsetBytes / 4)

/-- a copy out of a slice -/
def copyFrom (tensor : Option (List K)) (offsetBytes count : Nat) : Except StdError (List K) := do
  let (elements, first) ← sliceBytes tensor offsetBytes count
  return (elements.drop first).take count

/-- a copy into a slice: the tensor afterwards -/
def copyInto (tensor : Option (List K)) (offsetBytes : Nat) (source : List K) :
    Except StdError (Option (List K)) := do
  let (elements, first) ← sliceBytes tensor offsetBytes source.length
  return some (elements.take first ++ (source ++ elements.drop (first + source.length)))

/-! ## append -/

/-- `while (capacity < required) ...`; `none` where the fuel does not suffice -/
def grow (maximum required : Nat) : Nat → Nat → Option Nat
  | 0, capacity => if capacity < required then none else some capacity
  | fuel + 1, capacity =>
    if capacity < required then
      grow maximum required fuel (if capacity > maximum / 2 then maximum else capacity * 2)
    else some capacity

/-- the tensors of a layer with more room, and with what they had -/
def enlarge (fresh : Fresh K) (capacity heads dimension : Nat) (s : DeviceStorage K) :
    Except StdError (DeviceStorage K) := do
  let expandedKeys := allocateTensor fresh.keys (capacity * heads * dimension)
  let expandedValues := allocateTensor fresh.values (capacity * heads * dimension)
  if s.tokens ≠ 0 then do
    let oldKeys ← copyFrom s.keys 0 (s.tokens * heads * dimension)
    let expandedKeys ← copyInto (some expandedKeys) 0 oldKeys
    let oldValues ← copyFrom s.values 0 (s.tokens * heads * dimension)
    let expandedValues ← copyInto (some expandedValues) 0 oldValues
    return { s with keys := expandedKeys, values := expandedValues, capacity }
  else return { s with keys := some expandedKeys, values := some expandedValues, capacity }

/-- the block `if (storage.capacity < required)` -/
def provide (fresh : Fresh K) (layer required : Nat) : Fallible StdError (CudaKVCache K) Unit := do
  let c ← read
  let s := c.storage layer
  if s.capacity < required then do
    let capacity ← orThrow (grow c.maximumSequenceLength required required (max 1 s.capacity))
      (.runtime_error "out of fuel")
    let s ← settle (enlarge fresh capacity c.keyValueHeads c.headDimension s)
    update (put layer s)
  else return

/-- the copies at the end of `append`, and the counters -/
def store (layer first required : Nat) (keys values : HeadView K) :
    Fallible StdError (CudaKVCache K) Unit := do
  let c ← read
  let s := c.storage layer
  let offset := s.tokens * c.keyValueHeads * c.headDimension * 4
  let appendedKeys ← settle (copyInto s.keys offset keys.values)
  update (put layer { s with keys := appendedKeys })
  let appendedValues ← settle (copyInto s.values offset values.values)
  update (put layer { s with keys := appendedKeys, values := appendedValues })
  update (put layer { s with
    keys := appendedKeys
    values := appendedValues
    firstPosition := if s.tokens = 0 then first else s.firstPosition
    tokens := required })

def append (layer first : Nat) (keys values : HeadView K) (fresh : Fresh K) :
    Fallible StdError (CudaKVCache K) Unit := do
  let c ← read
  throwIf (layer ≥ c.layers.length ∨ ¬ (keys.tokens = values.tokens ∧ keys.heads = values.heads ∧
      keys.dimension = values.dimension) ∨ keys.heads ≠ c.keyValueHeads ∨
      keys.dimension ≠ c.headDimension)
    (.invalid_argument "CUDA KV cache append metadata is incompatible")
  let tokens := (c.storage layer).tokens
  throwIf (first ≠ tokens ∨ keys.tokens > c.maximumSequenceLength - tokens)
    (.invalid_argument "CUDA KV cache append exceeds contiguous capacity")
  let required := tokens + keys.tokens
  provide fresh layer required
  store layer first required keys values

/-! ## the other calls -/

def snapshot (layer : Nat) : Fallible StdError (CudaKVCache K) (KVCacheSnapshot K) := do
  let c ← read
  throwIf (layer ≥ c.layers.length) (.out_of_range "CUDA KV cache layer is invalid")
  let s := c.storage layer
  if s.tokens = 0 then return ⟨[], [], [], c.keyValueHeads, c.headDimension⟩
  else do
    let keys ← settle (copyFrom s.keys 0 (s.tokens * c.keyValueHeads * c.headDimension))
    let values ← settle (copyFrom s.values 0 (s.tokens * c.keyValueHeads * c.headDimension))
    return ⟨(List.range s.tokens).map fun token => s.firstPosition + token, keys, values,
      c.keyValueHeads, c.headDimension⟩

def clear (layer : Nat) : Fallible StdError (CudaKVCache K) Unit := do
  let c ← read
  throwIf (layer ≥ c.layers.length) (.out_of_range "CUDA KV cache layer is invalid")
  update (put layer {})

def reset : Fallible StdError (CudaKVCache K) Unit :=
  update fun c => { c with layers := c.layers.map fun _ => {} }

def layerBytes (s : DeviceStorage K) : Nat :=
  (s.keys.elim 0 (·.length * 4) + s.values.elim 0 (·.length * 4) + s.tokens * 8) % 2 ^ 64

def addUsage (bytes : Nat) (s : DeviceStorage K) : Except StdError Nat :=
  if bytes > KVCache.maxSize - layerBytes s then
    .error (.overflow_error "CUDA KV cache byte accounting overflows")
  else .ok (bytes + layerBytes s)

def memoryUsageBytes (c : CudaKVCache K) : Except StdError Nat := c.layers.foldlM addUsage 0

def maximumMemoryUsageBytes (c : CudaKVCache K) : Except StdError Nat := do
  let sizing ← KVCache.make K c.layers.length c.maximumSequenceLength c.keyValueHeads c.headDimension
  sizing.maximumMemoryUsageBytes

end CudaKVCache

end HyperMoE.Transformer
