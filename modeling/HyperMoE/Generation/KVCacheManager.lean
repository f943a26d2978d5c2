import HyperMoE.Lib.Fallible
import HyperMoE.Lib.Table
import HyperMoE.Memory.Tier
import HyperMoE.Transformer.CudaKVCache

/-!
# The caches of the sessions

`KVCacheManager.cpp`: every session has a cache, and reserves the memory of a cache that is full.

* `KVCacheBase`                         what a session asks of a cache, on the host or on a device;
* `KVCacheManager`                      the caches and the reserved memory;
* `allocateSession`, `releaseSession`   a session begins, and ends.
-/

namespace HyperMoE.Generation

open Lib Lib.Fallible

inductive Device where
  | cpu
  | cuda (ordinal : Nat)
  deriving DecidableEq, Repr

/-- `KVCacheBase`, with the constructor that the manager calls -/
class KVCacheBase (C : Type) where
  make (layerCount maximumSequenceLength keyValueHeads headDimension : Nat) : Except Exn C
  maximumSequenceLength : C → Nat
  tokenCount : C → Nat → Except Exn Nat
  memoryUsageBytes : C → Except Exn Nat
  /-- a new cache is empty -/
  made : ∀ {layers sequence heads dimension : Nat} {cache : C},
    make layers sequence heads dimension = .ok cache →
      maximumSequenceLength cache = sequence ∧ ∀ layer < layers, tokenCount cache layer = .ok 0

/-! ## the two caches -/

/-- the same exception, among those of the runtime -/
def ofStdError : Tensor.StdError → Exn
  | .invalid_argument what => .invalidArgument what
  | .overflow_error what => .overflowError what
  | .out_of_range what => .outOfRange what
  | .logic_error what => .logicError what
  | .runtime_error what => .runtimeError what

section
variable {K : Type}

instance : KVCacheBase (Transformer.KVCache K) where
  make layers sequence heads dimension :=
    (Transformer.KVCache.make K layers sequence heads dimension).mapError ofStdError
  maximumSequenceLength cache := cache.maximumSequenceLength
  tokenCount cache layer :=
    if layer ≥ cache.layers.length then .error (.outOfRange "KV cache layer is invalid")
    else .ok (cache.layer layer).positions.length
  memoryUsageBytes cache := .ok cache.memoryUsageBytes
  made {layers sequence heads dimension cache} h := by
    unfold Transformer.KVCache.make at h
    cases hbytes : Transformer.KVCache.checkedCacheBytes layers sequence heads dimension with
    | error e =>
      rw [hbytes] at h
      exact nomatch h
    | ok bytes =>
      rw [hbytes] at h
      obtain rfl := Except.ok.inj h
      refine ⟨rfl, fun layer hlayer => ?_⟩
      show (if layer ≥ (List.replicate layers _).length then _ else _ : Except Exn Nat) = _
      rw [List.length_replicate, if_neg (Nat.not_le.mpr hlayer)]
      show Except.ok ((List.replicate layers ({} : Transformer.LayerStorage K)).getD layer {}).positions.length = _
      rw [List.getD_replicate _ hlayer]
      rfl

instance : KVCacheBase (Transformer.CudaKVCache K) where
  make layers sequence heads dimension :=
    (Transformer.CudaKVCache.make K true layers sequence heads dimension).mapError ofStdError
  maximumSequenceLength cache := cache.maximumSequenceLength
  tokenCount cache layer :=
    if layer ≥ cache.layers.length then .error (.outOfRange "CUDA KV cache layer is invalid")
    else .ok (cache.storage layer).tokens
  memoryUsageBytes cache := cache.memoryUsageBytes.mapError ofStdError
  made {layers sequence heads dimension cache} h := by
    unfold Transformer.CudaKVCache.make Transformer.KVCache.make at h
    cases hbytes : Transformer.KVCache.checkedCacheBytes layers sequence heads dimension with
    | error e =>
      rw [hbytes] at h
      exact nomatch h
    | ok bytes =>
      rw [hbytes] at h
      replace h : ((Transformer.KVCache.checkedCacheBytes (List.replicate layers _).length sequence
        heads dimension >>= fun _ => .ok (⟨sequence, heads, dimension, List.replicate layers {}⟩ :
          Transformer.CudaKVCache K)).mapError ofStdError) = .ok cache := h
      rw [List.length_replicate, hbytes] at h
      obtain rfl := Except.ok.inj h
      refine ⟨rfl, fun layer hlayer => ?_⟩
      show (if layer ≥ (List.replicate layers _).length then _ else _ : Except Exn Nat) = _
      rw [List.length_replicate, if_neg (Nat.not_le.mpr hlayer)]
      show Except.ok ((List.replicate layers ({} : Transformer.DeviceStorage K)).getD layer {}).tokens = _
      rw [List.getD_replicate _ hlayer]

end

/-! ## the manager -/

abbrev KVCacheSessionId := Nat

/-- a cache in `sessions` is the one that its session holds -/
structure KVCacheManager (C : Type) where
  layerCount : Nat
  maximumSequenceLength : Nat
  keyValueHeads : Nat
  headDimension : Nat
  memoryLimitBytes : Nat
  bytesPerSession : Nat
  device : Device
  peakCommittedBytes : Nat := 0
  reservedBytes : Nat := 0
  nextSessionId : KVCacheSessionId := 1
  sessions : Table KVCacheSessionId C := ∅

structure KVCacheManagerStats where
  activeSessions : Nat
  committedBytes : Nat
  reservedBytes : Nat
  peakCommittedBytes : Nat
  memoryLimitBytes : Nat
  deriving DecidableEq, Repr

namespace KVCacheManager

variable {C : Type} [KVCacheBase C]

def allocateSession : Fallible Exn (KVCacheManager C) (KVCacheSessionId × C) := do
  let m ← read
  throwIf (m.reservedBytes > m.memoryLimitBytes - m.bytesPerSession)
    (.runtimeError "KV cache memory limit is exhausted")
  throwIf (m.nextSessionId = 0) (.overflowError "KV cache session ID space is exhausted")
  let sessionId := m.nextSessionId
  update fun m => { m with nextSessionId := (m.nextSessionId + 1) % 2 ^ 64 }
  let cache ← settle (KVCacheBase.make m.layerCount m.maximumSequenceLength m.keyValueHeads
    m.headDimension)
  throwIf (sessionId ∈ m.sessions) (.logicError "KV cache session ID collision")
  update fun m => { m with
    sessions := m.sessions.insert sessionId cache
    reservedBytes := m.reservedBytes + m.bytesPerSession }
  return (sessionId, cache)

def releaseSession (sessionId : KVCacheSessionId) : Fallible Exn (KVCacheManager C) Unit := do
  let m ← read
  throwIf (sessionId ∉ m.sessions) (.outOfRange "KV cache session is not active")
  update fun m => { m with
    sessions := m.sessions.erase sessionId
    reservedBytes := m.reservedBytes - m.bytesPerSession }

def addCommitted (committed : Nat) (cache : C) : Except Exn Nat := do
  let bytes ← KVCacheBase.memoryUsageBytes cache
  if committed > 2 ^ 64 - 1 - bytes then
    .error (.overflowError "KV cache committed-byte accounting overflows")
  else return committed + bytes

def stats : Fallible Exn (KVCacheManager C) KVCacheManagerStats := do
  let m ← read
  let committed ← settle ((Table.values m.sessions).foldlM addCommitted 0)
  update fun m => { m with peakCommittedBytes := max m.peakCommittedBytes committed }
  return {
    activeSessions := (Table.values m.sessions).length
    committedBytes := committed
    reservedBytes := m.reservedBytes
    peakCommittedBytes := max m.peakCommittedBytes committed
    memoryLimitBytes := m.memoryLimitBytes }

end KVCacheManager

end HyperMoE.Generation
