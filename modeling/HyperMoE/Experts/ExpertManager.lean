import HyperMoE.Memory.MemoryManager
import HyperMoE.Experts.CachePolicy

/-!
# ExpertManager: which tier holds which expert

`expert_manager.cpp`, with the memory manager it accounts against, the cache policy it asks for
victims, and the outcome of every transfer it submits given from outside (`Transfers`).  All of it
runs under the manager's one mutex, so an operation is one step.

* `moveExpertLocked`, `makeRoomLocked`      the mutual recursion, on fuel; its loop is
                                            `makeRoomLoop`, its five ways to copy the weights
                                            are `copyWeights`;
* `registerExpert` ... `updatePrediction`   the public operations.

`managed` is a reference in the source: where the code reads it after other code has run, the
model looks the expert up again.
-/

namespace HyperMoE

open Lib Lib.Fallible

structure ManagedExpert where
  metadata : Expert
  policyId : ExpertId
  allocation : Option MemoryAllocation := none
  weights : Option Buffer := none
  deviceWeights : Option Buffer := none
  residencyLeases : Nat := 0
  usageCount : Nat := 0
  lastUsed : Nat := 0
  predictionProbability : ℚ := 0
  prefetchConfidence : ℚ := 0
  deriving DecidableEq

namespace ManagedExpert

abbrev location (m : ManagedExpert) : MemoryTier := m.metadata.location
abbrev sizeBytes (m : ManagedExpert) : Nat := m.metadata.sizeBytes

/-- the four fields that a move writes -/
def place (m : ManagedExpert) (allocation : Option MemoryAllocation)
    (weights deviceWeights : Option Buffer) (tier : MemoryTier) : ManagedExpert :=
  { m with
    metadata := { m.metadata with location := tier }
    allocation := allocation
    weights := weights
    deviceWeights := deviceWeights }

end ManagedExpert

inductive RequestSource where
  | VramHit
  | RamHit
  | NvmeLoad
  deriving DecidableEq, Repr

structure ExpertManagerStats where
  requests : Nat := 0
  vramHits : Nat := 0
  ramHits : Nat := 0
  nvmeLoads : Nat := 0
  vramEvictions : Nat := 0
  ramEvictions : Nat := 0
  nvmeBytesRead : Nat := 0
  vramPromotions : Nat := 0
  deriving DecidableEq

namespace ExpertManagerStats

/-- one eviction to NVMe -/
def dropped (c : ExpertManagerStats) (source : MemoryTier) : ExpertManagerStats :=
  if source = .Vram then { c with vramEvictions := c.vramEvictions + 1 }
  else if source = .Ram then { c with ramEvictions := c.ramEvictions + 1 }
  else c

/-- one generic move -/
def moved (c : ExpertManagerStats) (source destination : MemoryTier) : ExpertManagerStats :=
  { c with
    vramEvictions := c.vramEvictions + if source = .Vram then 1 else 0
    vramPromotions := c.vramPromotions + if destination = .Vram then 1 else 0 }

/-- one adoption of a buffer from outside -/
def adopted (c : ExpertManagerStats) (source tier : MemoryTier) : ExpertManagerStats :=
  if tier = .Vram then { c with vramPromotions := c.vramPromotions + 1 }
  else if source = .Vram then { c with vramEvictions := c.vramEvictions + 1 }
  else c

/-- one request, by where it was served from -/
def requested (c : ExpertManagerStats) (source : RequestSource) (sizeBytes : Nat) :
    ExpertManagerStats :=
  let c := { c with requests := c.requests + 1 }
  match source with
  | .VramHit => { c with vramHits := c.vramHits + 1 }
  | .RamHit => { c with ramHits := c.ramHits + 1 }
  | .NvmeLoad =>
    { c with nvmeLoads := c.nvmeLoads + 1, nvmeBytesRead := c.nvmeBytesRead + sizeBytes }

end ExpertManagerStats

/-- `submitted` counts the transfers submitted so far, `nextBuffer` is the address that the next
`make_shared` copy gets -/
structure ExpertManager (π : Type) where
  memory : MemoryManager
  policy : π
  hasTransfers : Bool
  experts : Table ExpertKey ManagedExpert := ∅
  policyExperts : Table ExpertId ExpertKey := ∅
  legacyExperts : Table ExpertId (List ExpertKey) := ∅
  nextPolicyId : Nat := 0
  accessClock : Nat := 0
  stats : ExpertManagerStats := {}
  submitted : Nat := 0
  nextBuffer : Nat := 0

namespace ExpertManager

variable {π : Type}

abbrev Code (π : Type) := Fallible Exn (ExpertManager π)

/-! ## reading and writing the state -/

def setMemory (m : MemoryManager) (s : ExpertManager π) : ExpertManager π := { s with memory := m }

def onMemory {α : Type} (x : Fallible Exn MemoryManager α) : Code π α :=
  zoom ExpertManager.memory setMemory x

def requireExpertLocked (k : ExpertKey) : Code π ManagedExpert := do
  let s ← read
  orThrow (s.experts.lookup k) (.outOfRange "unknown expert id")

def setExpert (k : ExpertKey) (m : ManagedExpert) (s : ExpertManager π) : ExpertManager π :=
  { s with experts := s.experts.insert k m }

def modifyStats (f : ExpertManagerStats → ExpertManagerStats) (s : ExpertManager π) :
    ExpertManager π :=
  { s with stats := f s.stats }

def notify (f : π → π) (s : ExpertManager π) : ExpertManager π :=
  { s with policy := f s.policy }

def findExpert (s : ExpertManager π) (k : ExpertKey) : Option Expert :=
  (s.experts.lookup k).map ManagedExpert.metadata

def candidatesLocked (s : ExpertManager π) (tier : MemoryTier) : List ExpertId :=
  ((Table.values s.experts).filter
    fun m => m.location = tier ∧ m.residencyLeases = 0).map ManagedExpert.policyId

def countTransfer (s : ExpertManager π) : ExpertManager π :=
  { s with submitted := s.submitted + 1 }

/-- `transfers_->submit(request).future().get()` -/
def submitTransfer (T : Transfers) (request : TransferRequest) : Code π TransferResult := do
  let n ← updateGet fun s => (s.submitted, countTransfer s)
  settle (T n request)

/-- `std::make_shared<const std::vector<std::byte>>(*w)` -/
def copyBuffer (w : Buffer) : Code π Buffer :=
  updateGet fun s => ({ w with addr := s.nextBuffer }, { s with nextBuffer := s.nextBuffer + 1 })

/-- `memory_.allocate(tier, sizeBytes)`, and the throw when it does not fit -/
def reserve (tier : MemoryTier) (sizeBytes : Nat) (e : Exn) : Code π MemoryAllocation := do
  let allocation ← onMemory (MemoryManager.allocate tier sizeBytes)
  orThrow allocation e

def discard (id : AllocationId) : Code π Unit := do
  let _ ← onMemory (MemoryManager.release id)

/-- `managed.allocation && !memory_.release(managed.allocation->id)`: the owned allocation, where
there is one, is released, and the answer says whether that failed -/
def releaseFails (managed : ManagedExpert) : Code π Bool :=
  match managed.allocation with
  | none => pure false
  | some owned => do
    let known ← onMemory (MemoryManager.release owned.id)
    pure (!known)

/-- the old allocation is given back; where the memory manager does not know it, the new one is
given back instead -/
def releaseSource (managed : ManagedExpert) (reserved : AllocationId) : Code π Unit := do
  let fails ← releaseFails managed
  if fails then do
    discard reserved
    throw (.logicError "expert owns an unknown source allocation")
  else pure ()

/-- the load of an expert's stored bytes into host memory -/
def loadRequest (k : ExpertKey) (managed : ManagedExpert) : TransferRequest :=
  { layerId := managed.metadata.layer, expertId := k.2, destination := .Ram }

def uploadRequest (k : ExpertKey) (managed : ManagedExpert) : TransferRequest :=
  { layerId := managed.metadata.layer, expertId := k.2, source := .Ram, destination := .Vram,
    hostBuffer := managed.weights }

def downloadRequest (k : ExpertKey) (managed : ManagedExpert) : TransferRequest :=
  { layerId := managed.metadata.layer, expertId := k.2, source := .Vram, destination := .Ram,
    sourceDeviceBuffer := managed.deviceWeights }

variable [CachePolicy π]

/-- `if (source != Nvme) policy_->onEvict(id, source);` -/
def leave (id : ExpertId) (source : MemoryTier) (s : ExpertManager π) : ExpertManager π :=
  if source = .Nvme then s else notify (CachePolicy.onEvict id source) s

def recordAccessLocked (k : ExpertKey) : Code π Unit := do
  let managed ← requireExpertLocked k
  update fun s =>
    notify (CachePolicy.onAccess managed.policyId) (setExpert k
      { managed with
        usageCount := managed.usageCount + 1
        lastUsed := s.accessClock + 1 }
      { s with accessClock := s.accessClock + 1 })

/-! ## moving one expert -/

/-- `destination == Nvme`: the allocation and the buffers are dropped -/
def dropToNvme (k : ExpertKey) (source : MemoryTier) : Code π Unit := do
  let managed ← requireExpertLocked k
  let fails ← releaseFails managed
  throwIf fails (.logicError "expert owns an unknown memory allocation")
  update fun s =>
    setExpert k (managed.place none none none .Nvme)
      (notify (CachePolicy.onEvict managed.policyId source) (modifyStats (·.dropped source) s))

/-- the direct load `Nvme -> Ram`; no handler stands around the transfer, so an exception of its
future leaves with the reservation still taken -/
def loadIntoRam (T : Transfers) (k : ExpertKey) : Code π Unit := do
  let managed ← requireExpertLocked k
  let allocation ← reserve .Ram managed.sizeBytes
    (.runtimeError "memory reservation failed after eviction")
  let loaded ← submitTransfer T (loadRequest k managed)
  if loaded.status ≠ .Completed ∨ loaded.buffer = none then do
    discard allocation.id
    throw (.runtimeError "expert disk transfer was cancelled")
  else if loaded.buffer.map Buffer.size ≠ some managed.sizeBytes then do
    discard allocation.id
    throw (.runtimeError "expert index size does not match registered metadata")
  else do
    releaseSource managed allocation.id
    update fun s =>
      notify (CachePolicy.onResident managed.policyId .Ram)
        (setExpert k (managed.place (some allocation) loaded.buffer none .Ram) s)

/-- the weights for the destination: host and device buffer.  The last two cases are the generic
ones: a fresh host copy beside whatever device buffer there is, or everything kept. -/
def copyWeights (T : Transfers) (k : ExpertKey) (managed : ManagedExpert)
    (source destination : MemoryTier) : Code π (Option Buffer × Option Buffer) := do
  let s ← read
  if source = .Nvme ∧ s.hasTransfers then do
    let loaded ← submitTransfer T (loadRequest k managed)
    throwIf (loaded.status ≠ .Completed ∨ loaded.buffer = none)
      (.runtimeError "expert disk transfer was cancelled")
    throwIf (loaded.buffer.map Buffer.size ≠ some managed.sizeBytes)
      (.runtimeError "expert index size does not match registered metadata")
    pure (loaded.buffer, none)
  else if source = .Ram ∧ destination = .Vram ∧ s.hasTransfers then do
    let transferred ← submitTransfer T (uploadRequest k managed)
    throwIf (transferred.status ≠ .Completed ∨ transferred.deviceBuffer = none)
      (.runtimeError "expert device transfer was cancelled")
    pure (none, transferred.deviceBuffer)
  else if source = .Vram ∧ destination = .Ram ∧ s.hasTransfers then do
    let transferred ← submitTransfer T (downloadRequest k managed)
    throwIf (transferred.status ≠ .Completed ∨ transferred.buffer = none)
      (.runtimeError "expert device download was cancelled")
    pure (transferred.buffer, none)
  else match managed.weights with
    | some w =>
      if source ≠ .Nvme then do
        let copied ← copyBuffer w
        pure (some copied, managed.deviceWeights)
      else pure (some w, managed.deviceWeights)
    | none => pure (none, managed.deviceWeights)

/-- the generic move, once there is room: reserve, copy, give the old reservation back, commit -/
def relocate (T : Transfers) (k : ExpertKey) (source destination : MemoryTier) :
    Code π Unit := do
  let managed ← requireExpertLocked k
  let allocation ← reserve destination managed.sizeBytes
    (.runtimeError "memory reservation failed after eviction")
  let copied ← tryCatch (copyWeights T k managed source destination) fun e => do
    discard allocation.id
    throw e
  releaseSource managed allocation.id
  update fun s =>
    notify (CachePolicy.onResident managed.policyId destination)
      (setExpert k (managed.place (some allocation) copied.1 copied.2 destination)
        (leave managed.policyId source (modifyStats (·.moved source destination) s)))

/-- one victim leaves the tier: from VRAM into RAM, or to NVMe where that fails; anything in
another tier goes to NVMe -/
def evictVictim (move : MemoryTier → Code π Unit) (tier : MemoryTier) : Code π Unit :=
  if tier = .Vram then
    tryCatch (move .Ram) fun e => if e.isRuntimeError then move .Nvme else throw e
  else move .Nvme

/-! ## the mutual recursion -/

mutual

def moveExpertLocked (T : Transfers) :
    Nat → ExpertKey → MemoryTier → List ExpertId → Code π Unit
  | 0, _, _, _ => throw .outOfFuel
  | fuel + 1, k, destination, pinned => do
    let managed ← requireExpertLocked k
    let s ← read
    let source := managed.location
    if source = destination then pure ()
    else do
      throwIf (managed.residencyLeases ≠ 0)
        (.logicError "cannot move expert while a residency lease is active")
      if source = .Nvme ∧ destination = .Vram then do
        -- all cold loads stage through RAM
        moveExpertLocked T fuel k .Ram pinned
        moveExpertLocked T fuel k .Vram pinned
      else if source = .Nvme ∧ destination = .Ram ∧ s.hasTransfers then do
        makeRoomLocked T fuel destination managed.sizeBytes pinned
        loadIntoRam T k
      else if destination = .Nvme then
        dropToNvme k source
      else do
        makeRoomLocked T fuel destination managed.sizeBytes pinned
        relocate T k source destination

def makeRoomLocked (T : Transfers) : Nat → MemoryTier → Nat → List ExpertId → Code π Unit
  | 0, _, _, _ => throw .outOfFuel
  | fuel + 1, tier, requiredBytes, pinned =>
    if tier = .Nvme then pure ()
    else do
      let u ← onMemory (MemoryManager.usage tier)
      throwIf (requiredBytes > u.limitBytes)
        (.runtimeError "expert is larger than destination tier capacity")
      makeRoomLoop T fuel tier requiredBytes pinned

/-- `while (memory_.usage(tier).availableBytes() < requiredBytes)` -/
def makeRoomLoop (T : Transfers) : Nat → MemoryTier → Nat → List ExpertId → Code π Unit
  | 0, _, _, _ => throw .outOfFuel
  | fuel + 1, tier, requiredBytes, pinned => do
    let u ← onMemory (MemoryManager.usage tier)
    if u.availableBytes < requiredBytes then do
      let s ← read
      let victim ← orThrow
        (CachePolicy.selectVictim s.policy tier (s.candidatesLocked tier) pinned)
        (.runtimeError "no evictable expert can satisfy memory request")
      let identity ← orThrow (s.policyExperts.lookup victim)
        (.logicError "cache policy selected an unknown expert")
      let victimExpert ← orThrow (s.experts.lookup identity) (.outOfRange "unordered_map::at")
      evictVictim
        (fun t => moveExpertLocked T fuel victimExpert.metadata.key t (victim :: pinned)) tier
      makeRoomLoop T fuel tier requiredBytes pinned
    else pure ()

end

/-- enough for a policy that picks among the candidates: each round of a loop moves one expert
out of its tier, and a demotion nests at most twice -/
def fuel (s : ExpertManager π) : Nat := 2 * s.experts.entries.length + 8

def move (T : Transfers) (k : ExpertKey) (destination : MemoryTier) (pinned : List ExpertId) :
    Code π Unit := do
  let s ← read
  moveExpertLocked T s.fuel k destination pinned

def makeRoom (T : Transfers) (tier : MemoryTier) (requiredBytes : Nat) (pinned : List ExpertId) :
    Code π Unit := do
  let s ← read
  makeRoomLocked T s.fuel tier requiredBytes pinned

/-! ## the public operations -/

def insertExpert (expert : Expert) (s : ExpertManager π) : ExpertManager π :=
  { s with
    nextPolicyId := s.nextPolicyId + 1
    experts := s.experts.insert expert.key
      ⟨{ expert with location := .Nvme }, s.nextPolicyId, none, none, none, 0, 0, 0, 0, 0⟩
    policyExperts := s.policyExperts.insert s.nextPolicyId expert.key
    legacyExperts := s.legacyExperts.insert expert.id
      ((s.legacyExperts.lookup expert.id).getD [] ++ [expert.key]) }

def eraseExpert (expert : Expert) (policyId : ExpertId) (s : ExpertManager π) :
    ExpertManager π :=
  let legacy := ((s.legacyExperts.lookup expert.id).getD []).filter (· ≠ expert.key)
  { s with
    experts := s.experts.erase expert.key
    policyExperts := s.policyExperts.erase policyId
    legacyExperts :=
      if legacy = [] then s.legacyExperts.erase expert.id
      else s.legacyExperts.insert expert.id legacy }

def registerExpert (T : Transfers) (expert : Expert) : Code π Unit := do
  throwIf (expert.sizeBytes = 0) (.invalidArgument "expert size must be greater than zero")
  let s ← read
  throwIf ((s.experts.lookup expert.key).isSome) (.invalidArgument "duplicate layer/expert id")
  throwIf (s.nextPolicyId > 4294967295)
    (.overflowError "cache policy expert ID space exhausted")
  update (insertExpert expert)
  if expert.location ≠ .Nvme then
    tryCatch (move T expert.key expert.location [s.nextPolicyId]) fun e => do
      let inserted ← requireExpertLocked expert.key
      let _ ← releaseFails inserted
      update (eraseExpert expert s.nextPolicyId)
      throw e
  else pure ()

def requestExpert (T : Transfers) (k : ExpertKey) : Code π (Expert × RequestSource) := do
  let managed ← requireExpertLocked k
  let source : RequestSource :=
    if managed.location = .Vram then .VramHit
    else if managed.location = .Ram then .RamHit
    else .NvmeLoad
  move T k .Vram [managed.policyId]
  recordAccessLocked k
  update (modifyStats (·.requested source managed.sizeBytes))
  let managed ← requireExpertLocked k
  pure (managed.metadata, source)

def moveExpert (T : Transfers) (k : ExpertKey) (destination : MemoryTier) : Code π Unit := do
  let managed ← requireExpertLocked k
  move T k destination [managed.policyId]

/-- the one layer that has an expert of this id -/
def resolveLegacyLayer (id : ExpertId) : Code π LayerId := do
  let s ← read
  match s.legacyExperts.lookup id with
  | none | some [] => throw (.outOfRange "unknown expert id")
  | some [k] => do
    let managed ← orThrow (s.experts.lookup k) (.outOfRange "unordered_map::at")
    pure managed.metadata.layer
  | some _ =>
    throw (.logicError "expert id is ambiguous across layers; use the layer-aware API")

/-- the loop of `evictUntilWithin`; its answer counts the evictions -/
def evictLoop (T : Transfers) : Nat → MemoryTier → Nat → Nat → Code π Nat
  | 0, _, _, _ => throw .outOfFuel
  | rounds + 1, tier, maximumUsedBytes, evicted => do
    let u ← onMemory (MemoryManager.usage tier)
    if u.usedBytes > maximumUsedBytes then do
      let s ← read
      match CachePolicy.selectVictim s.policy tier (s.candidatesLocked tier) [] with
      | none => pure evicted
      | some victim => do
        let identity ← orThrow (s.policyExperts.lookup victim)
          (.logicError "cache policy selected an unknown expert")
        let victimExpert ← orThrow (s.experts.lookup identity) (.outOfRange "unordered_map::at")
        evictVictim (fun t => move T victimExpert.metadata.key t [victim]) tier
        evictLoop T rounds tier maximumUsedBytes (evicted + 1)
    else pure evicted

def evictUntilWithin (T : Transfers) (tier : MemoryTier) (maximumUsedBytes : Nat) :
    Code π Nat := do
  throwIf (tier = .Nvme) (.invalidArgument "NVMe does not use MemoryManager capacity")
  let s ← read
  evictLoop T (s.experts.entries.length + 1) tier maximumUsedBytes 0

/-- the commit of an adoption: reserve, give the old reservation back, take the buffer over -/
def adopt (k : ExpertKey) (tier : MemoryTier) (weights deviceWeights : Option Buffer)
    (e : Exn) : Code π Unit := do
  let managed ← requireExpertLocked k
  let allocation ← reserve tier managed.sizeBytes e
  releaseSource managed allocation.id
  update fun s =>
    notify (CachePolicy.onResident managed.policyId tier)
      (setExpert k (managed.place (some allocation) weights deviceWeights tier)
        (leave managed.policyId managed.location
          (modifyStats (·.adopted managed.location tier) s)))
  recordAccessLocked k

def adoptDeviceWeights (T : Transfers) (k : ExpertKey) (buffer : Option Buffer) :
    Code π Unit := do
  let unavailable := Exn.invalidArgument "adopted expert buffer is unavailable"
  let b ← orThrow buffer unavailable
  throwIf (b.available = false) unavailable
  let managed ← requireExpertLocked k
  throwIf (b.size ≠ managed.sizeBytes)
    (.invalidArgument "adopted expert buffer size does not match metadata")
  if managed.location = .Vram then do
    throwIf (managed.deviceWeights.map Buffer.addr ≠ some b.addr)
      (.logicError "expert already owns a different device buffer")
    recordAccessLocked k
  else do
    makeRoom T .Vram managed.sizeBytes [managed.policyId]
    adopt k .Vram none (some b) (.runtimeError "failed reserving adopted expert memory")

def adoptHostWeights (T : Transfers) (k : ExpertKey) (buffer : Option Buffer) :
    Code π Unit := do
  let unavailable := Exn.invalidArgument "adopted host expert buffer is unavailable"
  let b ← orThrow buffer unavailable
  throwIf (b.bytes = []) unavailable
  let managed ← requireExpertLocked k
  throwIf (b.size ≠ managed.sizeBytes)
    (.invalidArgument "adopted host expert buffer size does not match metadata")
  throwIf (managed.residencyLeases ≠ 0)
    (.logicError "cannot adopt host expert weights while a residency lease is active")
  if managed.location = .Ram then do
    throwIf (managed.weights.map Buffer.addr ≠ some b.addr)
      (.logicError "expert already owns a different host buffer")
    recordAccessLocked k
  else do
    makeRoom T .Ram managed.sizeBytes [managed.policyId]
    adopt k .Ram (some b) none (.runtimeError "failed reserving adopted expert host memory")

def prepareResidency (T : Transfers) (k : ExpertKey) (destination : MemoryTier) :
    Code π Unit := do
  throwIf (destination ≠ .Ram ∧ destination ≠ .Vram)
    (.invalidArgument "expert preparation requires RAM or VRAM")
  let expert ← requireExpertLocked k
  if expert.location ≠ destination then
    makeRoom T destination expert.sizeBytes [expert.policyId]
  else pure ()

/-- `leaseCount` is shared with the expert `expert` -/
structure ExpertResidencyLease where
  expert : ExpertKey
  deviceBuffer : Option Buffer
  hostBuffer : Option Buffer
  deriving DecidableEq

/-- `residencyLeases->fetch_add(1)` -/
def addLease (k : ExpertKey) (managed : ManagedExpert) : Code π Unit :=
  update (setExpert k { managed with residencyLeases := managed.residencyLeases + 1 })

def acquireResidentExpert (T : Transfers) (k : ExpertKey) : Code π ExpertResidencyLease := do
  let managed ← requireExpertLocked k
  (if managed.location ≠ .Vram ∨ managed.deviceWeights = none then
    move T k .Vram [managed.policyId] else pure ())
  let managed ← requireExpertLocked k
  throwIf (managed.location ≠ .Vram ∨ managed.deviceWeights = none)
    (.logicError "expert does not own a resident device buffer")
  addLease k managed
  pure ⟨k, managed.deviceWeights, none⟩

def acquireHostExpert (T : Transfers) (k : ExpertKey) : Code π ExpertResidencyLease := do
  let managed ← requireExpertLocked k
  (if managed.location = .Nvme ∨ managed.location = .Vram then
    move T k .Ram [managed.policyId] else pure ())
  let managed ← requireExpertLocked k
  throwIf (managed.location ≠ .Ram ∨ managed.weights = none)
    (.logicError "expert does not own a resident host buffer")
  addLease k managed
  pure ⟨k, none, managed.weights⟩

/-- `ExpertResidencyLease::reset` -/
def releaseLease (k : ExpertKey) : Code π Unit :=
  update fun s => match s.experts.lookup k with
    | none => s
    | some managed =>
      setExpert k { managed with residencyLeases := managed.residencyLeases - 1 } s

/-- a `double` is a rational number here, `none` when it is not finite -/
def updatePrediction (k : ExpertKey) (probability confidence : Option ℚ) : Code π Unit := do
  let notFinite := Exn.invalidArgument "expert prediction values must be finite"
  let probability ← orThrow probability notFinite
  let confidence ← orThrow confidence notFinite
  let managed ← requireExpertLocked k
  let p := HybridPolicy.clamp01 probability
  let c := HybridPolicy.clamp01 confidence
  update fun s =>
    notify (CachePolicy.setPrefetchConfidence managed.policyId c ∘
        CachePolicy.setLayerProbability managed.policyId p)
      (setExpert k { managed with predictionProbability := p, prefetchConfidence := c } s)

end ExpertManager

end HyperMoE
