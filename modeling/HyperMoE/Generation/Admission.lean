import HyperMoE.Generation.Decoder
import HyperMoE.Transformer.CacheRefinement

/-!
# Sessions and the memory they reserve

`KVCacheManager.cpp` with its callers: sessions are allocated and released, and used, by anyone and in
any order.  To build a cache may fail, and so may the memory for an append.

* `KVCacheManager.make`    the manager, with the cache that its backend asks for;
* `Bounded`                a cache that stays below its declared maximum;
* `Accounted`              what holds of a manager at any time;
* `World`, `step`          a manager, the sessions of others, and what they can do;
* `orderly_run`            what holds of both after any steps;
* `sessions_accounted`     the guarantees, for a manager that was made.
-/

namespace HyperMoE.Generation

open Lib Lib.Fallible Transformer

/-! ## the manager -/

structure TensorBackend where
  available : Bool
  device : Device
  deriving DecidableEq

/-- the cache that a manager builds: with a backend, one on its device -/
def Cache (K : Type) : Option TensorBackend → Type
  | none => KVCache K
  | some _ => CudaKVCache K

namespace KVCacheManager

/-- `backend_ && (!backend_->available() || backend_->device().type != tensor::DeviceType::CUDA)` -/
def unusable : Option TensorBackend → Bool
  | none => false
  | some backend => !backend.available || backend.device = .cpu

def make (K : Type) (layerCount maximumSequenceLength keyValueHeads headDimension
    memoryLimitBytes : UInt64) (backend : Option TensorBackend) :
    Except Exn (KVCacheManager (Cache K backend)) := do
  Outcome.throwIf (unusable backend)
    (.invalidArgument "KV cache manager device backend must be available CUDA")
  let prototype ← (KVCache.make K layerCount.toNat maximumSequenceLength.toNat keyValueHeads.toNat
    headDimension.toNat).mapError ofStdError
  let bytesPerSession ← prototype.maximumMemoryUsageBytes.mapError ofStdError
  Outcome.throwIf (memoryLimitBytes = 0 ∨ bytesPerSession > memoryLimitBytes.toNat)
    (.invalidArgument "KV cache memory limit cannot hold one maximum-length session")
  return {
    layerCount := layerCount.toNat
    maximumSequenceLength := maximumSequenceLength.toNat
    keyValueHeads := keyValueHeads.toNat
    headDimension := headDimension.toNat
    memoryLimitBytes := memoryLimitBytes.toNat
    bytesPerSession
    device := backend.elim .cpu TensorBackend.device }

end KVCacheManager

/-! ## caches that fail, and that stay below a maximum -/

/-- the caches where building the next one throws, if it does -/
@[reducible] def KVCacheBase.orThrow (C : Type) [KVCacheBase C] (failure : Option Exn) : KVCacheBase C where
  make layers sequence heads dimension := match failure with
    | some e => .error e
    | none => KVCacheBase.make layers sequence heads dimension
  maximumSequenceLength := KVCacheBase.maximumSequenceLength
  tokenCount := KVCacheBase.tokenCount
  memoryUsageBytes := KVCacheBase.memoryUsageBytes
  made {layers sequence heads dimension cache} h := by
    cases failure with
    | some e => exact nomatch h
    | none => exact KVCacheBase.made h

namespace Admission

/-- `Within layers sequence heads dimension`: built for these extents, and used in any way since -/
class Bounded (K : outParam Type) (C : Type) extends KVCacheBase C where
  perform : Call K → C → C
  Within : Nat → Nat → Nat → Nat → C → Prop
  within_make {layers sequence heads dimension : Nat} {cache : C} :
    KVCacheBase.make layers sequence heads dimension = .ok cache →
      Within layers sequence heads dimension cache
  within_perform {layers sequence heads dimension : Nat} {cache : C} (call : Call K) :
    Within layers sequence heads dimension cache →
      Within layers sequence heads dimension (perform call cache)
  usage {layers sequence heads dimension bytes : Nat} {cache : C} :
    Within layers sequence heads dimension cache →
      KVCache.checkedCacheBytes layers sequence heads dimension = .ok bytes →
      ∃ usage, KVCacheBase.memoryUsageBytes cache = .ok usage ∧ usage ≤ bytes

section
variable {K : Type}

/-- the extents of a cache -/
structure Shaped (layers sequence heads dimension : Nat) (cache : KVCache K) : Prop where
  layers : cache.layers.length = layers
  sequence : cache.maximumSequenceLength = sequence
  heads : cache.keyValueHeads = heads
  dimension : cache.headDimension = dimension

variable {layers sequence heads dimension bytes : Nat} {cache : KVCache K}

theorem Shaped.checked (h : Shaped layers sequence heads dimension cache) :
    cache.maximumMemoryUsageBytes = KVCache.checkedCacheBytes layers sequence heads dimension := by
  rw [KVCache.maximumMemoryUsageBytes, h.layers, h.sequence, h.heads, h.dimension]

theorem shaped_make (h : KVCache.make K layers sequence heads dimension = .ok cache) :
    Shaped layers sequence heads dimension cache ∧
      ∃ bytes, KVCache.checkedCacheBytes layers sequence heads dimension = .ok bytes := by
  unfold KVCache.make at h
  cases hbytes : KVCache.checkedCacheBytes layers sequence heads dimension with
  | error e =>
    rw [hbytes] at h
    exact nomatch h
  | ok bytes =>
    rw [hbytes] at h
    obtain rfl := Except.ok.inj h
    exact ⟨⟨List.length_replicate, rfl, rfl, rfl⟩, bytes, rfl⟩

/-- no call changes the extents -/
theorem shaped_perform (h : Shaped layers sequence heads dimension cache) (call : Call K) :
    Shaped layers sequence heads dimension ((KVCache.perform call).exec cache).2 := by
  have hwp : wp (KVCache.perform call)
      (fun _ cache' => Shaped layers sequence heads dimension cache') cache := by
    cases call with
    | append layer first keys values fresh =>
      refine wp_seq (R := fun _ cache' => Shaped layers sequence heads dimension cache') ?_
        (fun _ _ h' => h') fun _ _ h' => h'
      unfold KVCache.append
      rw [wp_bind, wp_read]
      dsimp only
      rw [wp_bind, wp_settle]
      cases happended : cache.appended layer first keys.toHeadView values.toHeadView with
      | error e => exact h
      | ok cache' =>
        have hextended := KVCache.appended_eq_ok.mp happended
        refine ⟨?_, hextended.maximum.trans h.sequence, hextended.keyValueHeads.trans h.heads,
          hextended.headDimension.trans h.dimension⟩
        show cache'.layers.length = layers
        rw [hextended.layers, List.length_set]
        exact h.layers
    | clear layer =>
      refine wp_seq (R := fun _ cache' => Shaped layers sequence heads dimension cache') ?_
        (fun _ _ h' => h') fun _ _ h' => h'
      unfold KVCache.clear
      rw [wp_bind, wp_read]
      dsimp only
      rw [wp_bind, wp_throwIf]
      split
      · exact h
      · exact ⟨(List.length_set).trans h.layers, h.sequence, h.heads, h.dimension⟩
    | reset => exact ⟨(List.length_map _).trans h.layers, h.sequence, h.heads, h.dimension⟩
    | snapshot layer =>
      refine wp_seq (R := fun _ cache' => cache' = cache) ?_ (fun _ _ h' => h' ▸ h)
        fun _ _ h' => h' ▸ h
      unfold KVCache.snapshot
      rw [wp_bind, wp_read]
      dsimp only
      rw [wp_bind, wp_throwIf]
      split <;> rfl
  exact hwp

instance : Bounded K (KVCache K) where
  perform call cache := ((KVCache.perform call).exec cache).2
  Within := Shaped
  within_make h := (shaped_make (Outcome.mapError_eq_ok.mp h)).1
  within_perform call h := shaped_perform h call
  usage {layers sequence heads dimension bytes cache} h hbytes := by
    obtain ⟨-, rfl, -⟩ := checkedCacheBytes_eq_ok hbytes
    refine ⟨_, rfl, ?_⟩
    have husage := usage_le cache
    rwa [h.layers, h.sequence, h.heads, h.dimension] at husage

/-- built for the extents: there is a cache on the host that has the same -/
instance : Bounded K (CudaKVCache K) where
  perform call cache := ((CudaKVCache.perform call).exec cache).2
  Within layers sequence heads dimension cache :=
    ∃ host, Same host cache ∧ Shaped layers sequence heads dimension host
  within_make {layers sequence heads dimension cache} h := by
    have hmake : CudaKVCache.make K true layers sequence heads dimension = .ok cache :=
      Outcome.mapError_eq_ok.mp h
    cases hhost : KVCache.make K layers sequence heads dimension with
    | error e =>
      unfold CudaKVCache.make at hmake
      rw [hhost] at hmake
      exact nomatch hmake
    | ok host => exact ⟨host, same_make hhost hmake, (shaped_make hhost).1⟩
  within_perform call := by
    rintro ⟨host, hsame, hshaped⟩
    exact ⟨_, (same_perform hsame call).2, shaped_perform hshaped call⟩
  usage := by
    rintro layers sequence heads dimension bytes cache ⟨host, hsame, hshaped⟩ hbytes
    obtain ⟨_, usage, husage, hle⟩ := hsame.usage (hshaped.checked.trans hbytes)
    exact ⟨usage, Outcome.mapError_eq_ok.mpr husage, hle⟩

instance (backend : Option TensorBackend) : Bounded K (Cache K backend) :=
  match backend with
  | none => inferInstanceAs (Bounded K (KVCache K))
  | some _ => inferInstanceAs (Bounded K (CudaKVCache K))

end

/-! ## the manager, at any time -/

section
variable {K C : Type} [Bounded K C]

def allocateSession (failure : Option Exn) :
    Fallible Exn (KVCacheManager C) (KVCacheSessionId × C) :=
  @KVCacheManager.allocateSession C (KVCacheBase.orThrow C failure)

/-- given out already: below the counter, which is zero after its last value -/
def Past (next id : Nat) : Prop := 0 < id ∧ (next = 0 ∨ id < next)

structure Accounted (m : KVCacheManager C) : Prop where
  bytes : KVCache.checkedCacheBytes m.layerCount m.maximumSequenceLength m.keyValueHeads
    m.headDimension = .ok m.bytesPerSession
  fits : m.bytesPerSession ≤ m.memoryLimitBytes
  limit : m.memoryLimitBytes < 2 ^ 64
  reserved : m.reservedBytes = (Table.values m.sessions).length * m.bytesPerSession
  within_limit : m.reservedBytes ≤ m.memoryLimitBytes
  next_lt : m.nextSessionId < 2 ^ 64
  past : ∀ id cache, m.sessions.lookup id = some cache → Past m.nextSessionId id
  caches : ∀ id cache, m.sessions.lookup id = some cache → Bounded.Within m.layerCount
    m.maximumSequenceLength m.keyValueHeads m.headDimension cache

theorem past_succ {next id : Nat} (hne : next ≠ 0) (hlt : next < 2 ^ 64)
    (h : Past next id) : Past ((next + 1) % 2 ^ 64) id := by
  obtain ⟨hpos, hbelow⟩ := h
  refine ⟨hpos, ?_⟩
  rcases Nat.lt_or_ge (next + 1) (2 ^ 64) with hword | hword
  · rw [Nat.mod_eq_of_lt hword]
    omega
  · have he : next + 1 = 2 ^ 64 := by omega
    exact Or.inl (by rw [he, Nat.mod_self])

theorem past_self {next : Nat} (hne : next ≠ 0) (hlt : next < 2 ^ 64) :
    Past ((next + 1) % 2 ^ 64) next := by
  refine ⟨Nat.pos_of_ne_zero hne, ?_⟩
  rcases Nat.lt_or_ge (next + 1) (2 ^ 64) with hword | hword
  · rw [Nat.mod_eq_of_lt hword]
    omega
  · have he : next + 1 = 2 ^ 64 := by omega
    exact Or.inl (by rw [he, Nat.mod_self])

/-- what an allocation does; the identifier of one that fails may be lost -/
def Allocated (m : KVCacheManager C) (r : Except Exn (KVCacheSessionId × C))
    (m' : KVCacheManager C) : Prop :=
  (∀ id, Past m.nextSessionId id → Past m'.nextSessionId id) ∧ match r with
    | .ok (id, cache) => ¬ Past m.nextSessionId id ∧ Past m'.nextSessionId id ∧
        m'.sessions = m.sessions.insert id cache
    | .error _ => m'.reservedBytes = m.reservedBytes ∧ m'.sessions = m.sessions

theorem Accounted.next {m : KVCacheManager C} (h : Accounted m) (hne : m.nextSessionId ≠ 0) :
    Accounted { m with nextSessionId := (m.nextSessionId + 1) % 2 ^ 64 } :=
  { h with
    next_lt := Nat.mod_lt _ (Nat.two_pow_pos 64)
    past := fun id cache hid => past_succ hne h.next_lt (h.past id cache hid) }

theorem Accounted.insert {m : KVCacheManager C} (h : Accounted m) {id : KVCacheSessionId} {cache : C}
    (hnew : m.sessions.lookup id = none) (hpast : Past m.nextSessionId id)
    (hcache : Bounded.Within m.layerCount m.maximumSequenceLength m.keyValueHeads m.headDimension
      cache) (hroom : m.reservedBytes + m.bytesPerSession ≤ m.memoryLimitBytes) :
    Accounted { m with
      sessions := m.sessions.insert id cache
      reservedBytes := m.reservedBytes + m.bytesPerSession } :=
  { h with
    reserved := by
      show m.reservedBytes + m.bytesPerSession =
        (Table.values (m.sessions.insert id cache)).length * m.bytesPerSession
      rw [Table.values_insert, Table.values_erase_of_none hnew, List.length_cons, Nat.succ_mul,
        ← h.reserved]
    within_limit := hroom
    past := fun id' cache' hid => by
      rw [Table.lookup_insert'] at hid
      split at hid
      · next he => exact he ▸ hpast
      · exact h.past id' cache' hid
    caches := fun id' cache' hid => by
      rw [Table.lookup_insert'] at hid
      split at hid
      · exact Option.some.inj hid ▸ hcache
      · exact h.caches id' cache' hid }

theorem Accounted.erase {m : KVCacheManager C} (h : Accounted m) {id : KVCacheSessionId} {cache : C}
    (hid : m.sessions.lookup id = some cache) :
    Accounted { m with
      sessions := m.sessions.erase id
      reservedBytes := m.reservedBytes - m.bytesPerSession } := by
  have hlength := (Table.values_perm hid).length_eq
  have hreserved := h.reserved
  rw [hlength, List.length_cons, Nat.succ_mul] at hreserved
  have hsub : ∀ id' cache', (m.sessions.erase id).lookup id' = some cache' →
      m.sessions.lookup id' = some cache' := by
    intro id' cache' h'
    rw [Table.lookup_erase'] at h'
    split at h'
    · exact nomatch h'
    · exact h'
  exact { h with
    reserved := by
      show m.reservedBytes - m.bytesPerSession =
        (Table.values (m.sessions.erase id)).length * m.bytesPerSession
      rw [hreserved, Nat.add_sub_cancel]
    within_limit := (Nat.sub_le _ _).trans h.within_limit
    past := fun id' cache' h' => h.past id' cache' (hsub id' cache' h')
    caches := fun id' cache' h' => h.caches id' cache' (hsub id' cache' h') }

/-- another cache for a session, with the same extents -/
theorem Accounted.replace {m : KVCacheManager C} (h : Accounted m) {id : KVCacheSessionId}
    {cache cache' : C} (hid : m.sessions.lookup id = some cache)
    (hcache : Bounded.Within m.layerCount m.maximumSequenceLength m.keyValueHeads m.headDimension
      cache') : Accounted { m with sessions := m.sessions.insert id cache' } := by
  have hlength := (Table.values_perm hid).length_eq
  exact { h with
    reserved := by
      show m.reservedBytes = (Table.values (m.sessions.insert id cache')).length * _
      rw [Table.values_insert, List.length_cons, h.reserved, hlength, List.length_cons]
    past := fun id' c hlookup => by
      rw [Table.lookup_insert'] at hlookup
      split at hlookup
      · next he => exact he ▸ h.past id cache hid
      · exact h.past id' c hlookup
    caches := fun id' c hlookup => by
      rw [Table.lookup_insert'] at hlookup
      split at hlookup
      · exact Option.some.inj hlookup ▸ hcache
      · exact h.caches id' c hlookup }

theorem wp_allocateSession (failure : Option Exn) {m : KVCacheManager C} (h : Accounted m) :
    wp (allocateSession failure) (fun r m' => Accounted m' ∧ m'.bytesPerSession = m.bytesPerSession ∧
      m'.memoryLimitBytes = m.memoryLimitBytes ∧ Allocated m r m') m := by
  unfold allocateSession KVCacheManager.allocateSession
  rw [wp_bind, wp_read]
  dsimp only
  rw [wp_bind, wp_throwIf]
  split
  · exact ⟨h, rfl, rfl, fun _ hid => hid, rfl, rfl⟩
  next hroom =>
  dsimp only
  rw [wp_bind, wp_throwIf]
  split
  · exact ⟨h, rfl, rfl, fun _ hid => hid, rfl, rfl⟩
  next hne =>
  dsimp only
  rw [wp_bind, wp_update]
  dsimp only
  have hnext := h.next hne
  have hpast : ∀ id, Past m.nextSessionId id → Past ((m.nextSessionId + 1) % 2 ^ 64) id :=
    fun id hid => past_succ hne h.next_lt hid
  rw [wp_bind, wp_settle]
  cases hmake : (KVCacheBase.orThrow C failure).make m.layerCount m.maximumSequenceLength
    m.keyValueHeads m.headDimension with
  | error e => exact ⟨hnext, rfl, rfl, hpast, rfl, rfl⟩
  | ok cache =>
    dsimp only
    rw [wp_bind, wp_throwIf]
    split
    · exact ⟨hnext, rfl, rfl, hpast, rfl, rfl⟩
    next hid =>
    dsimp only
    rw [wp_bind, wp_update]
    have hmade : KVCacheBase.make m.layerCount m.maximumSequenceLength m.keyValueHeads
        m.headDimension = .ok cache := by
      cases failure with
      | some e => cases hmake
      | none => exact hmake
    have hself := past_self hne h.next_lt
    have hbelow : ¬ Past m.nextSessionId m.nextSessionId := fun hself' =>
      hself'.2.elim hne (lt_irrefl _)
    refine ⟨hnext.insert (AList.lookup_eq_none.mpr hid) hself (Bounded.within_make hmade) ?_, rfl, rfl,
      hpast, hbelow, hself, rfl⟩
    have hfits := h.fits
    show m.reservedBytes + m.bytesPerSession ≤ m.memoryLimitBytes
    omega

theorem wp_releaseSession (id : KVCacheSessionId) {m : KVCacheManager C} (h : Accounted m) :
    wp (KVCacheManager.releaseSession id) (fun _ m' => Accounted m' ∧
      m'.bytesPerSession = m.bytesPerSession ∧ m'.memoryLimitBytes = m.memoryLimitBytes ∧
      m'.nextSessionId = m.nextSessionId ∧ m'.sessions = m.sessions.erase id) m := by
  unfold KVCacheManager.releaseSession
  rw [wp_bind, wp_read]
  dsimp only
  rw [wp_bind, wp_throwIf]
  split
  · next hid =>
    refine ⟨h, rfl, rfl, rfl, ?_⟩
    exact (AList.ext (List.kerase_of_notMem_keys hid)).symm
  · next hid =>
    dsimp only
    rw [wp_update]
    obtain ⟨cache, hcache⟩ : ∃ cache, m.sessions.lookup id = some cache :=
      Option.isSome_iff_exists.mp (AList.lookup_isSome.mpr (not_not.mp hid))
    exact ⟨h.erase hcache, rfl, rfl, rfl, rfl⟩

theorem release_inactive {m : KVCacheManager C} {id : KVCacheSessionId} (h : id ∉ m.sessions) :
    (KVCacheManager.releaseSession id).exec m =
      (.error (.outOfRange "KV cache session is not active"), m) := by
  show (throwIf (id ∉ m.sessions) _ >>= _).exec m = _
  rw [exec_throwIf_bind, if_pos h]

theorem foldlM_committed (b : Nat) (l : List C)
    (hl : ∀ cache ∈ l, ∃ usage, KVCacheBase.memoryUsageBytes cache = .ok usage ∧ usage ≤ b) (n : Nat)
    (hn : n + l.length * b < 2 ^ 64) :
    ∃ committed, l.foldlM KVCacheManager.addCommitted n = .ok committed ∧
      committed ≤ n + l.length * b := by
  induction l generalizing n with
  | nil => exact ⟨n, rfl, Nat.le_add_right _ _⟩
  | cons cache l ih =>
    obtain ⟨usage, husage, hle⟩ := hl cache List.mem_cons_self
    rw [List.length_cons, Nat.succ_mul] at hn ⊢
    obtain ⟨committed, hcommitted, hle'⟩ := ih (fun cache' h => hl cache' (List.mem_cons_of_mem _ h))
      (n + usage) (by omega)
    have hadd : KVCacheManager.addCommitted n cache = .ok (n + usage) := by
      unfold KVCacheManager.addCommitted
      rw [husage]
      exact if_neg (by omega)
    refine ⟨committed, ?_, by omega⟩
    rw [List.foldlM_cons, hadd]
    exact hcommitted

/-- what is reported of a manager -/
theorem exec_stats {m : KVCacheManager C} (h : Accounted m) :
    ∃ t, KVCacheManager.stats.exec m =
        (.ok t, { m with peakCommittedBytes := max m.peakCommittedBytes t.committedBytes }) ∧
      t.activeSessions = (Table.values m.sessions).length ∧ t.reservedBytes = m.reservedBytes ∧
      t.committedBytes ≤ t.reservedBytes := by
  have hcaches : ∀ cache ∈ Table.values m.sessions,
      ∃ usage, KVCacheBase.memoryUsageBytes cache = .ok usage ∧ usage ≤ m.bytesPerSession := by
    intro cache hcache
    obtain ⟨id, hid⟩ := Table.mem_values.mp hcache
    exact Bounded.usage (h.caches id cache hid) h.bytes
  have hword : 0 + (Table.values m.sessions).length * m.bytesPerSession < 2 ^ 64 := by
    rw [Nat.zero_add, ← h.reserved]
    exact h.within_limit.trans_lt h.limit
  obtain ⟨committed, hcommitted, hle⟩ := foldlM_committed _ _ hcaches 0 hword
  rw [Nat.zero_add, ← h.reserved] at hle
  refine ⟨⟨(Table.values m.sessions).length, committed, m.reservedBytes,
    max m.peakCommittedBytes committed, m.memoryLimitBytes⟩, ?_, rfl, rfl, hle⟩
  show (settle ((Table.values m.sessions).foldlM KVCacheManager.addCommitted 0) >>= _).exec m = _
  rw [hcommitted]
  rfl

/-! ## a session of inference -/

def construct (failure : Option Exn) (model : GenerationModel C K) (maximumNewTokens : Nat)
    (stopTokenIds : List TokenId) (device : Device) :
    Fallible Exn (KVCacheManager C) (InferenceSession C K) :=
  @InferenceSession.make C K (KVCacheBase.orThrow C failure) model maximumNewTokens stopTokenIds device

theorem wp_construct (failure : Option Exn) (model : GenerationModel C K) (maximumNewTokens : Nat)
    (stopTokenIds : List TokenId) (device : Device) {m : KVCacheManager C} (h : Accounted m) :
    wp (construct failure model maximumNewTokens stopTokenIds device) (fun r m' => Accounted m' ∧
      m'.bytesPerSession = m.bytesPerSession ∧ m'.memoryLimitBytes = m.memoryLimitBytes ∧
      Allocated m (r.map fun session => (session.id, session.kvCache)) m') m := by
  have hfailed : ∀ e : Exn, Allocated m (.error e) m := fun e => ⟨fun _ hid => hid, rfl, rfl⟩
  unfold construct InferenceSession.make
  rw [wp_bind, wp_settle]
  cases GenerationState.make maximumNewTokens stopTokenIds with
  | error e => exact ⟨h, rfl, rfl, hfailed e⟩
  | ok generationState =>
    dsimp only
    rw [wp_bind, wp_read]
    dsimp only
    rw [wp_bind, wp_throwIf]
    split
    · exact ⟨h, rfl, rfl, hfailed _⟩
    · exact wp_seq (wp_allocateSession failure h) (fun _ _ h' => h') fun _ _ h' => h'

/-- the destructor: an exception of the release is swallowed -/
def destroy (id : KVCacheSessionId) (m : KVCacheManager C) : KVCacheManager C :=
  ((KVCacheManager.releaseSession id).exec m).2

/-! ## all together -/

structure World (C : Type) where
  manager : KVCacheManager C
  /-- the sessions that are constructed and not destroyed -/
  live : List KVCacheSessionId := []
  /-- the identifiers that were given out -/
  issued : List KVCacheSessionId := []

inductive Act (K C : Type) where
  | allocate (failure : Option Exn)
  | release (id : KVCacheSessionId)
  /-- a call to the cache of a session; one that `fails` leaves the cache as it was -/
  | use (id : KVCacheSessionId) (call : Call K) (fails : Bool)
  | construct (failure : Option Exn) (model : GenerationModel C K) (maximumNewTokens : Nat)
    (stopTokenIds : List TokenId) (device : Device)
  | destroy (id : KVCacheSessionId)
  | stats

/-- the cache of a session that has ended is that of its holder, and of no manager -/
def useCache (id : KVCacheSessionId) (call : Call K) (m : KVCacheManager C) : KVCacheManager C :=
  match m.sessions.lookup id with
  | some cache => { m with sessions := m.sessions.insert id (Bounded.perform call cache) }
  | none => m

def step (w : World C) : Act K C → World C
  | .allocate failure =>
    match (allocateSession failure).exec w.manager with
    | (.ok allocation, manager) => { w with manager, issued := w.issued ++ [allocation.1] }
    | (.error _, manager) => { w with manager }
  | .release id => { w with manager := ((KVCacheManager.releaseSession id).exec w.manager).2 }
  | .use id call fails => if fails then w else { w with manager := useCache id call w.manager }
  | .construct failure model maximumNewTokens stopTokenIds device =>
    match (construct failure model maximumNewTokens stopTokenIds device).exec w.manager with
    | (.ok session, manager) =>
      { manager, live := w.live ++ [session.id], issued := w.issued ++ [session.id] }
    | (.error _, manager) => { w with manager }
  | .destroy id =>
    if id ∈ w.live then { w with manager := destroy id w.manager, live := w.live.erase id } else w
  | .stats => { w with manager := (KVCacheManager.stats.exec w.manager).2 }

def run (w : World C) (acts : List (Act K C)) : World C := acts.foldl step w

/-- what holds at any time -/
structure Orderly (bytesPerSession memoryLimitBytes : Nat) (w : World C) : Prop where
  accounted : Accounted w.manager
  bytes : w.manager.bytesPerSession = bytesPerSession
  limit : w.manager.memoryLimitBytes = memoryLimitBytes
  past : ∀ id ∈ w.issued, Past w.manager.nextSessionId id
  nodup : w.issued.Nodup
  active : ∀ id ∈ w.manager.sessions, id ∈ w.issued

variable {bytesPerSession memoryLimitBytes : Nat} {w : World C}

/-- a new identifier is none of those before -/
theorem Orderly.issue (h : Orderly bytesPerSession memoryLimitBytes w) {m : KVCacheManager C}
    {id : KVCacheSessionId} {cache : C} {live : List KVCacheSessionId} (hm : Accounted m)
    (hbytes : m.bytesPerSession = w.manager.bytesPerSession)
    (hlimit : m.memoryLimitBytes = w.manager.memoryLimitBytes)
    (hallocated : Allocated w.manager (.ok (id, cache)) m) :
    Orderly bytesPerSession memoryLimitBytes ⟨m, live, w.issued ++ [id]⟩ := by
  obtain ⟨hpast, hnew, hid, hsessions⟩ := hallocated
  refine ⟨hm, hbytes.trans h.bytes, hlimit.trans h.limit, fun id' hmem => ?_, ?_, fun id' hmem => ?_⟩
  · rcases List.mem_append.mp hmem with hmem | hmem
    · exact hpast id' (h.past id' hmem)
    · exact List.mem_singleton.mp hmem ▸ hid
  · rw [List.nodup_append]
    refine ⟨h.nodup, List.nodup_singleton id, fun a ha b hb he => ?_⟩
    rw [List.mem_singleton.mp hb] at he
    exact hnew (he ▸ h.past a ha)
  · have hmem' : id' ∈ w.manager.sessions.insert id cache := hsessions ▸ hmem
    rcases (AList.mem_insert _).mp hmem' with rfl | hmem'
    · exact List.mem_append_right _ (List.mem_singleton_self _)
    · exact List.mem_append_left _ (h.active id' hmem')

/-- the manager alone has changed -/
theorem Orderly.manage (h : Orderly bytesPerSession memoryLimitBytes w) {m : KVCacheManager C}
    {live : List KVCacheSessionId} (hm : Accounted m)
    (hbytes : m.bytesPerSession = w.manager.bytesPerSession)
    (hlimit : m.memoryLimitBytes = w.manager.memoryLimitBytes)
    (hpast : ∀ id, Past w.manager.nextSessionId id → Past m.nextSessionId id)
    (hactive : ∀ id ∈ m.sessions, id ∈ w.manager.sessions) :
    Orderly bytesPerSession memoryLimitBytes ⟨m, live, w.issued⟩ :=
  ⟨hm, hbytes.trans h.bytes, hlimit.trans h.limit, fun id hid => hpast id (h.past id hid), h.nodup,
    fun id hid => h.active id (hactive id hid)⟩

theorem Orderly.release (h : Orderly bytesPerSession memoryLimitBytes w) (id : KVCacheSessionId)
    (live : List KVCacheSessionId) : Orderly bytesPerSession memoryLimitBytes
      ⟨((KVCacheManager.releaseSession id).exec w.manager).2, live, w.issued⟩ := by
  obtain ⟨hm, hbytes, hlimit, hnext, hsessions⟩ := wp_releaseSession id h.accounted
  refine h.manage hm hbytes hlimit (fun id' hid => hnext ▸ hid) fun id' hid => ?_
  rw [hsessions] at hid
  exact (AList.mem_erase.mp hid).2

theorem orderly_step (h : Orderly bytesPerSession memoryLimitBytes w) (act : Act K C) :
    Orderly bytesPerSession memoryLimitBytes (step w act) := by
  cases act with
  | allocate failure =>
    have hwp := wp_allocateSession failure h.accounted
    unfold wp at hwp
    rw [step]
    cases hexec : (allocateSession failure).exec w.manager with
    | mk r manager =>
      rw [hexec] at hwp
      obtain ⟨hm, hbytes, hlimit, hallocated⟩ := hwp
      cases r with
      | ok allocation => exact h.issue hm hbytes hlimit hallocated
      | error e =>
        exact h.manage hm hbytes hlimit hallocated.1 fun id hid => hallocated.2.2 ▸ hid
  | release id => exact h.release id w.live
  | use id call fails =>
    rw [step]
    split
    · exact h
    · unfold useCache
      cases hid : w.manager.sessions.lookup id with
      | none => exact h
      | some cache =>
        have hcache := Bounded.within_perform call (h.accounted.caches id cache hid)
        refine h.manage (h.accounted.replace hid hcache) rfl rfl (fun _ hpast => hpast) ?_
        intro id' hid'
        rcases (AList.mem_insert _).mp hid' with rfl | hid'
        · exact AList.lookup_isSome.mp (Option.isSome_iff_exists.mpr ⟨cache, hid⟩)
        · exact hid'
  | construct failure model maximumNewTokens stopTokenIds device =>
    have hwp := wp_construct failure model maximumNewTokens stopTokenIds device h.accounted
    unfold wp at hwp
    rw [step]
    cases hexec : (construct failure model maximumNewTokens stopTokenIds device).exec w.manager with
    | mk r manager =>
      rw [hexec] at hwp
      obtain ⟨hm, hbytes, hlimit, hallocated⟩ := hwp
      cases r with
      | ok session => exact h.issue hm hbytes hlimit hallocated
      | error e =>
        exact h.manage hm hbytes hlimit hallocated.1 fun id hid => hallocated.2.2 ▸ hid
  | destroy id =>
    rw [step]
    split
    · exact h.release id _
    · exact h
  | stats =>
    obtain ⟨t, hexec, _⟩ := exec_stats h.accounted
    rw [step, hexec]
    exact h.manage { h.accounted with } rfl rfl (fun _ hpast => hpast) fun _ hid => hid

theorem orderly_run (h : Orderly bytesPerSession memoryLimitBytes w) (acts : List (Act K C)) :
    Orderly bytesPerSession memoryLimitBytes (run w acts) := by
  induction acts generalizing w with
  | nil => exact h
  | cons act acts ih => exact ih (orderly_step h act)

/-! ## all sessions end -/

theorem lookup_releases (h : Accounted w.manager) (ids : List KVCacheSessionId)
    (id : KVCacheSessionId) (hid : id ∈ ids ∨ w.manager.sessions.lookup id = none) :
    (run w (ids.map (Act.release (K := K)))).manager.sessions.lookup id = none := by
  induction ids generalizing w with
  | nil => exact hid.resolve_left List.not_mem_nil
  | cons first ids ih =>
    obtain ⟨hm, _, _, _, hsessions⟩ := wp_releaseSession first h
    refine ih hm ?_
    show id ∈ ids ∨ ((KVCacheManager.releaseSession first).exec w.manager).2.sessions.lookup id = none
    rw [hsessions, Table.lookup_erase']
    rcases hid with hmem | hnone
    · rcases List.mem_cons.mp hmem with rfl | hmem
      · exact Or.inr (if_pos rfl)
      · exact Or.inl hmem
    · refine Or.inr ?_
      rw [hnone, ite_self]

theorem Accounted.reserved_eq_zero {m : KVCacheManager C} (h : Accounted m)
    (hnone : ∀ id, m.sessions.lookup id = none) : m.reservedBytes = 0 := by
  have hvalues : Table.values m.sessions = [] := by
    rw [List.eq_nil_iff_forall_not_mem]
    intro cache hcache
    obtain ⟨id, hid⟩ := Table.mem_values.mp hcache
    exact nomatch (hnone id).symm.trans hid
  rw [h.reserved, hvalues, List.length_nil, Nat.zero_mul]

theorem reserved_after_releases (h : Orderly bytesPerSession memoryLimitBytes w)
    {ids : List KVCacheSessionId} (hids : ∀ id ∈ w.manager.sessions, id ∈ ids) :
    (run w (ids.map (Act.release (K := K)))).manager.reservedBytes = 0 := by
  refine (orderly_run h _).accounted.reserved_eq_zero fun id => lookup_releases h.accounted ids id ?_
  by_cases hid : id ∈ w.manager.sessions
  · exact Or.inl (hids id hid)
  · exact Or.inr (AList.lookup_eq_none.mpr hid)

end

/-! ## from the constructor on -/

section
variable {K : Type} {layerCount maximumSequenceLength keyValueHeads headDimension
  memoryLimitBytes : UInt64} {backend : Option TensorBackend} {m : KVCacheManager (Cache K backend)}

theorem orderly_make (hmake : KVCacheManager.make K layerCount maximumSequenceLength keyValueHeads
    headDimension memoryLimitBytes backend = .ok m) :
    Orderly m.bytesPerSession memoryLimitBytes.toNat ⟨m, [], []⟩ := by
  unfold KVCacheManager.make at hmake
  obtain ⟨_, hmake⟩ := Outcome.throwIf_bind_eq_ok.mp hmake
  obtain ⟨prototype, hprototype, hmake⟩ := Outcome.bind_eq_ok.mp hmake
  obtain ⟨bytes, hbytes, hmake⟩ := Outcome.bind_eq_ok.mp hmake
  obtain ⟨hfits, hmake⟩ := Outcome.throwIf_bind_eq_ok.mp hmake
  obtain rfl := Except.ok.inj hmake
  rw [not_or, Nat.not_lt] at hfits
  have hshaped := (shaped_make (Outcome.mapError_eq_ok.mp hprototype)).1
  have hchecked := Outcome.mapError_eq_ok.mp hbytes
  rw [hshaped.checked] at hchecked
  refine ⟨?_, rfl, rfl, fun _ h => absurd h List.not_mem_nil, List.nodup_nil,
    fun _ h => absurd h (AList.notMem_empty _)⟩
  exact {
    bytes := hchecked
    fits := hfits.2
    limit := UInt64.toNat_lt memoryLimitBytes
    reserved := (Nat.zero_mul bytes).symm
    within_limit := Nat.zero_le _
    next_lt := by
      show 1 < 2 ^ 64
      decide
    past := fun id cache h => nomatch (AList.lookup_empty id).symm.trans h
    caches := fun id cache h => nomatch (AList.lookup_empty id).symm.trans h }

/-- any manager that the constructor accepts, after any steps -/
theorem sessions_accounted (hmake : KVCacheManager.make K layerCount maximumSequenceLength
    keyValueHeads headDimension memoryLimitBytes backend = .ok m)
    (acts : List (Act K (Cache K backend))) :
    let w := run ⟨m, [], []⟩ acts
    w.manager.bytesPerSession = m.bytesPerSession ∧
    w.manager.reservedBytes = (Table.values w.manager.sessions).length * m.bytesPerSession ∧
    w.manager.reservedBytes ≤ memoryLimitBytes.toNat ∧
    (∃ t, (KVCacheManager.stats.exec w.manager).1 = .ok t ∧
      t.activeSessions = (Table.values w.manager.sessions).length ∧
      t.reservedBytes = w.manager.reservedBytes ∧ t.committedBytes ≤ t.reservedBytes) ∧
    (∀ id ∈ w.issued, id ≠ 0) ∧ w.issued.Nodup ∧
    (∀ failure e m', (allocateSession failure).exec w.manager = (.error e, m') →
      m'.reservedBytes = w.manager.reservedBytes ∧ m'.sessions = w.manager.sessions) ∧
    (∀ id, id ∉ w.manager.sessions → (KVCacheManager.releaseSession id).exec w.manager =
      (.error (.outOfRange "KV cache session is not active"), w.manager)) ∧
    ((∀ id ∈ w.issued, id ∉ w.manager.sessions) → w.manager.reservedBytes = 0) ∧
    (run w (w.issued.map Act.release)).manager.reservedBytes = 0 := by
  intro w
  have h : Orderly m.bytesPerSession memoryLimitBytes.toNat w := orderly_run (orderly_make hmake) acts
  refine ⟨h.bytes, h.bytes ▸ h.accounted.reserved, h.limit ▸ h.accounted.within_limit, ?_,
    fun id hid => (h.past id hid).1.ne', h.nodup, fun failure e m' hexec => ?_,
    fun id hid => release_inactive hid, fun hended => ?_, reserved_after_releases h h.active⟩
  · obtain ⟨t, hexec, hactive, hreserved, hcommitted⟩ := exec_stats h.accounted
    exact ⟨t, by rw [hexec], hactive, hreserved, hcommitted⟩
  · have hwp := wp_allocateSession failure h.accounted
    unfold wp at hwp
    rw [hexec] at hwp
    exact hwp.2.2.2.2
  · refine h.accounted.reserved_eq_zero fun id => ?_
    exact AList.lookup_eq_none.mpr fun hid => hended id (h.active id hid) hid

/-- two layers of eight tokens with two features: room for two sessions of 384 bytes -/
theorem sessions_accounted_two : ∃ m, KVCacheManager.make Nat 2 8 1 2 768 none = .ok m ∧
    m.bytesPerSession = 384 ∧ ∀ acts : List (Act Nat (Cache Nat none)),
      (run ⟨m, [], []⟩ acts).manager.reservedBytes =
        (Table.values (run ⟨m, [], []⟩ acts).manager.sessions).length * 384 ∧
      (run ⟨m, [], []⟩ acts).manager.reservedBytes ≤ 768 ∧
      (run ⟨m, [], []⟩ acts).issued.Nodup := by
  have hmake : ∃ m, KVCacheManager.make Nat 2 8 1 2 768 none = .ok m ∧ m.bytesPerSession = 384 :=
    ⟨_, rfl, rfl⟩
  obtain ⟨m, hmake, hbytes⟩ := hmake
  refine ⟨m, hmake, hbytes, fun acts => ?_⟩
  obtain ⟨_, hreserved, hlimit, _, _, hnodup, _⟩ := sessions_accounted hmake acts
  exact ⟨hbytes ▸ hreserved, hlimit, hnodup⟩

end

end Admission

end HyperMoE.Generation
