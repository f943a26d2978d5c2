import HyperMoE.Lib.Runs
import HyperMoE.Lib.Table
import HyperMoE.Models.ExpertDeviceBudget
import HyperMoE.Transformer.GrowingCache

/-!
# The caches that a packed runtime has reserved

`createKVCache` of `PackedModelRuntime.cpp` in the automatic mode, which asks for a device, and what
its callers do with the caches: several of them may be in the middle of an append.

* `PackedModelRuntime`   the caches that are alive, and the weak references to them;
* `createKVCache`        a cache whose growth fits into the reservation, beside those of the others;
* `Act`, `step`          what can happen; an append is as many steps as it has statements;
* `Orderly`              every cache fits into its share, and the shares into the reservation;
* `run_envelope`         so in every run: the bytes, what is accepted, and what is given back.
-/

namespace HyperMoE.Models.Runtime

open Lib Lib.Fallible Transformer Tensor

variable {K : Type}

/-! ## the code -/

def checkedMultiply (left right : Nat) : Except StdError Nat :=
  if right ≠ 0 ∧ left > KVCache.maxSize / right then
    .error (.overflow_error "expert device headroom accounting overflows")
  else .ok (left * right)

def checkedAdd (left right : Nat) : Except StdError Nat :=
  if right > KVCache.maxSize - left then
    .error (.overflow_error "expert device headroom accounting overflows")
  else .ok (left + right)

def growthSafeCacheBytes (cache : CudaKVCache K) : Except StdError Nat := do
  let bytes ← cache.maximumMemoryUsageBytes
  checkedMultiply bytes 2

abbrev CacheId := Nat

structure Architecture where
  layerCount : UInt64
  keyValueHeads : UInt64
  headDimension : UInt64

/-- a cache that is not in `caches` is destroyed, and a reference to it has expired -/
structure PackedModelRuntime (K : Type) where
  architecture : Architecture
  reservations : ExpertDeviceReservations
  caches : Table CacheId (Growing K) := ∅
  reservedCaches : List CacheId := []
  nextCache : CacheId := 0

def addReserved (r : PackedModelRuntime K) (requested : Nat) (id : CacheId) : Except StdError Nat :=
  match r.caches.lookup id with
  | none => .ok requested
  | some g => do
    let bytes ← growthSafeCacheBytes g.cache
    checkedAdd requested bytes

def createKVCache (maximumSequenceLength : UInt64) :
    Fallible StdError (PackedModelRuntime K) CacheId := do
  let r ← read
  throwIf (maximumSequenceLength = 0)
    (.invalid_argument "KV cache sequence capacity must be nonzero")
  let cache ← settle (CudaKVCache.make K true r.architecture.layerCount.toNat
    maximumSequenceLength.toNat r.architecture.keyValueHeads.toNat
    r.architecture.headDimension.toNat)
  let live := r.reservedCaches.filter fun id => id ∈ r.caches
  update fun r => { r with reservedCaches := live }
  let requested ← settle (growthSafeCacheBytes cache)
  let requested ← settle (live.foldlM (addReserved r) requested)
  throwIf (requested > r.reservations.kvCacheBytes.toNat) (.invalid_argument
    "KV cache capacities exceed automatic expert budget KV reservation (including growth headroom)")
  update fun r => { r with
    caches := r.caches.insert r.nextCache ⟨cache, none⟩
    reservedCaches := r.reservedCaches ++ [r.nextCache]
    nextCache := r.nextCache + 1 }
  return r.nextCache

/-! ## what can happen -/

inductive Act (K : Type) where
  | createKVCache (maximumSequenceLength : UInt64)
  /-- the last shared pointer to the cache goes -/
  | destroy (id : CacheId)
  | append (id : CacheId) (layer first : Nat) (keys values : HeadView K)
  /-- the next statement of the append; what is in the memory that it allocates -/
  | proceed (id : CacheId) (fresh : Fresh K)
  /-- the device fails in the append -/
  | abandon (id : CacheId)
  | clear (id : CacheId) (layer : Nat)
  | reset (id : CacheId)

def put (id : CacheId) (g : Growing K) (r : PackedModelRuntime K) : PackedModelRuntime K :=
  { r with caches := r.caches.insert id g }

/-- a call on a cache whose mutex is free -/
def onFree (id : CacheId) (f : Growing K → Growing K) (r : PackedModelRuntime K) :
    Option (PackedModelRuntime K) :=
  match r.caches.lookup id with
  | some ⟨cache, none⟩ => some (put id (f ⟨cache, none⟩) r)
  | _ => none

/-- an append that is at work -/
def onAppending (id : CacheId) (f : Appending K → Growing K → Growing K)
    (r : PackedModelRuntime K) : Option (PackedModelRuntime K) :=
  match r.caches.lookup id with
  | some ⟨cache, some a⟩ => some (put id (f a ⟨cache, some a⟩) r)
  | _ => none

def step : Act K → PackedModelRuntime K → Option (PackedModelRuntime K)
  | .createKVCache maximumSequenceLength, r => some ((createKVCache maximumSequenceLength).exec r).2
  | .destroy id, r =>
    match r.caches.lookup id with
    | some ⟨_, none⟩ => some { r with caches := r.caches.erase id }
    | _ => none
  | .append id layer first keys values, r => onFree id (Growing.enter layer first keys values) r
  | .proceed id fresh, r => onAppending id (Growing.proceed fresh) r
  | .abandon id, r => onAppending id (fun _ g => g.abandon) r
  | .clear id layer, r => onFree id (Growing.clear layer) r
  | .reset id, r => onFree id Growing.reset r

def run (r : PackedModelRuntime K) (acts : List (Act K)) : Option (PackedModelRuntime K) :=
  Runs.run step r acts

/-! ## shares -/

/-- the bytes of a full cache -/
def fullBytes (e : CudaKVCache.Extent) : Nat :=
  e.layers * (e.maximum * (8 + 2 * (e.heads * e.dimension) * 4))

def extent (cache : CudaKVCache K) : CudaKVCache.Extent :=
  ⟨cache.layers.length, cache.maximumSequenceLength, cache.keyValueHeads, cache.headDimension⟩

/-- twice a full cache: the old tensors and the expanded ones -/
def share (g : Growing K) : Nat := 2 * fullBytes (extent g.cache)

def reservedBytes (r : PackedModelRuntime K) : Nat := Table.total share r.caches

def allocatedBytes (r : PackedModelRuntime K) : Nat := Table.total Growing.bytes r.caches

/-! ## one cache -/

/-- a cache that was built for these extents, and used since -/
structure Held (e : CudaKVCache.Extent) (g : Growing K) : Prop where
  fits : g.Fits e
  checked : KVCache.checkedCacheBytes e.layers e.maximum e.heads e.dimension = .ok (fullBytes e)

section
variable {e : CudaKVCache.Extent} {g : Growing K}

theorem positive_of_checked {layers sequence heads dimension bytes : Nat}
    (h : KVCache.checkedCacheBytes layers sequence heads dimension = .ok bytes) :
    0 < layers ∧ 0 < sequence := by
  unfold KVCache.checkedCacheBytes at h
  split at h
  · exact nomatch h
  · next hnonzero =>
    rw [not_or, not_or] at hnonzero
    exact ⟨Nat.pos_of_ne_zero hnonzero.1, Nat.pos_of_ne_zero hnonzero.2.1⟩

theorem Held.extent (h : Held e g) : extent g.cache = e := by
  obtain ⟨layers, maximum, heads, dimension⟩ := e
  obtain ⟨hlayers, hmaximum, hheads, hdimension, -⟩ := h.fits.cache
  unfold Runtime.extent
  rw [hlayers, hmaximum, hheads, hdimension]

theorem Held.share (h : Held e g) : share g = 2 * fullBytes e := by
  unfold Runtime.share
  rw [h.extent]

/-- a layer more than all the layers is no more than twice as many -/
theorem Held.bytes_le (h : Held e g) : g.bytes ≤ Runtime.share g := by
  have hlayers := (positive_of_checked h.checked).1
  have hroom : 2 * e.room ≤ e.maximum * (8 + 2 * (e.heads * e.dimension) * 4) := by
    calc 2 * e.room = e.maximum * (2 * (e.heads * e.dimension) * 4) := by
          unfold CudaKVCache.Extent.room
          ring
      _ ≤ _ := Nat.mul_le_mul_left _ (Nat.le_add_left _ _)
  calc g.bytes ≤ (e.layers + 1) * (2 * e.room) := h.fits.bytes_le
    _ ≤ (2 * e.layers) * (e.maximum * (8 + 2 * (e.heads * e.dimension) * 4)) :=
        Nat.mul_le_mul (by omega) hroom
    _ = Runtime.share g := by
        rw [h.share, fullBytes, Nat.mul_assoc]

theorem Held.maximumMemoryUsageBytes (h : Held e g) :
    g.cache.maximumMemoryUsageBytes = .ok (fullBytes e) := by
  obtain ⟨hlayers, hmaximum, hheads, hdimension, -⟩ := h.fits.cache
  unfold CudaKVCache.maximumMemoryUsageBytes KVCache.make
  rw [hlayers, hmaximum, hheads, hdimension, h.checked]
  show KVCache.checkedCacheBytes (List.replicate e.layers _).length _ _ _ = _
  rw [List.length_replicate]
  exact h.checked

theorem growthSafe_error (h : Held e g) (hword : KVCache.maxSize < share g) :
    ∃ x, growthSafeCacheBytes g.cache = .error x := by
  rw [h.share] at hword
  unfold growthSafeCacheBytes
  rw [h.maximumMemoryUsageBytes]
  refine ⟨_, if_pos ⟨by decide, ?_⟩⟩
  omega

theorem growthSafe_eq (h : Held e g) (hword : share g ≤ KVCache.maxSize) :
    growthSafeCacheBytes g.cache = .ok (share g) := by
  rw [h.share] at hword ⊢
  unfold growthSafeCacheBytes
  rw [h.maximumMemoryUsageBytes]
  show (if 2 ≠ 0 ∧ fullBytes e > KVCache.maxSize / 2 then _ else _) = _
  rw [if_neg, Nat.mul_comm]
  rintro ⟨-, h⟩
  omega

/-- the constructor, for extents as they are checked -/
theorem make_eq (layers maximum heads dimension : Nat) :
    CudaKVCache.make K true layers maximum heads dimension =
      (KVCache.checkedCacheBytes layers maximum heads dimension).map fun _ =>
        ⟨maximum, heads, dimension, List.replicate layers {}⟩ := by
  unfold CudaKVCache.make KVCache.make
  cases hbytes : KVCache.checkedCacheBytes layers maximum heads dimension with
  | error e => rfl
  | ok bytes =>
    show (KVCache.checkedCacheBytes (List.replicate layers _).length maximum heads dimension >>=
      fun _ => _) = _
    rw [List.length_replicate, hbytes]
    rfl

theorem held_new {bytes : Nat}
    (h : KVCache.checkedCacheBytes e.layers e.maximum e.heads e.dimension = .ok bytes) :
    Held e (⟨⟨e.maximum, e.heads, e.dimension, List.replicate e.layers {}⟩, none⟩ : Growing K) ∧
      bytes = fullBytes e := by
  obtain ⟨-, rfl, -⟩ := checkedCacheBytes_eq_ok h
  refine ⟨⟨⟨⟨List.length_replicate, rfl, rfl, rfl, fun s hs => ?_⟩, fun _ h => nomatch h⟩, h⟩, rfl⟩
  obtain rfl := List.eq_of_mem_replicate hs
  exact CudaKVCache.contained_empty _ _

end

/-! ## all caches -/

/-- a cache of this length fits in, beside those that are alive -/
def Admissible (r : PackedModelRuntime K) (maximumSequenceLength : UInt64) : Prop :=
  maximumSequenceLength ≠ 0 ∧ ∃ bytes, KVCache.checkedCacheBytes r.architecture.layerCount.toNat
    maximumSequenceLength.toNat r.architecture.keyValueHeads.toNat
    r.architecture.headDimension.toNat = .ok bytes ∧
      reservedBytes r + 2 * bytes ≤ r.reservations.kvCacheBytes.toNat

structure Orderly (r : PackedModelRuntime K) : Prop where
  held : ∀ id g, r.caches.lookup id = some g → ∃ e, Held e g
  within : reservedBytes r ≤ r.reservations.kvCacheBytes.toNat
  weak : ∀ id ∈ r.caches, id ∈ r.reservedCaches
  nodup : r.reservedCaches.Nodup
  next : ∀ id ∈ r.reservedCaches, id < r.nextCache

section
variable {r : PackedModelRuntime K} {maximumSequenceLength : UInt64}

theorem Orderly.share_le (h : Orderly r) {id : CacheId} {g : Growing K}
    (hg : r.caches.lookup id = some g) : share g ≤ r.reservations.kvCacheBytes.toNat :=
  (Table.le_total share hg).trans h.within

theorem kvCacheBytes_le (r : PackedModelRuntime K) : r.reservations.kvCacheBytes.toNat ≤ KVCache.maxSize :=
  Nat.le_of_lt_succ (UInt64.toNat_lt r.reservations.kvCacheBytes)

/-- the loop over the weak references -/
theorem foldlM_addReserved (h : Orderly r) (ids : List CacheId) (hids : ∀ id ∈ ids, id ∈ r.caches)
    (requested : Nat) (hrequested : requested ≤ KVCache.maxSize) :
    ids.foldlM (addReserved r) requested =
      if requested + (ids.map fun id => (r.caches.lookup id).elim 0 share).sum ≤ KVCache.maxSize
      then .ok (requested + (ids.map fun id => (r.caches.lookup id).elim 0 share).sum)
      else .error (.overflow_error "expert device headroom accounting overflows") := by
  induction ids generalizing requested with
  | nil => exact (if_pos hrequested).symm
  | cons id ids ih =>
    obtain ⟨g, hg⟩ := Option.isSome_iff_exists.mp
      (AList.lookup_isSome.mpr (hids id List.mem_cons_self))
    obtain ⟨e, hheld⟩ := h.held id g hg
    have hsafe := growthSafe_eq hheld ((h.share_le hg).trans (kvCacheBytes_le r))
    have hadd : addReserved r requested id = checkedAdd requested (share g) := by
      unfold addReserved
      rw [hg]
      show (growthSafeCacheBytes g.cache >>= _) = _
      rw [hsafe]
      rfl
    rw [List.foldlM_cons, hadd, List.map_cons, List.sum_cons, hg, ← Nat.add_assoc]
    show (checkedAdd requested (share g) >>= _) = _
    unfold checkedAdd
    split
    · next hover =>
      rw [if_neg (by show ¬ requested + share g + _ ≤ _; omega)]
      rfl
    · next hfits =>
      exact ih (fun id hid => hids id (List.mem_cons_of_mem _ hid)) (requested + share g) (by omega)

/-- the references that have not expired are those to the caches -/
theorem Orderly.live (h : Orderly r) :
    (r.reservedCaches.filter fun id => id ∈ r.caches).Nodup ∧
      ∀ id, id ∈ r.reservedCaches.filter (fun id => id ∈ r.caches) ↔ id ∈ r.caches := by
  refine ⟨h.nodup.filter _, fun id => ?_⟩
  rw [List.mem_filter, decide_eq_true_iff]
  exact ⟨And.right, fun hid => ⟨h.weak id hid, hid⟩⟩

/-- nothing but the expired references goes -/
theorem Orderly.expire (h : Orderly r) :
    Orderly { r with reservedCaches := r.reservedCaches.filter fun id => id ∈ r.caches } where
  held := h.held
  within := h.within
  weak id hid := (h.live.2 id).mpr hid
  nodup := h.live.1
  next id hid := h.next id (List.mem_filter.mp hid).1

theorem Orderly.fresh (h : Orderly r) : r.caches.lookup r.nextCache = none :=
  AList.lookup_eq_none.mpr fun hid => Nat.lt_irrefl _ (h.next _ (h.weak _ hid))

/-- one cache more -/
theorem Orderly.create {e : CudaKVCache.Extent} {g : Growing K} (h : Orderly r) (hg : Held e g)
    (hfits : reservedBytes r + share g ≤ r.reservations.kvCacheBytes.toNat) :
    Orderly { r with
      caches := r.caches.insert r.nextCache g
      reservedCaches := r.reservedCaches ++ [r.nextCache]
      nextCache := r.nextCache + 1 } where
  held id g' hg' := by
    replace hg' : (r.caches.insert r.nextCache g).lookup id = some g' := hg'
    rw [Table.lookup_insert'] at hg'
    split at hg'
    · obtain rfl := Option.some.inj hg'
      exact ⟨e, hg⟩
    · exact h.held id g' hg'
  within := by
    show Table.total share (r.caches.insert r.nextCache g) ≤ _
    rw [Table.total_insert_new share h.fresh]
    exact hfits
  weak id hid := by
    rcases (AList.mem_insert _).mp hid with rfl | hid
    · exact List.mem_append_right _ List.mem_cons_self
    · exact List.mem_append_left _ (h.weak id hid)
  nodup := by
    refine h.nodup.append (List.nodup_singleton _) fun id hid hnext => ?_
    obtain rfl := List.mem_singleton.mp hnext
    exact Nat.lt_irrefl _ (h.next _ hid)
  next id hid := by
    rcases List.mem_append.mp hid with hid | hid
    · exact Nat.lt_succ_of_lt (h.next id hid)
    · obtain rfl := List.mem_singleton.mp hid
      exact Nat.lt_succ_self _

/-- the architecture and the reservations are those of the constructor -/
def SameConfiguration (r r' : PackedModelRuntime K) : Prop :=
  r'.architecture = r.architecture ∧ r'.reservations = r.reservations

theorem wp_createKVCache (h : Orderly r) (maximumSequenceLength : UInt64) :
    wp (createKVCache maximumSequenceLength) (fun out r' => Orderly r' ∧ SameConfiguration r r' ∧
      match out with
      | .ok id => Admissible r maximumSequenceLength ∧ id ∉ r.caches ∧ id ∈ r'.caches
      | .error _ => ¬ Admissible r maximumSequenceLength) r := by
  unfold createKVCache
  rw [wp_bind, wp_read]
  dsimp only
  rw [wp_bind, wp_throwIf]
  split
  · next hzero => exact ⟨h, ⟨rfl, rfl⟩, fun ha => ha.1 hzero⟩
  next hzero =>
  dsimp only
  rw [wp_bind, wp_settle, make_eq]
  cases hbytes : KVCache.checkedCacheBytes r.architecture.layerCount.toNat
    maximumSequenceLength.toNat r.architecture.keyValueHeads.toNat
    r.architecture.headDimension.toNat with
  | error e =>
    refine ⟨h, ⟨rfl, rfl⟩, ?_⟩
    rintro ⟨-, bytes, hok, -⟩
    cases hbytes.symm.trans hok
  | ok bytes =>
    obtain ⟨hheld, hfull⟩ := held_new (K := K) (e := ⟨r.architecture.layerCount.toNat,
      maximumSequenceLength.toNat, r.architecture.keyValueHeads.toNat,
      r.architecture.headDimension.toNat⟩) hbytes
    have hlimit := kvCacheBytes_le r
    have hadmissible : Admissible r maximumSequenceLength →
        reservedBytes r + 2 * bytes ≤ r.reservations.kvCacheBytes.toNat := by
      rintro ⟨-, bytes', hok, hfits⟩
      obtain rfl := Except.ok.inj (hbytes.symm.trans hok)
      exact hfits
    have hshare := hheld.share
    rw [← hfull] at hshare
    show wp (_ >>= _) _ r
    rw [wp_bind, wp_update]
    dsimp only
    rw [wp_bind, wp_settle]
    generalize (⟨maximumSequenceLength.toNat, r.architecture.keyValueHeads.toNat,
      r.architecture.headDimension.toNat, List.replicate r.architecture.layerCount.toNat {}⟩ :
        CudaKVCache K) = cache at hheld hshare ⊢
    rcases Nat.lt_or_ge KVCache.maxSize (2 * bytes) with hword | hword
    · obtain ⟨x, hx⟩ := growthSafe_error hheld (hshare ▸ hword)
      rw [hx]
      refine ⟨h.expire, ⟨rfl, rfl⟩, fun ha => ?_⟩
      have hfits := hadmissible ha
      omega
    rw [growthSafe_eq hheld (hshare ▸ hword), hshare]
    dsimp only
    rw [wp_bind, wp_settle, foldlM_addReserved h _ (fun id hid => (h.live.2 id).mp hid) _ hword,
      Table.sum_of_keys share h.live.1 h.live.2]
    by_cases hword' : 2 * bytes + Table.total share r.caches ≤ KVCache.maxSize
    · rw [if_pos hword']
      dsimp only
      rw [wp_bind, wp_throwIf]
      split
      · next hover =>
        refine ⟨h.expire, ⟨rfl, rfl⟩, fun ha => ?_⟩
        have hfits : Table.total share r.caches + 2 * bytes ≤ _ := hadmissible ha
        omega
      · next hfits =>
        have hfits' : reservedBytes r + 2 * bytes ≤ r.reservations.kvCacheBytes.toNat := by
          show Table.total share r.caches + 2 * bytes ≤ _
          omega
        refine ⟨h.expire.create hheld (hshare.symm ▸ hfits'), ⟨rfl, rfl⟩,
          ⟨hzero, bytes, hbytes, hfits'⟩, fun hid => ?_, (AList.mem_insert _).mpr (.inl rfl)⟩
        exact AList.lookup_eq_none.mp h.fresh hid
    · rw [if_neg hword']
      refine ⟨h.expire, ⟨rfl, rfl⟩, fun ha => ?_⟩
      have hfits : Table.total share r.caches + 2 * bytes ≤ _ := hadmissible ha
      omega

/-! ## the other steps -/

/-- something is done with a cache that stays as large as it is -/
theorem Orderly.put (h : Orderly r) {id : CacheId} {g g' : Growing K}
    (hg : r.caches.lookup id = some g) (hkeeps : ∀ e, Held e g → Held e g') :
    Orderly (put id g' r) := by
  obtain ⟨e, hheld⟩ := h.held id g hg
  have hheld' := hkeeps e hheld
  refine { h with held := fun id' g'' hg'' => ?_, within := ?_, weak := fun id' hid => ?_ }
  · replace hg'' : (r.caches.insert id g').lookup id' = some g'' := hg''
    rw [Table.lookup_insert'] at hg''
    split at hg''
    · obtain rfl := Option.some.inj hg''
      exact ⟨e, hheld'⟩
    · exact h.held id' g'' hg''
  · have htotal := Table.total_insert share (w := g') hg
    rw [hheld.share, hheld'.share] at htotal
    show Table.total share (r.caches.insert id g') ≤ _
    rw [Nat.add_right_cancel htotal]
    exact h.within
  · rcases (AList.mem_insert _).mp hid with rfl | hid
    · exact h.weak _ (AList.lookup_isSome.mp (Option.isSome_of_eq_some hg))
    · exact h.weak id' hid

theorem orderly_onFree (h : Orderly r) {id : CacheId} {f : Growing K → Growing K}
    (hf : ∀ e g, Held e g → Held e (f g)) {r' : PackedModelRuntime K} (hr : onFree id f r = some r') :
    Orderly r' ∧ SameConfiguration r r' := by
  unfold onFree at hr
  split at hr
  · next cache hg =>
    obtain rfl := Option.some.inj hr
    exact ⟨h.put hg fun e => hf e _, rfl, rfl⟩
  · exact nomatch hr

theorem orderly_onAppending (h : Orderly r) {id : CacheId} {f : Appending K → Growing K → Growing K}
    (hf : ∀ e a g, g.appending = some a → Held e g → Held e (f a g)) {r' : PackedModelRuntime K}
    (hr : onAppending id f r = some r') : Orderly r' ∧ SameConfiguration r r' := by
  unfold onAppending at hr
  split at hr
  · next cache a hg =>
    obtain rfl := Option.some.inj hr
    exact ⟨h.put hg fun e => hf e a _ rfl, rfl, rfl⟩
  · exact nomatch hr

/-- a cache is gone, and its share with it -/
theorem orderly_destroy (h : Orderly r) {id : CacheId} {r' : PackedModelRuntime K}
    (hr : step (.destroy id) r = some r') : Orderly r' ∧ SameConfiguration r r' ∧ ∃ g,
      r.caches.lookup id = some g ∧ reservedBytes r' + share g = reservedBytes r := by
  unfold step at hr
  dsimp only at hr
  split at hr
  · next cache hg =>
    obtain rfl := Option.some.inj hr
    have htotal : reservedBytes { r with caches := r.caches.erase id } + share ⟨cache, none⟩ =
        reservedBytes r := Table.total_erase share hg
    refine ⟨{ h with held := fun id' g' hg' => ?_, within := ?_, weak := fun id' hid => ?_ },
      ⟨rfl, rfl⟩, _, hg, htotal⟩
    · replace hg' : (r.caches.erase id).lookup id' = some g' := hg'
      rw [Table.lookup_erase'] at hg'
      split at hg'
      · exact nomatch hg'
      · exact h.held id' g' hg'
    · have hwithin := h.within
      show reservedBytes { r with caches := r.caches.erase id } ≤ r.reservations.kvCacheBytes.toNat
      omega
    · exact h.weak id' (AList.mem_erase.mp hid).2
  · exact nomatch hr

theorem step_orderly {a : Act K} (h : Orderly r) {r' : PackedModelRuntime K}
    (hr : step a r = some r') : Orderly r' ∧ SameConfiguration r r' := by
  cases a with
  | createKVCache maximumSequenceLength =>
    obtain rfl := Option.some.inj hr
    obtain ⟨h', hsame, -⟩ := wp_createKVCache h maximumSequenceLength
    exact ⟨h', hsame⟩
  | destroy id =>
    obtain ⟨h', hsame, -⟩ := orderly_destroy h hr
    exact ⟨h', hsame⟩
  | append id layer first keys values =>
    refine orderly_onFree h (fun e g hg => ⟨?_, hg.checked⟩) hr
    exact Growing.fits_enter hg.fits (positive_of_checked hg.checked).2 layer first keys values
  | proceed id fresh =>
    exact orderly_onAppending h (fun e a g ha hg => ⟨Growing.fits_proceed hg.fits fresh ha, hg.checked⟩) hr
  | abandon id =>
    exact orderly_onAppending h (fun e a g _ hg => ⟨Growing.fits_abandon hg.fits, hg.checked⟩) hr
  | clear id layer =>
    exact orderly_onFree h (fun e g hg => ⟨Growing.fits_clear hg.fits layer, hg.checked⟩) hr
  | reset id =>
    exact orderly_onFree h (fun e g hg => ⟨Growing.fits_reset hg.fits, hg.checked⟩) hr

theorem orderly_new (architecture : Architecture) (reservations : ExpertDeviceReservations) :
    Orderly (⟨architecture, reservations, ∅, [], 0⟩ : PackedModelRuntime K) where
  held id _ hg := nomatch (AList.lookup_empty id).symm.trans hg
  within := Nat.zero_le _
  weak id hid := absurd hid (AList.notMem_empty id)
  nodup := List.nodup_nil
  next _ hid := absurd hid List.not_mem_nil

/-! ## every run -/

/-- what the reservation is good for -/
structure Envelope (kvCacheBytes : UInt64) (r : PackedModelRuntime K) : Prop where
  /-- all tensors of all caches, in the middle of any appends -/
  bytes : allocatedBytes r ≤ kvCacheBytes.toNat
  /-- a cache is refused only where the shares of those that are alive leave no room for it -/
  accepts : ∀ maximumSequenceLength, (∃ id, ((createKVCache maximumSequenceLength).exec r).1 = .ok id) ↔
    Admissible r maximumSequenceLength
  /-- the share of a cache that is destroyed -/
  returned : ∀ id r', step (.destroy id) r = some r' → ∃ g, r.caches.lookup id = some g ∧
    reservedBytes r' + share g = reservedBytes r

/-- any interleaving of the calls, and of the statements of the appends -/
theorem run_envelope {architecture : Architecture} {reservations : ExpertDeviceReservations}
    {acts : List (Act K)} (h : run ⟨architecture, reservations, ∅, [], 0⟩ acts = some r) :
    Envelope reservations.kvCacheBytes r := by
  have hrun : Orderly r ∧ r.reservations = reservations := by
    refine Runs.run_invariant (I := fun r : PackedModelRuntime K =>
      Orderly r ∧ r.reservations = reservations) (fun r a r' hr hi => ?_)
        ⟨orderly_new architecture reservations, rfl⟩ h
    obtain ⟨h', -, hreservations⟩ := step_orderly hi.1 hr
    exact ⟨h', hreservations.trans hi.2⟩
  obtain ⟨hr, rfl⟩ := hrun
  refine ⟨?_, fun maximumSequenceLength => ?_, fun id r' hr' => ?_⟩
  · refine (Table.total_mono fun id g hg => ?_).trans hr.within
    obtain ⟨e, hheld⟩ := hr.held id g hg
    exact hheld.bytes_le
  · obtain ⟨-, -, houtcome⟩ := wp_createKVCache hr maximumSequenceLength
    cases hout : ((createKVCache maximumSequenceLength).exec r).1 with
    | ok id =>
      rw [hout] at houtcome
      exact ⟨fun _ => houtcome.1, fun _ => ⟨id, rfl⟩⟩
    | error x =>
      rw [hout] at houtcome
      exact ⟨fun ⟨_, hid⟩ => (nomatch hid), fun ha => absurd ha houtcome⟩
  · obtain ⟨-, -, hshare⟩ := orderly_destroy hr hr'
    exact hshare

end

/-- one token of one feature -/
def oneToken : HeadView Unit := ⟨1, 1, 1, [()], rfl⟩

/-- the second append is left where the old tensors and the expanded ones are there -/
def growing : List (Act Unit) :=
  .createKVCache 2 :: .append 0 0 0 oneToken oneToken ::
    List.replicate 6 (.proceed 0 ⟨fun _ => (), fun _ => ()⟩) ++
    .append 0 0 1 oneToken oneToken :: List.replicate 2 (.proceed 0 ⟨fun _ => (), fun _ => ()⟩)

def reservable : PackedModelRuntime Unit := ⟨⟨1, 1, 1⟩, { kvCacheBytes := 64 }, ∅, [], 0⟩

theorem run_envelope_growing :
    Envelope 64 ((run reservable growing).get (by decide +kernel)) ∧
      allocatedBytes ((run reservable growing).get (by decide +kernel)) = 24 := by
  have hrun : run (⟨⟨1, 1, 1⟩, { kvCacheBytes := 64 }, ∅, [], 0⟩ : PackedModelRuntime Unit) growing =
      some ((run reservable growing).get (by decide +kernel)) := (Option.some_get _).symm
  exact ⟨run_envelope hrun, by decide +kernel⟩

end HyperMoE.Models.Runtime
