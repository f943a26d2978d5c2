import HyperMoE.Lib.Table
import HyperMoE.Memory.Tier

/-!
# MemoryManager: logical reservations

`memory_manager.cpp`.  A `TierUsage` cannot use more than its limit: the bound is a field, and
`reserve` asks for it.  Allocation ids count up from 1 (a 64-bit counter, taken as unbounded).

* `MemoryManager.allocate`, `release`, `usage`   the operations;
* `wp_allocate`, `wp_release`, `wp_usage`        what each can do;
* `Balanced`                                     the used bytes are the bytes of the live
                                                 allocations, and no live id will be given again.
-/

namespace HyperMoE

open Lib Lib.Fallible

abbrev AllocationId := Nat

structure MemoryAllocation where
  id : AllocationId
  tier : MemoryTier
  sizeBytes : Nat
  deriving DecidableEq, Repr

structure TierUsage where
  usedBytes : Nat
  limitBytes : Nat
  within : usedBytes ≤ limitBytes
  deriving DecidableEq

namespace TierUsage

def availableBytes (u : TierUsage) : Nat := u.limitBytes - u.usedBytes

def empty (limitBytes : Nat) : TierUsage := ⟨0, limitBytes, Nat.zero_le _⟩

/-- `usedBytes += n` -/
def reserve (u : TierUsage) (n : Nat) (h : n ≤ u.availableBytes) : TierUsage :=
  ⟨u.usedBytes + n, u.limitBytes, by
    have := u.within
    unfold availableBytes at h
    omega⟩

/-- `usedBytes -= n` -/
def free (u : TierUsage) (n : Nat) : TierUsage :=
  ⟨u.usedBytes - n, u.limitBytes, Nat.le_trans (Nat.sub_le _ _) u.within⟩

end TierUsage

structure MemoryManager where
  vram : TierUsage
  ram : TierUsage
  nextId : AllocationId
  allocations : Table AllocationId MemoryAllocation
  deriving DecidableEq

namespace MemoryManager

def new (vramLimitBytes ramLimitBytes : Nat) : MemoryManager :=
  ⟨.empty vramLimitBytes, .empty ramLimitBytes, 1, ∅⟩

def usageFor (m : MemoryManager) (tier : MemoryTier) : TierUsage :=
  if tier = .Vram then m.vram else m.ram

def setUsage (m : MemoryManager) (tier : MemoryTier) (u : TierUsage) : MemoryManager :=
  if tier = .Vram then { m with vram := u } else { m with ram := u }

/-- the reservation itself, once it is known to fit -/
def take (m : MemoryManager) (tier : MemoryTier) (sizeBytes : Nat)
    (h : sizeBytes ≤ (m.usageFor tier).availableBytes) : MemoryManager :=
  { m.setUsage tier ((m.usageFor tier).reserve sizeBytes h) with
    nextId := m.nextId + 1
    allocations := m.allocations.insert m.nextId ⟨m.nextId, tier, sizeBytes⟩ }

/-- giving back a live allocation -/
def drop (m : MemoryManager) (a : MemoryAllocation) (id : AllocationId) : MemoryManager :=
  { m.setUsage a.tier ((m.usageFor a.tier).free a.sizeBytes) with
    allocations := m.allocations.erase id }

def allocate (tier : MemoryTier) (sizeBytes : Nat) :
    Fallible Exn MemoryManager (Option MemoryAllocation) := do
  throwIf (tier = .Nvme)
    (.invalidArgument "NVMe objects are owned by DiskStore, not MemoryManager")
  throwIf (sizeBytes = 0) (.invalidArgument "cannot allocate a zero-sized buffer")
  updateGet fun m =>
    if h : sizeBytes ≤ (m.usageFor tier).availableBytes then
      (some ⟨m.nextId, tier, sizeBytes⟩, m.take tier sizeBytes h)
    else (none, m)

def release (id : AllocationId) : Fallible Exn MemoryManager Bool :=
  updateGet fun m => match m.allocations.lookup id with
    | none => (false, m)
    | some a => (true, m.drop a id)

def usage (tier : MemoryTier) : Fallible Exn MemoryManager TierUsage := do
  throwIf (tier = .Nvme) (.invalidArgument "NVMe capacity is managed by DiskStore")
  let m ← read
  pure (m.usageFor tier)

/-! ## what the operations can do -/

/-- the state that `release id` leaves, whether it knows the id or not -/
def released (m : MemoryManager) (id : AllocationId) : MemoryManager :=
  match m.allocations.lookup id with
  | none => m
  | some a => m.drop a id

variable {m : MemoryManager}

theorem wp_allocate {Q : Except Exn (Option MemoryAllocation) → MemoryManager → Prop}
    {tier : MemoryTier} {sizeBytes : Nat} (hm : tier ≠ .Nvme → sizeBytes ≠ 0 →
      if h : sizeBytes ≤ (m.usageFor tier).availableBytes then
        Q (.ok (some ⟨m.nextId, tier, sizeBytes⟩)) (m.take tier sizeBytes h)
      else Q (.ok none) m)
    (he : ∀ e, Q (.error e) m) : wp (allocate tier sizeBytes) Q m := by
  unfold allocate
  simp only [wp_bind, wp_throwIf, wp_updateGet]
  by_cases ht : tier = .Nvme
  · rw [if_pos ht]
    exact he _
  rw [if_neg ht]
  by_cases hs : sizeBytes = 0
  · rw [if_pos hs]
    exact he _
  have h := hm ht hs
  rw [if_neg hs]
  split
  · next hfit => rwa [dif_pos hfit] at h
  · next hfit => rwa [dif_neg hfit] at h

@[simp] theorem wp_release {Q : Except Exn Bool → MemoryManager → Prop} {id : AllocationId} :
    wp (release id) Q m ↔ Q (.ok (m.allocations.lookup id).isSome) (m.released id) := by
  unfold release released
  rw [wp_updateGet]
  cases m.allocations.lookup id <;> exact Iff.rfl

theorem wp_usage {Q : Except Exn TierUsage → MemoryManager → Prop} {tier : MemoryTier}
    (h : tier ≠ .Nvme → Q (.ok (m.usageFor tier)) m) (he : ∀ e, Q (.error e) m) :
    wp (usage tier) Q m := by
  unfold usage
  simp only [wp_bind, wp_throwIf, wp_read, wp_pure]
  split
  · exact he _
  · next ht => exact h ht

theorem wp_usage_of_ne {Q : Except Exn TierUsage → MemoryManager → Prop} {tier : MemoryTier}
    (ht : tier ≠ .Nvme) : wp (usage tier) Q m ↔ Q (.ok (m.usageFor tier)) m := by
  unfold usage
  simp only [wp_bind, wp_throwIf, if_neg ht, wp_read, wp_pure]

/-! ## the fields after a reservation and after a release -/

section
variable {tier t : MemoryTier} {n : Nat} {h : n ≤ (m.usageFor tier).availableBytes}
  {a : MemoryAllocation} {i id : AllocationId}

@[simp] theorem take_allocations :
    (m.take tier n h).allocations = m.allocations.insert m.nextId ⟨m.nextId, tier, n⟩ := rfl
@[simp] theorem take_nextId : (m.take tier n h).nextId = m.nextId + 1 := rfl
@[simp] theorem drop_allocations : (m.drop a id).allocations = m.allocations.erase id := rfl
@[simp] theorem drop_nextId : (m.drop a id).nextId = m.nextId := by
  unfold drop setUsage
  split <;> rfl

/-- two tiers are accounted together: pinned memory is RAM -/
def sameUsage (t t' : MemoryTier) : Bool := decide (t = .Vram) == decide (t' = .Vram)

theorem take_used : ((m.take tier n h).usageFor t).usedBytes
    = (m.usageFor t).usedBytes + if sameUsage tier t then n else 0 := by
  cases tier <;> cases t <;> rfl

theorem drop_used : ((m.drop a id).usageFor t).usedBytes
    = (m.usageFor t).usedBytes - if sameUsage a.tier t then a.sizeBytes else 0 := by
  obtain ⟨i, tier, n⟩ := a
  cases tier <;> cases t <;> rfl

end

/-! ## the reservations balance -/

/-- bytes of an allocation that count for the tier `t` -/
def bytesFor (t : MemoryTier) (a : MemoryAllocation) : Nat :=
  if sameUsage a.tier t then a.sizeBytes else 0

structure Balanced (m : MemoryManager) : Prop where
  used : ∀ t, (m.usageFor t).usedBytes = Table.total (bytesFor t) m.allocations
  named : ∀ id a, m.allocations.lookup id = some a → a.id = id
  fresh : ∀ id a, m.allocations.lookup id = some a → id < m.nextId

theorem Balanced.new (vram ram : Nat) : Balanced (new vram ram) where
  used t := by cases t <;> rfl
  named id a h := by simp [MemoryManager.new] at h
  fresh id a h := by simp [MemoryManager.new] at h

theorem Balanced.lookup_nextId (B : Balanced m) : m.allocations.lookup m.nextId = none := by
  cases h : m.allocations.lookup m.nextId with
  | none => rfl
  | some a => exact absurd (B.fresh _ _ h) (Nat.lt_irrefl _)

theorem Balanced.take (B : Balanced m) (tier : MemoryTier) (n : Nat)
    (h : n ≤ (m.usageFor tier).availableBytes) : Balanced (m.take tier n h) where
  used t := by
    rw [take_used, take_allocations, Table.total_insert_new _ B.lookup_nextId, B.used]
    rfl
  named id a ha := by
    rw [take_allocations, Table.lookup_insert'] at ha
    split at ha
    · next e => rw [← Option.some.inj ha, e]
    · exact B.named id a ha
  fresh id a ha := by
    rw [take_allocations, Table.lookup_insert'] at ha
    rw [take_nextId]
    split at ha
    · next e => rw [e]; exact Nat.lt_succ_self _
    · exact Nat.lt_succ_of_lt (B.fresh id a ha)

theorem Balanced.drop (B : Balanced m) {id : AllocationId} {a : MemoryAllocation}
    (h : m.allocations.lookup id = some a) : Balanced (m.drop a id) where
  used t := by
    have e := Table.total_erase (bytesFor t) h
    rw [drop_used, drop_allocations, B.used]
    show _ - bytesFor t a = _
    omega
  named i b hb := by
    rw [drop_allocations, Table.lookup_erase'] at hb
    split at hb
    · cases hb
    · exact B.named i b hb
  fresh i b hb := by
    rw [drop_allocations, Table.lookup_erase'] at hb
    rw [drop_nextId]
    split at hb
    · cases hb
    · exact B.fresh i b hb

end MemoryManager

end HyperMoE
