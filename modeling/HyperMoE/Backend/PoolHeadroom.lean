import HyperMoE.Backend.PoolInvariants

/-!
# What the pool holds beyond its buffers

`PackedModelRuntime` reserves for the pool the rounded sizes of the buffers and the cache.  A cached
block that is larger than the rounded request is handed out whole; so the pool can hold more, and
not otherwise.

* `headroom`                     what is reserved;
* `fitsExactly`                  no request gets a larger cached block;
* `run_respectsHeadroom`         where all requests fit exactly, the reserve is enough;
* `not_respectsHeadroom_reuse`   a run in which it is not.
-/

namespace HyperMoE.Backend.CudaMemoryPool

open Lib Lib.Fallible

variable {s s' : CudaMemoryPool}

/-- the multiple of the alignment at or above `size` -/
def rounded (size : Nat) : Nat := (size + 255) / 256 * 256

def headroom (s : CudaMemoryPool) : Nat :=
  Table.total (fun b : CudaBuffer => rounded b.size) s.buffers + s.maximumCachedBytes

def RespectsHeadroom (s : CudaMemoryPool) : Prop := s.statistics.allocatedBytes ≤ headroom s

/-- a cached block that `acquire` would take for the request has the capacity of a new one; a pool
that is shut down takes none -/
def fitsRequest (requested : Nat) (s : CudaMemoryPool) : Bool :=
  match alignedSize requested with
  | .error _ => true
  | .ok capacity =>
    match lowerBound capacity s.freeBlocks with
    | none => true
    | some block => s.accepting = false ∨ block.1 = capacity

def fitsExactly (s : CudaMemoryPool) : Action → Bool
  | .allocate size _ _ | .allocateDeviceBuffer size _ _ _ _ => fitsRequest size s
  | _ => true

/-! ## every buffer has a block of its rounded size -/

def Fits (s : CudaMemoryPool) : Prop :=
  ∀ id b, s.buffers.lookup id = some b → b.capacity = rounded b.size

theorem alignedSize_rounded {size capacity : Nat} (h : alignedSize size = .ok capacity) :
    capacity = rounded size := by
  unfold alignedSize at h
  split at h
  · exact nomatch h
  · split at h
    · exact nomatch h
    · exact (Except.ok.inj h).symm

theorem Serves.eq_rounded {requested c : Nat} (h : Serves requested s c)
    (hfits : fitsRequest requested s = true) : c = rounded requested := by
  obtain ⟨hopen, capacity, hcapacity, hc⟩ := h
  have hrounded := alignedSize_rounded hcapacity
  rcases hc with rfl | ⟨block, hblock, rfl⟩
  · exact hrounded
  · unfold fitsRequest at hfits
    rw [hcapacity] at hfits
    simp only [hblock] at hfits
    refine ((of_decide_eq_true hfits).resolve_left fun hshut => ?_).trans hrounded
    exact absurd (hopen.symm.trans hshut) (by decide)

/-- the buffers after are among those before -/
def Inherits (s s' : CudaMemoryPool) : Prop :=
  ∀ id b, s'.buffers.lookup id = some b → ∃ id₀, s.buffers.lookup id₀ = some b

theorem Fits.inherits (h : Fits s) (hs : Inherits s s') : Fits s' := by
  intro id b hb
  obtain ⟨id₀, h₀⟩ := hs id b hb
  exact h id₀ b h₀

theorem Fits.grown {requested : Nat} (h : Fits s) (hs : Grown requested s s')
    (hfits : fitsRequest requested s = true) : Fits s' := by
  intro id b hb
  rcases hs with hs | ⟨b', rfl, hserves, hs⟩
  · exact h id b (hs ▸ hb)
  · rw [hs, Table.lookup_insert'] at hb
    split at hb
    · obtain rfl := Option.some.inj hb
      exact hserves.eq_rounded hfits
    · exact h id b hb

theorem inherits_reset (id : BufferId) (caches : Bool) (s : CudaMemoryPool) :
    Inherits s (s.reset id caches) := by
  intro id' b hb
  unfold reset at hb
  cases hid : s.buffers.lookup id with
  | none =>
    rw [hid] at hb
    exact ⟨id', hb⟩
  | some buffer =>
    rw [hid] at hb
    replace hb : (release buffer.data caches
      { s with buffers := s.buffers.erase id }).buffers.lookup id' = some b := hb
    rw [(release_buffers ..).1, Table.lookup_erase'] at hb
    split at hb
    · exact nomatch hb
    · exact ⟨id', hb⟩

theorem inherits_take (target source : BufferId) (s : CudaMemoryPool) :
    Inherits s (s.take target source) := by
  intro id b hb
  unfold take at hb
  cases hsource : s.buffers.lookup source with
  | none =>
    rw [hsource] at hb
    exact ⟨id, hb⟩
  | some buffer =>
    rw [hsource] at hb
    replace hb : ((s.buffers.erase source).insert target buffer).lookup id = some b := hb
    rw [Table.lookup_insert', Table.lookup_erase'] at hb
    split at hb
    · exact ⟨source, hsource.trans hb⟩
    · split at hb
      · exact nomatch hb
      · exact ⟨id, hb⟩

theorem inherits_moveAssign (target source : BufferId) (caches : Bool) (s : CudaMemoryPool) :
    Inherits s (s.moveAssign target source caches) := by
  unfold moveAssign
  split
  · exact fun id b hb => ⟨id, hb⟩
  · intro id b hb
    obtain ⟨id₁, h₁⟩ := inherits_take target source _ id b hb
    exact inherits_reset target caches s id₁ b h₁

theorem inherits_of_eq (h : s'.buffers = s.buffers) : Inherits s s' :=
  fun id _ hb => ⟨id, h ▸ hb⟩

theorem step_fits {a : Action} (ha : step a s = some s') (hfits : fitsExactly s a = true)
    (hsound : Sound .empty s) (h : Fits s) : Fits s' := by
  unfold step at ha
  split at ha
  · next hallows =>
    obtain rfl := Option.some.inj ha
    cases a with
    | allocate size outcome stores =>
      exact h.grown (wp_allocate stores hsound hallows).2 hfits
    | allocateDeviceBuffer size outcome stores wraps caches =>
      exact h.grown (wp_allocateDeviceBuffer stores wraps caches hsound hallows).2 hfits
    | moveConstruct source => exact h.inherits (inherits_take _ source s)
    | moveAssign target source caches => exact h.inherits (inherits_moveAssign _ _ _ s)
    | reset id caches => exact h.inherits (inherits_reset id caches s)
    | drain =>
      refine h.inherits (inherits_of_eq ?_)
      show (drainRound s).buffers = s.buffers
      unfold drainRound
      split <;> rfl
    | shutdown => exact h
    | shutdownReturns => exact h
    | free pointer =>
      refine h.inherits (inherits_of_eq ?_)
      exact (Prod.mk.inj (backendFree_outside pointer s)).1
  · exact nomatch ha

/-! ## the reserve -/

theorem Fits.respectsHeadroom (h : Fits s) (hsound : Sound .empty s) : RespectsHeadroom s := by
  have hactive : s.statistics.activeBytes =
      Table.total (fun b : CudaBuffer => rounded b.size) s.buffers :=
    hsound.owned.trans (Table.total_congr h)
  have hcached := hsound.cached
  calc s.statistics.allocatedBytes
      = s.statistics.activeBytes + s.statistics.freeBytes := hsound.allocated
    _ ≤ headroom s := Nat.add_le_add hactive.le hcached

/-- as long as no request gets a larger cached block, the reserve is enough -/
theorem run_respectsHeadroom {maximumCachedBytes : Nat} {as : List Action}
    (hfits : Runs.Along step (fun s a _ => fitsExactly s a = true) { maximumCachedBytes } as)
    (hrun : run maximumCachedBytes as = some s) : RespectsHeadroom s := by
  have hkeeps := Runs.run_keeps (I := fun s => Sound .empty s ∧ Fits s)
    (fun s a s' ha hfits h => ⟨step_sound ha h.1, step_fits ha hfits h.1 h.2⟩) as _ s hfits
    ⟨sound_new maximumCachedBytes, fun _ _ hb => nomatch hb⟩ hrun
  exact hkeeps.2.respectsHeadroom hkeeps.1

theorem run_respectsHeadroom_reuse : ∃ s, run 1024 [.allocate 300 (.ok 7) true, .reset 0 true,
    .allocate 511 (.ok 8) true, .allocate 1 (.ok 8) true] = some s ∧ RespectsHeadroom s := by
  have hrun : ∃ s, run 1024 [.allocate 300 (.ok 7) true, .reset 0 true,
    .allocate 511 (.ok 8) true, .allocate 1 (.ok 8) true] = some s := ⟨_, rfl⟩
  obtain ⟨s, hrun⟩ := hrun
  exact ⟨s, hrun, run_respectsHeadroom (by decide) hrun⟩

/-- one byte gets a cached block of 1024, whose place in the cache is then filled again -/
theorem not_respectsHeadroom_reuse : ¬ ∀ (maximumCachedBytes : Nat) (as : List Action)
    (s : CudaMemoryPool), run maximumCachedBytes as = some s → RespectsHeadroom s := by
  intro h
  have hrun : ∃ s, run 1024 [.allocate 1024 (.ok 7) true, .reset 0 true, .allocate 1 (.ok 8) true,
      .allocate 1024 (.ok 8) true, .reset 2 true] = some s ∧ ¬ RespectsHeadroom s :=
    ⟨_, rfl, by unfold RespectsHeadroom; decide⟩
  obtain ⟨s, hrun, hnot⟩ := hrun
  exact hnot (h _ _ s hrun)

end HyperMoE.Backend.CudaMemoryPool
