import HyperMoE.Lib.Chain
import HyperMoE.Experts.ExpertManager

/-!
# Effects: everything a locked operation can do

An operation of the expert manager is a chain of effects.  Each `Effect` is one straight stretch
of the code between two calls of the recursion, and `Step T e s s'` says exactly what it does to
the accounted state: the guards it passed, the memory, the experts and the statistics it leaves.
Invariants are proved once per effect and hold of every operation after that.

* `Step`                         one effect;
* `wp_dropToNvme`, `wp_loadIntoRam`, `wp_relocate`, `wp_adopt`   the stretches of the code.
-/

namespace HyperMoE

open Lib Lib.Fallible

namespace ExpertManager

variable {π : Type}

inductive Effect where
  /-- a reservation given back, a transfer that failed -/
  | failed
  /-- a load that was rethrown with its reservation still taken -/
  | leaked (k : ExpertKey)
  | evicted (k : ExpertKey) (id : ExpertId) (source : MemoryTier)
  | loaded (k : ExpertKey) (id : ExpertId)
  | relocated (k : ExpertKey) (id : ExpertId) (source destination : MemoryTier)
  | adopted (k : ExpertKey) (tier : MemoryTier) (b : Buffer)
  /-- an access or a prediction noted down -/
  | noted (k : ExpertKey)
  | counted (source : RequestSource) (sizeBytes : Nat)
  | registered (k : ExpertKey)
  | unregistered (k : ExpertKey)
  | leased (k : ExpertKey)
  | unleased (k : ExpertKey)
  deriving DecidableEq

/-! ## the parts of an effect -/

/-- the tables that only a registration changes, and the constructor's choice -/
structure Frame (s s' : ExpertManager π) : Prop where
  policyExperts : s'.policyExperts = s.policyExperts
  nextPolicyId : s'.nextPolicyId = s.nextPolicyId
  hasTransfers : s'.hasTransfers = s.hasTransfers

theorem Frame.rfl {s : ExpertManager π} : Frame s s := ⟨Eq.refl _, Eq.refl _, Eq.refl _⟩

/-- nothing moved but the counters of transfers and of buffers -/
structure Idle (s s' : ExpertManager π) : Prop where
  memory : s'.memory = s.memory
  experts : s'.experts = s.experts
  stats : s'.stats = s.stats
  frame : Frame s s'

/-- the memory as before, or after a reservation that was given back at once -/
inductive Returned (m : MemoryManager) : MemoryManager → Prop
  | same : Returned m m
  | back (tier : MemoryTier) (n : Nat) (h : n ≤ (m.usageFor tier).availableBytes) :
      Returned m ((m.take tier n h).released m.nextId)

def giveBack (m : ManagedExpert) (memory : MemoryManager) : MemoryManager :=
  match m.allocation with
  | none => memory
  | some owned => memory.released owned.id

/-- the memory manager knows the allocation that the expert owns, if it owns one -/
def Knows (memory : MemoryManager) (m : ManagedExpert) : Prop :=
  ∀ owned, m.allocation = some owned → (memory.allocations.lookup owned.id).isSome

structure Failed (s s' : ExpertManager π) : Prop where
  memory : Returned s.memory s'.memory
  experts : s'.experts = s.experts
  stats : s'.stats = s.stats
  frame : Frame s s'

structure Leaked (T : Transfers) (k : ExpertKey) (s s' : ExpertManager π) : Prop where
  found : ∃ m, s.experts.lookup k = some m ∧
    (∃ n e, T n (loadRequest k m) = .error e) ∧
    ∃ h, s'.memory = s.memory.take .Ram m.sizeBytes h
  experts : s'.experts = s.experts
  stats : s'.stats = s.stats
  frame : Frame s s'

structure Evicted (k : ExpertKey) (id : ExpertId) (source : MemoryTier) (m : ManagedExpert)
    (s s' : ExpertManager π) : Prop where
  found : s.experts.lookup k = some m
  id : m.policyId = id
  location : m.location = source
  resident : source ≠ .Nvme
  unleased : m.residencyLeases = 0
  knows : Knows s.memory m
  memory : s'.memory = giveBack m s.memory
  experts : s'.experts = s.experts.insert k (m.place none none none .Nvme)
  stats : s'.stats = s.stats.dropped source
  frame : Frame s s'

/-- the expert gets a reservation in `tier` and these weights, and its old reservation is given
back -/
structure Commit (k : ExpertKey) (m : ManagedExpert) (tier : MemoryTier)
    (weights deviceWeights : Option Buffer) (s s' : ExpertManager π) : Prop where
  found : s.experts.lookup k = some m
  reserved : tier ≠ .Nvme
  fits : m.sizeBytes ≤ (s.memory.usageFor tier).availableBytes
  knows : Knows (s.memory.take tier m.sizeBytes fits) m
  memory : s'.memory = giveBack m (s.memory.take tier m.sizeBytes fits)
  experts : s'.experts = s.experts.insert k
    (m.place (some ⟨s.memory.nextId, tier, m.sizeBytes⟩) weights deviceWeights tier)
  frame : Frame s s'

/-- a completed load: a host buffer of the registered size -/
def LoadedBytes (T : Transfers) (k : ExpertKey) (m : ManagedExpert) (b : Buffer) : Prop :=
  b.size = m.sizeBytes ∧ ∃ n r, T n (loadRequest k m) = .ok r ∧ r.status = .Completed ∧
    r.buffer = some b

/-- what `copyWeights` hands over, branch by branch -/
def Copied (T : Transfers) (hasTransfers : Bool) (k : ExpertKey) (m : ManagedExpert)
    (source destination : MemoryTier) (weights deviceWeights : Option Buffer) : Prop :=
  if source = .Nvme ∧ hasTransfers then
    ∃ b, LoadedBytes T k m b ∧ weights = some b ∧ deviceWeights = none
  else if source = .Ram ∧ destination = .Vram ∧ hasTransfers then
    ∃ n r b, T n (uploadRequest k m) = .ok r ∧ r.status = .Completed ∧
      r.deviceBuffer = some b ∧ weights = none ∧ deviceWeights = some b
  else if source = .Vram ∧ destination = .Ram ∧ hasTransfers then
    ∃ n r b, T n (downloadRequest k m) = .ok r ∧ r.status = .Completed ∧
      r.buffer = some b ∧ weights = some b ∧ deviceWeights = none
  else
    deviceWeights = m.deviceWeights ∧ weights.map Buffer.bytes = m.weights.map Buffer.bytes

/-- `m'` is `m` but for its use counters and predictions -/
structure SameHolding (m m' : ManagedExpert) : Prop where
  metadata : m'.metadata = m.metadata
  policyId : m'.policyId = m.policyId
  allocation : m'.allocation = m.allocation
  weights : m'.weights = m.weights
  deviceWeights : m'.deviceWeights = m.deviceWeights
  leases : m'.residencyLeases = m.residencyLeases

structure Noted (k : ExpertKey) (m m' : ManagedExpert) (s s' : ExpertManager π) : Prop where
  found : s.experts.lookup k = some m
  holding : SameHolding m m'
  memory : s'.memory = s.memory
  experts : s'.experts = s.experts.insert k m'
  stats : s'.stats = s.stats
  frame : Frame s s'

/-- a lease taken or reset -/
structure Leases (k : ExpertKey) (m : ManagedExpert) (n : Nat) (s s' : ExpertManager π) :
    Prop where
  found : s.experts.lookup k = some m
  memory : s'.memory = s.memory
  experts : s'.experts = s.experts.insert k { m with residencyLeases := n }
  stats : s'.stats = s.stats
  frame : Frame s s'

structure Registered (k : ExpertKey) (m : ManagedExpert) (s s' : ExpertManager π) : Prop where
  unknown : s.experts.lookup k = none
  key : m.metadata.key = k
  policyId : m.policyId = s.nextPolicyId
  size : m.sizeBytes ≠ 0
  location : m.location = .Nvme
  allocation : m.allocation = none
  weights : m.weights = none
  deviceWeights : m.deviceWeights = none
  leases : m.residencyLeases = 0
  memory : s'.memory = s.memory
  experts : s'.experts = s.experts.insert k m
  stats : s'.stats = s.stats
  policyExperts : s'.policyExperts = s.policyExperts.insert s.nextPolicyId k
  nextPolicyId : s'.nextPolicyId = s.nextPolicyId + 1
  hasTransfers : s'.hasTransfers = s.hasTransfers

structure Unregistered (k : ExpertKey) (m : ManagedExpert) (s s' : ExpertManager π) : Prop where
  found : s.experts.lookup k = some m
  unleased : m.residencyLeases = 0
  memory : s'.memory = giveBack m s.memory
  experts : s'.experts = s.experts.erase k
  stats : s'.stats = s.stats
  policyExperts : s'.policyExperts = s.policyExperts.erase m.policyId
  nextPolicyId : s'.nextPolicyId = s.nextPolicyId
  hasTransfers : s'.hasTransfers = s.hasTransfers

variable [CachePolicy π]

/-- the expert was where the move took it to be.  Only a policy that ignores the pinned set can
evict the moved expert itself, on its way from RAM to VRAM. -/
def FoundAt (π : Type) [CachePolicy π] (m : ManagedExpert) (source destination : MemoryTier) :
    Prop :=
  (LawfulCachePolicy π → m.location = source) ∧
  (SelectsOffered π → m.location = source ∨
    (source = .Ram ∧ destination = .Vram ∧ m.location = .Nvme ∧ m.weights = none))

def Step (T : Transfers) : Effect → ExpertManager π → ExpertManager π → Prop
  | .failed, s, s' => Failed s s'
  | .leaked k, s, s' => Leaked T k s s'
  | .evicted k id source, s, s' => ∃ m, Evicted k id source m s s'
  | .loaded k id, s, s' => ∃ m b, Commit k m .Ram (some b) none s s' ∧ m.policyId = id ∧
      (SelectsOffered π → m.location = .Nvme) ∧ m.residencyLeases = 0 ∧ LoadedBytes T k m b ∧
      s'.stats = s.stats
  | .relocated k id source destination, s, s' => ∃ m weights deviceWeights,
      Commit k m destination weights deviceWeights s s' ∧ m.policyId = id ∧
      source ≠ destination ∧ ¬ (source = .Nvme ∧ destination = .Vram) ∧ FoundAt π m source destination ∧ m.residencyLeases = 0 ∧
      Copied T s.hasTransfers k m source destination weights deviceWeights ∧
      s'.stats = s.stats.moved source destination
  | .adopted k tier b, s, s' => ∃ m weights deviceWeights,
      Commit k m tier weights deviceWeights s s' ∧ (SelectsOffered π → m.location ≠ tier) ∧
      b.size = m.sizeBytes ∧
      ((tier = .Vram ∧ weights = none ∧ deviceWeights = some b) ∨
        (tier = .Ram ∧ m.residencyLeases = 0 ∧ weights = some b ∧ deviceWeights = none)) ∧
      s'.stats = s.stats.adopted m.location tier
  | .noted k, s, s' => ∃ m m', Noted k m m' s s'
  | .counted source sizeBytes, s, s' => s'.memory = s.memory ∧ s'.experts = s.experts ∧
      s'.stats = s.stats.requested source sizeBytes ∧ Frame s s'
  | .registered k, s, s' => ∃ m, Registered k m s s'
  | .unregistered k, s, s' => ∃ m, Unregistered k m s s'
  | .leased k, s, s' => ∃ m, Leases k m (m.residencyLeases + 1) s s'
  | .unleased k, s, s' => ∃ m, Leases k m (m.residencyLeases - 1) s s'

/-! ## the stretches of the code -/

section
variable {T : Transfers} {k : ExpertKey} {m : ManagedExpert} {s : ExpertManager π}
  {source destination tier : MemoryTier}

omit [CachePolicy π]

theorem wp_require {Q : Except Exn ManagedExpert → ExpertManager π → Prop}
    (h : s.experts.lookup k = some m) : wp (requireExpertLocked k) Q s ↔ Q (.ok m) s := by
  unfold requireExpertLocked
  simp [h]

theorem wp_require_none {Q : Except Exn ManagedExpert → ExpertManager π → Prop}
    (h : s.experts.lookup k = none) :
    wp (requireExpertLocked k) Q s ↔ Q (.error (.outOfRange "unknown expert id")) s := by
  unfold requireExpertLocked
  simp [h]

theorem wp_reserve {Q : Except Exn MemoryAllocation → ExpertManager π → Prop} {n : Nat} {e : Exn}
    (hok : ∀ h : n ≤ (s.memory.usageFor tier).availableBytes, tier ≠ .Nvme →
      Q (.ok ⟨s.memory.nextId, tier, n⟩) (setMemory (s.memory.take tier n h) s))
    (he : ∀ e, Q (.error e) s) : wp (reserve tier n e) Q s := by
  unfold reserve onMemory
  simp only [wp_bind, wp_zoom]
  refine MemoryManager.wp_allocate (fun ht _ => ?_) (fun _ => he _)
  split
  · next h => exact hok h ht
  · exact he _

@[simp] theorem wp_discard {Q : Except Exn Unit → ExpertManager π → Prop} {id : AllocationId} :
    wp (discard id) Q s ↔ Q (.ok ()) (setMemory (s.memory.released id) s) := by
  unfold discard onMemory
  simp only [wp_bind, wp_zoom, MemoryManager.wp_release, wp_pure]

@[simp] theorem wp_submitTransfer {Q : TransferOutcome → ExpertManager π → Prop}
    {request : TransferRequest} :
    wp (submitTransfer T request) Q s ↔
      Q (T s.submitted request) (countTransfer s) := by
  unfold submitTransfer
  simp

theorem wp_releaseFails {Q : Except Exn Bool → ExpertManager π → Prop}
    (hok : Knows s.memory m → Q (.ok false) (setMemory (giveBack m s.memory) s))
    (hfails : giveBack m s.memory = s.memory → Q (.ok true) s) : wp (releaseFails m) Q s := by
  unfold releaseFails giveBack Knows at *
  cases ha : m.allocation with
  | none =>
    simp only [ha] at hok
    exact hok (fun _ h => by cases h)
  | some owned =>
    simp only [ha] at hok hfails
    unfold onMemory
    simp only [wp_bind, wp_zoom, MemoryManager.wp_release, wp_pure]
    cases hl : s.memory.allocations.lookup owned.id with
    | none =>
      have hsame : s.memory.released owned.id = s.memory := by
        unfold MemoryManager.released
        rw [hl]
      rw [hsame]
      exact hfails hsame
    | some a => exact hok (fun o ho => by rw [← Option.some.inj ho, hl]; rfl)

/-- either the old reservation is given back, or, where it is unknown, the new one -/
theorem wp_releaseSource {Q : Except Exn Unit → ExpertManager π → Prop} {id : AllocationId}
    (hok : Knows s.memory m → Q (.ok ()) (setMemory (giveBack m s.memory) s))
    (he : ∀ e, Q (.error e) (setMemory (s.memory.released id) s)) :
    wp (releaseSource m id) Q s := by
  unfold releaseSource
  rw [wp_bind]
  refine wp_releaseFails hok fun _ => ?_
  show wp (discard id >>= fun _ => throw _) Q s
  simp only [wp_bind, wp_discard, wp_throw]
  exact he _

end

section
variable {T : Transfers} {k : ExpertKey} {m : ManagedExpert} {s s' : ExpertManager π}
  {source destination tier : MemoryTier}

/-- the outcome of one stretch: the effect and the expert at its destination, or a failure -/
def Ends (T : Transfers) (e : Effect) (k : ExpertKey) (tier : MemoryTier) (s : ExpertManager π)
    (r : Except Exn Unit) (s' : ExpertManager π) : Prop :=
  match r with
  | .ok _ => Step T e s s' ∧ ∃ m, s'.experts.lookup k = some m ∧ m.location = tier
  | .error _ => Step T .failed s s'

theorem ends_ok {e : Effect} {a : Option MemoryAllocation} {w d : Option Buffer}
    (hstep : Step T e s s') (hm : s'.experts = s.experts.insert k (m.place a w d tier)) :
    Ends T e k tier s (.ok ()) s' :=
  ⟨hstep, m.place a w d tier, by rw [hm, AList.lookup_insert], rfl⟩

theorem step_failed_same : Step T .failed s s := ⟨.same, rfl, rfl, .rfl⟩

theorem wp_dropToNvme (hk : s.experts.lookup k = some m) (hs : m.location = source)
    (hne : source ≠ .Nvme) (hl : m.residencyLeases = 0) :
    wp (dropToNvme k source) (Ends T (.evicted k m.policyId source) k .Nvme s) s := by
  unfold dropToNvme
  rw [wp_bind, wp_require hk]
  show wp (_ >>= _) _ s
  rw [wp_bind]
  refine wp_releaseFails (fun hknows => ?_) fun _ => ?_
  · exact ends_ok ⟨m, hk, rfl, hs, hne, hl, hknows, rfl, rfl, rfl, rfl, rfl, rfl⟩ rfl
  · exact step_failed_same (T := T)

/-- a reservation given back leaves no trace but the number of the next one -/
theorem step_failed_back {n : Nat} (h : n ≤ (s.memory.usageFor tier).availableBytes)
    (hm : s'.memory = (s.memory.take tier n h).released s.memory.nextId)
    (he : s'.experts = s.experts) (hc : s'.stats = s.stats) (hf : Frame s s') :
    Step T .failed s s' :=
  ⟨hm ▸ .back tier n h, he, hc, hf⟩

omit [CachePolicy π] in
/-- whatever the branch, only the counters of transfers and of buffers move -/
theorem wp_copyWeights {Q : Except Exn (Option Buffer × Option Buffer) → ExpertManager π → Prop}
    (hok : ∀ w d s', Idle s s' → Copied T s.hasTransfers k m source destination w d →
      Q (.ok (w, d)) s')
    (he : ∀ e s', Idle s s' → Q (.error e) s') :
    wp (copyWeights T k m source destination) Q s := by
  have idle : Idle s (countTransfer s) := ⟨rfl, rfl, rfl, rfl, rfl, rfl⟩
  unfold copyWeights
  rw [wp_bind, wp_read]
  unfold Copied at hok
  by_cases h1 : source = .Nvme ∧ s.hasTransfers
  · simp only [if_pos h1] at hok ⊢
    rw [wp_bind, wp_submitTransfer]
    cases hT : T s.submitted (loadRequest k m) with
    | error e => exact he _ _ idle
    | ok r =>
      simp only [wp_bind, wp_throwIf, wp_pure]
      split
      · exact he _ _ idle
      · next hr =>
        split
        · exact he _ _ idle
        · next hsz =>
          push Not at hr hsz
          obtain ⟨b, hb⟩ := Option.ne_none_iff_exists'.mp hr.2
          rw [hb] at hsz ⊢
          exact hok _ _ _ idle ⟨b, ⟨Option.some.inj hsz, _, r, hT, hr.1, hb⟩, rfl, rfl⟩
  by_cases h2 : source = .Ram ∧ destination = .Vram ∧ s.hasTransfers
  · simp only [if_neg h1, if_pos h2] at hok ⊢
    rw [wp_bind, wp_submitTransfer]
    cases hT : T s.submitted (uploadRequest k m) with
    | error e => exact he _ _ idle
    | ok r =>
      simp only [wp_bind, wp_throwIf, wp_pure]
      split
      · exact he _ _ idle
      · next hr =>
        push Not at hr
        obtain ⟨b, hb⟩ := Option.ne_none_iff_exists'.mp hr.2
        exact hok _ _ _ idle ⟨_, r, b, hT, hr.1, hb, rfl, hb⟩
  by_cases h3 : source = .Vram ∧ destination = .Ram ∧ s.hasTransfers
  · simp only [if_neg h1, if_neg h2, if_pos h3] at hok ⊢
    rw [wp_bind, wp_submitTransfer]
    cases hT : T s.submitted (downloadRequest k m) with
    | error e => exact he _ _ idle
    | ok r =>
      simp only [wp_bind, wp_throwIf, wp_pure]
      split
      · exact he _ _ idle
      · next hr =>
        push Not at hr
        obtain ⟨b, hb⟩ := Option.ne_none_iff_exists'.mp hr.2
        exact hok _ _ _ idle ⟨_, r, b, hT, hr.1, hb, hb, rfl⟩
  -- the generic branches: a fresh address, the same bytes
  simp only [if_neg h1, if_neg h2, if_neg h3] at hok ⊢
  cases hw : m.weights with
  | none => exact hok none _ s ⟨rfl, rfl, rfl, .rfl⟩ ⟨rfl, by rw [hw]⟩
  | some w =>
    show wp (if _ then _ else _) Q s
    split
    · exact hok (some { w with addr := s.nextBuffer }) _ _ ⟨rfl, rfl, rfl, rfl, rfl, rfl⟩
        ⟨rfl, by rw [hw]; rfl⟩
    · exact hok (some w) _ s ⟨rfl, rfl, rfl, .rfl⟩ ⟨rfl, by rw [hw]⟩

/-- the load is the one stretch that can leave its reservation behind -/
theorem wp_loadIntoRam (hk : s.experts.lookup k = some m)
    (hloc : SelectsOffered π → m.location = .Nvme) (hl : m.residencyLeases = 0) :
    wp (loadIntoRam T k) (fun r s' => Ends T (.loaded k m.policyId) k .Ram s r s' ∨
      ((∃ e, r = .error e) ∧ Step T (.leaked k) s s')) s := by
  unfold loadIntoRam
  rw [wp_bind, wp_require hk]
  show wp (_ >>= _) _ s
  rw [wp_bind]
  refine wp_reserve (fun hfit _ => ?_) fun _ => .inl (step_failed_same (T := T))
  show wp (_ >>= _) _ _
  rw [wp_bind, wp_submitTransfer]
  generalize (setMemory _ s).submitted = n
  cases hT : T n (loadRequest k m) with
  | error e =>
    exact .inr ⟨⟨e, rfl⟩, ⟨m, hk, ⟨_, e, hT⟩, hfit, rfl⟩, rfl, rfl, rfl, rfl, rfl⟩
  | ok r =>
    have back : ∀ e, wp (discard s.memory.nextId >>= fun _ => (throw e : Code π Unit)) (fun r s' =>
        Ends T (.loaded k m.policyId) k .Ram s r s' ∨
          ((∃ e, r = .error e) ∧ Step T (.leaked k) s s'))
        (countTransfer (setMemory (s.memory.take .Ram m.sizeBytes hfit) s)) := by
      intro e
      rw [wp_bind, wp_discard]
      exact .inl (step_failed_back (T := T) hfit rfl rfl rfl ⟨rfl, rfl, rfl⟩)
    show wp (if _ then _ else _) _ _
    split
    · exact back _
    next hr =>
    split
    · exact back _
    next hsz =>
    push Not at hr hsz
    obtain ⟨b, hb⟩ := Option.ne_none_iff_exists'.mp hr.2
    rw [hb] at hsz
    rw [wp_bind]
    refine wp_releaseSource (fun hknows => .inl ?_) fun _ => .inl ?_
    · rw [hb]
      refine ends_ok (m := m) ⟨m, b, ⟨hk, by decide, hfit, hknows, rfl, rfl, rfl, rfl, rfl⟩, rfl,
        hloc, hl, ⟨Option.some.inj hsz, _, r, hT, hr.1, hb⟩, rfl⟩ rfl
    · exact step_failed_back (T := T) hfit rfl rfl rfl ⟨rfl, rfl, rfl⟩

/-- the assignments at the end of a generic move and of an adoption -/
def commitState (k : ExpertKey) (m : ManagedExpert) (a : MemoryAllocation)
    (weights deviceWeights : Option Buffer) (source tier : MemoryTier)
    (f : ExpertManagerStats → ExpertManagerStats) (s : ExpertManager π) : ExpertManager π :=
  notify (CachePolicy.onResident m.policyId tier)
    (setExpert k (m.place (some a) weights deviceWeights tier)
      (leave m.policyId source (modifyStats f s)))

theorem commitState_stats {a : MemoryAllocation} {w d : Option Buffer}
    {f : ExpertManagerStats → ExpertManagerStats} :
    (commitState k m a w d source tier f s).stats = f s.stats := by
  unfold commitState leave
  split <;> rfl

theorem commitState_commit (source : MemoryTier) (w d : Option Buffer)
    (f : ExpertManagerStats → ExpertManagerStats) (hk : s.experts.lookup k = some m) (ht : tier ≠ .Nvme)
    (hfit : m.sizeBytes ≤ (s.memory.usageFor tier).availableBytes)
    (hknows : Knows (s.memory.take tier m.sizeBytes hfit) m)
    (idle : Idle (setMemory (s.memory.take tier m.sizeBytes hfit) s) s') :
    Commit k m tier w d s (commitState k m ⟨s.memory.nextId, tier, m.sizeBytes⟩ w d source tier f
      (setMemory (giveBack m (s.memory.take tier m.sizeBytes hfit)) s')) := by
  obtain ⟨-, he, -, hp, hn, ht'⟩ := idle
  unfold commitState leave
  split
  all_goals
    refine ⟨hk, ht, hfit, hknows, rfl, ?_, hp, hn, ht'⟩
    show s'.experts.insert k _ = _
    rw [he]
    rfl

theorem wp_relocate (hk : s.experts.lookup k = some m) (hne : source ≠ destination)
    (hstage : ¬ (source = .Nvme ∧ destination = .Vram))
    (hat : FoundAt π m source destination) (hl : m.residencyLeases = 0) :
    wp (relocate T k source destination)
      (Ends T (.relocated k m.policyId source destination) k destination s) s := by
  unfold relocate
  rw [wp_bind, wp_require hk]
  show wp (_ >>= _) _ s
  rw [wp_bind]
  refine wp_reserve (fun hfit hdst => ?_) fun _ => step_failed_same (T := T)
  show wp (_ >>= _) _ _
  rw [wp_bind, wp_tryCatch]
  refine wp_copyWeights (fun w d s' idle hcopied => ?_) fun e s' idle => ?_
  · show wp (_ >>= _) _ _
    rw [wp_bind]
    refine wp_releaseSource (fun hknows => ?_) fun _ => ?_
    · rw [idle.memory] at hknows ⊢
      have hc := commitState_commit source w d (·.moved source destination) hk hdst hfit hknows idle
      refine ends_ok (m := m) ⟨m, w, d, hc, rfl, hne, hstage, hat, hl, hcopied, ?_⟩ hc.experts
      exact commitState_stats.trans (congrArg (·.moved source destination) idle.stats)
    · rw [idle.memory]
      exact step_failed_back (T := T) hfit rfl idle.experts idle.stats
        ⟨idle.frame.1, idle.frame.2, idle.frame.3⟩
  · show wp (discard s.memory.nextId >>= fun _ => (throw e : Code π _)) _ _
    rw [wp_bind, wp_discard, idle.memory]
    exact step_failed_back (T := T) hfit rfl idle.experts idle.stats
        ⟨idle.frame.1, idle.frame.2, idle.frame.3⟩

theorem wp_recordAccess (hk : s.experts.lookup k = some m) :
    wp (recordAccessLocked k) (fun r s' => r = .ok () ∧ Step T (.noted k) s s') s := by
  unfold recordAccessLocked
  rw [wp_bind, wp_require hk]
  exact ⟨rfl, m, { m with usageCount := m.usageCount + 1, lastUsed := s.accessClock + 1 }, hk,
    ⟨rfl, rfl, rfl, rfl, rfl, rfl⟩, rfl, rfl, rfl, rfl, rfl, rfl⟩

theorem wp_adopt {w d : Option Buffer} {b : Buffer} {e : Exn} (hk : s.experts.lookup k = some m)
    (hloc : SelectsOffered π → m.location ≠ tier) (hsize : b.size = m.sizeBytes)
    (hb : (tier = .Vram ∧ w = none ∧ d = some b) ∨
      (tier = .Ram ∧ m.residencyLeases = 0 ∧ w = some b ∧ d = none)) :
    wp (adopt k tier w d e) (fun r s' => match r with
      | .ok _ => ∃ s₁, Step T (.adopted k tier b) s s₁ ∧ Step T (.noted k) s₁ s'
      | .error _ => Step T .failed s s') s := by
  unfold adopt
  rw [wp_bind, wp_require hk]
  show wp (_ >>= _) _ s
  rw [wp_bind]
  refine wp_reserve (fun hfit ht => ?_) fun _ => step_failed_same (T := T)
  show wp (_ >>= _) _ _
  rw [wp_bind]
  refine wp_releaseSource (fun hknows => ?_) fun _ => ?_
  · have idle : Idle (setMemory (s.memory.take tier m.sizeBytes hfit) s)
        (setMemory (s.memory.take tier m.sizeBytes hfit) s) := ⟨rfl, rfl, rfl, .rfl⟩
    have hc := commitState_commit m.location w d (·.adopted m.location tier) hk ht hfit hknows idle
    show wp (_ >>= _) _ _
    rw [wp_bind, wp_update]
    have hk' := congrArg (AList.lookup k) hc.experts
    rw [AList.lookup_insert] at hk'
    refine wp_mono (wp_recordAccess (T := T) hk') fun r s' hr => ?_
    rw [hr.1]
    refine ⟨_, ⟨m, w, d, hc, hloc, hsize, hb, ?_⟩, hr.2⟩
    exact commitState_stats
  · exact step_failed_back (T := T) hfit rfl rfl rfl ⟨rfl, rfl, rfl⟩

end

end ExpertManager

end HyperMoE
