import HyperMoE.Experts.RoomMaking

/-!
# MemoryPressureController: relief in two phases

`MemoryPressureController.cpp` over the expert manager.  The memory manager that it samples is the
one that the expert manager accounts against.

* `poll`                   the two phases, on VRAM and then on RAM, and the depth of the storage queue;
* `Relieves`               what `evictUntilWithin` comes to: the experts it counts are those that
                           left the tier, and the tier is within its bound or all leased;
* `Calm`                   what the RAM phase leaves of VRAM;
* `run_poll`               the post-condition of both phases, in every state of every run.
-/

namespace HyperMoE

open Lib Lib.Fallible

structure MemoryPressureConfig where
  vramSafetyMarginBytes : Nat := 0
  ramSafetyMarginBytes : Nat := 0
  storageQueueHighWatermark : Nat := 64

structure MemoryPressureReport where
  vramPressure : Bool := false
  ramPressure : Bool := false
  storageQueuePressure : Bool := false
  vramExpertsMoved : Nat := 0
  ramExpertsMoved : Nat := 0
  storageQueueDepth : Nat := 0
  deriving DecidableEq

structure MemoryPressureStats where
  polls : Nat := 0
  vramPressureEvents : Nat := 0
  ramPressureEvents : Nat := 0
  storageQueuePressureEvents : Nat := 0
  deriving DecidableEq

structure MemoryPressureController (π : Type) where
  experts : ExpertManager π
  config : MemoryPressureConfig
  stats : MemoryPressureStats := {}

namespace MemoryPressureController

variable {π : Type}

def onExperts {α : Type} (x : ExpertManager.Code π α) :
    Fallible Exn (MemoryPressureController π) α :=
  zoom MemoryPressureController.experts (fun experts c => { c with experts := experts }) x

def modifyStats (f : MemoryPressureStats → MemoryPressureStats) (c : MemoryPressureController π) :
    MemoryPressureController π :=
  { c with stats := f c.stats }

/-- the limit less the margin, or 0 where the margin is larger -/
def target (limitBytes marginBytes : Nat) : Nat :=
  if limitBytes > marginBytes then limitBytes - marginBytes else 0

variable [CachePolicy π]

/-- one phase: where the tier uses more than its target, the event is noted and experts are
evicted; the answer is whether it did, and how many moved -/
def relieve (T : Transfers) (tier : MemoryTier) (target : Nat)
    (note : MemoryPressureStats → MemoryPressureStats) :
    Fallible Exn (MemoryPressureController π) (Bool × Nat) := do
  let c ← read
  if (c.experts.memory.usageFor tier).usedBytes > target then do
    update (modifyStats note)
    let moved ← onExperts (ExpertManager.evictUntilWithin T tier target)
    pure (true, moved)
  else pure (false, 0)

/-- `pending` is what `transfers_.pending()` answers at the end -/
def poll (T : Transfers) (pending : Nat) :
    Fallible Exn (MemoryPressureController π) MemoryPressureReport := do
  update (modifyStats fun stats => { stats with polls := stats.polls + 1 })
  let initial ← read
  let vramTarget :=
    target initial.experts.memory.vram.limitBytes initial.config.vramSafetyMarginBytes
  let ramTarget := target initial.experts.memory.ram.limitBytes initial.config.ramSafetyMarginBytes
  let vram ← relieve T .Vram vramTarget
    fun stats => { stats with vramPressureEvents := stats.vramPressureEvents + 1 }
  -- VRAM demotions can increase RAM use, so RAM is sampled again
  let ram ← relieve T .Ram ramTarget
    fun stats => { stats with ramPressureEvents := stats.ramPressureEvents + 1 }
  let storageQueuePressure := decide (pending ≥ initial.config.storageQueueHighWatermark)
  (if storageQueuePressure then
    update (modifyStats fun stats =>
      { stats with storageQueuePressureEvents := stats.storageQueuePressureEvents + 1 })
  else pure ())
  pure ⟨vram.1, ram.1, storageQueuePressure, vram.2, ram.2, pending⟩

end MemoryPressureController

namespace ExpertManager

variable {π : Type}

/-! ## what one eviction loop comes to -/

/-- the tier is within the bound, or holds leased experts only -/
def Relieved (tier : MemoryTier) (maximumUsedBytes : Nat) (s : ExpertManager π) : Prop :=
  (s.memory.usageFor tier).usedBytes ≤ maximumUsedBytes ∨
    ∀ k m, s.experts.lookup k = some m → m.location = tier → m.residencyLeases ≠ 0

/-- `moved` experts left the tier, none entered it, and it is relieved -/
structure Relieves (tier : MemoryTier) (maximumUsedBytes : Nat) (s s' : ExpertManager π)
    (moved : Nat) : Prop where
  moved : moved = (located tier s \ located tier s').card
  stays : located tier s' ⊆ located tier s
  relieved : Relieved tier maximumUsedBytes s'

theorem relieves_same {tier : MemoryTier} {bound : Nat} {s : ExpertManager π}
    (h : Relieved tier bound s) : Relieves tier bound s s 0 where
  moved := by rw [Finset.sdiff_self, Finset.card_empty]
  stays := Finset.Subset.refl _
  relieved := h

/-- one expert leaves, then more do -/
theorem Relieves.after {tier : MemoryTier} {bound moved : Nat} {s s₁ s' : ExpertManager π}
    {k : ExpertKey} (h : Relieves tier bound s₁ s' moved) (hk : k ∈ located tier s)
    (he : located tier s₁ = (located tier s).erase k) : Relieves tier bound s s' (moved + 1) := by
  have hgone : k ∉ located tier s' := fun hm => by
    have hk₁ := h.stays hm
    rw [he] at hk₁
    exact Finset.notMem_erase k _ hk₁
  refine ⟨?_, fun a ha => ?_, h.relieved⟩
  · have hinsert : located tier s \ located tier s' =
        insert k (located tier s₁ \ located tier s') := by
      rw [he, Finset.erase_sdiff_comm, Finset.insert_erase]
      exact Finset.mem_sdiff.mpr ⟨hk, hgone⟩
    rw [hinsert, Finset.card_insert_of_notMem, ← h.moved]
    rw [he]
    exact fun hm => Finset.notMem_erase k _ (Finset.mem_sdiff.mp hm).1
  · have ha₁ := h.stays ha
    rw [he] at ha₁
    exact Finset.mem_of_mem_erase ha₁

variable [CachePolicy π] {T : Transfers} {s s' : ExpertManager π} {tier : MemoryTier} {bound : Nat}

/-- the answer of the loop counts on from `evicted` -/
def LoopRelieves (T : Transfers) (tier : MemoryTier) (bound evicted : Nat) (s : ExpertManager π)
    (r : Except Exn Nat) (s' : ExpertManager π) : Prop :=
  (∀ e, r = .error e → Lasting T e) ∧
    ∀ n, r = .ok n → ∃ moved, n = evicted + moved ∧ Relieves tier bound s s' moved

omit [CachePolicy π] in
theorem loopRelieves_error {evicted : Nat} {e : Exn} (h : Lasting T e) :
    LoopRelieves T tier bound evicted s (.error e) s' :=
  ⟨fun _ he => Except.error.inj he ▸ h, fun _ hr => nomatch hr⟩

omit [CachePolicy π] in
theorem loopRelieves_same {evicted : Nat} (h : Relieved tier bound s) :
    LoopRelieves T tier bound evicted s (.ok evicted) s :=
  ⟨(fun _ he => nomatch he), fun _ hn => ⟨0, (Except.ok.inj hn).symm, relieves_same h⟩⟩

/-- a round of the loop does not run out of fuel -/
theorem round_lasts [SelectsOffered π] {k : ExpertKey} {v : ExpertId} (W : Wired s) :
    Lasts T (evictVictim (fun t => move T k t [v]) tier) s := by
  have hdrop : ∀ s₁ : ExpertManager π, Lasts T (move T k .Nvme [v]) s₁ := fun s₁ => by
    unfold Lasts move
    rw [wp_bind, wp_read]
    exact drop_lasts _ k [v] s₁
  unfold evictVictim
  split
  · have hcard := card_located_le .Ram s
    have hram : Lasts T (move T k .Ram [v]) s := by
      unfold Lasts move
      rw [wp_bind, wp_read]
      exact ram_move_lasts s.fuel W (by unfold fuel; omega)
    refine wp_catch hram (fun _ _ _ _ he => nomatch he) fun e s₁ he => ?_
    split
    · exact hdrop s₁
    · exact fun e' h => he e' (congrArg Except.error (Except.error.inj h))
  · exact hdrop s

theorem wp_evictLoop_relieves [LawfulCachePolicy π] (ht : tier ≠ .Nvme) (rounds evicted : Nat)
    (W : Wired s) (hrounds : (located tier s).card < rounds) :
    wp (evictLoop T rounds tier bound evicted) (LoopRelieves T tier bound evicted s) s := by
  induction rounds generalizing s evicted with
  | zero => exact absurd hrounds (Nat.not_lt_zero _)
  | succ rounds ih =>
    unfold evictLoop onMemory
    rw [wp_bind, wp_zoom, MemoryManager.wp_usage_of_ne ht]
    show wp (if _ then _ else _) _ s
    split
    · rw [wp_bind, wp_read]
      dsimp only
      cases hv : CachePolicy.selectVictim s.policy tier (s.candidatesLocked tier) [] with
      | none =>
        -- the policy finds a candidate where there is one
        refine loopRelieves_same (.inr fun k m hk hloc hl => ?_)
        have hm := mem_candidates.mpr ⟨k, m, hk, hloc, hl, rfl⟩
        exact LawfulCachePolicy.total _ _ _ _ _ hm List.not_mem_nil hv
      | some v =>
        show wp (_ >>= _) _ s
        rw [wp_bind, wp_orThrow]
        cases hi : s.policyExperts.lookup v with
        | none => exact loopRelieves_error (lasting (by decide))
        | some k =>
          show wp (_ >>= _) _ s
          rw [wp_bind, wp_orThrow]
          cases hx : s.experts.lookup k with
          | none => exact loopRelieves_error (lasting (by decide))
          | some x =>
            obtain ⟨hkey, hid, hloc⟩ := W.victim hv hi hx
            obtain ⟨hloc, -⟩ := hloc inferInstance
            rw [← hkey] at hx
            have hmem := (mem_located_iff hx).mpr hloc
            have hmove : ∀ (s₁ : ExpertManager π) m₁ t, Wired s₁ →
                s₁.experts.lookup x.metadata.key = some m₁ → m₁.policyId = v →
                wp (move T x.metadata.key t [v]) (Moved T x.metadata.key m₁ t [v] s₁) s₁ :=
              fun s₁ m₁ t W₁ hk₁ hid₁ => wp_move W₁ hk₁ (hid₁ ▸ List.mem_cons_self)
            refine wp_seq (wp_and (round_lasts W) (wp_evictVictim_leaves _ hmove W hx hid ht))
              (fun _ s₁ h => ?_) fun e s₁ h => loopRelieves_error (h.1 e rfl)
            have he := h.2.1.located_eq (h.2.2 rfl)
            have hcard := Finset.card_erase_of_mem hmem
            have hpos := Finset.card_pos.mpr ⟨_, hmem⟩
            rw [← he] at hcard
            refine wp_mono (ih (evicted + 1) (W.kin h.2.1.kin) (by omega)) fun r s' hr =>
              ⟨hr.1, fun n hn => ?_⟩
            obtain ⟨moved, hmoved, hrelieves⟩ := hr.2 n hn
            exact ⟨moved + 1, by omega, hrelieves.after hmem he⟩
    · next hn => exact loopRelieves_same (.inl (Nat.not_lt.mp hn))

/-- `evictUntilWithin` ends; where it returns, its answer counts the experts that left the tier -/
theorem wp_evictUntilWithin_relieves [LawfulCachePolicy π] (ht : tier = .Ram ∨ tier = .Vram)
    (W : Wired s) :
    wp (evictUntilWithin T tier bound) (fun r s' => (∀ e, r = .error e → Lasting T e) ∧
      (∀ n, r = .ok n → Relieves tier bound s s' n) ∧
        Chain (Step T) (RoomEffect π tier []) s s') s := by
  have hne : tier ≠ .Nvme := by rcases ht with rfl | rfl <;> decide
  refine wp_mono (wp_and (?_ : wp _ (LoopRelieves T tier bound 0 s) s) (wp_evictUntilWithin W))
    fun r s' h => ⟨h.1.1, fun n hn => ?_, h.2⟩
  · unfold evictUntilWithin
    rw [wp_bind, wp_throwIf, if_neg hne]
    show wp (_ >>= _) _ s
    rw [wp_bind, wp_read]
    exact wp_evictLoop_relieves hne _ 0 W (Nat.lt_succ_of_le (card_located_le tier s))
  · obtain ⟨moved, hmoved, hrelieves⟩ := h.1.2 n hn
    rw [hmoved, Nat.zero_add]
    exact hrelieves

/-! ## the RAM phase leaves VRAM alone -/

omit [CachePolicy π] in
theorem released_used_le (M : MemoryManager) (id : AllocationId) (t : MemoryTier) :
    ((M.released id).usageFor t).usedBytes ≤ (M.usageFor t).usedBytes := by
  unfold MemoryManager.released
  cases M.allocations.lookup id with
  | none => exact Nat.le_refl _
  | some a =>
    show ((M.drop a id).usageFor t).usedBytes ≤ _
    rw [MemoryManager.drop_used]
    exact Nat.sub_le _ _

omit [CachePolicy π] in
theorem giveBack_used_le (M : MemoryManager) (m : ManagedExpert) (t : MemoryTier) :
    ((giveBack m M).usageFor t).usedBytes ≤ (M.usageFor t).usedBytes := by
  unfold giveBack
  cases m.allocation with
  | none => exact Nat.le_refl _
  | some owned => exact released_used_le M owned.id t

omit [CachePolicy π] in
theorem Returned.used_le {M M' : MemoryManager} (h : Returned M M') (t : MemoryTier) :
    (M'.usageFor t).usedBytes ≤ (M.usageFor t).usedBytes := by
  cases h with
  | same => exact Nat.le_refl _
  | back tier n hfit =>
    have hl : (M.take tier n hfit).allocations.lookup M.nextId = some ⟨M.nextId, tier, n⟩ := by
      rw [MemoryManager.take_allocations, AList.lookup_insert]
    unfold MemoryManager.released
    simp only [hl]
    rw [MemoryManager.drop_used, MemoryManager.take_used, Nat.add_sub_cancel]

/-- the same experts are in the tier, under the same leases, and it does not use more -/
structure Calm (tier : MemoryTier) (s s' : ExpertManager π) : Prop where
  kin : Kin s s'
  located : located tier s' = located tier s
  used : (s'.memory.usageFor tier).usedBytes ≤ (s.memory.usageFor tier).usedBytes

omit [CachePolicy π] in
theorem Calm.relieved (h : Calm tier s s') (hr : Relieved tier bound s) : Relieved tier bound s' := by
  rcases hr with hr | hr
  · exact .inl (Nat.le_trans h.used hr)
  · refine .inr fun k m' hk' hloc => ?_
    have hmem := (mem_located_iff hk').mpr hloc
    rw [h.located] at hmem
    obtain ⟨m, hk, hloc₁⟩ := mem_located.mp hmem
    obtain ⟨y, hy, hi⟩ := h.kin.found hk
    obtain rfl := Option.some.inj (hk'.symm.trans hy)
    rw [show m'.residencyLeases = m.residencyLeases from congrArg (·.2.2.2) hi]
    exact hr k m hk hloc₁

theorem RoomEffect.calm [ho : SelectsOffered π] {e : Effect} (he : RoomEffect π .Ram [] e)
    (hs : Step T e s s') : Calm .Vram s s' := by
  have hkin := Step.kin hs he.1
  have hshape := he.2 ho
  cases e with
  | failed =>
    refine ⟨hkin, ?_, hs.memory.used_le _⟩
    ext k
    exact located_congr (by rw [hs.experts])
  | evicted k id source =>
    obtain ⟨m, h⟩ := hs
    have hsource : m.location ≠ .Vram := by
      rw [h.location]
      rcases hshape.2 with rfl | ⟨h, -⟩
      · decide
      · cases h
    refine ⟨hkin, ?_, by rw [h.memory]; exact giveBack_used_le _ _ _⟩
    ext k'
    by_cases hne : k' = k
    · subst hne
      have hk' : s'.experts.lookup k' = some (m.place none none none .Nvme) := by
        rw [h.experts, AList.lookup_insert]
      rw [mem_located_iff hk', mem_located_iff h.found]
      exact ⟨(fun h => by cases h), fun h => absurd h hsource⟩
    · exact located_congr (by rw [h.experts, AList.lookup_insert_ne hne])
  | relocated k id source destination =>
    obtain ⟨-, h, -⟩ := hshape
    cases h
  | _ => exact hshape.elim

theorem chain_calm [SelectsOffered π] (h : Chain (Step T) (RoomEffect π .Ram []) s s') :
    Calm .Vram s s' :=
  h.rel (fun _ => ⟨.rfl, rfl, Nat.le_refl _⟩)
    (fun _ _ _ h h' => ⟨h.kin.trans h'.kin, h'.located.trans h.located, Nat.le_trans h'.used h.used⟩)
    fun _ _ _ he hs => he.calm hs

end ExpertManager

namespace MemoryPressureController

open ExpertManager

variable {π : Type} [CachePolicy π] {T : Transfers}

/-- One phase, from `s` to `s'`: it acts where the tier uses more than the target, then
`evictUntilWithin` returns the count, and in any case the tier is relieved at the end. -/
structure Phase (T : Transfers) (tier : MemoryTier) (target : Nat) (s s' : ExpertManager π)
    (pressure : Bool) (moved : Nat) : Prop where
  pressed : pressure = true ↔ (s.memory.usageFor tier).usedBytes > target
  acts : pressure = true → (evictUntilWithin T tier target).exec s = (.ok moved, s')
  idle : pressure = false → s' = s
  relieves : Relieves tier target s s' moved
  /-- no leased expert moves, and those that do move down -/
  descends : Descends [] s s'

theorem wp_relieve [LawfulCachePolicy π] {c : MemoryPressureController π} {tier : MemoryTier}
    {target : Nat} {note : MemoryPressureStats → MemoryPressureStats}
    (ht : tier = .Ram ∨ tier = .Vram) (W : Wired c.experts) :
    wp (relieve T tier target note) (fun r c' => (∀ e, r = .error e → Lasting T e) ∧
      ∀ answer, r = .ok answer → c'.config = c.config ∧
        Phase T tier target c.experts c'.experts answer.1 answer.2 ∧
          (tier = .Ram → Calm .Vram c.experts c'.experts)) c := by
  unfold relieve
  rw [wp_bind, wp_read]
  show wp (if _ then _ else _) _ c
  split
  · next hused =>
    rw [wp_bind, wp_update]
    have hexec : wp (evictUntilWithin T tier target) (fun r s' =>
        (evictUntilWithin T tier target).exec c.experts = (r, s')) c.experts := rfl
    refine wp_seq (R := fun r c' => (∀ e, r = .error e → Lasting T e) ∧
      ∀ n, r = .ok n → c'.config = c.config ∧ Phase T tier target c.experts c'.experts true n ∧
        (tier = .Ram → Calm .Vram c.experts c'.experts)) ?_ (fun n c' h => ?_) fun e c' h => ?_
    · unfold onExperts
      rw [wp_zoom]
      refine wp_mono (wp_and hexec (wp_evictUntilWithin_relieves ht W)) fun r s' h => ?_
      obtain ⟨hrun, hlasts, hrelieves, hchain⟩ := h
      refine ⟨hlasts, fun n hn => ⟨rfl, ⟨?_, ?_, ?_, hrelieves n hn, ?_⟩, ?_⟩⟩
      · exact ⟨fun _ => hused, fun _ => rfl⟩
      · exact fun _ => hn ▸ hrun
      · exact fun h => nomatch h
      · exact hchain.rel (fun _ => .unmoved .rfl rfl) (fun _ _ _ => .trans)
          fun _ _ _ he hs => he.descends ht hs
      · rintro rfl
        exact chain_calm hchain
    · refine ⟨(fun _ he => nomatch he), fun answer ha => ?_⟩
      obtain rfl := Except.ok.inj ha
      exact h.2 n rfl
    · exact ⟨fun e' he => h.1 e' (congrArg Except.error (Except.error.inj he)),
        fun _ ha => nomatch ha⟩
  · next hused =>
    refine ⟨(fun _ he => nomatch he), fun answer ha => ?_⟩
    obtain rfl := Except.ok.inj ha
    refine ⟨rfl, ⟨?_, ?_, ?_, ?_, ?_⟩, ?_⟩
    · exact ⟨(fun h => nomatch h), fun h => absurd h hused⟩
    · exact fun h => nomatch h
    · exact fun _ => rfl
    · exact relieves_same (.inl (Nat.not_lt.mp hused))
    · exact .unmoved .rfl rfl
    · exact fun _ => ⟨.rfl, rfl, Nat.le_refl _⟩

/-- the targets of the two tiers -/
def vramTarget (c : MemoryPressureController π) : Nat :=
  target c.experts.memory.vram.limitBytes c.config.vramSafetyMarginBytes

def ramTarget (c : MemoryPressureController π) : Nat :=
  target c.experts.memory.ram.limitBytes c.config.ramSafetyMarginBytes

/-- What `poll` leaves: `s` is the state between the phases.  The RAM phase starts from what the
VRAM phase left, so the experts demoted there count with the rest. -/
structure Polled (T : Transfers) (c : MemoryPressureController π) (report : MemoryPressureReport)
    (s : ExpertManager π) (c' : MemoryPressureController π) : Prop where
  vram : Phase T .Vram c.vramTarget c.experts s report.vramPressure report.vramExpertsMoved
  ram : Phase T .Ram c.ramTarget s c'.experts report.ramPressure report.ramExpertsMoved
  /-- VRAM is relieved after both phases, not only after its own -/
  relieved : Relieved .Vram c.vramTarget c'.experts

theorem wp_poll [LawfulCachePolicy π] (T : Transfers) (pending : Nat)
    (c : MemoryPressureController π) (W : Wired c.experts) :
    wp (poll T pending) (fun r c' => (∀ e, r = .error e → Lasting T e) ∧
      ∀ report, r = .ok report → ∃ s, Polled T c report s c') c := by
  unfold poll
  rw [wp_bind, wp_update]
  show wp (_ >>= _) _ _
  rw [wp_bind, wp_read]
  refine wp_seq (wp_relieve (.inr rfl) W) (fun vram c₁ h₁ => ?_) fun e c₁ h₁ => ?_
  · obtain ⟨-, hvram, -⟩ := h₁.2 vram rfl
    have W₁ : Wired c₁.experts := W.kin hvram.descends.kin
    refine wp_seq (wp_relieve (.inl rfl) W₁) (fun ram c₂ h₂ => ?_) fun e c₂ h₂ => ?_
    · obtain ⟨-, hram, hcalm⟩ := h₂.2 ram rfl
      have hpolled : ∀ (depth : Bool) (c' : MemoryPressureController π), c'.experts = c₂.experts →
          Polled T c ⟨vram.1, ram.1, depth, vram.2, ram.2, pending⟩ c₁.experts c' := by
        intro depth c' he
        refine ⟨hvram, ?_, ?_⟩
        · rw [he]
          exact hram
        · rw [he]
          exact (hcalm rfl).relieved hvram.relieves.relieved
      refine wp_seq (R := fun r c' => r = .ok () ∧ c'.experts = c₂.experts) ?_
        (fun _ c' h => ?_) fun _ _ h => nomatch h.1
      · rw [wp_ite]
        split <;> exact ⟨rfl, rfl⟩
      · refine ⟨(fun _ he => nomatch he), fun report hr => ⟨c₁.experts, ?_⟩⟩
        obtain rfl := Except.ok.inj hr
        exact hpolled _ c' h.2
    · exact ⟨fun e' he => h₂.1 e' (congrArg Except.error (Except.error.inj he)),
        fun _ hr => nomatch hr⟩
  · exact ⟨fun e' he => h₁.1 e' (congrArg Except.error (Except.error.inj he)),
      fun _ hr => nomatch hr⟩

/-- In every state of every run, with any limits, margins and leases, `poll` ends, and where it
returns both tiers are relieved and the report counts the experts that left each of them. -/
theorem run_poll [LawfulCachePolicy π] (vram ram : Nat) (policy : π) (hasTransfers : Bool)
    (ops : List (Op × Transfers)) (config : MemoryPressureConfig) (stats : MemoryPressureStats)
    (T : Transfers) (pending : Nat) :
    let c : MemoryPressureController π :=
      ⟨(run (ManagerSystem.start vram ram policy hasTransfers) ops).manager, config, stats⟩
    wp (poll T pending) (fun r c' => (∀ e, r = .error e → Lasting T e) ∧
      ∀ report, r = .ok report → ∃ s, Polled T c report s c') c :=
  wp_poll T pending _ (run_wired vram ram policy hasTransfers ops)

/-- the VRAM demotion fills RAM, from where the second phase takes the expert again -/
theorem run_poll_sample :
    let c : MemoryPressureController LruCachePolicy :=
      ⟨(run (ManagerSystem.start 8 4 ({} : LruCachePolicy) true) fullVram).manager,
        { vramSafetyMarginBytes := 4, ramSafetyMarginBytes := 9 }, {}⟩
    ((poll delivering 0).exec c).1 = .ok ⟨true, true, false, 1, 1, 0⟩ ∧
      ∃ s, Polled delivering c ⟨true, true, false, 1, 1, 0⟩ s ((poll delivering 0).exec c).2 := by
  have h := run_poll 8 4 ({} : LruCachePolicy) true fullVram
    { vramSafetyMarginBytes := 4, ramSafetyMarginBytes := 9 } {} delivering 0
  have hreport : ((poll delivering 0).exec (⟨(run (ManagerSystem.start 8 4 ({} : LruCachePolicy) true)
      fullVram).manager, { vramSafetyMarginBytes := 4, ramSafetyMarginBytes := 9 }, {}⟩ :
      MemoryPressureController LruCachePolicy)).1 = .ok ⟨true, true, false, 1, 1, 0⟩ := by
    decide +kernel
  exact ⟨hreport, h.2 _ hreport⟩

end MemoryPressureController

end HyperMoE
