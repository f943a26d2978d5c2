import HyperMoE.Experts.Operations

/-!
# Memory accounting over whole runs

Every expert outside NVMe owns one live reservation of its tier and size, nothing else is
reserved, and the used bytes of a tier are the sizes of the experts in it.

* `Accounted`                 the invariant;
* `Exchanged`                 what a stretch does to the memory: one allocation for another;
* `Accounted.replace`         the one preservation argument, for every effect that changes an
                              expert;
* `Step.accounted`            every effect but `leaked` keeps it;
* `LoadsSettle`               no direct load from NVMe is rethrown: then no run leaks.
-/

namespace HyperMoE

open Lib Lib.Fallible

namespace ExpertManager

variable {π : Type}

/-- the bytes that an expert takes in the capacity that `tier` counts against -/
def bytesIn (tier : MemoryTier) (m : ManagedExpert) : Nat :=
  if m.location ≠ .Nvme ∧ MemoryManager.sameUsage m.location tier then m.sizeBytes else 0

/-- an expert outside NVMe owns an allocation of its tier and its size, one on NVMe owns none -/
def Shaped (m : ManagedExpert) : Prop :=
  match m.allocation with
  | none => m.location = .Nvme
  | some a => m.location ≠ .Nvme ∧ a.tier = m.location ∧ a.sizeBytes = m.sizeBytes

structure Accounted (s : ExpertManager π) : Prop where
  balanced : s.memory.Balanced
  shaped : ∀ k m, s.experts.lookup k = some m → Shaped m
  live : ∀ k m a, s.experts.lookup k = some m → m.allocation = some a →
    s.memory.allocations.lookup a.id = some a
  apart : ∀ k k' m m' a, s.experts.lookup k = some m → s.experts.lookup k' = some m' →
    m.allocation = some a → m'.allocation = some a → k = k'
  owned : ∀ id a, s.memory.allocations.lookup id = some a →
    ∃ k m, s.experts.lookup k = some m ∧ m.allocation = some a
  used : ∀ tier, (s.memory.usageFor tier).usedBytes = Table.total (bytesIn tier) s.experts

/-! ## one allocation for another -/

structure Exchanged (old new : Option MemoryAllocation) (M M' : MemoryManager) : Prop where
  balanced : M'.Balanced
  lookup : ∀ id, M'.allocations.lookup id =
    if new.map MemoryAllocation.id = some id then new
    else if old.map MemoryAllocation.id = some id then none else M.allocations.lookup id
  used : ∀ t, (M'.usageFor t).usedBytes + old.elim 0 (MemoryManager.bytesFor t) =
    (M.usageFor t).usedBytes + new.elim 0 (MemoryManager.bytesFor t)
  fresh : ∀ a, new = some a → old = some a ∨ M.allocations.lookup a.id = none

section
variable {M : MemoryManager} {a : MemoryAllocation} {m : ManagedExpert} {tier : MemoryTier}
  {n : Nat}

theorem Exchanged.same {o : Option MemoryAllocation} (B : M.Balanced)
    (h : ∀ a, o = some a → M.allocations.lookup a.id = some a) : Exchanged o o M M where
  balanced := B
  lookup id := by
    split
    · next hid =>
      obtain ⟨a, rfl, rfl⟩ := Option.map_eq_some_iff.mp hid
      exact h a rfl
    · rfl
  used t := rfl
  fresh a ha := .inl ha

/-- the old allocation goes back to the memory manager -/
theorem Exchanged.giveBack (B : M.Balanced)
    (h : ∀ a, m.allocation = some a → M.allocations.lookup a.id = some a) :
    Exchanged m.allocation none M (giveBack m M) := by
  unfold ExpertManager.giveBack MemoryManager.released
  cases ha : m.allocation with
  | none => exact ⟨B, fun _ => rfl, fun _ => rfl, fun _ h => by cases h⟩
  | some a =>
    have hl := h a ha
    have hused : ∀ t, MemoryManager.bytesFor t a ≤ (M.usageFor t).usedBytes := fun t => by
      rw [B.used]
      exact Table.le_total _ hl
    simp only [hl]
    refine ⟨B.drop hl, fun id => ?_, fun t => ?_, fun _ h => by cases h⟩
    · rw [MemoryManager.drop_allocations, Table.lookup_erase']
      by_cases hid : id = a.id
      · simp [hid]
      · simp [hid, Ne.symm hid]
    · rw [MemoryManager.drop_used]
      have := hused t
      unfold MemoryManager.bytesFor at this
      show _ - _ + MemoryManager.bytesFor t a = _ + 0
      unfold MemoryManager.bytesFor
      omega

/-- a new allocation is taken first, and the old one goes back after it -/
theorem Exchanged.commit (B : M.Balanced) (hfit : n ≤ (M.usageFor tier).availableBytes)
    (h : ∀ a, m.allocation = some a → M.allocations.lookup a.id = some a) :
    Exchanged m.allocation (some ⟨M.nextId, tier, n⟩) M
      (ExpertManager.giveBack m (M.take tier n hfit)) := by
  have hne : ∀ a, m.allocation = some a → a.id ≠ M.nextId := fun a ha e => by
    have hlt := B.fresh _ _ (h a ha)
    rw [e] at hlt
    exact absurd hlt (Nat.lt_irrefl _)
  have hg := Exchanged.giveBack (m := m) (B.take tier n hfit) fun a ha => by
    rw [MemoryManager.take_allocations, AList.lookup_insert_ne (hne a ha), h a ha]
  refine ⟨hg.balanced, fun id => ?_, fun t => ?_, fun a ha => .inr ?_⟩
  · rw [hg.lookup, MemoryManager.take_allocations, Table.lookup_insert']
    by_cases hid : id = M.nextId
    · subst hid
      cases ha : m.allocation with
      | none => simp
      | some a => simp [hne a ha]
    · simp [hid, Ne.symm hid]
  · have := hg.used t
    rw [MemoryManager.take_used] at this
    exact this
  · obtain rfl := Option.some.inj ha
    exact B.lookup_nextId

/-- a reservation that was given back at once -/
theorem Returned.exchanged {M' : MemoryManager} (B : M.Balanced) (h : Returned M M') :
    Exchanged none none M M' := by
  cases h with
  | same => exact .same B fun _ h => by cases h
  | back tier n hfit =>
    have B' := B.take tier n hfit
    have hl : (M.take tier n hfit).allocations.lookup M.nextId = some ⟨M.nextId, tier, n⟩ := by
      rw [MemoryManager.take_allocations, AList.lookup_insert]
    unfold MemoryManager.released
    simp only [hl]
    refine ⟨B'.drop hl, fun id => ?_, fun t => ?_, fun _ h => by cases h⟩
    · rw [MemoryManager.drop_allocations, Table.lookup_erase', MemoryManager.take_allocations,
        Table.lookup_insert']
      split
      · next hid => rw [hid, B.lookup_nextId]; rfl
      · rfl
    · rw [MemoryManager.drop_used, MemoryManager.take_used]
      exact Nat.add_sub_cancel _ _

end

/-! ## the preservation argument -/

section
variable {s s' : ExpertManager π} {k : ExpertKey}

theorem Shaped.bytesIn {m : ManagedExpert} (h : Shaped m) (tier : MemoryTier) :
    ExpertManager.bytesIn tier m = m.allocation.elim 0 (MemoryManager.bytesFor tier) := by
  unfold Shaped at h
  unfold ExpertManager.bytesIn
  cases ha : m.allocation with
  | none =>
    rw [ha] at h
    rw [if_neg fun hn => hn.1 h]
    rfl
  | some a =>
    rw [ha] at h
    show _ = MemoryManager.bytesFor tier a
    unfold MemoryManager.bytesFor
    rw [h.2.1, h.2.2]
    simp [h.1]

/-- one expert replaced and its allocation exchanged with it -/
theorem Accounted.replace (old new : Option ManagedExpert) (A : Accounted s)
    (hr : Table.Replaced k old new s.experts s'.experts)
    (hx : Exchanged (old.bind ManagedExpert.allocation) (new.bind ManagedExpert.allocation)
      s.memory s'.memory)
    (hs : ∀ m, new = some m → Shaped m) : Accounted s' := by
  -- an allocation that another expert owns is neither the old one nor the new one of `k`
  have other : ∀ k' m' a, k' ≠ k → s.experts.lookup k' = some m' → m'.allocation = some a →
      (∀ b, old.bind ManagedExpert.allocation = some b → b.id ≠ a.id) ∧
      (∀ b, new.bind ManagedExpert.allocation = some b → b.id ≠ a.id) := by
    intro k' m' a hne hk' ha
    have hl := A.live k' m' a hk' ha
    have hold : ∀ b, old.bind ManagedExpert.allocation = some b → b.id ≠ a.id := by
      intro b hb e
      obtain ⟨m, hm, hmb⟩ := Option.bind_eq_some_iff.mp hb
      have hlb := A.live k m b (hr.found.trans hm) hmb
      rw [e, hl] at hlb
      obtain rfl := Option.some.inj hlb
      exact hne (A.apart k' k m' m a hk' (hr.found.trans hm) ha hmb)
    refine ⟨hold, fun b hb e => ?_⟩
    rcases hx.fresh b hb with h | h
    · exact hold b h e
    · rw [e, hl] at h
      cases h
  refine ⟨hx.balanced, fun a m ha => ?_, fun k' m' a hk' ha => ?_,
    fun k₁ k₂ m₁ m₂ a h₁ h₂ ha₁ ha₂ => ?_, fun id a ha => ?_, fun tier => ?_⟩
  · rw [hr.lookup] at ha
    split at ha
    · exact hs m ha
    · exact A.shaped a m ha
  · rw [hr.lookup] at hk'
    split at hk'
    · have hn : new.bind ManagedExpert.allocation = some a := by rw [hk']; exact ha
      rw [hx.lookup, hn]
      simp
    · next hne =>
      obtain ⟨h₁, h₂⟩ := other k' m' a hne hk' ha
      rw [hx.lookup, if_neg, if_neg]
      · exact A.live k' m' a hk' ha
      · intro e
        obtain ⟨b, hb, e⟩ := Option.map_eq_some_iff.mp e
        exact h₁ b hb e
      · intro e
        obtain ⟨b, hb, e⟩ := Option.map_eq_some_iff.mp e
        exact h₂ b hb e
  · rw [hr.lookup] at h₁ h₂
    split at h₁ <;> split at h₂
    · next e₁ e₂ => rw [e₁, e₂]
    · next e₁ e₂ =>
      have hn : new.bind ManagedExpert.allocation = some a := by rw [h₁]; exact ha₁
      exact absurd rfl ((other k₂ m₂ a e₂ h₂ ha₂).2 a hn)
    · next e₁ e₂ =>
      have hn : new.bind ManagedExpert.allocation = some a := by rw [h₂]; exact ha₂
      exact absurd rfl ((other k₁ m₁ a e₁ h₁ ha₁).2 a hn)
    · exact A.apart k₁ k₂ m₁ m₂ a h₁ h₂ ha₁ ha₂
  · rw [hx.lookup] at ha
    split at ha
    · obtain ⟨m, hm, hma⟩ := Option.bind_eq_some_iff.mp ha
      exact ⟨k, m, by rw [hr.lookup, if_pos rfl, hm], hma⟩
    split at ha
    · cases ha
    next hnold =>
    obtain ⟨k', m', hk', hma⟩ := A.owned id a ha
    refine ⟨k', m', ?_, hma⟩
    rw [hr.lookup, if_neg]
    · exact hk'
    · rintro rfl
      apply hnold
      rw [← hr.found, hk']
      show m'.allocation.map _ = _
      rw [hma]
      exact congrArg some (A.balanced.named id a ha)
  · have ht := hr.total (bytesIn tier)
    have hu := hx.used tier
    have hb : ∀ o : Option ManagedExpert, (∀ m, o = some m → Shaped m) →
        o.elim 0 (bytesIn tier) =
          (o.bind ManagedExpert.allocation).elim 0 (MemoryManager.bytesFor tier) := by
      intro o ho
      cases o with
      | none => rfl
      | some m => exact (ho m rfl).bytesIn tier
    have hold := hb old fun m hm => A.shaped k m (hr.found.trans hm)
    have hnew := hb new hs
    have := A.used tier
    omega

theorem Accounted.live_of (A : Accounted s) {m : ManagedExpert}
    (hk : s.experts.lookup k = some m) : ∀ a, m.allocation = some a →
      s.memory.allocations.lookup a.id = some a := fun a => A.live k m a hk

/-- nothing but the numbering of reservations changes -/
theorem Accounted.idle (A : Accounted s) (he : s'.experts = s.experts)
    (hm : Returned s.memory s'.memory) : Accounted s' := by
  have hx := hm.exchanged A.balanced
  have hl : ∀ id, s'.memory.allocations.lookup id = s.memory.allocations.lookup id := fun id => by
    rw [hx.lookup]
    rfl
  refine ⟨hx.balanced, fun k m h => ?_, fun k m a h ha => ?_, fun k k' m m' a h h' => ?_,
    fun id a h => ?_, fun tier => ?_⟩
  · exact A.shaped k m (he ▸ h)
  · rw [hl]
    exact A.live k m a (he ▸ h) ha
  · exact A.apart k k' m m' a (he ▸ h) (he ▸ h')
  · rw [he]
    exact A.owned id a (by rw [← hl, h])
  · rw [he, ← A.used]
    exact hx.used tier

/-- an expert overwritten by one that holds the same -/
theorem Accounted.overwrite (A : Accounted s) {m m' : ManagedExpert}
    (hk : s.experts.lookup k = some m) (hloc : m'.metadata = m.metadata)
    (ha : m'.allocation = m.allocation) (hm : s'.memory = s.memory)
    (he : s'.experts = s.experts.insert k m') : Accounted s' := by
  refine A.replace (some m) (some m') (.insert hk he) ?_ fun x hx => ?_
  · show Exchanged m.allocation m'.allocation _ _
    rw [ha, hm]
    exact .same A.balanced (A.live_of hk)
  · obtain rfl := Option.some.inj hx
    have := A.shaped k m hk
    unfold Shaped ManagedExpert.location ManagedExpert.sizeBytes at *
    rw [ha, hloc]
    exact this

theorem Accounted.leases (A : Accounted s) {m : ManagedExpert} {n : Nat}
    (h : Leases k m n s s') : Accounted s' := by
  refine A.overwrite h.found ?_ ?_ h.memory h.experts
  · rfl
  · rfl

theorem Accounted.commit (A : Accounted s) {m : ManagedExpert} {tier : MemoryTier}
    {w d : Option Buffer} (h : Commit k m tier w d s s') : Accounted s' := by
  refine A.replace (some m) (some (m.place (some ⟨s.memory.nextId, tier, m.sizeBytes⟩) w d tier))
    (.insert h.found h.experts)
    (by rw [h.memory]; exact .commit A.balanced h.fits (A.live_of h.found)) fun x hx => ?_
  obtain rfl := Option.some.inj hx
  exact ⟨h.reserved, rfl, rfl⟩

end

variable [CachePolicy π] {T : Transfers}

/-- every effect keeps the accounts, but for the load that is rethrown -/
theorem Step.accounted {s s' : ExpertManager π} {e : Effect} (h : Step T e s s')
    (hleak : ∀ k, e ≠ .leaked k) (A : Accounted s) : Accounted s' := by
  cases e with
  | failed => exact A.idle h.experts h.memory
  | leaked k => exact absurd rfl (hleak k)
  | evicted k id source =>
    obtain ⟨m, h⟩ := h
    refine A.replace (some m) (some (m.place none none none .Nvme))
      (.insert h.found h.experts) (by rw [h.memory]; exact .giveBack A.balanced (A.live_of h.found))
      fun x hx => ?_
    obtain rfl := Option.some.inj hx
    exact rfl
  | loaded k id =>
    obtain ⟨m, b, h, -⟩ := h
    exact A.commit h
  | relocated k id source destination =>
    obtain ⟨m, w, d, h, -⟩ := h
    exact A.commit h
  | adopted k tier b =>
    obtain ⟨m, w, d, h, -⟩ := h
    exact A.commit h
  | noted k =>
    obtain ⟨m, m', h⟩ := h
    exact A.overwrite h.found h.holding.metadata h.holding.allocation h.memory h.experts
  | counted source n => exact A.idle h.2.1 (h.1 ▸ .same)
  | registered k =>
    obtain ⟨m, h⟩ := h
    refine A.replace none (some m) (.insert h.unknown h.experts) ?_
      fun x hx => ?_
    · show Exchanged none m.allocation _ _
      rw [h.allocation, h.memory]
      exact .same A.balanced fun _ h => by cases h
    · obtain rfl := Option.some.inj hx
      unfold Shaped
      rw [h.allocation]
      exact h.location
  | unregistered k =>
    obtain ⟨m, h⟩ := h
    exact A.replace (some m) (none) (.erase h.found h.experts)
      (by rw [h.memory]; exact .giveBack A.balanced (A.live_of h.found)) fun _ hx => by cases hx
  | leased k => exact A.leases h.choose_spec
  | unleased k => exact A.leases h.choose_spec

/-! ## runs in which no direct load is rethrown -/

/-- the experts that the operation may load directly from NVMe into RAM -/
def Op.loads (s : ExpertManager π) : Op → ExpertKey → Prop
  | .registerExpert x, k => k = x.key ∧ (x.location = .Ram ∨ x.location = .Vram)
  | .requestExpert target, k => target.resolves s k ∧ (s.findExpert k).map Expert.location = some .Nvme
  | .moveExpert target destination, k =>
      target.resolves s k ∧ (destination = .Ram ∨ destination = .Vram) ∧
        (s.findExpert k).map Expert.location = some .Nvme
  | .acquireResidentExpert k', k | .acquireHostExpert k', k =>
      k = k' ∧ (s.findExpert k).map Expert.location = some .Nvme
  | _, _ => False

/-- the future of such a load does not rethrow: it completes or is cancelled -/
def LoadsSettle (s : ManagerSystem π) (op : Op) (T : Transfers) : Prop :=
  ∀ k, op.loads s.manager k → ∀ n r, r.layerId = k.1 → r.expertId = k.2 → r.source = .Nvme →
    r.destination = .Ram → ∀ e, T n r ≠ .error e

theorem RoomEffect.not_leaked [ho : SelectsOffered π] {tier : MemoryTier}
    {pinned : List ExpertId} {k : ExpertKey} (h : RoomEffect π tier pinned (.leaked k)) : False :=
  h.2 ho

theorem MoveEffect.leaked [ho : SelectsOffered π] {location destination : MemoryTier}
    {pinned : List ExpertId} {k k' : ExpertKey} {id : ExpertId}
    (h : MoveEffect π k id location destination pinned (.leaked k')) :
    k' = k ∧ location = .Nvme ∧ (destination = .Ram ∨ destination = .Vram) := by
  rcases h.2 ho with h | ⟨-, h⟩ | ⟨-, -, h⟩
  · exact h
  · exact h.elim
  · exact h.elim

theorem OwnMove.leaked [SelectsOffered π] {s : ExpertManager π} {destination : MemoryTier}
    {k k' : ExpertKey} (h : OwnMove s k destination (.leaked k')) :
    k' = k ∧ (s.findExpert k).map Expert.location = some .Nvme ∧
      (destination = .Ram ∨ destination = .Vram) := by
  obtain ⟨m, hm, h⟩ := h
  obtain ⟨rfl, hloc, hd⟩ := h.leaked
  exact ⟨rfl, (location_of_lookup hm).trans (congrArg some hloc), hd⟩

/-- only the expert of the operation itself can leak, and only where it is loaded -/
theorem Op.allows_leaked [SelectsOffered π] {s : ExpertManager π} {op : Op} {k : ExpertKey}
    (h : op.allows s (.leaked k)) : op.loads s k := by
  cases op with
  | registerExpert x =>
    rcases h with h | h | h
    · cases h
    · cases h
    · obtain ⟨rfl, -, hd⟩ := h.leaked
      exact ⟨rfl, hd⟩
  | requestExpert target =>
    obtain ⟨k', ht, h | h | ⟨_, _, h⟩⟩ := h
    · obtain ⟨rfl, hloc, -⟩ := h.leaked
      exact ⟨ht, hloc⟩
    · cases h
    · cases h
  | moveExpert target destination =>
    obtain ⟨k', ht, h⟩ := h
    obtain ⟨rfl, hloc, hd⟩ := h.leaked
    exact ⟨ht, hd, hloc⟩
  | evictUntilWithin tier bound => exact h.not_leaked.elim
  | adoptDeviceWeights k' b =>
    rcases h with h | ⟨m, -, -, h | ⟨b', -, h⟩⟩
    · cases h
    · exact h.not_leaked.elim
    · cases h
  | adoptHostWeights k' b =>
    rcases h with h | ⟨m, -, -, h | ⟨b', -, h⟩⟩
    · cases h
    · exact h.not_leaked.elim
    · cases h
  | prepareResidency k' destination =>
    obtain ⟨m, -, h⟩ := h
    exact h.not_leaked.elim
  | acquireResidentExpert k' =>
    rcases h with h | h
    · obtain ⟨rfl, hloc, -⟩ := h.leaked
      exact ⟨rfl, hloc⟩
    · cases h
  | acquireHostExpert k' =>
    rcases h with h | h
    · obtain ⟨rfl, hloc, -⟩ := h.leaked
      exact ⟨rfl, hloc⟩
    · cases h
  | releaseLease i =>
    obtain ⟨k', h⟩ := h
    cases h
  | updatePrediction k' p c => cases h

theorem next_accounted [SelectsOffered π] {s : ManagerSystem π} {op : Op} {T : Transfers}
    (h : LoadsSettle s op T) (W : Wired s.manager) (A : Accounted s.manager) :
    Accounted (next s op T).manager := by
  refine (next_keeps (I := fun t => Wired t ∧ Accounted t) op T W
    (fun e t t' he hs hI => ⟨hs.wired hI.1, ?_⟩) ⟨W, A⟩).2
  refine hs.accounted (fun k hk => ?_) hI.2
  subst hk
  obtain ⟨m, hm, ⟨n, e, hT⟩, -⟩ := Leaked.found hs
  have hkey := hI.1.keyed k m hm
  exact h k (Op.allows_leaked he) n (loadRequest k m) (congrArg Prod.fst hkey) rfl rfl rfl e hT

omit [CachePolicy π] in
theorem accounted_start (vram ram : Nat) (policy : π) (hasTransfers : Bool) :
    Accounted (ManagerSystem.start vram ram policy hasTransfers).manager where
  balanced := .new vram ram
  shaped _ _ h := by cases h
  live _ _ _ h := by cases h
  apart _ _ _ _ _ h := by cases h
  owned _ _ h := by cases h
  used tier := by cases tier <;> rfl

/-- in every run whose direct loads all settle, the accounts balance after every operation -/
theorem run_accounted [SelectsOffered π] (vram ram : Nat) (policy : π) (hasTransfers : Bool)
    (ops : List (Op × Transfers))
    (h : Meets LoadsSettle (ManagerSystem.start vram ram policy hasTransfers) ops) :
    Accounted (run (ManagerSystem.start vram ram policy hasTransfers) ops).manager :=
  (run_keeps (I := fun s => Wired s.manager ∧ Accounted s.manager)
    (fun _ op T hok hI => ⟨next_wired op T hI.1, next_accounted hok hI.1 hI.2⟩) ops _ h
    ⟨wired_start vram ram policy hasTransfers, accounted_start vram ram policy hasTransfers⟩).2

/-! ## the load that is rethrown -/

/-- a registration and a request, whose load comes to what `T` says -/
def loadRun (T : Transfers) : List (Op × Transfers) :=
  [(.registerExpert sampleExpert, T), (.requestExpert (.layered (0, 0)), T)]

theorem run_accounted_sample :
    Accounted (run (ManagerSystem.start 8 8 ({} : LruCachePolicy) true)
      (loadRun delivering)).manager := by
  refine run_accounted 8 8 ({} : LruCachePolicy) true (loadRun delivering) (meets_of_forall ?_ _)
  intro s op T hmem k _ n r _ _ _ _ e h
  have hT : T = delivering := by
    rcases List.mem_pair.mp hmem with h | h
    · exact congrArg Prod.snd h
    · exact congrArg Prod.snd h
  rw [hT] at h
  cases h

/-- after one request whose load is rethrown four bytes of RAM are in use and no expert is there -/
theorem not_accounted_after_rethrow :
    ¬ ∀ ops : List (Op × Transfers),
      Accounted (run (ManagerSystem.start 8 8 ({} : LruCachePolicy) true) ops).manager := by
  intro h
  have hu := (h (loadRun rethrowing)).used .Ram
  revert hu
  decide

end ExpertManager

end HyperMoE
