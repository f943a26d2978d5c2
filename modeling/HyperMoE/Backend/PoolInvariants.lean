import HyperMoE.Backend.CudaMemoryPool

/-!
# What the pool's counters and tables say

A block that a call has taken, and one that it has entered without a buffer for it, are in the hands
of the call.  With what is in hand, every primitive keeps `Sound`; between the steps no call has
anything in hand.

* `Hand`, `Sound`             the invariant, while a call goes on;
* `sound_reuse` ... `sound_free`   what the primitives do to it;
* `wp_acquire`                what `acquire` returns;
* `PoolHolds`                 the property of a state between the steps;
* `run_poolHolds`             it holds after every run.
-/

namespace HyperMoE.Backend.CudaMemoryPool

open Lib Lib.Fallible

variable {s s' : CudaMemoryPool} {p : Pointer} {c : Nat}

/-! ## the invariant -/

inductive Hand where
  | empty
  /-- a block that is in no table -/
  | taken (pointer : Pointer) (capacity : Nat)
  /-- an active block that has no buffer -/
  | entered (pointer : Pointer) (capacity : Nat)

def Hand.bytes : Hand → Nat
  | .taken _ capacity => capacity
  | _ => 0

def Hand.owned : Hand → Nat
  | .entered _ capacity => capacity
  | _ => 0

def Hand.pointers : Hand → List Pointer
  | .taken pointer _ => [pointer]
  | _ => []

/-- all the blocks, each in its place -/
def places (h : Hand) (s : CudaMemoryPool) : List Pointer :=
  s.activeBlocks.keys ++ (s.freeBlocks.map Prod.snd ++ (s.releasing ++ h.pointers))

structure Sound (h : Hand) (s : CudaMemoryPool) : Prop where
  allocated : s.statistics.allocatedBytes =
    s.statistics.activeBytes + s.statistics.freeBytes + h.bytes
  active : s.statistics.activeBytes = Table.total id s.activeBlocks
  free : s.statistics.freeBytes = weight Prod.fst s.freeBlocks
  cached : s.statistics.freeBytes ≤ s.maximumCachedBytes
  peak : s.statistics.activeBytes ≤ s.statistics.peakUsageBytes
  blocks : (places h s).Perm s.device
  nodup : s.device.Nodup
  noDoubleFree : s.doubleFree = false
  alignedActive : ∀ p c, s.activeBlocks.lookup p = some c → alignment ∣ c
  alignedFree : ∀ block ∈ s.freeBlocks, alignment ∣ block.1
  taken : ∀ p c, h = .taken p c → alignment ∣ c
  entered : ∀ p c, h = .entered p c → s.activeBlocks.lookup p = some c ∧
    ∀ id b, s.buffers.lookup id = some b → b.data ≠ p
  held : ∀ id b, s.buffers.lookup id = some b →
    s.activeBlocks.lookup b.data = some b.capacity ∧ b.size ≤ b.capacity
  once : ∀ id id' b b', s.buffers.lookup id = some b → s.buffers.lookup id' = some b' →
    b.data = b'.data → id = id'
  owned : s.statistics.activeBytes = Table.total CudaBuffer.capacity s.buffers + h.owned
  names : ∀ id b, s.buffers.lookup id = some b → id < s.nextBuffer
  down : s.down = true → s.accepting = false ∧ s.freeBlocks = []

theorem alignedSize_eq_ok {size capacity : Nat} (h : alignedSize size = .ok capacity) :
    size ≤ capacity ∧ alignment ∣ capacity := by
  unfold alignedSize at h
  split at h
  · exact nomatch h
  · split at h
    · exact nomatch h
    · obtain rfl := Except.ok.inj h
      refine ⟨?_, Nat.dvd_mul_left ..⟩
      unfold alignment
      omega

theorem mem_of_lowerBound {blocks : List (Nat × Pointer)} {block : Nat × Pointer}
    (h : lowerBound c blocks = some block) : block ∈ blocks ∧ c ≤ block.1 :=
  ⟨List.mem_of_find?_eq_some h, by simpa using List.find?_some h⟩

theorem emplace_perm (block : Nat × Pointer) (blocks : List (Nat × Pointer)) :
    (emplace block blocks).Perm (block :: blocks) := by
  induction blocks with
  | nil => exact .refl _
  | cons b rest ih =>
    unfold emplace
    split
    · exact .refl _
    · exact (ih.cons b).trans (.swap ..)

/-- the block in hand, and the others in their places -/
theorem places_taken (p : Pointer) (c : Nat) (s : CudaMemoryPool) :
    (places (.taken p c) s).Perm (p :: places .empty s) := by
  show (_ ++ (_ ++ (_ ++ [p]))).Perm (p :: (_ ++ (_ ++ (_ ++ []))))
  rw [List.append_nil, ← List.append_assoc, ← List.append_assoc, ← List.append_assoc]
  exact List.perm_append_singleton ..

/-! ## taking a block -/

/-- a taken block is in no table -/
theorem Sound.not_active (h : Sound (.taken p c) s) : s.activeBlocks.lookup p = none := by
  have hnodup := h.blocks.nodup_iff.mpr h.nodup
  rw [AList.lookup_eq_none]
  intro hp
  obtain ⟨-, -, hdisjoint⟩ := List.nodup_append.mp hnodup
  exact hdisjoint p hp p (by simp [Hand.pointers]) rfl

theorem sound_reuse {block : Nat × Pointer} (h : Sound .empty s) (hb : block ∈ s.freeBlocks) :
    Sound (.taken block.2 block.1) (reuse block s) := by
  have hweight := weight_erase Prod.fst hb
  have hfree : s.statistics.freeBytes = block.1 + weight Prod.fst (s.freeBlocks.erase block) :=
    h.free.trans hweight.symm
  have hperm : (s.freeBlocks.map Prod.snd).Perm
      (block.2 :: (s.freeBlocks.erase block).map Prod.snd) :=
    (List.perm_cons_erase hb).map Prod.snd
  refine { h with
    allocated := ?_, free := ?_, cached := ?_, blocks := ?_, alignedFree := ?_, taken := ?_
    entered := ?_, down := ?_ }
  · have hallocated : s.statistics.allocatedBytes =
      s.statistics.activeBytes + s.statistics.freeBytes := h.allocated
    show s.statistics.allocatedBytes =
      s.statistics.activeBytes + (s.statistics.freeBytes - block.1) + block.1
    omega
  · show s.statistics.freeBytes - block.1 = weight Prod.fst (s.freeBlocks.erase block)
    omega
  · exact Nat.le_trans (Nat.sub_le ..) h.cached
  · refine ((places_taken ..).trans ?_).trans h.blocks
    show (block.2 :: (s.activeBlocks.keys ++ ((s.freeBlocks.erase block).map Prod.snd ++ _))).Perm
      (s.activeBlocks.keys ++ (s.freeBlocks.map Prod.snd ++ _))
    exact List.perm_middle.symm.trans ((hperm.append_right _).append_left _).symm
  · exact fun b hb' => h.alignedFree b (List.mem_of_mem_erase hb')
  · rintro p c ⟨⟩
    exact h.alignedFree block hb
  · rintro p c ⟨⟩
  · intro hdown
    rw [(h.down hdown).2] at hb
    exact nomatch hb

theorem sound_enlarge (h : Sound .empty s) (hp : p ∉ s.device) (hc : alignment ∣ c) :
    Sound (.taken p c) (enlarge p c s) := by
  refine { h with
    allocated := ?_, blocks := ?_, nodup := ?_, taken := ?_, entered := ?_ }
  · exact congrArg (· + c) h.allocated
  · exact (places_taken p c s).trans (h.blocks.cons p)
  · exact List.nodup_cons.mpr ⟨hp, h.nodup⟩
  · rintro p c ⟨⟩
    exact hc
  · rintro p c ⟨⟩

theorem sound_activate (h : Sound (.taken p c) s) : Sound (.entered p c) (activate p c s) := by
  have hnew := h.not_active
  have hlookup : ∀ q, (s.activeBlocks.insert p c).lookup q =
      if q = p then some c else s.activeBlocks.lookup q := fun q => Table.lookup_insert' q p c _
  refine { h with
    allocated := ?_, active := ?_, peak := ?_, blocks := ?_, alignedActive := ?_, taken := ?_
    entered := ?_, held := ?_, owned := congrArg (· + c) h.owned }
  · have hallocated : s.statistics.allocatedBytes =
      s.statistics.activeBytes + s.statistics.freeBytes + c := h.allocated
    show s.statistics.allocatedBytes = s.statistics.activeBytes + c + s.statistics.freeBytes
    omega
  · show s.statistics.activeBytes + c = Table.total id (s.activeBlocks.insert p c)
    rw [Table.total_insert_new id hnew, h.active]
    rfl
  · exact Nat.le_max_right ..
  · refine List.Perm.trans ?_ ((places_taken p c s).symm.trans h.blocks)
    show ((s.activeBlocks.insert p c).keys ++ _).Perm (p :: (s.activeBlocks.keys ++ _))
    rw [AList.keys_insert, List.erase_of_not_mem (AList.lookup_eq_none.mp hnew)]
    exact .refl _
  · intro q d hq
    replace hq : (s.activeBlocks.insert p c).lookup q = some d := hq
    rw [hlookup] at hq
    split at hq
    · exact Option.some.inj hq ▸ h.taken p c rfl
    · exact h.alignedActive q d hq
  · rintro p c ⟨⟩
  · rintro q d ⟨⟩
    refine ⟨(hlookup p).trans (if_pos rfl), fun id b hb hdata => ?_⟩
    have hactive := (h.held id b hb).1
    rw [hdata, hnew] at hactive
    exact nomatch hactive
  · intro id b hb
    obtain ⟨hactive, hsize⟩ := h.held id b hb
    refine ⟨?_, hsize⟩
    show (s.activeBlocks.insert p c).lookup b.data = _
    rw [hlookup, if_neg, hactive]
    intro hdata
    rw [hdata, hnew] at hactive
    exact nomatch hactive

/-! ## giving a block back -/

theorem backendFree_of_mem (h : p ∈ s.device) :
    s.backendFree p = { s with device := s.device.erase p } := if_pos h

theorem sound_abandon (wasReused : Bool) (h : Sound (.taken p c) s) :
    Sound .empty (abandon p c wasReused s) := by
  have hperm : s.device.Perm (p :: places .empty s) := h.blocks.symm.trans (places_taken p c s)
  have hstats : ∀ stats : CudaMemoryPoolStats,
      (uncount wasReused stats).allocatedBytes = stats.allocatedBytes ∧
      (uncount wasReused stats).activeBytes = stats.activeBytes ∧
      (uncount wasReused stats).freeBytes = stats.freeBytes ∧
      (uncount wasReused stats).peakUsageBytes = stats.peakUsageBytes := by
    intro stats
    cases wasReused <;> exact ⟨rfl, rfl, rfl, rfl⟩
  obtain ⟨hallocated, hactive, hfree, hpeak⟩ := hstats { s.statistics with
    allocatedBytes := s.statistics.allocatedBytes - c }
  unfold abandon
  rw [backendFree_of_mem (hperm.mem_iff.mpr List.mem_cons_self)]
  refine { h with
    allocated := ?_, active := hactive.trans h.active, free := hfree.trans h.free
    cached := hfree.trans_le h.cached, peak := ?_, blocks := ?_, nodup := h.nodup.erase p
    taken := ?_, entered := ?_, owned := hactive.trans h.owned }
  · have hbefore : s.statistics.allocatedBytes =
      s.statistics.activeBytes + s.statistics.freeBytes + c := h.allocated
    show (uncount wasReused _).allocatedBytes =
      (uncount wasReused _).activeBytes + (uncount wasReused _).freeBytes
    rw [hallocated, hactive, hfree]
    show s.statistics.allocatedBytes - c = s.statistics.activeBytes + s.statistics.freeBytes
    omega
  · show (uncount wasReused _).activeBytes ≤ (uncount wasReused _).peakUsageBytes
    rw [hactive, hpeak]
    exact h.peak
  · have herase := (hperm.erase p).symm
    rwa [List.erase_cons_head] at herase
  · rintro p c ⟨⟩
  · rintro p c ⟨⟩

theorem emplaced_weight (block : Nat × Pointer) (blocks : List (Nat × Pointer)) :
    weight Prod.fst (emplace block blocks) = weight Prod.fst blocks + block.1 := by
  rw [weight_perm _ (emplace_perm block blocks), weight_cons, Nat.add_comm]

theorem sound_release (stores : Bool) (h : Sound (.entered p c) s) :
    Sound .empty (release p stores s) := by
  obtain ⟨hp, hbuffers⟩ := h.entered p c rfl
  have hallocated : s.statistics.allocatedBytes =
    s.statistics.activeBytes + s.statistics.freeBytes := h.allocated
  have htotal := Table.total_erase id hp
  have hactive : s.statistics.activeBytes = Table.total id (s.activeBlocks.erase p) + c :=
    h.active.trans htotal.symm
  have hkeys : (p :: (s.activeBlocks.erase p).keys).Perm s.activeBlocks.keys := by
    rw [AList.keys_erase]
    refine (List.perm_cons_erase ?_).symm
    exact AList.lookup_isSome.mp (by rw [hp]; rfl)
  have hlookup : ∀ q, (s.activeBlocks.erase p).lookup q =
      if q = p then none else s.activeBlocks.lookup q := fun q => Table.lookup_erase' q p _
  -- what both branches have in common
  have halignedActive : ∀ q d, (s.activeBlocks.erase p).lookup q = some d → alignment ∣ d := by
    intro q d hq
    rw [hlookup] at hq
    split at hq
    · exact nomatch hq
    · exact h.alignedActive q d hq
  have hheld : ∀ id b, s.buffers.lookup id = some b →
      (s.activeBlocks.erase p).lookup b.data = some b.capacity ∧ b.size ≤ b.capacity := by
    intro id b hb
    rw [hlookup, if_neg (hbuffers id b hb)]
    exact h.held id b hb
  have howned : s.statistics.activeBytes - c = Table.total CudaBuffer.capacity s.buffers + 0 := by
    have hbefore : s.statistics.activeBytes = Table.total CudaBuffer.capacity s.buffers + c := h.owned
    omega
  have hpeak : s.statistics.activeBytes - c ≤ s.statistics.peakUsageBytes :=
    Nat.le_trans (Nat.sub_le ..) h.peak
  unfold release
  rw [hp]
  show Sound .empty (if _ then _ else _)
  split
  · next hcache =>
    obtain ⟨haccepting, -, hroom⟩ := of_decide_eq_true hcache.1
    replace hroom : c ≤ s.maximumCachedBytes - s.statistics.freeBytes := hroom
    refine { h with
      allocated := ?_, active := ?_, free := ?_, cached := ?_, peak := hpeak, blocks := ?_
      alignedActive := halignedActive, alignedFree := ?_, taken := ?_, entered := ?_
      held := hheld, owned := howned, down := ?_ }
    · show s.statistics.allocatedBytes =
        s.statistics.activeBytes - c + (s.statistics.freeBytes + c)
      omega
    · show s.statistics.activeBytes - c = Table.total id (s.activeBlocks.erase p)
      omega
    · show s.statistics.freeBytes + c = weight Prod.fst (emplace (c, p) s.freeBlocks)
      rw [emplaced_weight, h.free]
    · have := h.cached
      show s.statistics.freeBytes + c ≤ s.maximumCachedBytes
      omega
    · refine List.Perm.trans ?_ h.blocks
      show ((s.activeBlocks.erase p).keys ++ ((emplace (c, p) s.freeBlocks).map Prod.snd ++ _)).Perm
        (s.activeBlocks.keys ++ (s.freeBlocks.map Prod.snd ++ _))
      have hfree := (emplace_perm (c, p) s.freeBlocks).map Prod.snd
      refine ((hfree.append_right _).append_left _).trans ?_
      exact List.perm_middle.trans (hkeys.append_right _)
    · intro block hblock
      rcases List.mem_cons.mp ((emplace_perm (c, p) s.freeBlocks).mem_iff.mp hblock) with rfl | hblock
      · exact h.alignedActive p c hp
      · exact h.alignedFree block hblock
    · rintro p c ⟨⟩
    · rintro p c ⟨⟩
    · exact fun hdown => absurd (haccepting.symm.trans (h.down hdown).1) (by simp)
  · refine { h with
      allocated := ?_, active := ?_, peak := hpeak, blocks := ?_
      alignedActive := halignedActive, taken := ?_, entered := ?_
      held := hheld, owned := howned }
    · show s.statistics.allocatedBytes - c = s.statistics.activeBytes - c + s.statistics.freeBytes
      omega
    · show s.statistics.activeBytes - c = Table.total id (s.activeBlocks.erase p)
      omega
    · refine List.Perm.trans ?_ h.blocks
      show ((s.activeBlocks.erase p).keys ++ (_ ++ (p :: s.releasing ++ []))).Perm
        (s.activeBlocks.keys ++ (_ ++ (s.releasing ++ [])))
      refine (List.perm_middle.append_left _).trans ?_
      exact List.perm_middle.trans (hkeys.append_right _)
    · rintro p c ⟨⟩
    · rintro p c ⟨⟩

theorem sound_drain (h : Sound .empty s) : Sound .empty s.drainRound := by
  unfold drainRound
  split
  · exact h
  · next capacity pointer rest hblocks =>
    have hallocated : s.statistics.allocatedBytes =
      s.statistics.activeBytes + s.statistics.freeBytes := h.allocated
    have hfree : s.statistics.freeBytes = capacity + weight Prod.fst rest := by
      rw [h.free, hblocks, weight_cons]
    refine { h with
      allocated := ?_, free := ?_, cached := ?_, blocks := ?_, alignedFree := ?_, down := ?_ }
    · show s.statistics.allocatedBytes - capacity =
        s.statistics.activeBytes + (s.statistics.freeBytes - capacity)
      omega
    · show s.statistics.freeBytes - capacity = weight Prod.fst rest
      omega
    · exact Nat.le_trans (Nat.sub_le ..) h.cached
    · refine List.Perm.trans ?_ h.blocks
      unfold places
      rw [hblocks]
      exact List.perm_middle.append_left _
    · exact fun block hb => h.alignedFree block (hblocks ▸ List.mem_cons_of_mem _ hb)
    · intro hdown
      have hnone := (h.down hdown).2
      rw [hblocks] at hnone
      exact nomatch hnone

theorem sound_free (h : Sound .empty s) (hp : p ∈ s.releasing) :
    Sound .empty { s.backendFree p with releasing := s.releasing.erase p } := by
  have hmoved : (places .empty s).Perm (p :: places .empty { s with releasing := s.releasing.erase p }) := by
    show (_ ++ (_ ++ (s.releasing ++ []))).Perm (p :: (_ ++ (_ ++ (s.releasing.erase p ++ []))))
    rw [List.append_nil, List.append_nil, ← List.append_assoc, ← List.append_assoc]
    exact ((List.perm_cons_erase hp).append_left _).trans List.perm_middle
  have hperm := h.blocks.symm.trans hmoved
  rw [backendFree_of_mem (hperm.mem_iff.mpr List.mem_cons_self)]
  refine { h with blocks := ?_, nodup := h.nodup.erase p }
  have herase := (hperm.erase p).symm
  rwa [List.erase_cons_head] at herase

/-! ## acquire -/

/-- what `acquire` has taken for a request, from the cache or new -/
def Serves (requested : Nat) (s : CudaMemoryPool) (c : Nat) : Prop :=
  s.accepting = true ∧ ∃ capacity, alignedSize requested = .ok capacity ∧
    (c = capacity ∨ ∃ block, lowerBound capacity s.freeBlocks = some block ∧ c = block.1)

theorem Serves.le {requested : Nat} (h : Serves requested s c) : requested ≤ c := by
  obtain ⟨-, capacity, hcapacity, rfl | ⟨block, hblock, rfl⟩⟩ := h
  · exact (alignedSize_eq_ok hcapacity).1
  · exact Nat.le_trans (alignedSize_eq_ok hcapacity).1 (mem_of_lowerBound hblock).2

/-- the part of the pool that the critical sections do not touch -/
def outside (s : CudaMemoryPool) : Table BufferId CudaBuffer × BufferId × Nat :=
  (s.buffers, s.nextBuffer, s.maximumCachedBytes)

theorem backendFree_outside (p : Pointer) (s : CudaMemoryPool) :
    outside (s.backendFree p) = outside s := by
  unfold backendFree
  split <;> rfl

theorem wp_enter (wasReused stores : Bool) (h : Sound (.taken p c) s) :
    wp (enter p c wasReused stores) (fun r s' => outside s' = outside s ∧ match r with
      | .ok block => block = (p, c) ∧ Sound (.entered p c) s'
      | .error _ => Sound .empty s') s := by
  unfold enter
  simp only [wp_bind, wp_read]
  split
  · exact ⟨rfl, rfl, sound_activate h⟩
  · exact ⟨backendFree_outside p s, sound_abandon wasReused h⟩

theorem wp_acquire {requested : Nat} {outcome : Except Exn Pointer} (stores : Bool)
    (h : Sound .empty s) (hhonest : s.honest outcome = true) :
    wp (acquire requested outcome stores) (fun r s' => outside s' = outside s ∧ match r with
      | .ok block => Serves requested s block.2 ∧ Sound (.entered block.1 block.2) s'
      | .error _ => Sound .empty s') s := by
  unfold acquire
  rw [wp_bind, wp_settle]
  cases hcapacity : alignedSize requested with
  | error e => exact ⟨rfl, h⟩
  | ok capacity =>
    simp only [wp_bind, wp_read, wp_throwIf]
    split
    · exact ⟨trivial, h⟩
    · next hopen =>
      have haccepting : s.accepting = true := by simpa using hopen
      cases hblock : lowerBound capacity s.freeBlocks with
      | some block =>
        show wp (update (reuse block) >>= fun _ => enter block.2 block.1 true stores) _ s
        rw [wp_bind, wp_update]
        refine wp_mono (wp_enter true stores (sound_reuse h (mem_of_lowerBound hblock).1)) ?_
        rintro r s' ⟨houtside, hr⟩
        refine ⟨houtside, ?_⟩
        cases r with
        | error e => exact hr
        | ok entered =>
          obtain ⟨rfl, hentered⟩ := hr
          exact ⟨⟨haccepting, capacity, hcapacity, .inr ⟨block, hblock, rfl⟩⟩, hentered⟩
      | none =>
        cases outcome with
        | error e => exact ⟨rfl, h⟩
        | ok pointer =>
          have haligned := (alignedSize_eq_ok hcapacity).2
          have htaken := sound_enlarge h (of_decide_eq_true hhonest) haligned
          show wp (update (enlarge pointer capacity) >>= fun _ => enter pointer capacity false stores)
            _ s
          rw [wp_bind, wp_update]
          refine wp_mono (wp_enter false stores htaken) ?_
          rintro r s' ⟨houtside, hr⟩
          refine ⟨houtside, ?_⟩
          cases r with
          | error e => exact hr
          | ok entered =>
            obtain ⟨rfl, hentered⟩ := hr
            exact ⟨⟨haccepting, capacity, hcapacity, .inl rfl⟩, hentered⟩

/-! ## buffers -/

theorem sound_construct {size : Nat} (h : Sound (.entered p c) s) (hsize : size ≤ c) :
    Sound .empty (construct size (p, c) s) := by
  obtain ⟨hp, hbuffers⟩ := h.entered p c rfl
  have hlookup : ∀ id, (s.buffers.insert s.nextBuffer ⟨p, size, c⟩).lookup id =
      if id = s.nextBuffer then some ⟨p, size, c⟩ else s.buffers.lookup id :=
    fun id => Table.lookup_insert' id _ _ _
  have hcases : ∀ id b, (s.buffers.insert s.nextBuffer ⟨p, size, c⟩).lookup id = some b →
      (id = s.nextBuffer ∧ b = ⟨p, size, c⟩) ∨ s.buffers.lookup id = some b := by
    intro id b hb
    rw [hlookup] at hb
    split at hb
    · next hid => exact .inl ⟨hid, (Option.some.inj hb).symm⟩
    · exact .inr hb
  refine { h with
    taken := ?_, entered := ?_, held := ?_, once := ?_, owned := ?_, names := ?_ }
  · rintro p c ⟨⟩
  · rintro p c ⟨⟩
  · intro id b hb
    rcases hcases id b hb with ⟨-, rfl⟩ | hb
    · exact ⟨hp, hsize⟩
    · exact h.held id b hb
  · intro id id' b b' hb hb' hdata
    rcases hcases id b hb with ⟨rfl, rfl⟩ | hb
    · rcases hcases id' b' hb' with ⟨rfl, -⟩ | hb'
      · rfl
      · exact absurd hdata.symm (hbuffers id' b' hb')
    · rcases hcases id' b' hb' with ⟨-, rfl⟩ | hb'
      · exact absurd hdata (hbuffers id b hb)
      · exact h.once id id' b b' hb hb' hdata
  · have hnew : s.buffers.lookup s.nextBuffer = none := by
      cases hb : s.buffers.lookup s.nextBuffer with
      | none => rfl
      | some b => exact absurd (h.names _ b hb) (Nat.lt_irrefl _)
    have hinsert := Table.total_insert_new CudaBuffer.capacity (w := (⟨p, size, c⟩ : CudaBuffer)) hnew
    exact h.owned.trans hinsert.symm
  · intro id b hb
    rcases hcases id b hb with ⟨rfl, -⟩ | hb
    · exact Nat.lt_succ_self _
    · exact Nat.lt_succ_of_lt (h.names id b hb)

/-- a buffer lets its block go -/
theorem sound_let {id : BufferId} {b : CudaBuffer} (h : Sound .empty s)
    (hb : s.buffers.lookup id = some b) :
    Sound (.entered b.data b.capacity) { s with buffers := s.buffers.erase id } := by
  have hcases : ∀ id' b', (s.buffers.erase id).lookup id' = some b' →
      id' ≠ id ∧ s.buffers.lookup id' = some b' := by
    intro id' b' hb'
    rw [Table.lookup_erase'] at hb'
    split at hb'
    · exact nomatch hb'
    · next hne => exact ⟨hne, hb'⟩
  refine { h with
    taken := ?_, entered := ?_, held := ?_, once := ?_, owned := ?_, names := ?_ }
  · rintro p c ⟨⟩
  · rintro p c ⟨⟩
    refine ⟨(h.held id b hb).1, fun id' b' hb' hdata => ?_⟩
    obtain ⟨hne, hb'⟩ := hcases id' b' hb'
    exact hne (h.once id' id b' b hb' hb hdata)
  · exact fun id' b' hb' => h.held id' b' (hcases id' b' hb').2
  · exact fun id₁ id₂ b₁ b₂ hb₁ hb₂ => h.once id₁ id₂ b₁ b₂ (hcases _ _ hb₁).2 (hcases _ _ hb₂).2
  · exact h.owned.trans (Table.total_erase CudaBuffer.capacity hb).symm
  · exact fun id' b' hb' => h.names id' b' (hcases id' b' hb').2

theorem sound_reset (id : BufferId) (stores : Bool) (h : Sound .empty s) :
    Sound .empty (s.reset id stores) := by
  unfold reset
  cases hb : s.buffers.lookup id with
  | none => exact h
  | some b => exact sound_release stores (sound_let h hb)

/-- a release is not about the buffers -/
theorem release_buffers (p : Pointer) (stores : Bool) (s : CudaMemoryPool) :
    (release p stores s).buffers = s.buffers ∧ (release p stores s).nextBuffer = s.nextBuffer := by
  unfold release
  split
  · exact ⟨rfl, rfl⟩
  · show (if _ then _ else _ : CudaMemoryPool).buffers = _ ∧
      (if _ then _ else _ : CudaMemoryPool).nextBuffer = _
    split <;> exact ⟨rfl, rfl⟩

theorem reset_buffers (id : BufferId) (stores : Bool) (s : CudaMemoryPool) :
    (s.reset id stores).buffers.lookup id = none ∧
      (s.reset id stores).nextBuffer = s.nextBuffer := by
  unfold reset
  cases hb : s.buffers.lookup id with
  | none => exact ⟨hb, rfl⟩
  | some b =>
    obtain ⟨hbuffers, hnext⟩ :=
      release_buffers b.data stores { s with buffers := s.buffers.erase id }
    refine ⟨?_, hnext⟩
    show (release b.data stores _).buffers.lookup id = none
    rw [hbuffers]
    exact AList.lookup_erase id s.buffers

/-- a block changes its owner; `n` names are known afterwards -/
theorem sound_take {target : BufferId} (source : BufferId) {n : BufferId} (h : Sound .empty s)
    (htarget : s.buffers.lookup target = none) (hn : target < n) (hnext : s.nextBuffer ≤ n) :
    Sound .empty { s.take target source with nextBuffer := n } := by
  unfold take
  cases hb : s.buffers.lookup source with
  | none =>
    exact { h with names := fun id b hid => Nat.lt_of_lt_of_le (h.names id b hid) hnext }
  | some b =>
    have hlookup : ∀ id, ((s.buffers.erase source).insert target b).lookup id =
        if id = target then some b else if id = source then none else s.buffers.lookup id := by
      intro id
      rw [Table.lookup_insert', Table.lookup_erase']
    -- every owner had its block before, under its own name or under that of the source
    have hcases : ∀ id b', ((s.buffers.erase source).insert target b).lookup id = some b' →
        ∃ id₀, s.buffers.lookup id₀ = some b' ∧
          ((id = target ∧ id₀ = source) ∨ (id ≠ target ∧ id₀ = id ∧ id ≠ source)) := by
      intro id b' hid
      rw [hlookup] at hid
      split at hid
      · next heq => exact ⟨source, Option.some.inj hid ▸ hb, .inl ⟨heq, rfl⟩⟩
      · next hne =>
        split at hid
        · exact nomatch hid
        · next hsource => exact ⟨id, hid, .inr ⟨hne, rfl, hsource⟩⟩
    refine { h with
      entered := ?_, held := ?_, once := ?_, owned := ?_, names := ?_ }
    · rintro p c ⟨⟩
    · intro id b' hid
      obtain ⟨id₀, h₀, -⟩ := hcases id b' hid
      exact h.held id₀ b' h₀
    · intro id id' b₁ b₂ h₁ h₂ hdata
      obtain ⟨id₁, h₁, hid₁⟩ := hcases id b₁ h₁
      obtain ⟨id₂, h₂, hid₂⟩ := hcases id' b₂ h₂
      have hsame := h.once id₁ id₂ b₁ b₂ h₁ h₂ hdata
      rcases hid₁ with ⟨rfl, rfl⟩ | ⟨-, rfl, hne₁⟩
      · rcases hid₂ with ⟨rfl, -⟩ | ⟨-, rfl, hne₂⟩
        · rfl
        · exact absurd hsame.symm hne₂
      · rcases hid₂ with ⟨-, rfl⟩ | ⟨-, rfl, -⟩
        · exact absurd hsame hne₁
        · exact hsame
    · have hnone : (s.buffers.erase source).lookup target = none := by
        rw [Table.lookup_erase', htarget, ite_self]
      have hmoved := (Table.total_insert_new CudaBuffer.capacity hnone).trans
        (Table.total_erase CudaBuffer.capacity hb)
      exact h.owned.trans hmoved.symm
    · intro id b' hid
      obtain ⟨id₀, h₀, ⟨rfl, -⟩ | ⟨-, rfl, -⟩⟩ := hcases id b' hid
      · exact hn
      · exact Nat.lt_of_lt_of_le (h.names id₀ b' h₀) hnext

theorem sound_moveConstruct {source : BufferId} (h : Sound .empty s) :
    Sound .empty (s.moveConstruct source) := by
  refine sound_take source h ?_ (Nat.lt_succ_self _) (Nat.le_succ _)
  cases hb : s.buffers.lookup s.nextBuffer with
  | none => rfl
  | some b => exact absurd (h.names _ b hb) (Nat.lt_irrefl _)

theorem sound_moveAssign {target source : BufferId} {stores : Bool} (h : Sound .empty s)
    (htarget : target < s.nextBuffer) : Sound .empty (s.moveAssign target source stores) := by
  unfold moveAssign
  split
  · exact h
  · obtain ⟨hnone, hnext⟩ := reset_buffers target stores s
    have htaken := sound_take source (sound_reset target stores h) hnone (hnext ▸ htarget)
      (Nat.le_refl _)
    refine Eq.subst ?_ htaken
    unfold take
    split <;> rfl

/-! ## what a step does -/

/-- the buffers of the pool, and perhaps one more for a request of its size -/
def Grown (requested : Nat) (s s' : CudaMemoryPool) : Prop :=
  s'.buffers = s.buffers ∨ ∃ b : CudaBuffer, b.size = requested ∧ Serves requested s b.capacity ∧
    s'.buffers = s.buffers.insert s.nextBuffer b

theorem wp_allocate {requested : Nat} {outcome : Except Exn Pointer} (stores : Bool)
    (h : Sound .empty s) (hhonest : s.honest outcome = true) :
    wp (allocate requested outcome stores)
      (fun _ s' => Sound .empty s' ∧ Grown requested s s') s := by
  unfold allocate
  refine wp_seq (wp_acquire stores h hhonest) ?_ ?_
  · rintro block s' ⟨houtside, hserves, hentered⟩
    obtain ⟨hbuffers, houtside⟩ := Prod.mk.inj houtside
    obtain ⟨hnext, -⟩ := Prod.mk.inj houtside
    refine ⟨sound_construct hentered hserves.le, .inr ⟨⟨block.1, requested, block.2⟩, rfl, hserves, ?_⟩⟩
    show s'.buffers.insert s'.nextBuffer _ = _
    rw [hbuffers, hnext]
  · rintro e s' ⟨houtside, hs'⟩
    exact ⟨hs', .inl (Prod.mk.inj houtside).1⟩

theorem wp_allocateDeviceBuffer {requested : Nat} {outcome : Except Exn Pointer}
    (stores wraps caches : Bool) (h : Sound .empty s) (hhonest : s.honest outcome = true) :
    wp (allocateDeviceBuffer requested outcome stores wraps caches)
      (fun _ s' => Sound .empty s' ∧ Grown requested s s') s := by
  cases wraps with
  | true => exact wp_allocate stores h hhonest
  | false =>
    unfold allocateDeviceBuffer
    refine wp_seq (wp_acquire stores h hhonest) ?_ ?_
    · rintro block s' ⟨houtside, -, hentered⟩
      refine ⟨sound_release caches hentered, .inl ?_⟩
      exact (release_buffers block.1 caches s').1.trans (Prod.mk.inj houtside).1
    · rintro e s' ⟨houtside, hs'⟩
      exact ⟨hs', .inl (Prod.mk.inj houtside).1⟩

theorem step_sound {a : Action} (ha : step a s = some s') (h : Sound .empty s) :
    Sound .empty s' := by
  unfold step at ha
  split at ha
  · next hallows =>
    obtain rfl := Option.some.inj ha
    cases a with
    | allocate size outcome stores => exact (wp_allocate stores h hallows).1
    | allocateDeviceBuffer size outcome stores wraps caches =>
      exact (wp_allocateDeviceBuffer stores wraps caches h hallows).1
    | moveConstruct source => exact sound_moveConstruct h
    | moveAssign target source caches =>
      exact sound_moveAssign h (of_decide_eq_true hallows).1
    | reset id caches => exact sound_reset id caches h
    | drain => exact sound_drain h
    | shutdown => exact { h with down := fun hdown => ⟨rfl, (h.down hdown).2⟩ }
    | shutdownReturns => exact { h with down := fun _ => of_decide_eq_true hallows }
    | free pointer => exact sound_free h (of_decide_eq_true hallows)
  · exact nomatch ha

theorem sound_new (maximumCachedBytes : Nat) : Sound .empty { maximumCachedBytes } where
  allocated := rfl
  active := rfl
  free := rfl
  cached := Nat.zero_le _
  peak := Nat.le_refl 0
  blocks := .refl _
  nodup := List.nodup_nil
  noDoubleFree := rfl
  alignedActive := fun _ _ hp => nomatch hp
  alignedFree := fun _ hb => nomatch hb
  taken := by rintro p c ⟨⟩
  entered := by rintro p c ⟨⟩
  held := fun _ _ hb => nomatch hb
  once := fun _ _ _ _ hb => nomatch hb
  owned := rfl
  names := fun _ _ hb => nomatch hb
  down := fun hdown => nomatch hdown

theorem run_sound {maximumCachedBytes : Nat} {as : List Action}
    (hrun : run maximumCachedBytes as = some s) : Sound .empty s :=
  Runs.run_invariant (fun _ _ _ => step_sound) (sound_new maximumCachedBytes) hrun

/-! ## the property of a state between the steps -/

structure PoolHolds (s : CudaMemoryPool) : Prop where
  allocated : s.statistics.allocatedBytes = s.statistics.activeBytes + s.statistics.freeBytes
  active : s.statistics.activeBytes = Table.total id s.activeBlocks
  free : s.statistics.freeBytes = weight Prod.fst s.freeBlocks
  cached : s.statistics.freeBytes ≤ s.maximumCachedBytes
  peak : s.statistics.activeBytes ≤ s.statistics.peakUsageBytes
  /-- a pointer is active, cached or neither, and cached once -/
  apart : (s.activeBlocks.keys ++ s.freeBlocks.map Prod.snd).Nodup
  /-- two live buffers have two pointers -/
  once : ∀ id id' b b', s.buffers.lookup id = some b → s.buffers.lookup id' = some b' →
    b.data = b'.data → id = id'
  live : ∀ id b, s.buffers.lookup id = some b →
    s.activeBlocks.lookup b.data = some b.capacity ∧ 256 ∣ b.capacity ∧ b.size ≤ b.capacity
  noDoubleFree : s.doubleFree = false
  down : s.down = true → s.statistics.freeBytes = 0 ∧
    ((∀ id, s.buffers.lookup id = none) → s.statistics.allocatedBytes = 0)

theorem Sound.poolHolds (h : Sound .empty s) : PoolHolds s := by
  have hallocated : s.statistics.allocatedBytes =
    s.statistics.activeBytes + s.statistics.freeBytes := h.allocated
  refine { h with allocated := hallocated, apart := ?_, live := ?_, down := ?_ }
  · have hnodup := h.blocks.nodup_iff.mpr h.nodup
    unfold places at hnodup
    rw [← List.append_assoc] at hnodup
    exact (List.nodup_append.mp hnodup).1
  · intro id b hb
    obtain ⟨hactive, hsize⟩ := h.held id b hb
    exact ⟨hactive, h.alignedActive b.data b.capacity hactive, hsize⟩
  · intro hdown
    have hfree : s.statistics.freeBytes = 0 := by
      rw [h.free, (h.down hdown).2, weight_nil]
    refine ⟨hfree, fun hnone => ?_⟩
    have hactive : s.statistics.activeBytes = 0 := by
      refine h.owned.trans (Table.total_eq_zero _ fun id b hb => ?_)
      rw [hnone id] at hb
      exact nomatch hb
    omega

/-- whatever the calls, their order and the answers of the backend -/
theorem run_poolHolds {maximumCachedBytes : Nat} {as : List Action}
    (hrun : run maximumCachedBytes as = some s) : PoolHolds s := (run_sound hrun).poolHolds

/-- a block is cached and used again; the pool goes down while two buffers live -/
theorem run_poolHolds_three_buffers : ∃ s, run 1024 [.allocate 300 (.ok 7) true, .reset 0 true,
    .allocate 1 (.ok 8) true, .allocateDeviceBuffer 700 (.ok 8) true true true, .moveConstruct 1,
    .shutdown, .shutdownReturns, .moveAssign 3 2 true, .reset 3 true, .free 7, .free 8] = some s ∧
      s.down = true ∧ PoolHolds s := by
  have hrun : ∃ s, run 1024 [.allocate 300 (.ok 7) true, .reset 0 true,
      .allocate 1 (.ok 8) true, .allocateDeviceBuffer 700 (.ok 8) true true true, .moveConstruct 1,
      .shutdown, .shutdownReturns, .moveAssign 3 2 true, .reset 3 true, .free 7, .free 8] = some s ∧
        s.down = true := ⟨_, rfl, rfl⟩
  obtain ⟨s, hrun, hdown⟩ := hrun
  exact ⟨s, hrun, hdown, run_poolHolds hrun⟩

end HyperMoE.Backend.CudaMemoryPool
