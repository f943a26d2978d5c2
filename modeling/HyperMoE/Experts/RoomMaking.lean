import Mathlib.Data.Finset.Card
import HyperMoE.Experts.Operations

/-!
# Room-making ends, and makes room

The mutual recursion of `makeRoomLocked` and `moveExpertLocked` never runs out of the fuel it is
given: a round takes its victim out of the tier and nobody enters it.

* `located tier s`        the experts located in a tier;
* `Others`, `Moved.others`   a demotion takes its own expert out of the tier and no other;
* `Lasting`               an exception of the code, not of the fuel;
* `loop_settles`          the loop ends: the measure is the number of experts left in the tier;
* `Descends`              experts move down only, and only those that are neither pinned nor leased;
* `run_makeRoom`          all this, from every state that a run passes through.
-/

namespace HyperMoE

open Lib Lib.Fallible

namespace ExpertManager

variable {π : Type}

/-! ## the experts located in a tier -/

def located (tier : MemoryTier) (s : ExpertManager π) : Finset ExpertKey :=
  s.experts.keys.toFinset.filter fun k =>
    (s.experts.lookup k).map ManagedExpert.location = some tier

section
variable {s s' : ExpertManager π} {k : ExpertKey} {m : ManagedExpert} {tier : MemoryTier}

theorem mem_located : k ∈ located tier s ↔
    ∃ m, s.experts.lookup k = some m ∧ m.location = tier := by
  unfold located
  rw [Finset.mem_filter, List.mem_toFinset, Option.map_eq_some_iff]
  constructor
  · exact fun h => h.2
  · rintro ⟨m, hk, hm⟩
    exact ⟨Table.mem_keys_of_lookup hk, m, hk, hm⟩

theorem mem_located_iff (hk : s.experts.lookup k = some m) :
    k ∈ located tier s ↔ m.location = tier := by
  rw [mem_located]
  constructor
  · rintro ⟨m', hk', hm⟩
    obtain rfl := Option.some.inj (hk.symm.trans hk')
    exact hm
  · exact fun hm => ⟨m, hk, hm⟩

theorem located_congr (h : s'.experts.lookup k = s.experts.lookup k) :
    k ∈ located tier s' ↔ k ∈ located tier s := by
  rw [mem_located, mem_located, h]

theorem Kin.keys (h : Kin s s') : s'.experts.keys.toFinset = s.experts.keys.toFinset := by
  ext k
  rw [List.mem_toFinset, List.mem_toFinset, ← AList.mem_keys, ← AList.mem_keys,
    ← AList.lookup_isSome, ← AList.lookup_isSome, ← Option.isSome_map (f := identity), h.same,
    Option.isSome_map]

theorem card_keys (s : ExpertManager π) :
    s.experts.keys.toFinset.card = s.experts.entries.length := by
  rw [List.toFinset_card_of_nodup (AList.keys_nodup s.experts)]
  exact List.length_map _

/-- no expert is registered or erased -/
theorem Kin.length (h : Kin s s') : s'.experts.entries.length = s.experts.entries.length := by
  rw [← card_keys, ← card_keys, h.keys]

theorem card_located_le (tier : MemoryTier) (s : ExpertManager π) :
    (located tier s).card ≤ s.experts.entries.length := by
  rw [← card_keys]
  exact Finset.card_filter_le _ _

/-! ## a demotion concerns one expert of its tier -/

/-- the tier is as it was, but for the expert `k` -/
structure Others (k : ExpertKey) (tier : MemoryTier) (s s' : ExpertManager π) : Prop where
  kin : Kin s s'
  same : ∀ k', k' ≠ k → (k' ∈ located tier s' ↔ k' ∈ located tier s)

theorem Others.rfl : Others k tier s s := ⟨.rfl, fun _ _ => Iff.rfl⟩

theorem Others.trans {s'' : ExpertManager π} (h : Others k tier s s') (h' : Others k tier s' s'') :
    Others k tier s s'' :=
  ⟨h.kin.trans h'.kin, fun k' hne => (h'.same k' hne).trans (h.same k' hne)⟩

theorem Others.located_eq (h : Others k tier s s') (hk : k ∉ located tier s') :
    located tier s' = (located tier s).erase k := by
  ext k'
  rw [Finset.mem_erase]
  by_cases hne : k' = k
  · subst hne
    exact ⟨fun h => absurd h hk, fun h => absurd (Eq.refl _) h.1⟩
  · rw [h.same k' hne]
    exact ⟨fun hm => ⟨hne, hm⟩, fun hm => hm.2⟩

end

variable [CachePolicy π] {T : Transfers} {s s' : ExpertManager π} {k : ExpertKey}
  {m : ManagedExpert} {tier : MemoryTier} {pinned : List ExpertId}

/-- the moves that a round of room-making in `tier` has its victim make -/
def Demotes (tier destination : MemoryTier) : Prop :=
  destination = .Nvme ∨ (destination = .Ram ∧ tier = .Vram)

theorem MoveEffect.others [ho : SelectsOffered π] {id : ExpertId}
    {location destination : MemoryTier} {e : Effect}
    (he : MoveEffect π k id location destination pinned e) (hd : Demotes tier destination)
    (hs : Step T e s s') : Others k tier s s' := by
  refine ⟨Step.kin hs he.1, fun k' hne => ?_⟩
  have hshape : ownShape k id location destination e ∨
      (destination = .Ram ∧ tier = .Vram ∧ roomShape π .Ram pinned e) := by
    rcases he.2 ho with h | ⟨hn, h⟩ | ⟨-, hv, -⟩
    · exact .inl h
    · rcases hd with rfl | ⟨rfl, rfl⟩
      · exact absurd rfl hn
      · exact .inr ⟨rfl, rfl, h⟩
    · rcases hd with rfl | ⟨rfl, -⟩ <;> cases hv
  by_cases hmoved : e.moved = some k'
  · cases e with
    | evicted a id' source =>
      obtain rfl := Option.some.inj hmoved
      rcases hshape with h | ⟨-, rfl, h⟩
      · exact absurd h.1 hne
      · -- somebody else leaves RAM to make room for the victim from VRAM
        obtain ⟨x, hx⟩ := hs
        have hsource : source = .Ram := by
          rcases h.2 with h | ⟨h, -⟩
          · exact h
          · cases h
        have hk' : s'.experts.lookup a = some (x.place none none none .Nvme) := by
          rw [hx.experts, AList.lookup_insert]
        rw [mem_located_iff hk', mem_located_iff hx.found, hx.location, hsource]
        exact ⟨(fun h => by cases h), fun h => by cases h⟩
    | loaded a id' =>
      obtain rfl := Option.some.inj hmoved
      rcases hshape with h | ⟨-, -, h⟩
      · exact absurd h.1 hne
      · exact h.elim
    | relocated a id' source destination' =>
      obtain rfl := Option.some.inj hmoved
      rcases hshape with h | ⟨-, -, -, h, -⟩
      · exact absurd h.1 hne
      · cases h
    | _ => cases hmoved
  · exact located_congr (Step.elsewhere hs he.1 hmoved)

theorem Moved.others [SelectsOffered π] {destination : MemoryTier} {r : Except Exn Unit}
    (h : Moved T k m destination pinned s r s') (hd : Demotes tier destination) :
    Others k tier s s' :=
  h.chain.rel (fun _ => .rfl) (fun _ _ _ => .trans) fun _ _ _ he hs => he.others hd hs

/-- the victim of a round, and nobody else, is gone from the tier -/
theorem wp_evictVictim_leaves [SelectsOffered π] (move : MemoryTier → Code π Unit) {v : ExpertId}
    (hmove : ∀ (s₁ : ExpertManager π) m₁ t, Wired s₁ → s₁.experts.lookup k = some m₁ →
      m₁.policyId = v → wp (move t) (Moved T k m₁ t (v :: pinned) s₁) s₁)
    (W : Wired s) (hk : s.experts.lookup k = some m) (hid : m.policyId = v) (ht : tier ≠ .Nvme) :
    wp (evictVictim move tier) (fun r s' => Others k tier s s' ∧
      (r = .ok () → k ∉ located tier s')) s := by
  have gone : ∀ {m₁ t r} {s₁ s₂ : ExpertManager π}, Moved T k m₁ t (v :: pinned) s₁ r s₂ → t ≠ tier → r = .ok () →
      k ∉ located tier s₂ := by
    intro m₁ t r s₁ s₂ h hne hr hm
    obtain ⟨m₂, hk₂, hloc⟩ := h.arrived hr
    exact hne (hloc.symm.trans ((mem_located_iff hk₂).mp hm))
  unfold evictVictim
  split
  · next hv =>
    subst hv
    refine wp_catch (hmove s m .Ram W hk hid) (fun _ s₁ h => ?_) fun e s₁ h => ?_
    · exact ⟨h.others (.inr ⟨rfl, rfl⟩), fun hr => gone h (by decide) hr⟩
    · have o₁ : Others k .Vram s s₁ := h.others (.inr ⟨rfl, rfl⟩)
      split
      · obtain ⟨m₁, hk₁, hi⟩ := o₁.kin.found hk
        have hid₁ : m₁.policyId = v := (congrArg (·.2.2.1) hi).trans hid
        refine wp_mono (hmove s₁ m₁ .Nvme (W.kin o₁.kin) hk₁ hid₁) fun r s₂ h₂ => ?_
        exact ⟨o₁.trans (h₂.others (.inl rfl)), fun hr => gone h₂ (by decide) hr⟩
      · exact ⟨o₁, fun hr => by cases hr⟩
  · exact wp_mono (hmove s m .Nvme W hk hid) fun r s' h =>
      ⟨h.others (.inl rfl), fun hr => gone h ht.symm hr⟩

/-! ## the exceptions of the straight stretches -/

/-- an exception of the code: the fuel ran out only if a transfer reports just that -/
def Lasting (T : Transfers) (e : Exn) : Prop :=
  e = .outOfFuel → ∃ n request, T n request = .error .outOfFuel

section
omit [CachePolicy π]

theorem lasting {e : Exn} (h : e ≠ .outOfFuel) : Lasting T e := fun he => absurd he h

theorem throws_require (k : ExpertKey) :
    Fallible.Throws (requireExpertLocked k : Code π ManagedExpert) (Lasting T) :=
  throws_read.bind fun _ => throws_orThrow _ (lasting (by decide))

theorem throws_release (id : AllocationId) :
    Fallible.Throws (onMemory (MemoryManager.release id) : Code π Bool) (Lasting T) :=
  throws_zoom (throws_updateGet _)

theorem throws_reserve (tier : MemoryTier) (n : Nat) {e : Exn} (h : e ≠ .outOfFuel) :
    Fallible.Throws (reserve tier n e : Code π MemoryAllocation) (Lasting T) := by
  have hallocate : Fallible.Throws (MemoryManager.allocate tier n) (Lasting T) :=
    (throws_throwIf _ (lasting (by decide))).bind fun _ =>
      (throws_throwIf _ (lasting (by decide))).bind fun _ => throws_updateGet _
  exact (throws_zoom hallocate).bind fun a => throws_orThrow a (lasting h)

theorem throws_releaseFails (m : ManagedExpert) :
    Fallible.Throws (releaseFails m : Code π Bool) (Lasting T) := by
  unfold releaseFails
  split
  · exact throws_pure false
  · exact (throws_release _).bind fun known => throws_pure (!known)

theorem throws_discard (id : AllocationId) : Fallible.Throws (discard id : Code π Unit) (Lasting T) :=
  (throws_release id).bind fun _ => throws_pure ()

theorem throws_releaseSource (m : ManagedExpert) (id : AllocationId) :
    Fallible.Throws (releaseSource m id : Code π Unit) (Lasting T) :=
  (throws_releaseFails m).bind fun _ => throws_ite _
    ((throws_discard id).bind fun _ => throws_throw (lasting (by decide))) (throws_pure ())

theorem throws_submit (request : TransferRequest) :
    Fallible.Throws (submitTransfer T request : Code π TransferResult) (Lasting T) :=
  (throws_updateGet _).bind fun n => throws_settle fun _ he hf => ⟨n, request, he.trans (by rw [hf])⟩

theorem throws_copyWeights (k : ExpertKey) (m : ManagedExpert) (source destination : MemoryTier) :
    Fallible.Throws (copyWeights T k m source destination : Code π (Option Buffer × Option Buffer))
      (Lasting T) := by
  refine throws_read.bind fun s => throws_ite _ ?_ (throws_ite _ ?_ (throws_ite _ ?_ ?_))
  · exact (throws_submit _).bind fun _ => (throws_throwIf _ (lasting (by decide))).bind fun _ =>
      (throws_throwIf _ (lasting (by decide))).bind fun _ => throws_pure _
  · exact (throws_submit _).bind fun _ => (throws_throwIf _ (lasting (by decide))).bind fun _ =>
      throws_pure _
  · exact (throws_submit _).bind fun _ => (throws_throwIf _ (lasting (by decide))).bind fun _ =>
      throws_pure _
  · split
    · exact throws_ite _ ((throws_updateGet _).bind fun _ => throws_pure _) (throws_pure _)
    · exact throws_pure _

end

theorem throws_dropToNvme (k : ExpertKey) (source : MemoryTier) :
    Fallible.Throws (dropToNvme k source : Code π Unit) (Lasting T) :=
  (throws_require k).bind fun m => (throws_releaseFails m).bind fun _ =>
    (throws_throwIf _ (lasting (by decide))).bind fun _ => throws_update _

theorem throws_loadIntoRam (k : ExpertKey) : Fallible.Throws (loadIntoRam T k : Code π Unit) (Lasting T) :=
  (throws_require k).bind fun m => (throws_reserve _ _ (by decide)).bind fun a =>
    (throws_submit _).bind fun _ => throws_ite _
      ((throws_discard _).bind fun _ => throws_throw (lasting (by decide)))
      (throws_ite _ ((throws_discard _).bind fun _ => throws_throw (lasting (by decide)))
        ((throws_releaseSource m a.id).bind fun _ => throws_update _))

theorem throws_relocate (k : ExpertKey) (source destination : MemoryTier) :
    Fallible.Throws (relocate T k source destination : Code π Unit) (Lasting T) :=
  (throws_require k).bind fun m => (throws_reserve _ _ (by decide)).bind fun a =>
    ((throws_copyWeights k m source destination).catch fun _ he =>
      (throws_discard a.id).bind fun _ => throws_throw he).bind fun _ =>
        (throws_releaseSource m a.id).bind fun _ => throws_update _

/-! ## the loop ends -/

/-- the exceptions of a run from `s` are those of the code -/
def Lasts {α : Type} (T : Transfers) (x : Code π α) (s : ExpertManager π) : Prop :=
  wp x (fun r _ => ∀ e, r = .error e → Lasting T e) s

omit [CachePolicy π] in
theorem Lasts.then {α β : Type} {x : Code π α} {f : α → Code π β} (hx : Lasts T x s)
    (hf : ∀ a, Fallible.Throws (f a) (Lasting T)) : Lasts T (x >>= f) s := by
  refine wp_seq hx (fun a s' _ => hf a s') fun e s' h e' he => ?_
  exact h e' (congrArg Except.error (Except.error.inj he))

/-- and where it returns, `n` bytes are available -/
def Settles (T : Transfers) (tier : MemoryTier) (n : Nat) (r : Except Exn Unit)
    (s : ExpertManager π) : Prop :=
  (∀ e, r = .error e → Lasting T e) ∧ (r = .ok () → n ≤ (s.memory.usageFor tier).availableBytes)

omit [CachePolicy π] in
theorem settles_error {n : Nat} {e : Exn} (h : Lasting T e) : Settles T tier n (.error e) s :=
  ⟨fun _ he => Except.error.inj he ▸ h, fun hr => by cases hr⟩

/-- the loop settles where its rounds do, on fuel for one round more than there are experts in the
tier -/
theorem loop_settles [SelectsOffered π] {b size : Nat} (ht : tier ≠ .Nvme)
    (hround : ∀ fuel (s : ExpertManager π) k m v, Wired s → s.experts.entries.length = size →
      s.experts.lookup k = some m → m.location = tier → m.policyId = v →
      (located tier s).card + b ≤ fuel →
      Lasts T (evictVictim (fun t => moveExpertLocked T fuel k t (v :: pinned)) tier) s)
    (fuel : Nat) {n : Nat} (W : Wired s) (hsize : s.experts.entries.length = size)
    (hfuel : (located tier s).card + b < fuel) :
    wp (makeRoomLoop T fuel tier n pinned) (Settles T tier n) s := by
  induction fuel generalizing s with
  | zero => exact absurd hfuel (Nat.not_lt_zero _)
  | succ fuel ih =>
    unfold makeRoomLoop onMemory
    rw [wp_bind, wp_zoom, MemoryManager.wp_usage_of_ne ht]
    show wp (if _ then _ else _) _ s
    split
    · rw [wp_bind, wp_read]
      show wp (_ >>= _) _ s
      rw [wp_bind, wp_orThrow]
      split
      · next v hv =>
        show wp (_ >>= _) _ s
        rw [wp_bind, wp_orThrow]
        split
        · next k hk =>
          show wp (_ >>= _) _ s
          rw [wp_bind, wp_orThrow]
          split
          · next x hx =>
            obtain ⟨hkey, hid, hloc⟩ := Wired.victim W hv hk hx
            obtain ⟨hloc, -⟩ := hloc inferInstance
            rw [← hkey] at hx
            have hmem : x.metadata.key ∈ located tier s := (mem_located_iff hx).mpr hloc
            have hlasts := hround fuel s _ x v W hsize hx hloc hid (Nat.le_of_lt_succ hfuel)
            have hmove : ∀ (s₁ : ExpertManager π) m₁ t, Wired s₁ →
                s₁.experts.lookup x.metadata.key = some m₁ → m₁.policyId = v →
                wp (moveExpertLocked T fuel x.metadata.key t (v :: pinned))
                  (Moved T x.metadata.key m₁ t (v :: pinned) s₁) s₁ := fun s₁ m₁ t W₁ hk₁ hid₁ =>
              (moves T π fuel).1 s₁ _ m₁ t (v :: pinned) W₁ hk₁ (hid₁ ▸ List.mem_cons_self)
            refine wp_seq (wp_and hlasts (wp_evictVictim_leaves _ hmove W hx hid ht)) (fun _ s₁ h => ?_) fun e s₁ h => ?_
            · have hcard := Finset.card_erase_of_mem hmem
              have hpos := Finset.card_pos.mpr ⟨_, hmem⟩
              rw [← h.2.1.located_eq (h.2.2 rfl)] at hcard
              exact ih (W.kin h.2.1.kin) (h.2.1.kin.length.trans hsize) (by omega)
            · exact settles_error (h.1 e rfl)
          · exact settles_error (lasting (by decide))
        · exact settles_error (lasting (by decide))
      · exact settles_error (lasting (by decide))
    · next hn => exact ⟨(fun _ h => by cases h), fun _ => Nat.not_lt.mp hn⟩

/-- a move to NVMe makes no room for itself -/
theorem drop_lasts (fuel : Nat) (k : ExpertKey) (pinned : List ExpertId) :
    Fallible.Throws (moveExpertLocked T (fuel + 1) k .Nvme pinned : Code π Unit) (Lasting T) := by
  unfold moveExpertLocked
  refine (throws_require k).bind fun m => throws_read.bind fun s => throws_ite _ (throws_pure ()) ?_
  refine (throws_throwIf _ (lasting (by decide))).bind fun _ => ?_
  rw [if_neg (fun h => by cases h.2), if_neg (fun h => by cases h.2.1), if_pos rfl]
  exact throws_dropToNvme k _

/-- below VRAM a round sends its victim to NVMe -/
theorem ram_settles [SelectsOffered π] (ht : tier ≠ .Nvme) (hv : tier ≠ .Vram) (fuel : Nat) {n : Nat}
    (W : Wired s) (hfuel : (located tier s).card + 2 ≤ fuel) :
    wp (makeRoomLocked T fuel tier n pinned) (Settles T tier n) s := by
  obtain ⟨fuel, rfl⟩ : ∃ f, fuel = f + 1 := ⟨fuel - 1, by omega⟩
  unfold makeRoomLocked onMemory
  rw [if_neg ht, wp_bind, wp_zoom, MemoryManager.wp_usage_of_ne ht]
  show wp (_ >>= _) _ s
  rw [wp_bind, wp_throwIf]
  split
  · exact settles_error (lasting (by decide))
  · refine loop_settles (b := 0) ht (fun fuel s k m v W _ hk hloc hid hf => ?_) fuel W rfl (by omega)
    -- the victim is in the tier, so there is fuel for its move
    have hpos := Finset.card_pos.mpr ⟨k, (mem_located_iff hk).mpr hloc⟩
    obtain ⟨fuel, rfl⟩ : ∃ f, fuel = f + 1 := ⟨fuel - 1, by omega⟩
    unfold evictVictim
    rw [if_neg hv]
    exact drop_lasts fuel k _ s

theorem ram_move_lasts [SelectsOffered π] (fuel : Nat) (W : Wired s)
    (hfuel : (located .Ram s).card + 3 ≤ fuel) :
    Lasts T (moveExpertLocked T fuel k .Ram pinned) s := by
  obtain ⟨fuel, rfl⟩ : ∃ f, fuel = f + 1 := ⟨fuel - 1, by omega⟩
  have hroom : ∀ n, Lasts T (makeRoomLocked T fuel .Ram n pinned) s := fun n =>
    wp_mono (ram_settles (by decide) (by decide) fuel W (by omega)) fun _ _ h => h.1
  unfold Lasts moveExpertLocked
  cases hk : s.experts.lookup k with
  | none =>
    rw [wp_bind, wp_require_none hk]
    exact fun _ he => Except.error.inj he ▸ lasting (by decide)
  | some m =>
    rw [wp_bind, wp_require hk]
    show wp (_ >>= _) _ s
    rw [wp_bind, wp_read]
    show wp (if m.location = .Ram then pure () else _) _ s
    split
    · exact fun _ he => by cases he
    rw [wp_bind, wp_throwIf]
    split
    · exact fun _ he => Except.error.inj he ▸ lasting (by decide)
    show Lasts T (if _ then _ else if _ then _ else if _ then _ else _) s
    rw [if_neg (fun h => by cases h.2)]
    split
    · exact (hroom _).then fun _ => throws_loadIntoRam k
    · rw [if_neg (by decide)]
      exact (hroom _).then fun _ => throws_relocate k _ _

/-- a round takes its victim from VRAM to RAM, or to NVMe where that fails -/
theorem vram_settles [SelectsOffered π] (fuel : Nat) {n : Nat} (W : Wired s)
    (hfuel : 2 * s.experts.entries.length + 5 ≤ fuel) :
    wp (makeRoomLocked T fuel .Vram n pinned) (Settles T .Vram n) s := by
  have hcard := card_located_le .Vram s
  obtain ⟨fuel, rfl⟩ : ∃ f, fuel = f + 1 := ⟨fuel - 1, by omega⟩
  unfold makeRoomLocked onMemory
  rw [if_neg (by decide), wp_bind, wp_zoom, MemoryManager.wp_usage_of_ne (by decide)]
  show wp (_ >>= _) _ s
  rw [wp_bind, wp_throwIf]
  split
  · exact settles_error (lasting (by decide))
  · refine loop_settles (b := s.experts.entries.length + 3) (by decide)
      (fun fuel s' k m v W' hsize hk hloc hid hf => ?_) fuel W rfl (by omega)
    have hram := card_located_le .Ram s'
    obtain ⟨fuel, rfl⟩ : ∃ f, fuel = f + 1 := ⟨fuel - 1, by omega⟩
    unfold evictVictim
    rw [if_pos rfl]
    refine wp_catch (ram_move_lasts (fuel + 1) W' (by omega)) (fun _ _ _ _ he => by cases he)
      fun e s₁ he => ?_
    split
    · exact drop_lasts fuel k _ s₁
    · exact fun e' h => he e' (congrArg Except.error (Except.error.inj h))

/-- room-making ends, and there is room when it returns -/
theorem room_settles [SelectsOffered π] (ht : tier ≠ .Nvme) (fuel : Nat) {n : Nat} (W : Wired s)
    (hfuel : 2 * s.experts.entries.length + 5 ≤ fuel) :
    wp (makeRoomLocked T fuel tier n pinned) (Settles T tier n) s := by
  have hcard := card_located_le tier s
  by_cases hv : tier = .Vram
  · subst hv
    exact vram_settles fuel W hfuel
  · exact ram_settles ht hv fuel W (by omega)

/-! ## who moves, and where to -/

def Below : MemoryTier → MemoryTier → Prop
  | .Ram, .Vram => True
  | .Nvme, .Vram => True
  | .Nvme, .Ram => True
  | _, _ => False

theorem Below.trans {a b c : MemoryTier} (h : Below a b) (h' : Below b c) : Below a c := by
  cases a <;> cases b <;> cases c <;> first | exact trivial | exact h.elim | exact h'.elim

/-- every expert is where it was, or was neither pinned nor leased and is further down -/
structure Descends (pinned : List ExpertId) (s s' : ExpertManager π) : Prop where
  kin : Kin s s'
  down : ∀ k m m', s.experts.lookup k = some m → s'.experts.lookup k = some m' →
    m'.location = m.location ∨
      (m.policyId ∉ pinned ∧ m.residencyLeases = 0 ∧ Below m'.location m.location)

omit [CachePolicy π] in
theorem Descends.unmoved (h : Kin s s') (he : s'.experts = s.experts) : Descends pinned s s' := by
  refine ⟨h, fun k m m' hk hk' => .inl ?_⟩
  rw [he, hk] at hk'
  rw [Option.some.inj hk']

omit [CachePolicy π] in
theorem Descends.trans {s'' : ExpertManager π} (h : Descends pinned s s')
    (h' : Descends pinned s' s'') : Descends pinned s s'' := by
  refine ⟨h.kin.trans h'.kin, fun k m m'' hk hk'' => ?_⟩
  obtain ⟨m', hk', hi⟩ := h.kin.found hk
  have hid : m'.policyId = m.policyId := congrArg (·.2.2.1) hi
  have hl : m'.residencyLeases = m.residencyLeases := congrArg (·.2.2.2) hi
  rcases h'.down k m' m'' hk' hk'' with h₂ | ⟨hp, hz, h₂⟩
  · rw [h₂]
    exact h.down k m m' hk hk'
  · right
    rw [hid] at hp
    rw [hl] at hz
    refine ⟨hp, hz, ?_⟩
    rcases h.down k m m' hk hk' with h₁ | ⟨-, -, h₁⟩
    · rwa [h₁] at h₂
    · exact h₂.trans h₁

omit [CachePolicy π] in
/-- one expert overwritten -/
theorem Descends.overwrite {m₁ : ManagedExpert} (h : Kin s s') (hk : s.experts.lookup k = some m)
    (he : s'.experts = s.experts.insert k m₁) (hp : m.policyId ∉ pinned)
    (hl : m.residencyLeases = 0) (hb : Below m₁.location m.location) : Descends pinned s s' := by
  refine ⟨h, fun a x x' ha ha' => ?_⟩
  rw [he, Table.lookup_insert'] at ha'
  split at ha'
  · next hak =>
    subst hak
    obtain rfl := Option.some.inj (hk.symm.trans ha)
    obtain rfl := Option.some.inj ha'
    exact .inr ⟨hp, hl, hb⟩
  · rw [ha] at ha'
    exact .inl (by rw [Option.some.inj ha'])

/-- one step of room-making -/
theorem RoomEffect.descends [hl : LawfulCachePolicy π] {e : Effect} (ht : tier = .Ram ∨ tier = .Vram)
    (he : RoomEffect π tier pinned e) (hs : Step T e s s') : Descends pinned s s' := by
  have hkin := Step.kin hs he.1
  have hshape := he.2 inferInstance
  cases e with
  | failed => exact .unmoved hkin hs.experts
  | evicted k id source =>
    obtain ⟨m, h⟩ := hs
    refine .overwrite hkin h.found h.experts (h.id ▸ hshape.1 hl) h.unleased ?_
    show Below .Nvme m.location
    rw [h.location]
    rcases hshape.2 with rfl | ⟨-, rfl⟩
    · rcases ht with rfl | rfl <;> exact trivial
    · exact trivial
  | relocated k id source destination =>
    obtain ⟨m, w, d, h, hid, -, -, hat, hz, -⟩ := hs
    obtain ⟨hp, -, rfl, rfl⟩ := hshape
    refine .overwrite hkin h.found h.experts (hid ▸ hp hl) hz ?_
    rw [hat.1 hl]
    exact trivial
  | _ => exact hshape.elim

theorem run_wired (vram ram : Nat) (policy : π) (hasTransfers : Bool)
    (ops : List (Op × Transfers)) :
    Wired (run (ManagerSystem.start vram ram policy hasTransfers) ops).manager :=
  run_keeps (C := fun _ _ _ => True) (I := fun s => Wired s.manager)
    (fun _ op T _ W => next_wired op T W) ops _ (meets_of_forall (fun _ _ _ _ => trivial) _)
    (wired_start vram ram policy hasTransfers)

/-- From every state that a run passes through, between two operations or within one, room-making
ends, for any fuel from `fuel s` on.  Where it returns there is room; whatever comes of it, experts
moved down only, and only such as are neither pinned nor leased. -/
theorem run_makeRoom [LawfulCachePolicy π] (vram ram : Nat) (policy : π) (hasTransfers : Bool)
    (ops : List (Op × Transfers)) {U : Transfers} {s : ExpertManager π}
    (hs : Chain (Step U) (fun _ => True)
      (run (ManagerSystem.start vram ram policy hasTransfers) ops).manager s)
    (T : Transfers) (ht : tier = .Ram ∨ tier = .Vram) (requiredBytes : Nat) (pinned : List ExpertId) {fuel : Nat}
    (hfuel : s.fuel ≤ fuel) :
    wp (makeRoomLocked T fuel tier requiredBytes pinned) (fun r s' =>
      (∀ e, r = .error e → Lasting T e) ∧
        (r = .ok () → requiredBytes ≤ (s'.memory.usageFor tier).availableBytes) ∧
          Descends pinned s s') s := by
  have W := chain_wired hs (run_wired vram ram policy hasTransfers ops)
  have hne : tier ≠ .Nvme := by rcases ht with rfl | rfl <;> decide
  have hsettles : wp (makeRoomLocked T fuel tier requiredBytes pinned)
      (Settles T tier requiredBytes) s :=
    room_settles hne fuel W (by unfold ExpertManager.fuel at hfuel; omega)
  refine wp_mono (wp_and hsettles ((moves T π fuel).2.1 s tier requiredBytes pinned W))
    fun r s' h => ⟨h.1.1, h.1.2, ?_⟩
  exact Chain.rel h.2 (fun _ => .unmoved .rfl rfl) (fun _ _ _ => .trans)
    fun _ _ _ he hs => he.descends ht hs

/-- two experts of four bytes in eight bytes of VRAM -/
def fullVram : List (Op × Transfers) :=
  [(.registerExpert { sampleExpert with location := .Vram }, delivering),
    (.registerExpert { sampleExpert with id := 1, location := .Vram }, delivering)]

theorem run_makeRoom_sample :
    let s := (run (ManagerSystem.start 8 4 ({} : LruCachePolicy) true) fullVram).manager
    (located .Vram s).card = 2 ∧
      wp (makeRoomLocked delivering s.fuel .Vram 4 [0]) (fun r s' => r = .ok () ∧
        4 ≤ (s'.memory.usageFor .Vram).availableBytes ∧ located .Vram s' = {(0, 0)} ∧
          Descends [0] s s') s := by
  refine ⟨by decide +kernel, ?_⟩
  have h := run_makeRoom 8 4 ({} : LruCachePolicy) true fullVram (U := delivering) .refl delivering
    (.inr rfl) 4 [0] (Nat.le_refl _)
  refine ⟨by decide +kernel, h.2.1 (by decide +kernel), by decide +kernel, h.2.2⟩

end ExpertManager

end HyperMoE
