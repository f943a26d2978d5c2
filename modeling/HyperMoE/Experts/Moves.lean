import HyperMoE.Experts.Effects

/-!
# Moves and room-making as chains of effects

The mutual recursion of `moveExpertLocked` and `makeRoomLocked`, by induction on the fuel: every
run of it is a chain of effects, and the labels say which experts it may touch.

* `Wired`             the two tables name the same experts; every effect keeps it;
* `Kin`, `Step.kin`   what no effect but a registration or a lease changes;
* `RoomEffect`        what room-making in a tier does to other experts;
* `MoveEffect`        what a move does: room-making, then its own stretch;
* `moves`             the induction.
-/

namespace HyperMoE

open Lib Lib.Fallible

namespace ExpertManager

variable {π : Type}

/-! ## identities -/

structure Wired (s : ExpertManager π) : Prop where
  keyed : ∀ k m, s.experts.lookup k = some m → m.metadata.key = k
  named : ∀ id k, s.policyExperts.lookup id = some k ↔
    ∃ m, s.experts.lookup k = some m ∧ m.policyId = id
  fresh : ∀ k m, s.experts.lookup k = some m → m.policyId < s.nextPolicyId

/-- what a move leaves of an expert -/
def identity (m : ManagedExpert) : ExpertKey × Nat × ExpertId × Nat :=
  (m.metadata.key, m.sizeBytes, m.policyId, m.residencyLeases)

structure Kin (s s' : ExpertManager π) : Prop where
  frame : Frame s s'
  same : ∀ k, (s'.experts.lookup k).map identity = (s.experts.lookup k).map identity

theorem Kin.rfl {s : ExpertManager π} : Kin s s := ⟨.rfl, fun _ => Eq.refl _⟩

theorem Kin.trans {s s' s'' : ExpertManager π} (h : Kin s s') (h' : Kin s' s'') : Kin s s'' where
  frame := ⟨h'.frame.1.trans h.frame.1, h'.frame.2.trans h.frame.2, h'.frame.3.trans h.frame.3⟩
  same k := (h'.same k).trans (h.same k)

section
variable {s s' : ExpertManager π} {k : ExpertKey} {m m' : ManagedExpert}

theorem Kin.found (h : Kin s s') (hk : s.experts.lookup k = some m) :
    ∃ m', s'.experts.lookup k = some m' ∧ identity m' = identity m := by
  have e := h.same k
  rw [hk] at e
  exact Option.map_eq_some_iff.mp e

theorem Kin.found_back (h : Kin s s') (hk : s'.experts.lookup k = some m') :
    ∃ m, s.experts.lookup k = some m ∧ identity m = identity m' := by
  have e := h.same k
  rw [hk] at e
  exact Option.map_eq_some_iff.mp e.symm

/-- overwriting an expert by one of the same identity -/
theorem Kin.overwrite (hk : s.experts.lookup k = some m) (hi : identity m' = identity m)
    (he : s'.experts = s.experts.insert k m') (hf : Frame s s') : Kin s s' where
  frame := hf
  same a := by
    rw [he, Table.lookup_insert']
    split
    · next h => rw [h, hk]; exact congrArg some hi
    · rfl

theorem Kin.unmoved (he : s'.experts = s.experts) (hf : Frame s s') : Kin s s' :=
  ⟨hf, fun _ => by rw [he]⟩

theorem Commit.kin {tier : MemoryTier} {w d : Option Buffer} (h : Commit k m tier w d s s') :
    Kin s s' := by
  refine .overwrite h.found ?_ h.experts h.frame
  rfl

theorem Wired.kin (W : Wired s) (h : Kin s s') : Wired s' where
  keyed k m' hk := by
    obtain ⟨m, hm, hi⟩ := h.found_back hk
    rw [← W.keyed k m hm]
    exact (congrArg (·.1) hi).symm
  named id k := by
    rw [h.frame.policyExperts, W.named]
    constructor
    · rintro ⟨m, hm, rfl⟩
      obtain ⟨m', hm', hi⟩ := h.found hm
      exact ⟨m', hm', congrArg (·.2.2.1) hi⟩
    · rintro ⟨m', hm', rfl⟩
      obtain ⟨m, hm, hi⟩ := h.found_back hm'
      exact ⟨m, hm, congrArg (·.2.2.1) hi⟩
  fresh k m' hk := by
    obtain ⟨m, hm, hi⟩ := h.found_back hk
    rw [h.frame.nextPolicyId, ← show m.policyId = m'.policyId from congrArg (·.2.2.1) hi]
    exact W.fresh k m hm

theorem Wired.unique {k₁ k₂ : ExpertKey} {m₁ m₂ : ManagedExpert} (W : Wired s)
    (h₁ : s.experts.lookup k₁ = some m₁) (h₂ : s.experts.lookup k₂ = some m₂)
    (h : m₁.policyId = m₂.policyId) : k₁ = k₂ := by
  have e₁ := (W.named m₁.policyId k₁).mpr ⟨m₁, h₁, rfl⟩
  have e₂ := (W.named m₁.policyId k₂).mpr ⟨m₂, h₂, h.symm⟩
  exact Option.some.inj (e₁.symm.trans e₂)

theorem Wired.registered (W : Wired s) (h : Registered k m s s') : Wired s' where
  keyed a m' ha := by
    rw [h.experts, Table.lookup_insert'] at ha
    split at ha
    · next e => rw [← Option.some.inj ha, e, h.key]
    · exact W.keyed a m' ha
  named id a := by
    rw [h.policyExperts, h.experts, Table.lookup_insert', Table.lookup_insert']
    by_cases hid : id = s.nextPolicyId
    · subst hid
      by_cases ha : a = k
      · subst ha
        simp [h.policyId]
      · rw [if_pos rfl, if_neg ha]
        constructor
        · intro e
          exact absurd (Option.some.inj e).symm ha
        · rintro ⟨m', hm', e⟩
          have hlt := W.fresh a m' hm'
          rw [e] at hlt
          exact absurd hlt (Nat.lt_irrefl _)
    · rw [if_neg hid, W.named]
      by_cases ha : a = k
      · subst ha
        simp [h.unknown, h.policyId, Ne.symm hid]
      · rw [if_neg ha]
  fresh a m' ha := by
    rw [h.experts, Table.lookup_insert'] at ha
    rw [h.nextPolicyId]
    split at ha
    · rw [← Option.some.inj ha, h.policyId]
      exact Nat.lt_succ_self _
    · exact Nat.lt_succ_of_lt (W.fresh a m' ha)

theorem Wired.unregistered (W : Wired s) (h : Unregistered k m s s') : Wired s' where
  keyed a m' ha := by
    rw [h.experts, Table.lookup_erase'] at ha
    split at ha
    · cases ha
    · exact W.keyed a m' ha
  named id a := by
    rw [h.policyExperts, h.experts, Table.lookup_erase', Table.lookup_erase']
    by_cases ha : a = k
    · subst ha
      by_cases hid : id = m.policyId
      · simp [hid]
      · rw [if_neg hid, W.named]
        simp [h.found, Ne.symm hid]
    · rw [if_neg ha]
      by_cases hid : id = m.policyId
      · rw [if_pos hid]
        constructor
        · intro e
          cases e
        · rintro ⟨m', hm', e⟩
          exact absurd (W.unique hm' h.found (e.trans hid)) ha
      · rw [if_neg hid, W.named]
  fresh a m' ha := by
    rw [h.experts, Table.lookup_erase'] at ha
    rw [h.nextPolicyId]
    split at ha
    · cases ha
    · exact W.fresh a m' ha

theorem Wired.leases {n : Nat} (W : Wired s) (h : Leases k m n s s') : Wired s' where
  keyed a m' ha := by
    rw [h.experts, Table.lookup_insert'] at ha
    split at ha
    · next e =>
      subst e
      obtain rfl := Option.some.inj ha
      exact W.keyed _ m h.found
    · exact W.keyed a m' ha
  named id a := by
    rw [h.frame.policyExperts, h.experts, W.named, Table.lookup_insert']
    by_cases ha : a = k
    · subst ha
      simp [h.found]
    · rw [if_neg ha]
  fresh a m' ha := by
    rw [h.experts, Table.lookup_insert'] at ha
    rw [h.frame.nextPolicyId]
    split at ha
    · obtain rfl := Option.some.inj ha
      exact W.fresh k m h.found
    · exact W.fresh a m' ha

end

variable [CachePolicy π] {T : Transfers}

/-- the effects that move experts between tiers, or fail to -/
def Effect.isMove : Effect → Bool
  | .failed | .leaked _ | .evicted _ _ _ | .loaded _ _ | .relocated _ _ _ _ => true
  | _ => false

section
variable {s s' : ExpertManager π} {e : Effect}

theorem Step.kin (h : Step T e s s') (he : e.isMove) : Kin s s' := by
  cases e with
  | failed => exact .unmoved h.experts h.frame
  | leaked k => exact .unmoved h.experts h.frame
  | evicted k id source =>
    obtain ⟨m, h⟩ := h
    refine .overwrite h.found ?_ h.experts h.frame
    rfl
  | loaded k id =>
    obtain ⟨m, b, h, -⟩ := h
    exact h.kin
  | relocated k id source destination =>
    obtain ⟨m, w, d, h, -⟩ := h
    exact h.kin
  | _ => cases he

/-- every effect keeps the tables wired -/
theorem Step.wired (h : Step T e s s') (W : Wired s) : Wired s' := by
  cases e with
  | adopted k tier b =>
    obtain ⟨m, w, d, h, -⟩ := h
    exact W.kin h.kin
  | noted k =>
    obtain ⟨m, m', h⟩ := h
    have hi : identity m' = identity m := by
      unfold identity ManagedExpert.sizeBytes
      rw [h.holding.metadata, h.holding.policyId, h.holding.leases]
    exact W.kin (.overwrite h.found hi h.experts h.frame)
  | counted source n => exact W.kin (.unmoved h.2.1 h.2.2.2)
  | registered k => exact W.registered h.choose_spec
  | unregistered k => exact W.unregistered h.choose_spec
  | leased k => exact W.leases h.choose_spec
  | unleased k => exact W.leases h.choose_spec
  | _ => exact W.kin (Step.kin h rfl)

end

/-! ## which experts a move may touch -/

/-- room-making in `tier` evicts from it; in VRAM it demotes, and makes room in RAM for that -/
def roomShape (π : Type) [CachePolicy π] (tier : MemoryTier) (pinned : List ExpertId) :
    Effect → Prop
  | .failed => True
  | .evicted _ id source => (LawfulCachePolicy π → id ∉ pinned) ∧
      (source = tier ∨ (tier = .Vram ∧ source = .Ram))
  | .relocated _ id source destination => (LawfulCachePolicy π → id ∉ pinned) ∧
      tier = .Vram ∧ source = .Vram ∧ destination = .Ram
  | _ => False

/-- the stretch of the moved expert itself, in one go or staged through RAM -/
def ownShape (k : ExpertKey) (id : ExpertId) (location destination : MemoryTier) : Effect → Prop
  | .failed => True
  | .leaked k' => k' = k ∧ location = .Nvme ∧ (destination = .Ram ∨ destination = .Vram)
  | .evicted k' id' source => k' = k ∧ id' = id ∧ source = location ∧ destination = .Nvme
  | .loaded k' id' =>
      k' = k ∧ id' = id ∧ location = .Nvme ∧ (destination = .Ram ∨ destination = .Vram)
  | .relocated k' id' source destination' => k' = k ∧ id' = id ∧
      ((source = location ∧ destination' = destination ∧ destination ≠ .Nvme) ∨
        (location = .Nvme ∧ destination = .Vram ∧
          ((source = .Nvme ∧ destination' = .Ram) ∨ (source = .Ram ∧ destination' = .Vram))))
  | _ => False

/-- of a policy that selects what it was not offered nothing more is said than that experts
move -/
def RoomEffect (π : Type) [CachePolicy π] (tier : MemoryTier) (pinned : List ExpertId)
    (e : Effect) : Prop :=
  e.isMove ∧ (SelectsOffered π → roomShape π tier pinned e)

def MoveEffect (π : Type) [CachePolicy π] (k : ExpertKey) (id : ExpertId)
    (location destination : MemoryTier) (pinned : List ExpertId) (e : Effect) : Prop :=
  e.isMove ∧ (SelectsOffered π → ownShape k id location destination e ∨
    (destination ≠ .Nvme ∧ roomShape π destination pinned e) ∨
    (location = .Nvme ∧ destination = .Vram ∧ roomShape π .Ram pinned e))

section
variable {s s' : ExpertManager π} {e : Effect} {k : ExpertKey} {m : ManagedExpert}
  {id : ExpertId} {tier location destination : MemoryTier} {pinned : List ExpertId}

theorem RoomEffect.move (h : RoomEffect π destination pinned e) (hd : destination ≠ .Nvme) :
    MoveEffect π k id location destination pinned e :=
  ⟨h.1, fun ho => .inr (.inl ⟨hd, h.2 ho⟩)⟩

theorem MoveEffect.staged₁ (h : MoveEffect π k id .Nvme .Ram pinned e) :
    MoveEffect π k id .Nvme .Vram pinned e := by
  refine ⟨h.1, fun ho => ?_⟩
  rcases h.2 ho with h | ⟨-, h⟩ | ⟨-, h, -⟩
  · left
    cases e <;> simp_all [ownShape]
  · exact .inr (.inr ⟨rfl, rfl, h⟩)
  · cases h

theorem MoveEffect.staged₂ (h : MoveEffect π k id .Ram .Vram pinned e) :
    MoveEffect π k id .Nvme .Vram pinned e := by
  refine ⟨h.1, fun ho => ?_⟩
  rcases h.2 ho with h | h | ⟨h, -⟩
  · left
    cases e <;> simp_all [ownShape]
  · exact .inr (.inl h)
  · cases h

/-- the demotion of a victim is room-making -/
theorem MoveEffect.demotion
    (hv : SelectsOffered π → location = .Vram) (hx : LawfulCachePolicy π → id ∉ pinned)
    (h : MoveEffect π k id location .Ram (id :: pinned) e) : RoomEffect π .Vram pinned e := by
  refine ⟨h.1, fun ho => ?_⟩
  obtain rfl := hv ho
  rcases h.2 ho with h | ⟨-, h⟩ | ⟨h, -⟩
  · cases e <;> simp_all [ownShape, roomShape]
  · cases e <;> simp_all [roomShape]
  · cases h

/-- the eviction of a victim is room-making -/
theorem MoveEffect.eviction
    (hv : SelectsOffered π → location = tier) (hx : LawfulCachePolicy π → id ∉ pinned)
    (h : MoveEffect π k id location .Nvme (id :: pinned) e) : RoomEffect π tier pinned e := by
  refine ⟨h.1, fun ho => ?_⟩
  obtain rfl := hv ho
  rcases h.2 ho with h | ⟨h, -⟩ | ⟨-, h, -⟩
  · cases e <;> simp_all [ownShape, roomShape]
  · exact absurd rfl h
  · cases h

theorem chain_kin {P : Effect → Prop} (h : Chain (Step T) P s s') (hP : ∀ e, P e → e.isMove) :
    Kin s s' :=
  h.rel (fun _ => .rfl) (fun _ _ _ => .trans) fun e _ _ he hs => Step.kin hs (hP e he)

/-- the expert whose entry an effect of a move overwrites -/
def Effect.moved : Effect → Option ExpertKey
  | .evicted k _ _ | .loaded k _ | .relocated k _ _ _ => some k
  | _ => none

theorem Step.elsewhere (h : Step T e s s') (he : e.isMove) (hk : e.moved ≠ some k) :
    s'.experts.lookup k = s.experts.lookup k := by
  cases e with
  | failed => rw [h.experts]
  | leaked a => rw [h.experts]
  | evicted a id source =>
    obtain ⟨m, h⟩ := h
    rw [h.experts, AList.lookup_insert_ne fun e => hk (by rw [e]; rfl)]
  | loaded a id =>
    obtain ⟨m, b, h, -⟩ := h
    rw [h.experts, AList.lookup_insert_ne fun e => hk (by rw [e]; rfl)]
  | relocated a id source destination =>
    obtain ⟨m, w, d, h, -⟩ := h
    rw [h.experts, AList.lookup_insert_ne fun e => hk (by rw [e]; rfl)]
  | _ => cases he

/-- where the moved expert may be after room was made for it -/
def Spared (π : Type) [CachePolicy π] (tier : MemoryTier) (m m' : ManagedExpert) : Prop :=
  (LawfulCachePolicy π → m' = m) ∧
  (SelectsOffered π → m.location ≠ tier → m' = m ∨
    (tier = .Vram ∧ m.location = .Ram ∧ m'.location = .Nvme ∧ m'.weights = none))

/-- one step of room-making spares an expert that is pinned and outside the tier -/
theorem RoomEffect.spares {m' : ManagedExpert} (he : RoomEffect π tier pinned e)
    (hs : Step T e s s') (hk : s.experts.lookup k = some m') (hpin : m'.policyId ∈ pinned)
    (hm : Spared π tier m m') : ∃ m'', s'.experts.lookup k = some m'' ∧ Spared π tier m m'' := by
  obtain ⟨m'', hk'', -⟩ := (Step.kin hs he.1).found hk
  refine ⟨m'', hk'', ?_⟩
  by_cases hmoved : e.moved = some k
  · have contra : LawfulCachePolicy π → False := fun hl => by
      have hshape := he.2 inferInstance
      cases e with
      | evicted a id source =>
        obtain ⟨x, hx⟩ := hs
        obtain rfl := Option.some.inj hmoved
        obtain rfl := Option.some.inj (hx.found.symm.trans hk)
        exact hshape.1 hl (hx.id ▸ hpin)
      | relocated a id source destination =>
        obtain ⟨x, w, d, hx, hid, -⟩ := hs
        obtain rfl := Option.some.inj hmoved
        obtain rfl := Option.some.inj (hx.found.symm.trans hk)
        exact hshape.1 hl (hid ▸ hpin)
      | loaded a id => exact hshape
      | _ => cases hmoved
    refine ⟨fun hl => (contra hl).elim, fun ho hne => ?_⟩
    have hshape := he.2 ho
    have hold := hm.2 ho hne
    cases e with
    | evicted a id source =>
      obtain ⟨x, hx⟩ := hs
      obtain rfl := Option.some.inj hmoved
      obtain rfl := Option.some.inj (hx.found.symm.trans hk)
      rw [hx.experts, AList.lookup_insert] at hk''
      obtain rfl := Option.some.inj hk''
      rcases hold with rfl | ⟨-, -, hn, -⟩
      · rcases hshape.2 with h | ⟨ht, h⟩
        · exact absurd (hx.location.trans h) hne
        · exact .inr ⟨ht, hx.location.trans h, rfl, rfl⟩
      · exact absurd (hx.location.symm.trans hn) hx.resident
    | relocated a id source destination =>
      obtain ⟨x, w, d, hx, hid, -, -, hat, -⟩ := hs
      obtain rfl := Option.some.inj hmoved
      obtain rfl := Option.some.inj (hx.found.symm.trans hk)
      obtain ⟨-, ht, hsrc, -⟩ := hshape
      have hloc : x.location = .Vram := by
        rcases hat.2 ho with h | ⟨h, -⟩
        · exact h.trans hsrc
        · rw [hsrc] at h
          cases h
      rcases hold with rfl | ⟨-, -, hn, -⟩
      · exact absurd (hloc.trans ht.symm) hne
      · rw [hloc] at hn
        cases hn
    | loaded a id => exact hshape.elim
    | _ => cases hmoved
  · rw [Step.elsewhere hs he.1 hmoved, hk] at hk''
    obtain rfl := Option.some.inj hk''
    exact hm

/-- what a room-making chain leaves of a pinned expert outside the tier -/
theorem chain_spares (h : Chain (Step T) (RoomEffect π tier pinned) s s')
    (hk : s.experts.lookup k = some m) (hpin : m.policyId ∈ pinned) :
    ∃ m', s'.experts.lookup k = some m' ∧ identity m' = identity m ∧ Spared π tier m m' := by
  have hspared : ∃ m', s'.experts.lookup k = some m' ∧ m'.policyId ∈ pinned ∧
      Spared π tier m m' := by
    refine h.keeps (I := fun s => ∃ m', s.experts.lookup k = some m' ∧ m'.policyId ∈ pinned ∧
      Spared π tier m m') (fun e s s' he hs hI => ?_) ⟨m, hk, hpin, fun _ => rfl, fun _ _ => .inl rfl⟩
    obtain ⟨m', hk', hpin', hm'⟩ := hI
    obtain ⟨m'', hk'', hm''⟩ := he.spares hs hk' hpin' hm'
    obtain ⟨y, hy, hi⟩ := (Step.kin hs he.1).found hk'
    rw [hk''] at hy
    obtain rfl := Option.some.inj hy
    have hid : m''.policyId = m'.policyId := congrArg (·.2.2.1) hi
    exact ⟨m'', hk'', hid ▸ hpin', hm''⟩
  obtain ⟨m', hk', -, hm'⟩ := hspared
  obtain ⟨y, hy, hi⟩ := (chain_kin h fun _ he => he.1).found hk
  rw [hk'] at hy
  obtain rfl := Option.some.inj hy
  exact ⟨m', hk', hi, hm'⟩

/-! ## the victim of a round -/

omit [CachePolicy π] in
theorem mem_candidates : id ∈ s.candidatesLocked tier ↔
    ∃ k m, s.experts.lookup k = some m ∧ m.location = tier ∧ m.residencyLeases = 0 ∧
      m.policyId = id := by
  unfold candidatesLocked
  simp only [List.mem_map, List.mem_filter, Table.mem_values, decide_eq_true_eq]
  constructor
  · rintro ⟨m, ⟨⟨k, hk⟩, hl, hr⟩, hid⟩
    exact ⟨k, m, hk, hl, hr, hid⟩
  · rintro ⟨k, m, hk, hl, hr, hid⟩
    exact ⟨m, ⟨⟨k, hk⟩, hl, hr⟩, hid⟩

/-- a selected victim is a known expert; an offered one is unleased and in the tier -/
theorem Wired.victim (W : Wired s) {v : ExpertId} {x : ManagedExpert}
    (hv : CachePolicy.selectVictim s.policy tier (s.candidatesLocked tier) pinned = some v)
    (hi : s.policyExperts.lookup v = some k) (hx : s.experts.lookup k = some x) :
    x.metadata.key = k ∧ x.policyId = v ∧
      (SelectsOffered π → x.location = tier ∧ x.residencyLeases = 0) := by
  obtain ⟨y, hy, hid⟩ := (W.named v k).mp hi
  obtain rfl := Option.some.inj (hy.symm.trans hx)
  refine ⟨W.keyed k y hy, hid, fun ho => ?_⟩
  obtain ⟨k', m', hk', hl, hr, hid'⟩ := mem_candidates.mp (ho.offered _ _ _ _ _ hv)
  obtain rfl := W.unique hk' hy (hid'.trans hid.symm)
  obtain rfl := Option.some.inj (hk'.symm.trans hy)
  exact ⟨hl, hr⟩

/-! ## the induction on the fuel -/

/-- what a call of `moveExpertLocked` comes to -/
structure Moved (T : Transfers) (k : ExpertKey) (m : ManagedExpert) (destination : MemoryTier)
    (pinned : List ExpertId) (s : ExpertManager π) (r : Except Exn Unit)
    (s' : ExpertManager π) : Prop where
  chain : Chain (Step T) (MoveEffect π k m.policyId m.location destination pinned) s s'
  arrived : r = .ok () → ∃ m', s'.experts.lookup k = some m' ∧ m'.location = destination
  /-- a move that throws leaves the expert where it was, unless it had been staged -/
  stayed : ∀ e, r = .error e → ¬ (m.location = .Nvme ∧ destination = .Vram) →
    ∃ m', s'.experts.lookup k = some m' ∧ Spared π destination m m'

/-- what a call of `makeRoomLocked` or of its loop comes to -/
def Roomed (T : Transfers) (tier : MemoryTier) (pinned : List ExpertId) (s : ExpertManager π)
    {α : Type} (_ : Except Exn α) (s' : ExpertManager π) : Prop :=
  Chain (Step T) (RoomEffect π tier pinned) s s'

def MoveSpec (T : Transfers) (π : Type) [CachePolicy π] (fuel : Nat) : Prop :=
  ∀ (s : ExpertManager π) k m destination pinned, Wired s → s.experts.lookup k = some m →
    m.policyId ∈ pinned →
    wp (moveExpertLocked T fuel k destination pinned) (Moved T k m destination pinned s) s

def RoomSpec (T : Transfers) (π : Type) [CachePolicy π] (fuel : Nat) : Prop :=
  ∀ (s : ExpertManager π) tier requiredBytes pinned, Wired s →
    wp (makeRoomLocked T fuel tier requiredBytes pinned) (Roomed T tier pinned s) s

def LoopSpec (T : Transfers) (π : Type) [CachePolicy π] (fuel : Nat) : Prop :=
  ∀ (s : ExpertManager π) tier requiredBytes pinned, Wired s →
    wp (makeRoomLoop T fuel tier requiredBytes pinned) (Roomed T tier pinned s) s

theorem chain_wired {P : Effect → Prop} (h : Chain (Step T) P s s') (W : Wired s) : Wired s' :=
  h.keeps (fun _ _ _ _ hs => Step.wired hs) W

theorem spared_same : Spared π tier m m := ⟨fun _ => rfl, fun _ _ => .inl rfl⟩

/-- room first, then one stretch of the expert itself -/
theorem moved_of_stretch (own : Effect) {x room : Code π Unit} (hk : s.experts.lookup k = some m) (hpin : m.policyId ∈ pinned) (hd : destination ≠ .Nvme)
    (hroom : wp room (Roomed T destination pinned s) s)
    (hown : MoveEffect π k m.policyId m.location destination pinned own)
    (hx : ∀ s₁ m₁, s₁.experts.lookup k = some m₁ → identity m₁ = identity m →
      Spared π destination m m₁ → wp x (fun r s' => Ends T own k destination s₁ r s' ∨
        ((∃ e, r = .error e) ∧ Step T (.leaked k) s₁ s' ∧
          MoveEffect π k m.policyId m.location destination pinned (.leaked k))) s₁) :
    wp (room >>= fun _ => x) (Moved T k m destination pinned s) s := by
  refine wp_seq hroom (fun _ s₁ hc => ?_) fun e s₁ hc => ?_
  · obtain ⟨m₁, hk₁, hi, hs₁⟩ := chain_spares hc hk hpin
    have hc' := hc.mono (Q := MoveEffect π k m.policyId m.location destination pinned)
      fun _ h => h.move hd
    refine wp_mono (hx s₁ m₁ hk₁ hi hs₁) fun r s' h => ?_
    rcases h with h | ⟨⟨e, rfl⟩, hl, hla⟩
    · cases r with
      | ok _ => exact ⟨hc'.trans (.single hown h.1), fun _ => h.2, (fun _ h => by cases h)⟩
      | error e =>
        have hf : MoveEffect π k m.policyId m.location destination pinned .failed :=
          ⟨rfl, fun _ => .inl trivial⟩
        refine ⟨hc'.trans (.single hf h), (fun h => by cases h), fun _ _ _ => ⟨m₁, ?_, hs₁⟩⟩
        rw [Failed.experts h, hk₁]
    · refine ⟨hc'.trans (.single hla hl), (fun h => by cases h), fun _ _ _ => ⟨m₁, ?_, hs₁⟩⟩
      rw [Leaked.experts hl, hk₁]
  · obtain ⟨m₁, hk₁, -, hs₁⟩ := chain_spares hc hk hpin
    exact ⟨hc.mono fun _ h => h.move hd, (fun h => by cases h), fun _ _ _ => ⟨m₁, hk₁, hs₁⟩⟩

theorem moved_same (hk : s.experts.lookup k = some m) (r : Except Exn Unit)
    (h : r = .ok () → m.location = destination) : Moved T k m destination pinned s r s :=
  ⟨.refl, fun hr => ⟨m, hk, h hr⟩, fun _ _ _ => ⟨m, hk, spared_same⟩⟩

theorem move_step {fuel : Nat} (ihMove : MoveSpec T π fuel) (ihRoom : RoomSpec T π fuel) :
    MoveSpec T π (fuel + 1) := by
  intro s k m destination pinned W hk hpin
  unfold moveExpertLocked
  rw [wp_bind, wp_require hk]
  show wp (_ >>= _) _ s
  rw [wp_bind, wp_read]
  show wp (if m.location = destination then pure () else _) _ s
  by_cases hsame : m.location = destination
  · rw [if_pos hsame]
    exact moved_same hk _ fun _ => hsame
  rw [if_neg hsame, wp_bind, wp_throwIf]
  by_cases hl : m.residencyLeases ≠ 0
  · rw [if_pos hl]
    exact moved_same hk _ fun h => by cases h
  rw [if_neg hl]
  have hl0 : m.residencyLeases = 0 := not_not.mp hl
  have hleases : ∀ {m₁}, identity m₁ = identity m → m₁.residencyLeases = 0 := fun hi =>
    (congrArg (·.2.2.2) hi).trans hl0
  have hids : ∀ {m₁}, identity m₁ = identity m → m₁.policyId = m.policyId := fun hi =>
    congrArg (·.2.2.1) hi
  show wp (if _ then _ else _) _ s
  by_cases hstage : m.location = .Nvme ∧ destination = .Vram
  · -- staged through RAM
    rw [if_pos hstage]
    obtain ⟨hn, rfl⟩ := hstage
    refine wp_seq (ihMove s k m .Ram pinned W hk hpin) (fun _ s₁ h₁ => ?_) fun e s₁ h₁ => ?_
    · obtain ⟨m₁, hk₁, hloc₁⟩ := h₁.arrived rfl
      obtain ⟨y, hy, hi⟩ := (chain_kin h₁.chain fun _ he => he.1).found hk
      obtain rfl := Option.some.inj (hy.symm.trans hk₁)
      refine wp_mono (ihMove s₁ k y .Vram pinned (chain_wired h₁.chain W) hk₁ (hids hi ▸ hpin))
        fun r s' h₂ => ⟨?_, h₂.arrived, fun _ _ h => absurd ⟨hn, rfl⟩ h⟩
      have c₁ := h₁.chain
      have c₂ := h₂.chain
      rw [hn] at c₁ ⊢
      rw [hloc₁, hids hi] at c₂
      exact (c₁.mono fun _ h => h.staged₁).trans (c₂.mono fun _ h => h.staged₂)
    · refine ⟨?_, (fun h => by cases h), fun _ _ h => absurd ⟨hn, rfl⟩ h⟩
      have c₁ := h₁.chain
      rw [hn] at c₁ ⊢
      exact c₁.mono fun _ h => h.staged₁
  rw [if_neg hstage]
  by_cases hload : m.location = .Nvme ∧ destination = .Ram ∧ s.hasTransfers
  · rw [if_pos hload]
    obtain ⟨hn, rfl, -⟩ := hload
    refine moved_of_stretch (.loaded k m.policyId) hk hpin (by decide)
      (ihRoom s .Ram _ pinned W) ⟨rfl, fun _ => .inl ⟨rfl, rfl, hn, .inl rfl⟩⟩ ?_
    intro s₁ m₁ hk₁ hi hs₁
    have hloc : SelectsOffered π → m₁.location = .Nvme := fun ho => by
      rcases hs₁.2 ho (by rw [hn]; decide) with rfl | ⟨h, -⟩
      · exact hn
      · cases h
    rw [← hids hi]
    refine wp_mono (wp_loadIntoRam hk₁ hloc (hleases hi)) fun r s' h => ?_
    rcases h with h | h
    · exact .inl h
    · exact .inr ⟨h.1, h.2, rfl, fun _ => .inl ⟨rfl, hn, .inl rfl⟩⟩
  rw [if_neg hload]
  by_cases hdrop : destination = .Nvme
  · rw [if_pos hdrop]
    subst hdrop
    refine wp_mono (wp_dropToNvme (T := T) hk rfl hsame hl0) fun r s' h => ?_
    cases r with
    | ok _ =>
      have he : MoveEffect π k m.policyId m.location .Nvme pinned
          (.evicted k m.policyId m.location) := ⟨rfl, fun _ => .inl ⟨rfl, rfl, rfl, rfl⟩⟩
      exact ⟨.single he h.1, fun _ => h.2, (fun _ h => by cases h)⟩
    | error e =>
      have he : MoveEffect π k m.policyId m.location .Nvme pinned .failed :=
        ⟨rfl, fun _ => .inl trivial⟩
      refine ⟨.single he h, (fun h => by cases h), fun _ _ _ => ⟨m, ?_, spared_same⟩⟩
      rw [Failed.experts h, hk]
  rw [if_neg hdrop]
  refine moved_of_stretch (.relocated k m.policyId m.location destination) hk hpin hdrop
    (ihRoom s destination _ pinned W)
    ⟨rfl, fun _ => .inl ⟨rfl, rfl, .inl ⟨rfl, rfl, hdrop⟩⟩⟩ ?_
  intro s₁ m₁ hk₁ hi hs₁
  have hat : FoundAt π m₁ m.location destination := by
    refine ⟨fun hl => by rw [hs₁.1 hl], fun ho => ?_⟩
    rcases hs₁.2 ho hsame with rfl | ⟨ht, hr, hn, hw⟩
    · exact .inl rfl
    · exact .inr ⟨hr, ht, hn, hw⟩
  rw [← hids hi]
  exact wp_mono (wp_relocate hk₁ hsame hstage hat (hleases hi)) fun r s' h => .inl h

/-- a chain of room-making, then more room-making -/
theorem roomed_trans {α β : Type} {r : Except Exn α} {r' : Except Exn β} {s'' : ExpertManager π}
    (h : Roomed T tier pinned s r s') (h' : Roomed T tier pinned s' r' s'') :
    Roomed T tier pinned s r' s'' := Chain.trans h h'

/-- the victim leaves: one step down, or to NVMe where that fails -/
theorem wp_evictVictim (tier : MemoryTier) (pinned : List ExpertId)
    (move : MemoryTier → Code π Unit) {v : ExpertId}
    (hmove : ∀ (s₁ : ExpertManager π) m₁ t, Wired s₁ → s₁.experts.lookup k = some m₁ →
      m₁.policyId = v → wp (move t) (Moved T k m₁ t (v :: pinned) s₁) s₁)
    (W : Wired s) (hk : s.experts.lookup k = some m) (hid : m.policyId = v)
    (hloc : SelectsOffered π → m.location = tier) (hx : LawfulCachePolicy π → v ∉ pinned) :
    wp (evictVictim move tier) (Roomed T tier pinned s) s := by
  subst hid
  unfold evictVictim
  split
  · next ht =>
    subst ht
    refine wp_catch (hmove s m .Ram W hk rfl) (fun _ s₁ h => ?_) fun e s₁ h => ?_
    · exact h.chain.mono fun _ h => h.demotion hloc hx
    · have c₁ := h.chain.mono (Q := RoomEffect π .Vram pinned) fun _ h => h.demotion hloc hx
      split
      · have hstage : ¬ (m.location = .Nvme ∧ MemoryTier.Ram = .Vram) := fun h => by cases h.2
        obtain ⟨m₁, hk₁, hs₁⟩ := h.stayed e rfl hstage
        obtain ⟨y, hy, hi⟩ := (chain_kin h.chain fun _ he => he.1).found hk
        obtain rfl := Option.some.inj (hy.symm.trans hk₁)
        have hid : y.policyId = m.policyId := congrArg (·.2.2.1) hi
        refine wp_mono (hmove s₁ y .Nvme (chain_wired h.chain W) hk₁ hid) fun r s' h₂ => ?_
        refine c₁.trans (h₂.chain.mono fun _ h => ?_)
        rw [hid] at h
        refine h.eviction (fun ho => ?_) hx
        rcases hs₁.2 ho (by rw [hloc ho]; decide) with rfl | ⟨h, -⟩
        · exact hloc ho
        · cases h
      · exact c₁
  · exact wp_mono (hmove s m .Nvme W hk rfl) fun r s' h => h.chain.mono fun _ h =>
      h.eviction hloc hx

theorem loop_step {fuel : Nat} (ihMove : MoveSpec T π fuel) (ihLoop : LoopSpec T π fuel) :
    LoopSpec T π (fuel + 1) := by
  intro s tier n pinned W
  unfold makeRoomLoop onMemory
  rw [wp_bind, wp_zoom]
  refine MemoryManager.wp_usage (fun _ => ?_) fun _ => Chain.refl
  show wp (if _ then _ else _) _ _
  split
  · rw [wp_bind, wp_read]
    show wp (_ >>= _) _ _
    rw [wp_bind, wp_orThrow]
    split
    · next v hv =>
      show wp (_ >>= _) _ _
      rw [wp_bind, wp_orThrow]
      split
      · next k hk =>
        show wp (_ >>= _) _ _
        rw [wp_bind, wp_orThrow]
        split
        · next x hx =>
          obtain ⟨hkey, hid, hloc⟩ := Wired.victim W hv hk hx
          rw [← hkey] at hx
          show wp (_ >>= _) _ s
          have hevict := wp_evictVictim (T := T) tier pinned
            (fun t => moveExpertLocked T fuel x.metadata.key t (v :: pinned)) (v := v)
            (fun s₁ m₁ t W₁ hk₁ hid₁ => ihMove s₁ _ m₁ t (v :: pinned) W₁ hk₁
              (hid₁ ▸ List.mem_cons_self))
            W hx hid (fun ho => (hloc ho).1)
            (fun hl => LawfulCachePolicy.notExcluded _ _ _ _ _ hv)
          refine wp_seq hevict (fun _ s₁ h₁ => ?_) fun _ _ h₁ => h₁
          exact wp_mono (ihLoop s₁ tier n pinned (chain_wired h₁ W)) fun r s' h =>
            roomed_trans h₁ h
        · exact Chain.refl
      · exact Chain.refl
    · exact Chain.refl
  · exact Chain.refl

theorem room_step {fuel : Nat} (ihLoop : LoopSpec T π fuel) : RoomSpec T π (fuel + 1) := by
  intro s tier n pinned W
  unfold makeRoomLocked
  split
  · exact Chain.refl
  · unfold onMemory
    rw [wp_bind, wp_zoom]
    refine MemoryManager.wp_usage (fun _ => ?_) fun _ => Chain.refl
    show wp (_ >>= _) _ s
    rw [wp_bind, wp_throwIf]
    split
    · exact Chain.refl
    · exact ihLoop s tier n pinned W

theorem moves (T : Transfers) (π : Type) [CachePolicy π] (fuel : Nat) :
    MoveSpec T π fuel ∧ RoomSpec T π fuel ∧ LoopSpec T π fuel := by
  induction fuel with
  | zero =>
    refine ⟨fun s k m destination pinned W hk hpin => ?_, fun s tier n pinned W => ?_,
      fun s tier n pinned W => ?_⟩
    · exact moved_same hk _ fun h => by cases h
    · exact Chain.refl
    · exact Chain.refl
  | succ fuel ih =>
    obtain ⟨ihMove, ihRoom, ihLoop⟩ := ih
    exact ⟨move_step ihMove ihRoom, room_step ihLoop, loop_step ihMove ihLoop⟩

/-! ## the calls of the public operations -/

theorem wp_move (W : Wired s) (hk : s.experts.lookup k = some m) (hpin : m.policyId ∈ pinned) :
    wp (move T k destination pinned) (Moved T k m destination pinned s) s := by
  unfold move
  rw [wp_bind, wp_read]
  exact (moves T π _).1 s k m destination pinned W hk hpin

theorem wp_makeRoom {n : Nat} (W : Wired s) :
    wp (makeRoom T tier n pinned) (Roomed T tier pinned s) s := by
  unfold makeRoom
  rw [wp_bind, wp_read]
  exact (moves T π _).2.1 s tier n pinned W

end

end ExpertManager

end HyperMoE
