import HyperMoE.Experts.Moves

/-!
# The public operations and whole runs

What each public operation of the expert manager can do, as a chain of effects, and the system
that a run is about: the manager with the leases that its users hold.

* `Op`, `ManagerSystem`, `exec`, `run`   whole runs; the outcome of every submitted transfer is
                                         given from outside, anew for each operation;
* `Op.allows`                            the effects an operation may have;
* `exec_effects`                         it has no others;
* `run_keeps`                            the induction over runs.
-/

namespace HyperMoE

open Lib Lib.Fallible

namespace ExpertManager

variable {π : Type} [CachePolicy π] {T : Transfers} {s s' : ExpertManager π} {k : ExpertKey}
  {m : ManagedExpert}

/-- the effects of a move of `k` as the public operations call it: `k` itself is pinned -/
def OwnMove (s : ExpertManager π) (k : ExpertKey) (destination : MemoryTier) (e : Effect) : Prop :=
  ∃ m, s.experts.lookup k = some m ∧
    MoveEffect π k m.policyId m.location destination [m.policyId] e

def OwnRoom (s : ExpertManager π) (k : ExpertKey) (tier : MemoryTier) (e : Effect) : Prop :=
  ∃ m, s.experts.lookup k = some m ∧ RoomEffect π tier [m.policyId] e

theorem room_failed {tier : MemoryTier} {pinned : List ExpertId} (h : Step T .failed s s') :
    Chain (Step T) (RoomEffect π tier pinned) s s' :=
  .single (e := .failed) ⟨rfl, fun _ => trivial⟩ h

omit [CachePolicy π] in
theorem location_of_lookup (hk : s.experts.lookup k = some m) :
    (s.findExpert k).map Expert.location = some m.location := by
  unfold findExpert
  rw [hk]
  rfl

/-! ## one specification per operation -/

/-- a registration: the entry, the move to the initial tier, and the rollback of the entry where
that move throws -/
def RegisterEffect (s : ExpertManager π) (x : Expert) (e : Effect) : Prop :=
  e = .registered x.key ∨ e = .unregistered x.key ∨
    MoveEffect π x.key s.nextPolicyId .Nvme x.location [s.nextPolicyId] e

/-- the rule for a registration: `R` is what its move leaves, and the entry that is rolled back is
the one that was made -/
theorem wp_registration {x : Expert} {Q : ExpertManager π → Prop}
    {R : Except Exn Unit → ExpertManager π → Prop} (hrefused : Q s)
    (hplaced : ∀ m s₁, Registered x.key m s s₁ → x.location = .Nvme → Q s₁)
    (hmove : ∀ m s₁, Registered x.key m s s₁ → x.location ≠ .Nvme →
      wp (move T x.key x.location [s.nextPolicyId]) R s₁)
    (hmoved : ∀ s₁, R (.ok ()) s₁ → Q s₁)
    (hrolled : ∀ e s₁, R (.error e) s₁ → ∃ m, s₁.experts.lookup x.key = some m ∧
      m.policyId = s.nextPolicyId ∧ m.residencyLeases = 0 ∧
        ∀ s₂, Unregistered x.key m s₁ s₂ → Q s₂) :
    wp (registerExpert T x) (fun _ s' => Q s') s := by
  unfold registerExpert
  rw [wp_bind, wp_throwIf]
  split
  · exact hrefused
  next hsize =>
  show wp (_ >>= _) _ s
  rw [wp_bind, wp_read]
  show wp (_ >>= _) _ s
  rw [wp_bind, wp_throwIf]
  split
  · exact hrefused
  next hknown =>
  show wp (_ >>= _) _ s
  rw [wp_bind, wp_throwIf]
  split
  · exact hrefused
  show wp (_ >>= _) _ s
  rw [wp_bind, wp_update]
  have hreg : Registered x.key
      ⟨{ x with location := .Nvme }, s.nextPolicyId, none, none, none, 0, 0, 0, 0, 0⟩ s
      (insertExpert x s) :=
    ⟨Option.not_isSome_iff_eq_none.mp hknown, rfl, rfl, hsize, rfl, rfl, rfl, rfl, rfl, rfl, rfl,
      rfl, rfl, rfl, rfl⟩
  show wp (if _ then _ else _) _ _
  split
  · next hloc =>
    refine wp_catch (hmove _ _ hreg hloc) (fun _ s₁ h => hmoved s₁ h) fun e s₁ h => ?_
    obtain ⟨m₁, hk₁, hid, hl, hun⟩ := hrolled e s₁ h
    rw [wp_bind, wp_require hk₁]
    show wp (_ >>= _) _ s₁
    rw [wp_bind]
    have herase : ∀ s₂ : ExpertManager π, s₂ = setMemory (giveBack m₁ s₁.memory) s₁ →
        Q (eraseExpert x s.nextPolicyId s₂) := by
      rintro _ rfl
      refine hun _ ⟨hk₁, hl, rfl, rfl, rfl, ?_, rfl, rfl⟩
      rw [hid]
      rfl
    refine wp_releaseFails (fun _ => herase _ rfl) fun hsame => herase s₁ ?_
    rw [hsame]
    rfl
  · next hloc => exact hplaced _ _ hreg (not_not.mp hloc)

omit [CachePolicy π] in
theorem Registered.found (h : Registered k m s s') : s'.experts.lookup k = some m := by
  rw [h.experts, AList.lookup_insert]

theorem wp_registerExpert {x : Expert} (W : Wired s) :
    wp (registerExpert T x) (fun _ s' => Chain (Step T) (RegisterEffect s x) s s') s := by
  have hfirst : ∀ {m s₁}, Registered x.key m s s₁ → Chain (Step T) (RegisterEffect s x) s s₁ :=
    fun h => .single (e := .registered x.key) (.inl rfl) ⟨_, h⟩
  refine wp_registration (R := fun _ s₁ => Chain (Step T) (RegisterEffect s x) s s₁ ∧
    ∃ m, s₁.experts.lookup x.key = some m ∧ m.policyId = s.nextPolicyId ∧ m.residencyLeases = 0)
    .refl (fun m s₁ h _ => hfirst h) (fun m s₁ hreg _ => ?_) (fun s₁ h => h.1) fun e s₁ h => ?_
  · have W₁ : Wired s₁ := W.registered hreg
    have hid := hreg.policyId
    refine wp_mono (wp_move W₁ hreg.found (hid ▸ List.mem_cons_self)) fun r s₂ h => ⟨?_, ?_⟩
    · refine (hfirst hreg).trans (h.chain.mono fun e h => .inr (.inr ?_))
      rw [hid, hreg.location] at h
      exact h
    · obtain ⟨m₁, hk₁, hi⟩ := (chain_kin h.chain fun _ he => he.1).found hreg.found
      exact ⟨m₁, hk₁, (congrArg (·.2.2.1) hi).trans hid, (congrArg (·.2.2.2) hi).trans hreg.leases⟩
  · obtain ⟨hc, m, hk, hid, hl⟩ := h
    exact ⟨m, hk, hid, hl, fun s₂ hun =>
      hc.trans (.single (e := .unregistered x.key) (.inr (.inl rfl)) ⟨m, hun⟩)⟩

/-- a request may move its expert to VRAM, and notes and counts the access at the end -/
def RequestEffect (s : ExpertManager π) (k : ExpertKey) (e : Effect) : Prop :=
  OwnMove s k .Vram e ∨ e = .noted k ∨ ∃ source n, e = .counted source n

theorem wp_requestExpert (W : Wired s) :
    wp (requestExpert T k) (fun _ s' => Chain (Step T) (RequestEffect s k) s s') s := by
  unfold requestExpert
  cases hk : s.experts.lookup k with
  | none =>
    rw [wp_bind, wp_require_none hk]
    exact Chain.refl
  | some m =>
    rw [wp_bind, wp_require hk]
    show wp (_ >>= _) _ s
    refine wp_seq (wp_move W hk List.mem_cons_self) (fun _ s₁ h => ?_) fun _ s₁ h => ?_
    · have c₁ := h.chain.mono (Q := RequestEffect s k) fun _ h => .inl ⟨m, hk, h⟩
      obtain ⟨m₁, hk₁, -⟩ := h.arrived rfl
      refine wp_seq (wp_recordAccess (T := T) hk₁) (fun _ s₂ h₂ => ?_) fun _ s₂ h₂ => by
        cases h₂.1
      show wp (_ >>= _) _ s₂
      rw [wp_bind, wp_update]
      have c₂ := c₁.trans (.single (.inr (.inl rfl)) h₂.2)
      have c₃ : ∀ source, Chain (Step T) (RequestEffect s k) s
          (modifyStats (·.requested source m.sizeBytes) s₂) := fun source =>
        c₂.trans (.single (e := .counted source m.sizeBytes) (.inr (.inr ⟨_, _, rfl⟩))
          ⟨rfl, rfl, rfl, rfl, rfl, rfl⟩)
      show wp (_ >>= _) _ _
      rw [wp_bind]
      cases hk₂ : (modifyStats _ s₂).experts.lookup k with
      | none =>
        rw [wp_require_none hk₂]
        exact c₃ _
      | some m₂ =>
        rw [wp_require hk₂]
        exact c₃ _
    · exact h.chain.mono fun _ h => .inl ⟨m, hk, h⟩

theorem wp_moveExpert {destination : MemoryTier} (W : Wired s) :
    wp (moveExpert T k destination)
      (fun _ s' => Chain (Step T) (OwnMove s k destination) s s') s := by
  unfold moveExpert
  cases hk : s.experts.lookup k with
  | none =>
    rw [wp_bind, wp_require_none hk]
    exact Chain.refl
  | some m =>
    rw [wp_bind, wp_require hk]
    exact wp_mono (wp_move W hk List.mem_cons_self) fun _ _ h =>
      h.chain.mono fun _ h => ⟨m, hk, h⟩

theorem wp_evictLoop {tier : MemoryTier} {bound : Nat} (rounds evicted : Nat) (W : Wired s) :
    wp (evictLoop T rounds tier bound evicted)
      (fun _ s' => Chain (Step T) (RoomEffect π tier []) s s') s := by
  induction rounds generalizing s evicted with
  | zero => exact Chain.refl
  | succ rounds ih =>
    unfold evictLoop onMemory
    rw [wp_bind, wp_zoom]
    refine MemoryManager.wp_usage (fun _ => ?_) fun _ => Chain.refl
    show wp (if _ then _ else _) _ s
    split
    · rw [wp_bind, wp_read]
      dsimp only
      cases hv : CachePolicy.selectVictim s.policy tier (s.candidatesLocked tier) [] with
      | none => exact Chain.refl
      | some v =>
        show wp (_ >>= _) _ s
        rw [wp_bind, wp_orThrow]
        cases hi : s.policyExperts.lookup v with
        | none => exact Chain.refl
        | some k =>
          show wp (_ >>= _) _ s
          rw [wp_bind, wp_orThrow]
          cases hx : s.experts.lookup k with
          | none => exact Chain.refl
          | some x =>
            obtain ⟨hkey, hid, hloc⟩ := W.victim hv hi hx
            rw [← hkey] at hx
            have hevict := wp_evictVictim (T := T) tier [] (fun t => move T x.metadata.key t [v]) (v := v)
              (fun s₁ m₁ t W₁ hk₁ hid₁ => wp_move W₁ hk₁ (hid₁ ▸ List.mem_cons_self))
              W hx hid (fun ho => (hloc ho).1) fun _ => List.not_mem_nil
            refine wp_seq hevict (fun _ s₁ h₁ => ?_) fun _ _ h₁ => h₁
            exact wp_mono (ih _ (chain_wired h₁ W)) fun r s' h => Chain.trans h₁ h
    · exact Chain.refl

theorem wp_evictUntilWithin {tier : MemoryTier} {bound : Nat} (W : Wired s) :
    wp (evictUntilWithin T tier bound)
      (fun _ s' => Chain (Step T) (RoomEffect π tier []) s s') s := by
  unfold evictUntilWithin
  rw [wp_bind, wp_throwIf]
  split
  · exact Chain.refl
  · exact wp_evictLoop _ _ W

/-- an adoption into `tier`: where the expert is there already the access alone is noted -/
def AdoptEffect (s : ExpertManager π) (k : ExpertKey) (tier : MemoryTier) (b : Option Buffer)
    (e : Effect) : Prop :=
  e = .noted k ∨ ∃ m, s.experts.lookup k = some m ∧ m.location ≠ tier ∧
    (RoomEffect π tier [m.policyId] e ∨ ∃ b', b = some b' ∧ e = .adopted k tier b')

/-- room first, then the commit; whether it returned tells whether the buffer was adopted -/
theorem wp_adoption {tier : MemoryTier} {w d : Option Buffer} {b : Buffer} {x : Exn} (W : Wired s)
    (hk : s.experts.lookup k = some m) (hloc : m.location ≠ tier) (hsize : b.size = m.sizeBytes)
    (ht : tier ≠ .Nvme)
    (hb : (tier = .Vram ∧ w = none ∧ d = some b) ∨
      (tier = .Ram ∧ m.residencyLeases = 0 ∧ w = some b ∧ d = none)) :
    wp (do
        makeRoom T tier m.sizeBytes [m.policyId]
        adopt k tier w d x)
      (fun r s' => match r with
        | .ok _ => ∃ s₁ s₂, Chain (Step T) (RoomEffect π tier [m.policyId]) s s₁ ∧
            Step T (.adopted k tier b) s₁ s₂ ∧ Step T (.noted k) s₂ s'
        | .error _ => Chain (Step T) (RoomEffect π tier [m.policyId]) s s') s := by
  refine wp_seq (wp_makeRoom W) (fun _ s₁ h₁ => ?_) fun _ s₁ h₁ => h₁
  obtain ⟨m₁, hk₁, hi, hs₁⟩ := chain_spares h₁ hk List.mem_cons_self
  have hloc₁ : SelectsOffered π → m₁.location ≠ tier := fun ho => by
    rcases hs₁.2 ho hloc with rfl | ⟨-, -, hn, -⟩
    · exact hloc
    · rw [hn]
      exact ht.symm
  have hb₁ : (tier = .Vram ∧ w = none ∧ d = some b) ∨
      (tier = .Ram ∧ m₁.residencyLeases = 0 ∧ w = some b ∧ d = none) := by
    rw [show m₁.residencyLeases = m.residencyLeases from congrArg (·.2.2.2) hi]
    exact hb
  have hsize₁ : b.size = m₁.sizeBytes := hsize.trans (congrArg (·.2.1) hi).symm
  refine wp_mono (wp_adopt (T := T) hk₁ hloc₁ hsize₁ hb₁) fun r s' h => ?_
  cases r with
  | ok _ =>
    obtain ⟨s₂, ha, hn⟩ := h
    exact ⟨s₁, s₂, h₁, ha, hn⟩
  | error _ => exact Chain.trans h₁ (room_failed h)

/-- an adoption as it ended: where it returned and the expert was elsewhere, the buffer is its -/
def Adopted (T : Transfers) (s : ExpertManager π) (k : ExpertKey) (tier : MemoryTier)
    (b : Option Buffer) (r : Except Exn Unit) (s' : ExpertManager π) : Prop :=
  (∃ e, r = .error e) ∧ s' = s ∨
    Step T (.noted k) s s' ∧ (∃ m, s.experts.lookup k = some m ∧ m.location = tier) ∨
    ∃ m, s.experts.lookup k = some m ∧ m.location ≠ tier ∧
      (tier = .Ram → m.residencyLeases = 0) ∧
      match r with
      | .ok _ => ∃ b' s₁ s₂, b = some b' ∧ Chain (Step T) (RoomEffect π tier [m.policyId]) s s₁ ∧
          Step T (.adopted k tier b') s₁ s₂ ∧ Step T (.noted k) s₂ s'
      | .error _ => Chain (Step T) (RoomEffect π tier [m.policyId]) s s'

theorem Adopted.chain {tier : MemoryTier} {b : Option Buffer} {r : Except Exn Unit}
    (h : Adopted T s k tier b r s') : Chain (Step T) (AdoptEffect s k tier b) s s' := by
  rcases h with ⟨-, rfl⟩ | ⟨h, -⟩ | ⟨m, hk, hloc, -, h⟩
  · exact .refl
  · exact .single (.inl rfl) h
  · cases r with
    | error _ => exact h.mono fun _ h => .inr ⟨m, hk, hloc, .inl h⟩
    | ok _ =>
      obtain ⟨b', s₁, s₂, hb, hc, ha, hn⟩ := h
      exact ((hc.mono fun _ h => .inr ⟨m, hk, hloc, .inl h⟩).trans
        (.single (.inr ⟨m, hk, hloc, .inr ⟨b', hb, rfl⟩⟩) ha)).trans (.single (.inl rfl) hn)

theorem wp_adoptDeviceWeights {b : Option Buffer} (W : Wired s) :
    wp (adoptDeviceWeights T k b) (Adopted T s k .Vram b) s := by
  unfold adoptDeviceWeights
  cases b with
  | none => exact .inl ⟨⟨_, rfl⟩, rfl⟩
  | some b =>
    rw [wp_bind, wp_orThrow]
    show wp (_ >>= _) _ s
    rw [wp_bind, wp_throwIf]
    split
    · exact .inl ⟨⟨_, rfl⟩, rfl⟩
    cases hk : s.experts.lookup k with
    | none =>
      show wp (_ >>= _) _ s
      rw [wp_bind, wp_require_none hk]
      exact .inl ⟨⟨_, rfl⟩, rfl⟩
    | some m =>
      show wp (_ >>= _) _ s
      rw [wp_bind, wp_require hk]
      show wp (_ >>= _) _ s
      rw [wp_bind, wp_throwIf]
      split
      · exact .inl ⟨⟨_, rfl⟩, rfl⟩
      next hsize =>
      show wp (if m.location = .Vram then _ else _) _ s
      split
      · next hloc =>
        rw [wp_bind, wp_throwIf]
        split
        · exact .inl ⟨⟨_, rfl⟩, rfl⟩
        · exact wp_mono (wp_recordAccess (T := T) hk) fun _ _ h => .inr (.inl ⟨h.2, m, hk, hloc⟩)
      · next hloc =>
        refine wp_mono (wp_adoption W hk hloc (not_not.mp hsize) (by decide)
          (.inl ⟨rfl, rfl, rfl⟩)) fun r s' h => .inr (.inr ⟨m, hk, hloc, (fun h => by cases h), ?_⟩)
        cases r with
        | ok _ =>
          obtain ⟨s₁, s₂, h₁, h₂, h₃⟩ := h
          exact ⟨b, s₁, s₂, rfl, h₁, h₂, h₃⟩
        | error _ => exact h

theorem wp_adoptHostWeights {b : Option Buffer} (W : Wired s) :
    wp (adoptHostWeights T k b) (Adopted T s k .Ram b) s := by
  unfold adoptHostWeights
  cases b with
  | none => exact .inl ⟨⟨_, rfl⟩, rfl⟩
  | some b =>
    rw [wp_bind, wp_orThrow]
    show wp (_ >>= _) _ s
    rw [wp_bind, wp_throwIf]
    split
    · exact .inl ⟨⟨_, rfl⟩, rfl⟩
    cases hk : s.experts.lookup k with
    | none =>
      show wp (_ >>= _) _ s
      rw [wp_bind, wp_require_none hk]
      exact .inl ⟨⟨_, rfl⟩, rfl⟩
    | some m =>
      show wp (_ >>= _) _ s
      rw [wp_bind, wp_require hk]
      show wp (_ >>= _) _ s
      rw [wp_bind, wp_throwIf]
      split
      · exact .inl ⟨⟨_, rfl⟩, rfl⟩
      next hsize =>
      show wp (_ >>= _) _ s
      rw [wp_bind, wp_throwIf]
      split
      · exact .inl ⟨⟨_, rfl⟩, rfl⟩
      next hl =>
      have hl0 : m.residencyLeases = 0 := not_not.mp hl
      show wp (if m.location = .Ram then _ else _) _ s
      split
      · next hloc =>
        rw [wp_bind, wp_throwIf]
        split
        · exact .inl ⟨⟨_, rfl⟩, rfl⟩
        · exact wp_mono (wp_recordAccess (T := T) hk) fun _ _ h => .inr (.inl ⟨h.2, m, hk, hloc⟩)
      · next hloc =>
        refine wp_mono (wp_adoption W hk hloc (not_not.mp hsize) (by decide)
          (.inr ⟨rfl, hl0, rfl, rfl⟩)) fun r s' h => .inr (.inr ⟨m, hk, hloc, (fun _ => hl0), ?_⟩)
        cases r with
        | ok _ =>
          obtain ⟨s₁, s₂, h₁, h₂, h₃⟩ := h
          exact ⟨b, s₁, s₂, rfl, h₁, h₂, h₃⟩
        | error _ => exact h

theorem wp_prepareResidency {destination : MemoryTier} (W : Wired s) :
    wp (prepareResidency T k destination)
      (fun _ s' => Chain (Step T) (OwnRoom s k destination) s s') s := by
  unfold prepareResidency
  rw [wp_bind, wp_throwIf]
  split
  · exact Chain.refl
  cases hk : s.experts.lookup k with
  | none =>
    show wp (_ >>= _) _ s
    rw [wp_bind, wp_require_none hk]
    exact Chain.refl
  | some m =>
    show wp (_ >>= _) _ s
    rw [wp_bind, wp_require hk]
    show wp (if _ then _ else _) _ s
    split
    · exact wp_mono (wp_makeRoom W) fun _ _ h => Chain.mono h fun _ h => ⟨m, hk, h⟩
    · exact Chain.refl

/-- an acquisition: a move at most, then the lease, on the expert as it is at the end -/
def Acquired (T : Transfers) (s : ExpertManager π) (k : ExpertKey) (tier : MemoryTier)
    (r : Except Exn ExpertResidencyLease) (s' : ExpertManager π) : Prop :=
  ∃ s₁, Chain (Step T) (OwnMove s k tier) s s₁ ∧ match r with
    | .ok lease => ∃ m₁, s₁.experts.lookup k = some m₁ ∧ m₁.location = tier ∧
        s' = setExpert k { m₁ with residencyLeases := m₁.residencyLeases + 1 } s₁ ∧
        lease.expert = k ∧ (tier = .Vram → m₁.deviceWeights = lease.deviceBuffer) ∧
        (tier = .Ram → m₁.weights = lease.hostBuffer)
    | .error _ => s' = s₁

theorem wp_acquireResidentExpert (W : Wired s) :
    wp (acquireResidentExpert T k) (Acquired T s k .Vram) s := by
  unfold acquireResidentExpert
  cases hk : s.experts.lookup k with
  | none =>
    rw [wp_bind, wp_require_none hk]
    exact ⟨s, .refl, rfl⟩
  | some m =>
    rw [wp_bind, wp_require hk]
    show wp (_ >>= _) _ s
    have hmove : wp (if m.location ≠ .Vram ∨ m.deviceWeights = none then
        move T k .Vram [m.policyId] else pure ())
        (fun _ s₁ => Chain (Step T) (OwnMove s k .Vram) s s₁) s := by
      split
      · exact wp_mono (wp_move W hk List.mem_cons_self) fun _ _ h =>
          h.chain.mono fun _ h => ⟨m, hk, h⟩
      · exact Chain.refl
    refine wp_seq hmove (fun _ s₁ hc => ?_) fun _ s₁ hc => ⟨s₁, hc, rfl⟩
    cases hk₁ : s₁.experts.lookup k with
    | none =>
      rw [wp_bind, wp_require_none hk₁]
      exact ⟨s₁, hc, rfl⟩
    | some m₁ =>
      rw [wp_bind, wp_require hk₁]
      show wp (_ >>= _) _ s₁
      rw [wp_bind, wp_throwIf]
      split
      · exact ⟨s₁, hc, rfl⟩
      · next h =>
        push Not at h
        exact ⟨s₁, hc, m₁, hk₁, h.1, rfl, rfl, (fun _ => rfl), fun h => by cases h⟩

theorem wp_acquireHostExpert (W : Wired s) :
    wp (acquireHostExpert T k) (Acquired T s k .Ram) s := by
  unfold acquireHostExpert
  cases hk : s.experts.lookup k with
  | none =>
    rw [wp_bind, wp_require_none hk]
    exact ⟨s, .refl, rfl⟩
  | some m =>
    rw [wp_bind, wp_require hk]
    show wp (_ >>= _) _ s
    have hmove : wp (if m.location = .Nvme ∨ m.location = .Vram then
        move T k .Ram [m.policyId] else pure ())
        (fun _ s₁ => Chain (Step T) (OwnMove s k .Ram) s s₁) s := by
      split
      · exact wp_mono (wp_move W hk List.mem_cons_self) fun _ _ h =>
          h.chain.mono fun _ h => ⟨m, hk, h⟩
      · exact Chain.refl
    refine wp_seq hmove (fun _ s₁ hc => ?_) fun _ s₁ hc => ⟨s₁, hc, rfl⟩
    cases hk₁ : s₁.experts.lookup k with
    | none =>
      rw [wp_bind, wp_require_none hk₁]
      exact ⟨s₁, hc, rfl⟩
    | some m₁ =>
      rw [wp_bind, wp_require hk₁]
      show wp (_ >>= _) _ s₁
      rw [wp_bind, wp_throwIf]
      split
      · exact ⟨s₁, hc, rfl⟩
      · next h =>
        push Not at h
        exact ⟨s₁, hc, m₁, hk₁, h.1, rfl, rfl, (fun h => by cases h), fun _ => rfl⟩

theorem wp_updatePrediction {p c : Option ℚ} :
    wp (updatePrediction k p c) (fun _ s' => Chain (Step T) (· = .noted k) s s') s := by
  unfold updatePrediction
  cases p with
  | none => exact Chain.refl
  | some p =>
    cases c with
    | none => exact Chain.refl
    | some c =>
      show wp (requireExpertLocked k >>= _) _ s
      cases hk : s.experts.lookup k with
      | none =>
        rw [wp_bind, wp_require_none hk]
        exact Chain.refl
      | some m =>
        rw [wp_bind, wp_require hk]
        refine Chain.single (e := .noted k) rfl ⟨m, { m with
          predictionProbability := HybridPolicy.clamp01 p
          prefetchConfidence := HybridPolicy.clamp01 c }, hk, ⟨?_, ?_, ?_, ?_, ?_, ?_⟩, ?_, ?_,
          ?_, ?_, ?_, ?_⟩
        all_goals rfl

theorem wp_releaseLease :
    wp (releaseLease k) (fun _ s' => Chain (Step T) (· = .unleased k) s s') s := by
  unfold releaseLease
  rw [wp_update]
  cases hk : s.experts.lookup k with
  | none => exact Chain.refl
  | some m => exact Chain.single (e := .unleased k) rfl ⟨m, hk, rfl, rfl, rfl, rfl, rfl, rfl⟩

/-- the state that an acquisition ends in has one effect more than the move -/
theorem Acquired.chain {tier : MemoryTier} {r : Except Exn ExpertResidencyLease}
    (h : Acquired T s k tier r s') :
    Chain (Step T) (fun e => OwnMove s k tier e ∨ e = .leased k) s s' := by
  obtain ⟨s₁, hc, h⟩ := h
  have hc' := hc.mono (Q := fun e => OwnMove s k tier e ∨ e = .leased k) fun _ h => .inl h
  cases r with
  | error _ =>
    obtain rfl := h
    exact hc'
  | ok lease =>
    obtain ⟨m₁, hk₁, -, rfl, -⟩ := h
    exact hc'.trans (.single (e := .leased k) (.inr rfl) ⟨m₁, hk₁, rfl, rfl, rfl, rfl, rfl, rfl⟩)

/-! ## runs -/

/-- the expert of a layer-aware call, or of a legacy call by expert id alone -/
inductive Target where
  | layered (k : ExpertKey)
  | legacy (id : ExpertId)
  deriving DecidableEq

def Target.resolve : Target → Code π ExpertKey
  | .layered k => pure k
  | .legacy id => do
    let layer ← resolveLegacyLayer id
    pure (layer, id)

def Target.resolves (target : Target) (s : ExpertManager π) (k : ExpertKey) : Prop :=
  (target.resolve.exec s).1 = .ok k

inductive Op where
  | registerExpert (expert : Expert)
  | requestExpert (target : Target)
  | moveExpert (target : Target) (destination : MemoryTier)
  | evictUntilWithin (tier : MemoryTier) (maximumUsedBytes : Nat)
  | adoptDeviceWeights (k : ExpertKey) (buffer : Option Buffer)
  | adoptHostWeights (k : ExpertKey) (buffer : Option Buffer)
  | prepareResidency (k : ExpertKey) (destination : MemoryTier)
  | acquireResidentExpert (k : ExpertKey)
  | acquireHostExpert (k : ExpertKey)
  /-- the end of the life of the `i`-th of the leases that are still held -/
  | releaseLease (i : Nat)
  | updatePrediction (k : ExpertKey) (probability confidence : Option ℚ)
  deriving DecidableEq

/-- a lease that is still held, and what its expert had when it was acquired -/
structure LeaseRecord where
  lease : ExpertResidencyLease
  location : MemoryTier
  allocation : Option MemoryAllocation
  weights : Option Buffer
  deviceWeights : Option Buffer
  deriving DecidableEq

/-- the manager and its users: the leases they hold, and for each expert the bytes of the buffer
that they last had adopted in place of its stored ones -/
structure ManagerSystem (π : Type) where
  manager : ExpertManager π
  leases : List LeaseRecord := []
  adopted : Table ExpertKey Bytes := ∅

abbrev SystemCode (π : Type) := Fallible Exn (ManagerSystem π)

def onManager {α : Type} (x : Code π α) : SystemCode π α :=
  zoom ManagerSystem.manager (fun m s => { s with manager := m }) x

/-- the lease is handed to the user -/
def hold (lease : ExpertResidencyLease) (s : ManagerSystem π) : ManagerSystem π :=
  match s.manager.experts.lookup lease.expert with
  | none => s
  | some m =>
    { s with leases := s.leases ++ [⟨lease, m.location, m.allocation, m.weights, m.deviceWeights⟩] }

/-- the user's note of an adoption; an expert that was in the tier before keeps its buffer -/
def noteAdopted (k : ExpertKey) (tier : MemoryTier) (b : Option Buffer)
    (before : ExpertManager π) (s : ManagerSystem π) : ManagerSystem π :=
  match b, before.experts.lookup k with
  | some b, some m =>
    if m.location = tier then s else { s with adopted := s.adopted.insert k b.bytes }
  | _, _ => s

def exec (T : Transfers) : Op → SystemCode π Unit
  | .registerExpert x => onManager (registerExpert T x)
  | .requestExpert target => do
    let k ← onManager target.resolve
    let _ ← onManager (requestExpert T k)
  | .moveExpert target destination => do
    let k ← onManager target.resolve
    onManager (moveExpert T k destination)
  | .evictUntilWithin tier bound => do
    let _ ← onManager (evictUntilWithin T tier bound)
  | .adoptDeviceWeights k b => do
    let s ← read
    onManager (adoptDeviceWeights T k b)
    update (noteAdopted k .Vram b s.manager)
  | .adoptHostWeights k b => do
    let s ← read
    onManager (adoptHostWeights T k b)
    update (noteAdopted k .Ram b s.manager)
  | .prepareResidency k destination => onManager (prepareResidency T k destination)
  | .acquireResidentExpert k => do
    let lease ← onManager (acquireResidentExpert T k)
    update (hold lease)
  | .acquireHostExpert k => do
    let lease ← onManager (acquireHostExpert T k)
    update (hold lease)
  | .releaseLease i => do
    let s ← read
    let held ← orThrow s.leases[i]? (.other "no such lease")
    onManager (releaseLease held.lease.expert)
    update fun s => { s with leases := s.leases.eraseIdx i }
  | .updatePrediction k p c => onManager (updatePrediction k p c)

/-- the state after one operation, whether it returned or threw -/
def next (s : ManagerSystem π) (op : Op) (T : Transfers) : ManagerSystem π :=
  ((exec T op).exec s).2

def run (s : ManagerSystem π) : List (Op × Transfers) → ManagerSystem π
  | [] => s
  | (op, T) :: rest => run (next s op T) rest

/-- every operation of the run meets the condition, in the state it finds -/
def Meets (C : ManagerSystem π → Op → Transfers → Prop) (s : ManagerSystem π) :
    List (Op × Transfers) → Prop
  | [] => True
  | (op, T) :: rest => C s op T ∧ Meets C (next s op T) rest

/-- a condition that does not depend on the state -/
theorem meets_of_forall {C : ManagerSystem π → Op → Transfers → Prop} {ops : List (Op × Transfers)}
    (h : ∀ s op T, (op, T) ∈ ops → C s op T) (s : ManagerSystem π) : Meets C s ops := by
  induction ops generalizing s with
  | nil => exact trivial
  | cons o rest ih =>
    exact ⟨h s o.1 o.2 List.mem_cons_self,
      ih (fun s op T hm => h s op T (List.mem_cons_of_mem _ hm)) _⟩

theorem meets_and {C D : ManagerSystem π → Op → Transfers → Prop} {ops : List (Op × Transfers)}
    {s : ManagerSystem π} (h : Meets C s ops) (h' : Meets D s ops) :
    Meets (fun s op T => C s op T ∧ D s op T) s ops := by
  induction ops generalizing s with
  | nil => exact trivial
  | cons o rest ih => exact ⟨⟨h.1, h'.1⟩, ih h.2 h'.2⟩

theorem run_keeps {C : ManagerSystem π → Op → Transfers → Prop} {I : ManagerSystem π → Prop}
    (hI : ∀ s op T, C s op T → I s → I (next s op T)) (ops : List (Op × Transfers))
    (s : ManagerSystem π) (h : Meets C s ops) (hs : I s) : I (run s ops) := by
  induction ops generalizing s with
  | nil => exact hs
  | cons o rest ih => exact ih (next s o.1 o.2) h.2 (hI s o.1 o.2 h.1 hs)

def Op.allows (s : ExpertManager π) : Op → Effect → Prop
  | .registerExpert x, e => RegisterEffect s x e
  | .requestExpert target, e => ∃ k, target.resolves s k ∧ RequestEffect s k e
  | .moveExpert target destination, e => ∃ k, target.resolves s k ∧ OwnMove s k destination e
  | .evictUntilWithin tier _, e => RoomEffect π tier [] e
  | .adoptDeviceWeights k b, e => AdoptEffect s k .Vram b e
  | .adoptHostWeights k b, e => AdoptEffect s k .Ram b e
  | .prepareResidency k destination, e => OwnRoom s k destination e
  | .acquireResidentExpert k, e => OwnMove s k .Vram e ∨ e = .leased k
  | .acquireHostExpert k, e => OwnMove s k .Ram e ∨ e = .leased k
  | .releaseLease _, e => ∃ k, e = .unleased k
  | .updatePrediction k _ _, e => e = .noted k

section
omit [CachePolicy π]

theorem wp_onManager {α : Type} {x : Code π α} {Q : Except Exn α → ManagerSystem π → Prop}
    {s : ManagerSystem π} :
    wp (onManager x) Q s ↔ wp x (fun r t => Q r { s with manager := t }) s.manager := Iff.rfl

@[simp] theorem hold_manager (lease : ExpertResidencyLease) (s : ManagerSystem π) :
    (hold lease s).manager = s.manager := by
  unfold hold
  split <;> rfl

@[simp] theorem noteAdopted_manager (k : ExpertKey) (tier : MemoryTier) (b : Option Buffer)
    (before : ExpertManager π) (s : ManagerSystem π) :
    (noteAdopted k tier b before s).manager = s.manager := by
  unfold noteAdopted
  split
  · split <;> rfl
  · rfl

/-- a legacy call reads the layer and changes nothing -/
theorem wp_resolve (target : Target) (s : ExpertManager π) :
    wp target.resolve (fun _ s' => s' = s) s := by
  cases target with
  | layered k => exact rfl
  | legacy id =>
    unfold Target.resolve
    have h : wp (resolveLegacyLayer id) (fun _ s' => s' = s) s := by
      unfold resolveLegacyLayer
      rw [wp_bind, wp_read]
      dsimp only
      cases s.legacyExperts.lookup id with
      | none => exact rfl
      | some ks =>
        cases ks with
        | nil => exact rfl
        | cons k rest =>
          cases rest with
          | nil =>
            show wp (_ >>= _) _ s
            rw [wp_bind, wp_orThrow]
            cases s.experts.lookup k <;> exact rfl
          | cons _ _ => exact rfl
    exact wp_seq h (fun layer s' h => h) fun e s' h => h

end

omit [CachePolicy π] in
theorem wp_target {target : Target} {s : ManagerSystem π} {f : ExpertKey → SystemCode π Unit}
    {Q : Except Exn Unit → ManagerSystem π → Prop} (hf : ∀ k, target.resolves s.manager k → wp (f k) Q s)
    (he : ∀ e, Q (.error e) s) : wp (onManager target.resolve >>= f) Q s := by
  have h := wp_and (wp_resolve target s.manager)
    (show wp target.resolve (fun r _ => r = (target.resolve.exec s.manager).1) s.manager from rfl)
  refine wp_seq (R := fun r (s' : ManagerSystem π) => s' = s ∧
    r = (target.resolve.exec s.manager).1) ?_ (fun k s' h => ?_) fun e s' h => h.1 ▸ he e
  · exact wp_onManager.mpr (wp_mono h fun r s' h => ⟨by rw [h.1], h.2⟩)
  · rw [h.1]
    exact hf k h.2.symm

/-- the manager's part of an operation, then bookkeeping that leaves the manager alone -/
theorem wp_manager_then {α : Type} {x : Code π α} {f : α → SystemCode π Unit} {P : Effect → Prop}
    {s : ManagerSystem π}
    (h : wp x (fun _ t => Chain (Step T) P s.manager t) s.manager)
    (hf : ∀ a s', Chain (Step T) P s.manager s'.manager →
      wp (f a) (fun _ s' => Chain (Step T) P s.manager s'.manager) s') :
    wp (onManager x >>= f) (fun _ s' => Chain (Step T) P s.manager s'.manager) s :=
  wp_seq (R := fun _ s' => Chain (Step T) P s.manager s'.manager) (wp_onManager.mpr h) hf
    fun _ _ h => h

theorem exec_effects (op : Op) (s : ManagerSystem π) (W : Wired s.manager) :
    wp (exec T op)
      (fun _ s' => Chain (Step T) (op.allows s.manager) s.manager s'.manager) s := by
  cases op with
  | registerExpert x => exact wp_onManager.mpr (wp_registerExpert W)
  | requestExpert target =>
    refine wp_target (fun k hk => ?_) fun _ => Chain.refl
    have h := wp_mono (wp_requestExpert (T := T) (k := k) W) fun _ s' (h : Chain _ _ _ s') =>
      h.mono (Q := Op.allows s.manager (.requestExpert target)) fun _ h => ⟨k, hk, h⟩
    exact wp_manager_then h fun _ _ h => h
  | moveExpert target destination =>
    refine wp_target (fun k hk => ?_) fun _ => Chain.refl
    exact wp_onManager.mpr (wp_mono (wp_moveExpert W) fun _ _ h => h.mono fun _ h => ⟨k, hk, h⟩)
  | evictUntilWithin tier bound =>
    exact wp_manager_then (wp_evictUntilWithin W) fun _ _ h => h
  | adoptDeviceWeights k b =>
    have h := wp_mono (wp_adoptDeviceWeights (T := T) (k := k) (b := b) W) fun _ _ h => h.chain
    show wp (read >>= _) _ s
    rw [wp_bind, wp_read]
    refine wp_manager_then h fun _ s' h => ?_
    rw [wp_update, noteAdopted_manager]
    exact h
  | adoptHostWeights k b =>
    have h := wp_mono (wp_adoptHostWeights (T := T) (k := k) (b := b) W) fun _ _ h => h.chain
    show wp (read >>= _) _ s
    rw [wp_bind, wp_read]
    refine wp_manager_then h fun _ s' h => ?_
    rw [wp_update, noteAdopted_manager]
    exact h
  | prepareResidency k destination => exact wp_onManager.mpr (wp_prepareResidency W)
  | acquireResidentExpert k =>
    have h := wp_mono (wp_acquireResidentExpert (T := T) (k := k) W) fun _ _ h => h.chain
    refine wp_manager_then h fun _ s' h => ?_
    rw [wp_update, hold_manager]
    exact h
  | acquireHostExpert k =>
    have h := wp_mono (wp_acquireHostExpert (T := T) (k := k) W) fun _ _ h => h.chain
    refine wp_manager_then h fun _ s' h => ?_
    rw [wp_update, hold_manager]
    exact h
  | releaseLease i =>
    show wp (read >>= _) _ s
    rw [wp_bind, wp_read]
    show wp (_ >>= _) _ s
    rw [wp_bind, wp_orThrow]
    cases s.leases[i]? with
    | none => exact Chain.refl
    | some held =>
      have h := wp_mono (wp_releaseLease (T := T) (k := held.lease.expert) (s := s.manager))
        fun _ _ h => h.mono (Q := Op.allows s.manager (.releaseLease i)) fun _ h => ⟨_, h⟩
      exact wp_manager_then h fun _ _ h => h
  | updatePrediction k p c => exact wp_onManager.mpr wp_updatePrediction

theorem next_chain (op : Op) (T : Transfers) {s : ManagerSystem π} (W : Wired s.manager) :
    Chain (Step T) (op.allows s.manager) s.manager (next s op T).manager :=
  exec_effects op s W

/-- an operation that neither hands out or takes back a lease nor adopts a buffer -/
def Op.plain : Op → Bool
  | .acquireResidentExpert _ | .acquireHostExpert _ | .releaseLease _ => false
  | .adoptDeviceWeights _ _ | .adoptHostWeights _ _ => false
  | _ => true

section
omit [CachePolicy π]

/-- nothing but the manager changed -/
def ManagerOnly {α : Type} (s : ManagerSystem π) (_ : Except Exn α) (s' : ManagerSystem π) :
    Prop := s' = { s with manager := s'.manager }

theorem wp_managerOnly {α : Type} {x : Code π α} {s : ManagerSystem π} :
    wp (onManager x) (ManagerOnly s) s := rfl

theorem wp_then_managerOnly {α : Type} {x : Code π α} {f : α → SystemCode π Unit}
    {s : ManagerSystem π} (hf : ∀ a s₁, ManagerOnly s (.ok a) s₁ → wp (f a) (ManagerOnly s₁) s₁) :
    wp (onManager x >>= f) (ManagerOnly s) s :=
  wp_seq wp_managerOnly
    (fun a s₁ h => wp_mono (hf a s₁ h) fun _ s' (h' : s' = _) => by
      show s' = _
      rw [h', h])
    fun _ _ h => h

end

theorem next_plain {op : Op} (T : Transfers) (s : ManagerSystem π) (h : op.plain) :
    next s op T = { s with manager := (next s op T).manager } := by
  show wp (exec T op) (ManagerOnly s) s
  cases op with
  | requestExpert target =>
    exact wp_then_managerOnly fun k s₁ _ => wp_then_managerOnly fun _ s₂ _ => rfl
  | moveExpert target destination => exact wp_then_managerOnly fun k s₁ _ => wp_managerOnly
  | evictUntilWithin tier bound => exact wp_then_managerOnly fun _ s₁ _ => rfl
  | registerExpert x => exact wp_managerOnly
  | prepareResidency k destination => exact wp_managerOnly
  | updatePrediction k p c => exact wp_managerOnly
  | _ => cases h

/-- an operation that adopts a buffer -/
def Op.adopts : Op → Bool
  | .adoptDeviceWeights _ _ | .adoptHostWeights _ _ => true
  | _ => false

/-- the users note adoptions and nothing else -/
theorem next_adopted {op : Op} (T : Transfers) (s : ManagerSystem π) (h : op.adopts = false) :
    (next s op T).adopted = s.adopted := by
  have hold_adopted : ∀ lease (s' : ManagerSystem π), (hold lease s').adopted = s'.adopted :=
    fun lease s' => by
      unfold hold
      split <;> rfl
  have acquire : ∀ x : Code π ExpertResidencyLease,
      wp (onManager x >>= fun lease => update (hold lease))
        (fun _ s' => s'.adopted = s.adopted) s := fun x =>
    wp_seq wp_managerOnly (fun lease s₁ h => by
      rw [wp_update, hold_adopted, show s₁ = _ from h])
      fun _ s₁ h => by rw [show s₁ = _ from h]
  cases op with
  | adoptDeviceWeights k b => cases h
  | adoptHostWeights k b => cases h
  | acquireResidentExpert k => exact acquire _
  | acquireHostExpert k => exact acquire _
  | releaseLease i =>
    show wp (read >>= _) (fun _ s' => s'.adopted = s.adopted) s
    rw [wp_bind, wp_read]
    show wp (_ >>= _) _ s
    rw [wp_bind, wp_orThrow]
    cases s.leases[i]? with
    | none => exact rfl
    | some l => exact wp_seq wp_managerOnly (fun _ s₁ h => by
        rw [wp_update, show s₁ = _ from h]) fun _ s₁ h => by rw [show s₁ = _ from h]
  | _ => rw [next_plain T s rfl]

/-- a manager with nothing registered, the only user of its memory manager -/
def ManagerSystem.start (vramLimitBytes ramLimitBytes : Nat) (policy : π) (hasTransfers : Bool) :
    ManagerSystem π :=
  { manager :=
      { memory := .new vramLimitBytes ramLimitBytes, policy := policy,
        hasTransfers := hasTransfers } }

omit [CachePolicy π] in
theorem wired_start (vram ram : Nat) (policy : π) (hasTransfers : Bool) :
    Wired (ManagerSystem.start vram ram policy hasTransfers).manager where
  keyed k m h := by cases h
  named id k := by
    constructor
    · intro h
      cases h
    · rintro ⟨m, h, -⟩
      cases h
  fresh k m h := by cases h

theorem next_wired (op : Op) (T : Transfers) {s : ManagerSystem π} (W : Wired s.manager) :
    Wired (next s op T).manager :=
  (next_chain op T W).keeps (fun _ _ _ _ hs => Step.wired hs) W

/-- an invariant of the manager that every allowed effect keeps holds after the operation -/
theorem next_keeps {I : ExpertManager π → Prop} (op : Op) (T : Transfers) {s : ManagerSystem π}
    (W : Wired s.manager)
    (hI : ∀ e t t', op.allows s.manager e → Step T e t t' → I t → I t') (h : I s.manager) :
    I (next s op T).manager :=
  (next_chain op T W).keeps hI h

/-! ## a small system to run -/

/-- an expert of four bytes, registered on NVMe -/
def sampleExpert : Expert := { id := 0, layer := 0, sizeBytes := 4 }

def rethrowing : Transfers := fun _ _ => .error (.runtimeError "storage")

/-- a completed transfer of four bytes, whatever was asked for -/
def delivering : Transfers := fun _ _ => .ok
  { status := .Completed, buffer := some ⟨7, [1, 2, 3, 4], true⟩,
    deviceBuffer := some ⟨8, [1, 2, 3, 4], true⟩ }

end ExpertManager

end HyperMoE
