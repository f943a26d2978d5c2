import HyperMoE.Experts.Operations

/-!
# Residency leases over whole runs

As long as a lease on an expert is held, the expert keeps its tier, its allocation and its
buffers.  Every path of the code that relocates an expert asks for the leases, but one:
`adoptDeviceWeights`.

* `leaseCount`, `holding`   what a lease counts and what it protects;
* `Undisturbed`             the relation that an operation keeps for the leased experts;
* `LeaseInv`                the counts are the held leases, and each finds what it was given;
* `AdoptsInto`              an `adoptDeviceWeights` that comes to the adoption;
* `AdoptsUnleased`          the condition on it;
* `Op.displaces`            an operation that asks for a leased expert to be elsewhere: it throws.
-/

namespace HyperMoE

open Lib Lib.Fallible

namespace ExpertManager

variable {π : Type}

def leaseCount (s : ExpertManager π) (k : ExpertKey) : Nat :=
  ((s.experts.lookup k).map ManagedExpert.residencyLeases).getD 0

abbrev Holding := MemoryTier × Option MemoryAllocation × Option Buffer × Option Buffer

def heldBy (m : ManagedExpert) : Holding :=
  (m.location, m.allocation, m.weights, m.deviceWeights)

/-- where the expert is, what it owns and the buffers it holds -/
def holding (s : ExpertManager π) (k : ExpertKey) : Option Holding :=
  (s.experts.lookup k).map heldBy

/-- no lease comes or goes, and a leased expert keeps what it holds -/
def Undisturbed (s s' : ExpertManager π) : Prop :=
  ∀ k, leaseCount s' k = leaseCount s k ∧ (leaseCount s k ≠ 0 → holding s' k = holding s k)

section
variable {s s' s'' : ExpertManager π} {k : ExpertKey} {m m' : ManagedExpert}

theorem Undisturbed.refl : Undisturbed s s := fun _ => ⟨rfl, fun _ => rfl⟩

theorem Undisturbed.trans (h : Undisturbed s s') (h' : Undisturbed s' s'') :
    Undisturbed s s'' := fun k =>
  ⟨(h' k).1.trans (h k).1,
    fun hk => ((h' k).2 (by rw [(h k).1]; exact hk)).trans ((h k).2 hk)⟩

theorem leaseCount_of_lookup (hk : s.experts.lookup k = some m) :
    leaseCount s k = m.residencyLeases := by
  unfold leaseCount
  rw [hk]
  rfl

theorem Undisturbed.of_experts (h : s'.experts = s.experts) : Undisturbed s s' := fun k => by
  unfold leaseCount holding
  rw [h]
  exact ⟨rfl, fun _ => rfl⟩

/-- one expert overwritten: its leases stay, and with a lease its holding does -/
theorem Undisturbed.insert (hk : s.experts.lookup k = some m)
    (he : s'.experts = s.experts.insert k m') (hl : m'.residencyLeases = m.residencyLeases)
    (hh : m.residencyLeases ≠ 0 → heldBy m' = heldBy m) : Undisturbed s s' := fun a => by
  unfold leaseCount holding
  rw [he, Table.lookup_insert']
  split
  · next e =>
    rw [e, hk]
    exact ⟨hl, fun h => congrArg some (hh h)⟩
  · exact ⟨rfl, fun _ => rfl⟩

theorem Commit.undisturbed {tier : MemoryTier} {w d : Option Buffer}
    (h : Commit k m tier w d s s') (hl : m.residencyLeases = 0) : Undisturbed s s' := by
  refine .insert h.found h.experts ?_ fun hn => absurd hl hn
  rfl

end

variable [CachePolicy π] {T : Transfers}

/-- the effects that touch no leased expert; `adopted` into VRAM does not ask -/
def Effect.respects : Effect → Bool
  | .adopted _ .Vram _ | .leased _ | .unleased _ => false
  | _ => true

theorem Step.undisturbed {s s' : ExpertManager π} {e : Effect} (h : Step T e s s')
    (he : e.respects) : Undisturbed s s' := by
  cases e with
  | failed => exact .of_experts h.experts
  | leaked k => exact .of_experts h.experts
  | evicted k id source =>
    obtain ⟨m, h⟩ := h
    refine .insert h.found h.experts ?_ fun hn => absurd h.unleased hn
    rfl
  | loaded k id =>
    obtain ⟨m, b, h, -, -, hl, -⟩ := h
    exact h.undisturbed hl
  | relocated k id source destination =>
    obtain ⟨m, w, d, h, -, -, -, -, hl, -⟩ := h
    exact h.undisturbed hl
  | adopted k tier b =>
    obtain ⟨m, w, d, h, -, -, ⟨rfl, -⟩ | ⟨-, hl, -⟩, -⟩ := h
    · cases he
    · exact h.undisturbed hl
  | noted k =>
    obtain ⟨m, m', h⟩ := h
    refine .insert h.found h.experts h.holding.leases fun _ => ?_
    unfold heldBy ManagedExpert.location
    rw [h.holding.metadata, h.holding.allocation, h.holding.weights, h.holding.deviceWeights]
  | counted source n => exact .of_experts h.2.1
  | registered k =>
    obtain ⟨m, h⟩ := h
    intro a
    unfold leaseCount holding
    rw [h.experts, Table.lookup_insert']
    split
    · next e =>
      rw [e, h.unknown]
      exact ⟨h.leases, fun hn => absurd rfl hn⟩
    · exact ⟨rfl, fun _ => rfl⟩
  | unregistered k =>
    obtain ⟨m, h⟩ := h
    intro a
    unfold leaseCount holding
    rw [h.experts, Table.lookup_erase']
    split
    · next e =>
      rw [e, h.found]
      exact ⟨h.unleased.symm, fun hn => absurd h.unleased hn⟩
    · exact ⟨rfl, fun _ => rfl⟩
  | leased k => cases he
  | unleased k => cases he

theorem chain_undisturbed {P : Effect → Prop} {s s' : ExpertManager π}
    (h : Chain (Step T) P s s') (hP : ∀ e, P e → e.respects) : Undisturbed s s' :=
  h.rel (fun _ => .refl) (fun _ _ _ => .trans) fun e _ _ he hs => hs.undisturbed (hP e he)

theorem Effect.respects_of_isMove {e : Effect} (h : e.isMove) : e.respects := by
  cases e <;> first | rfl | cases h

/-! ## the held leases -/

structure LeaseInv (s : ManagerSystem π) : Prop where
  counts : ∀ k, leaseCount s.manager k = s.leases.countP fun l => l.lease.expert = k
  held : ∀ l ∈ s.leases, holding s.manager l.lease.expert =
    some (l.location, l.allocation, l.weights, l.deviceWeights)

/-- `adoptDeviceWeights` comes to the adoption: the expert is not in VRAM, the buffer is available
and of its size, and there is room -/
def AdoptsInto (T : Transfers) (s : ExpertManager π) (k : ExpertKey) (buffer : Option Buffer) :
    Prop :=
  ∃ m b, s.experts.lookup k = some m ∧ m.location ≠ .Vram ∧ buffer = some b ∧ b.available = true ∧
    b.size = m.sizeBytes ∧ ((makeRoom T .Vram m.sizeBytes [m.policyId]).exec s).1 = .ok ()

/-- device weights are adopted for no expert that is leased -/
def AdoptsUnleased (s : ManagerSystem π) (op : Op) (T : Transfers) : Prop :=
  match op with
  | .adoptDeviceWeights k b => AdoptsInto T s.manager k b → ∀ l ∈ s.leases, l.lease.expert ≠ k
  | _ => True

/-- a call that returns found the expert in VRAM, or came to the adoption -/
theorem wp_adoptsInto {s : ExpertManager π} {k : ExpertKey} {b : Option Buffer} :
    wp (adoptDeviceWeights T k b) (fun r _ => r = .ok () →
      (∃ m, s.experts.lookup k = some m ∧ m.location = .Vram) ∨ AdoptsInto T s k b) s := by
  have hthrew : ∀ {e : Exn} {P : Prop}, (Except.error e : Except Exn Unit) = .ok () → P := by
    intro e P h
    cases h
  unfold adoptDeviceWeights
  cases b with
  | none => exact hthrew
  | some b =>
    rw [wp_bind, wp_orThrow]
    show wp (_ >>= _) _ s
    rw [wp_bind, wp_throwIf]
    split
    · exact hthrew
    next havailable =>
    cases hk : s.experts.lookup k with
    | none =>
      show wp (_ >>= _) _ s
      rw [wp_bind, wp_require_none hk]
      exact hthrew
    | some m =>
      show wp (_ >>= _) _ s
      rw [wp_bind, wp_require hk]
      show wp (_ >>= _) _ s
      rw [wp_bind, wp_throwIf]
      split
      · exact hthrew
      next hsize =>
      show wp (if m.location = .Vram then _ else _) _ s
      split
      · next hloc => exact fun _ => .inl ⟨m, rfl, hloc⟩
      · next hloc =>
        refine wp_seq (R := fun r _ => r = ((makeRoom T .Vram m.sizeBytes [m.policyId]).exec s).1)
          rfl (fun u s' hroom => ?_) fun e s' _ => hthrew
        exact fun _ => .inr ⟨m, b, hk, hloc, rfl, by simpa using havailable, not_not.mp hsize,
          hroom.symm⟩

omit [CachePolicy π] in
theorem LeaseInv.leased {s : ManagerSystem π} (I : LeaseInv s) {l : LeaseRecord}
    (h : l ∈ s.leases) : leaseCount s.manager l.lease.expert ≠ 0 := by
  rw [I.counts]
  exact Nat.ne_of_gt (List.countP_pos_iff.mpr ⟨l, h, decide_eq_true rfl⟩)

omit [CachePolicy π] in
/-- the leases of the users stay as they are, and so does what they protect -/
theorem LeaseInv.undisturbed {s s' : ManagerSystem π} (I : LeaseInv s)
    (h : Undisturbed s.manager s'.manager) (hl : s'.leases = s.leases) : LeaseInv s' where
  counts k := by rw [(h k).1, hl, I.counts]
  held l hm := by
    rw [hl] at hm
    rw [(h _).2 (I.leased hm), I.held l hm]

omit [CachePolicy π] in
/-- the expert with one lease more, and the lease in the user's hands -/
theorem LeaseInv.acquire {s : ManagerSystem π} {t : ExpertManager π} (I : LeaseInv s)
    (h : Undisturbed s.manager t) {k : ExpertKey} {m : ManagedExpert}
    (hk : t.experts.lookup k = some m) {lease : ExpertResidencyLease} (he : lease.expert = k) :
    LeaseInv (hold lease { s with
      manager := setExpert k { m with residencyLeases := m.residencyLeases + 1 } t }) := by
  subst he
  have hset : (setExpert lease.expert { m with residencyLeases := m.residencyLeases + 1 } t
      ).experts.lookup lease.expert =
        some { m with residencyLeases := m.residencyLeases + 1 } := AList.lookup_insert _
  unfold hold
  simp only [hset]
  refine ⟨fun a => ?_, fun l hl => ?_⟩
  · rw [List.countP_append, ← I.counts, ← (h a).1]
    show leaseCount (setExpert _ _ t) a = _
    by_cases ha : a = lease.expert
    · subst ha
      rw [leaseCount_of_lookup hset, leaseCount_of_lookup hk]
      simp
    · unfold leaseCount setExpert
      simp [AList.lookup_insert_ne ha, Ne.symm ha]
  · have hsame : ∀ a, holding (setExpert lease.expert
        { m with residencyLeases := m.residencyLeases + 1 } t) a = holding t a := fun a => by
      unfold holding
      rw [show (setExpert lease.expert _ t).experts = t.experts.insert _ _ from rfl,
        Table.lookup_insert']
      split
      · next e =>
        rw [e, hk]
        rfl
      · rfl
    show holding (setExpert _ _ t) _ = _
    rw [hsame]
    rcases List.mem_append.mp hl with hl | hl
    · rw [(h _).2 (I.leased hl), I.held l hl]
    · obtain rfl := List.mem_singleton.mp hl
      unfold holding
      rw [hk]
      rfl

omit [CachePolicy π] in
/-- the `i`-th lease ends, and its expert has one lease less -/
theorem LeaseInv.release {s : ManagerSystem π} (I : LeaseInv s) {i : Nat} {l : LeaseRecord}
    (hl : s.leases[i]? = some l) {m : ManagedExpert}
    (hk : s.manager.experts.lookup l.lease.expert = some m) :
    LeaseInv { s with
      manager := setExpert l.lease.expert { m with residencyLeases := m.residencyLeases - 1 }
        s.manager
      leases := s.leases.eraseIdx i } := by
  obtain ⟨hi, rfl⟩ := List.getElem?_eq_some_iff.mp hl
  have hsplit : ∀ p : LeaseRecord → Bool, (s.leases.eraseIdx i).countP p +
      (if p s.leases[i] then 1 else 0) = s.leases.countP p := fun p => by
    conv_rhs => rw [← List.take_append_drop i s.leases, List.drop_eq_getElem_cons hi]
    rw [List.eraseIdx_eq_take_drop_succ, List.countP_append, List.countP_append, List.countP_cons]
    omega
  refine ⟨fun a => ?_, fun l hm => ?_⟩
  · have := hsplit fun l => l.lease.expert = a
    show leaseCount (setExpert _ _ s.manager) a = (s.leases.eraseIdx i).countP _
    unfold leaseCount
    rw [show (setExpert s.leases[i].lease.expert _ s.manager).experts =
      s.manager.experts.insert _ _ from rfl, Table.lookup_insert']
    have hcount := I.counts a
    unfold leaseCount at hcount
    split
    · next e =>
      subst e
      rw [hk] at hcount
      simp only [decide_true, if_true] at this
      show m.residencyLeases - 1 = _
      have hcount' : m.residencyLeases = _ := hcount
      omega
    · next e =>
      rw [if_neg (by simpa using Ne.symm e)] at this
      omega
  · have hold := I.held l (List.mem_of_mem_eraseIdx hm)
    show holding (setExpert _ _ s.manager) _ = _
    unfold holding at hold ⊢
    rw [show (setExpert s.leases[i].lease.expert _ s.manager).experts =
      s.manager.experts.insert _ _ from rfl, Table.lookup_insert']
    split
    · next e =>
      rw [e, hk] at hold
      exact hold
    · exact hold

theorem OwnMove.respects {s : ExpertManager π} {k : ExpertKey} {destination : MemoryTier}
    {e : Effect} (h : OwnMove s k destination e) : e.respects := by
  obtain ⟨m, -, h⟩ := h
  exact Effect.respects_of_isMove h.1

/-- whatever an operation does that neither hands out leases nor adopts into VRAM -/
theorem next_undisturbed {s : ManagerSystem π} {op : Op} (T : Transfers) (W : Wired s.manager)
    (h : ∀ e, op.allows s.manager e → e.respects) :
    Undisturbed s.manager (next s op T).manager :=
  chain_undisturbed (next_chain op T W) h

omit [CachePolicy π] in
theorem noteAdopted_leases (k : ExpertKey) (tier : MemoryTier) (b : Option Buffer)
    (before : ExpertManager π) (s : ManagerSystem π) :
    (noteAdopted k tier b before s).leases = s.leases := by
  unfold noteAdopted
  split
  · split <;> rfl
  · rfl

/-- an acquisition: the invariant holds with the new lease, or without it where it throws -/
theorem LeaseInv.acquired {s : ManagerSystem π} (I : LeaseInv s) {k : ExpertKey}
    {tier : MemoryTier} {x : Code π ExpertResidencyLease}
    (hx : wp x (Acquired T s.manager k tier) s.manager) :
    wp (onManager x >>= fun lease => update (hold lease)) (fun _ s' => LeaseInv s') s := by
  refine wp_seq (R := fun r s' => ∃ t, Acquired T s.manager k tier r t ∧
    s' = { s with manager := t }) (wp_onManager.mpr (wp_mono hx fun r t h => ⟨t, h, rfl⟩))
    (fun lease s' h => ?_) fun e s' h => ?_
  · obtain ⟨t, ⟨s₁, hc, m₁, hk₁, -, rfl, he, -⟩, rfl⟩ := h
    exact I.acquire (chain_undisturbed hc fun e he => he.respects) hk₁ he
  · obtain ⟨t, ⟨s₁, hc, rfl⟩, rfl⟩ := h
    exact I.undisturbed (chain_undisturbed hc fun e he => he.respects) rfl

theorem Adopted.undisturbed {s s' : ExpertManager π} {k : ExpertKey} {tier : MemoryTier}
    {b : Option Buffer} {r : Except Exn Unit} (h : Adopted T s k tier b r s')
    (hl : r = .ok () → ∀ m, s.experts.lookup k = some m → m.location ≠ tier → tier ≠ .Ram →
      m.residencyLeases = 0) : Undisturbed s s' := by
  rcases h with ⟨-, rfl⟩ | ⟨h, -⟩ | ⟨m, hk, hloc, hram, h⟩
  · exact .refl
  · exact Step.undisturbed h rfl
  · have hroom : ∀ {s₁}, Chain (Step T) (RoomEffect π tier [m.policyId]) s s₁ →
        Undisturbed s s₁ := fun hc =>
      chain_undisturbed hc fun e he => Effect.respects_of_isMove he.1
    cases r with
    | error e => exact hroom h
    | ok _ =>
      obtain ⟨b', s₁, s₂, -, hc, ⟨m₁, w, d, hcommit, -⟩, hn⟩ := h
      have hl₁ : m₁.residencyLeases = 0 := by
        rw [← leaseCount_of_lookup hcommit.found, (hroom hc k).1, leaseCount_of_lookup hk]
        by_cases ht : tier = .Ram
        · exact hram ht
        · exact hl rfl m hk hloc ht
      exact ((hroom hc).trans (hcommit.undisturbed hl₁)).trans (Step.undisturbed hn rfl)

omit [CachePolicy π] in
/-- an adoption that disturbs no lease, with the user's note of it -/
theorem LeaseInv.adopted {s : ManagerSystem π} (I : LeaseInv s) {k : ExpertKey}
    {tier : MemoryTier} {b : Option Buffer} {x : Code π Unit}
    (hx : wp x (fun _ t => Undisturbed s.manager t) s.manager) :
    wp (onManager x >>= fun _ => update (noteAdopted k tier b s.manager))
      (fun _ s' => LeaseInv s') s := by
  refine wp_seq (R := fun _ s' => LeaseInv s') (wp_onManager.mpr (wp_mono hx fun r t h => ?_))
    (fun _ s' h => ?_) fun _ _ h => h
  · exact I.undisturbed h rfl
  · rw [wp_update]
    refine h.undisturbed ?_ (noteAdopted_leases ..)
    rw [noteAdopted_manager]
    exact .refl

theorem next_leaseInv {s : ManagerSystem π} {op : Op} {T : Transfers}
    (hok : AdoptsUnleased s op T) (W : Wired s.manager) (I : LeaseInv s) :
    LeaseInv (next s op T) := by
  have plain : op.plain → (∀ e, op.allows s.manager e → e.respects) →
      LeaseInv (next s op T) := fun hk he =>
    I.undisturbed (next_undisturbed T W he) (by rw [next_plain T s hk])
  cases op with
  | registerExpert x =>
    refine plain rfl fun e he => ?_
    rcases he with rfl | rfl | h
    · rfl
    · rfl
    · exact Effect.respects_of_isMove h.1
  | requestExpert target =>
    refine plain rfl fun e he => ?_
    obtain ⟨k, -, h | rfl | ⟨_, _, rfl⟩⟩ := he
    · exact h.respects
    · rfl
    · rfl
  | moveExpert target destination =>
    refine plain rfl fun e he => ?_
    obtain ⟨k, -, h⟩ := he
    exact h.respects
  | evictUntilWithin tier bound => exact plain rfl fun e he => Effect.respects_of_isMove he.1
  | adoptDeviceWeights k b =>
    refine I.adopted (wp_mono (wp_and (wp_adoptDeviceWeights W) wp_adoptsInto) fun r t h => ?_)
    refine h.1.undisturbed fun hr m hk hloc _ => ?_
    rcases h.2 hr with ⟨m', hk', hvram⟩ | hinto
    · obtain rfl := Option.some.inj (hk.symm.trans hk')
      exact absurd hvram hloc
    · rw [← leaseCount_of_lookup hk, I.counts, List.countP_eq_zero]
      exact fun l hl he => hok hinto l hl (of_decide_eq_true he)
  | adoptHostWeights k b =>
    exact I.adopted (wp_mono (wp_adoptHostWeights W) fun r t h =>
      h.undisturbed fun _ _ _ _ hram => absurd rfl hram)
  | prepareResidency k destination =>
    refine plain rfl fun e he => ?_
    obtain ⟨m, -, h⟩ := he
    exact Effect.respects_of_isMove h.1
  | acquireResidentExpert k => exact I.acquired (wp_acquireResidentExpert (T := T) W)
  | acquireHostExpert k => exact I.acquired (wp_acquireHostExpert (T := T) W)
  | releaseLease i =>
    show wp (read >>= _) (fun _ s' => LeaseInv s') s
    rw [wp_bind, wp_read]
    show wp (_ >>= _) (fun _ s' => LeaseInv s') s
    rw [wp_bind, wp_orThrow]
    cases hl : s.leases[i]? with
    | none => exact I
    | some l =>
      have hknown := I.held l (List.mem_of_getElem? hl)
      obtain ⟨m, hk, -⟩ := Option.map_eq_some_iff.mp hknown
      show wp (onManager (releaseLease _) >>= _) _ s
      rw [wp_bind, wp_onManager]
      unfold releaseLease
      rw [wp_update]
      simp only [hk]
      exact I.release hl hk
  | updatePrediction k p c =>
    refine plain rfl fun e he => ?_
    cases he
    rfl

/-! ## what would displace a leased expert throws -/

/-- the operation asks for the expert `k`, now held as `m`, to be in another tier or to have
another buffer -/
def Op.displaces (s : ExpertManager π) (k : ExpertKey) (m : ManagedExpert) : Op → Prop
  | .requestExpert target => target.resolves s k ∧ m.location ≠ .Vram
  | .moveExpert target destination =>
      target.resolves s k ∧ m.location ≠ destination
  | .adoptDeviceWeights k' b => k' = k ∧
      (m.location ≠ .Vram ∨ m.deviceWeights.map Buffer.addr ≠ b.map Buffer.addr)
  | .adoptHostWeights k' b => k' = k ∧
      (m.location ≠ .Ram ∨ m.weights.map Buffer.addr ≠ b.map Buffer.addr)
  | .acquireResidentExpert k' => k' = k ∧ m.location ≠ .Vram
  | .acquireHostExpert k' => k' = k ∧ m.location ≠ .Ram
  | _ => False

def Throws (r : Except Exn Unit) : Prop := ∃ e, r = .error e

section
variable {s : ExpertManager π} {k : ExpertKey} {m : ManagedExpert} {destination : MemoryTier}
  {pinned : List ExpertId}

theorem wp_move_leased (hk : s.experts.lookup k = some m) (hl : m.residencyLeases ≠ 0)
    (hd : m.location ≠ destination) :
    wp (move T k destination pinned) (fun r s' => Throws r ∧ s' = s) s := by
  unfold move
  rw [wp_bind, wp_read]
  show wp (moveExpertLocked T (2 * s.experts.entries.length + 7 + 1) k destination pinned) _ s
  unfold moveExpertLocked
  rw [wp_bind, wp_require hk]
  show wp (_ >>= _) _ s
  rw [wp_bind, wp_read]
  show wp (if m.location = destination then _ else _) _ s
  rw [if_neg hd, wp_bind, wp_throwIf, if_pos hl]
  exact ⟨⟨_, rfl⟩, rfl⟩

omit [CachePolicy π] in
theorem wp_resolved {target : Target} {f : ExpertKey → SystemCode π Unit}
    {Q : Except Exn Unit → ManagerSystem π → Prop} {s : ManagerSystem π}
    (ht : target.resolves s.manager k) (hf : wp (f k) Q s) :
    wp (onManager target.resolve >>= f) Q s := by
  have h := wp_and (wp_resolve target s.manager)
    (show wp target.resolve (fun r _ => r = .ok k) s.manager from ht)
  refine wp_seq (R := fun r (s' : ManagerSystem π) => r = .ok k ∧ s' = s)
    (wp_onManager.mpr (wp_mono h fun r t h => ⟨h.2, by rw [h.1]⟩)) (fun a s' h => ?_)
    fun e s' h => by cases h.1
  obtain ⟨ha, rfl⟩ := h
  obtain rfl := Except.ok.inj ha
  exact hf

end

/-- the code of an operation on `k` that begins with a move, the rest of it skipped -/
theorem wp_throws_of_move {α : Type} {s : ManagerSystem π} {k : ExpertKey} {m : ManagedExpert}
    {destination : MemoryTier} {pinned : List ExpertId} {f : Unit → Code π α}
    (hk : s.manager.experts.lookup k = some m) (hl : m.residencyLeases ≠ 0)
    (hd : m.location ≠ destination) :
    wp (move T k destination pinned >>= f) (fun r _ => ∃ e, r = .error e) s.manager :=
  wp_seq (wp_move_leased hk hl hd) (fun _ _ h => by obtain ⟨⟨_, h⟩, -⟩ := h; cases h)
    fun e _ _ => ⟨e, rfl⟩

omit [CachePolicy π] in
theorem wp_throws_onManager {α : Type} {s : ManagerSystem π} {x : Code π α}
    {f : α → SystemCode π Unit} (h : wp x (fun r _ => ∃ e, r = .error e) s.manager) :
    wp (onManager x >>= f) (fun r _ => Throws r) s :=
  wp_seq (R := fun r (_ : ManagerSystem π) => ∃ e, r = .error e) (wp_onManager.mpr h)
    (fun _ _ h => by obtain ⟨_, h⟩ := h; cases h) fun e _ _ => ⟨e, rfl⟩

/-- another buffer is not adopted for an expert in VRAM -/
theorem wp_adopts_other {s : ExpertManager π} {k : ExpertKey} {m : ManagedExpert}
    {b : Option Buffer} (hk : s.experts.lookup k = some m) (hvram : m.location = .Vram)
    (hdiff : m.deviceWeights.map Buffer.addr ≠ b.map Buffer.addr) :
    wp (adoptDeviceWeights T k b) (fun r _ => ∃ e, r = .error e) s := by
  unfold adoptDeviceWeights
  cases b with
  | none => exact ⟨_, rfl⟩
  | some b =>
    rw [wp_bind, wp_orThrow]
    show wp (_ >>= _) _ _
    rw [wp_bind, wp_throwIf]
    split
    · exact ⟨_, rfl⟩
    show wp (_ >>= _) _ _
    rw [wp_bind, wp_require hk]
    show wp (_ >>= _) _ _
    rw [wp_bind, wp_throwIf]
    split
    · exact ⟨_, rfl⟩
    show wp (_ >>= _) _ _
    rw [wp_bind, wp_throwIf]
    split
    · exact ⟨_, rfl⟩
    · next hsame => exact absurd (not_not.mp hsame) hdiff

/-- under the condition, an operation that would displace a leased expert throws -/
theorem displaces_throws {s : ManagerSystem π} {op : Op} (T : Transfers)
    (hok : AdoptsUnleased s op T) (I : LeaseInv s) {l : LeaseRecord} (hl : l ∈ s.leases)
    {m : ManagedExpert} (hk : s.manager.experts.lookup l.lease.expert = some m)
    (h : op.displaces s.manager l.lease.expert m) : Throws ((exec T op).exec s).1 := by
  have hleased : m.residencyLeases ≠ 0 := leaseCount_of_lookup hk ▸ I.leased hl
  show wp (exec T op) (fun r _ => Throws r) s
  cases op with
  | requestExpert target =>
    refine wp_resolved h.1 (wp_throws_onManager ?_)
    unfold requestExpert
    rw [wp_bind, wp_require hk]
    exact wp_throws_of_move hk hleased h.2
  | moveExpert target destination =>
    refine wp_resolved h.1 (wp_onManager.mpr ?_)
    unfold moveExpert
    rw [wp_bind, wp_require hk]
    exact wp_mono (wp_move_leased hk hleased h.2) fun _ _ h => h.1
  | adoptDeviceWeights k b =>
    obtain ⟨rfl, h⟩ := h
    show wp (read >>= _) _ s
    rw [wp_bind, wp_read]
    refine wp_throws_onManager ?_
    by_cases hvram : m.location = .Vram
    · exact wp_adopts_other hk hvram (h.resolve_left fun hne => hne hvram)
    · refine wp_mono wp_adoptsInto fun r _ hinto => ?_
      cases r with
      | error e => exact ⟨e, rfl⟩
      | ok _ =>
        rcases hinto rfl with ⟨m', hk', hvram'⟩ | hinto
        · obtain rfl := Option.some.inj (hk.symm.trans hk')
          exact absurd hvram' hvram
        · exact absurd rfl (hok hinto l hl)
  | adoptHostWeights k b =>
    obtain ⟨rfl, h⟩ := h
    show wp (read >>= _) _ s
    rw [wp_bind, wp_read]
    refine wp_throws_onManager ?_
    unfold adoptHostWeights
    cases b with
    | none => exact ⟨_, rfl⟩
    | some b =>
      rw [wp_bind, wp_orThrow]
      show wp (_ >>= _) _ _
      rw [wp_bind, wp_throwIf]
      split
      · exact ⟨_, rfl⟩
      show wp (_ >>= _) _ _
      rw [wp_bind, wp_require hk]
      show wp (_ >>= _) _ _
      rw [wp_bind, wp_throwIf]
      split
      · exact ⟨_, rfl⟩
      show wp (_ >>= _) _ _
      rw [wp_bind, wp_throwIf, if_pos hleased]
      exact ⟨_, rfl⟩
  | acquireResidentExpert k =>
    obtain ⟨rfl, h⟩ := h
    refine wp_throws_onManager ?_
    unfold acquireResidentExpert
    rw [wp_bind, wp_require hk]
    show wp ((if _ then _ else _) >>= _) _ _
    rw [if_pos (.inl h)]
    exact wp_throws_of_move hk hleased h
  | acquireHostExpert k =>
    obtain ⟨rfl, h⟩ := h
    refine wp_throws_onManager ?_
    unfold acquireHostExpert
    rw [wp_bind, wp_require hk]
    show wp ((if _ then _ else _) >>= _) _ _
    split
    · exact wp_throws_of_move hk hleased h
    · show wp (requireExpertLocked _ >>= _) _ _
      rw [wp_bind, wp_require hk]
      show wp (_ >>= _) _ _
      rw [wp_bind, wp_throwIf, if_pos (.inl h)]
      exact ⟨_, rfl⟩
  | registerExpert x => exact h.elim
  | evictUntilWithin tier bound => exact h.elim
  | prepareResidency k destination => exact h.elim
  | releaseLease i => exact h.elim
  | updatePrediction k p c => exact h.elim

omit [CachePolicy π] in
theorem leaseInv_start (vram ram : Nat) (policy : π) (hasTransfers : Bool) :
    LeaseInv (ManagerSystem.start vram ram policy hasTransfers) where
  counts _ := rfl
  held _ h := by cases h

/-- what the holder of a lease relies on: the expert is as it was when the lease was acquired,
and no operation that respects the condition takes it away -/
def Protected (s : ManagerSystem π) (l : LeaseRecord) : Prop :=
  ∃ m, s.manager.experts.lookup l.lease.expert = some m ∧
    m.location = l.location ∧ m.allocation = l.allocation ∧ m.weights = l.weights ∧
      m.deviceWeights = l.deviceWeights ∧
    ∀ op T, AdoptsUnleased s op T → op.displaces s.manager l.lease.expert m →
      Throws ((exec T op).exec s).1

def LeasesProtected (s : ManagerSystem π) : Prop := ∀ l ∈ s.leases, Protected s l

theorem run_protected (vram ram : Nat) (policy : π) (hasTransfers : Bool)
    (ops : List (Op × Transfers))
    (h : Meets AdoptsUnleased (ManagerSystem.start vram ram policy hasTransfers) ops) :
    LeasesProtected (run (ManagerSystem.start vram ram policy hasTransfers) ops) := by
  have I := (run_keeps (I := fun s => Wired s.manager ∧ LeaseInv s)
    (fun _ op T hok hI => ⟨next_wired op T hI.1, next_leaseInv hok hI.1 hI.2⟩) ops _ h
    ⟨wired_start vram ram policy hasTransfers, leaseInv_start vram ram policy hasTransfers⟩).2
  intro l hl
  obtain ⟨m, hk, hm⟩ := Option.map_eq_some_iff.mp (I.held l hl)
  unfold heldBy at hm
  injection hm with h₁ h₂
  injection h₂ with h₂ h₃
  injection h₃ with h₃ h₄
  exact ⟨m, hk, h₁, h₂, h₃, h₄, fun op T hok hd => displaces_throws T hok I hl hk hd⟩

/-! ## a device buffer adopted under a host lease -/

/-- an expert of four bytes on NVMe, its load, and a host lease on it -/
def hostLeaseRun : List (Op × Transfers) :=
  [(.registerExpert sampleExpert, delivering), (.acquireHostExpert (0, 0), delivering)]

/-- and another expert of four bytes, for which a device buffer is adopted -/
def unleasedAdoptionRun : List (Op × Transfers) :=
  hostLeaseRun ++ [(.registerExpert { sampleExpert with id := 1 }, delivering),
    (.adoptDeviceWeights (0, 1) (some ⟨9, [1, 2, 3, 4], true⟩), delivering)]

theorem run_protected_sample :
    (run (ManagerSystem.start 8 8 ({} : LruCachePolicy) true) unleasedAdoptionRun).leases.length = 1 ∧
      ((run (ManagerSystem.start 8 8 ({} : LruCachePolicy) true) unleasedAdoptionRun
        ).manager.findExpert (0, 1)).map Expert.location = some .Vram ∧
      LeasesProtected
        (run (ManagerSystem.start 8 8 ({} : LruCachePolicy) true) unleasedAdoptionRun) := by
  refine ⟨by decide, by decide,
    run_protected 8 8 ({} : LruCachePolicy) true unleasedAdoptionRun
      ⟨trivial, trivial, trivial, fun _ => ?_, trivial⟩⟩
  decide

/-- the lease is held, its expert is in RAM; the adoption moves it to VRAM, frees its host
allocation and drops its host buffer -/
theorem not_protected_after_device_adoption :
    ¬ ∀ ops : List (Op × Transfers),
      ∀ l ∈ (run (ManagerSystem.start 8 8 ({} : LruCachePolicy) true) ops).leases,
        holding (run (ManagerSystem.start 8 8 ({} : LruCachePolicy) true) ops).manager
          l.lease.expert = some (l.location, l.allocation, l.weights, l.deviceWeights) := by
  intro h
  have hl := h (hostLeaseRun ++
    [(.adoptDeviceWeights (0, 0) (some ⟨9, [1, 2, 3, 4], true⟩), delivering)])
  revert hl
  decide

end ExpertManager

end HyperMoE
