import HyperMoE.Experts.Accounting

/-!
# Residency statistics over whole runs

The counters of promotions and evictions agree with where the experts are, whichever path moved
them, and the counters of requests change with a request that returns and with nothing else.

* `Balanced`         the statistics balance where so many experts are in VRAM;
* `Step.counted`     every effect keeps it, unless an expert is unregistered in VRAM;
* `move_stays`       a move that throws has not reached its destination, so the rollback of a
                     registration never erases an expert in VRAM;
* `served`           the counters of requests;
* `run_counted`      the balance after every operation of every run.
-/

namespace HyperMoE

open Lib Lib.Fallible

namespace ExpertManagerStats

/-- the counters that a request adds to -/
def served (c : ExpertManagerStats) : Nat × Nat × Nat × Nat × Nat :=
  (c.requests, c.vramHits, c.ramHits, c.nvmeLoads, c.nvmeBytesRead)

/-- the statistics balance where `n` experts are in VRAM -/
structure Balanced (c : ExpertManagerStats) (n : Nat) : Prop where
  residency : c.vramPromotions = c.vramEvictions + n
  requests : c.requests = c.vramHits + c.ramHits + c.nvmeLoads

variable {c : ExpertManagerStats} {n n' : Nat}

theorem Balanced.dropped {source : MemoryTier} (B : c.Balanced n)
    (h : n' + (if source = .Vram then 1 else 0) = n) : (c.dropped source).Balanced n' := by
  obtain ⟨hresidency, hrequests⟩ := B
  unfold ExpertManagerStats.dropped
  split at h
  · next hs =>
    rw [if_pos hs]
    refine ⟨?_, hrequests⟩
    show c.vramPromotions = c.vramEvictions + 1 + n'
    omega
  · next hs =>
    rw [if_neg hs]
    obtain rfl : n' = n := h
    split <;> exact ⟨hresidency, hrequests⟩

theorem Balanced.moved {source destination : MemoryTier} (B : c.Balanced n)
    (h : n' + (if source = .Vram then 1 else 0) = n + if destination = .Vram then 1 else 0) :
    (c.moved source destination).Balanced n' := by
  obtain ⟨hresidency, hrequests⟩ := B
  refine ⟨?_, hrequests⟩
  show c.vramPromotions + (if destination = .Vram then 1 else 0) =
    c.vramEvictions + (if source = .Vram then 1 else 0) + n'
  omega

theorem Balanced.adopted {source tier : MemoryTier} (B : c.Balanced n) (hne : source ≠ tier)
    (h : n' + (if source = .Vram then 1 else 0) = n + if tier = .Vram then 1 else 0) :
    (c.adopted source tier).Balanced n' := by
  obtain ⟨hresidency, hrequests⟩ := B
  unfold ExpertManagerStats.adopted
  by_cases ht : tier = .Vram
  · subst ht
    rw [if_neg hne, if_pos rfl] at h
    rw [if_pos rfl]
    refine ⟨?_, hrequests⟩
    show c.vramPromotions + 1 = c.vramEvictions + n'
    omega
  · rw [if_neg ht] at h ⊢
    split at h
    · next hs =>
      rw [if_pos hs]
      refine ⟨?_, hrequests⟩
      show c.vramPromotions = c.vramEvictions + 1 + n'
      omega
    · next hs =>
      rw [if_neg hs]
      obtain rfl : n' = n := h
      exact ⟨hresidency, hrequests⟩

theorem Balanced.requested (B : c.Balanced n) (source : RequestSource) (sizeBytes : Nat) :
    (c.requested source sizeBytes).Balanced n := by
  obtain ⟨hresidency, hrequests⟩ := B
  unfold ExpertManagerStats.requested
  cases source <;> refine ⟨hresidency, ?_⟩ <;> simp only <;> omega

end ExpertManagerStats

namespace ExpertManager

variable {π : Type}

/-- the number of registered experts located in VRAM -/
def vramCount (s : ExpertManager π) : Nat := Table.count (fun m => m.location = .Vram) s.experts

def Counted (s : ExpertManager π) : Prop := s.stats.Balanced s.vramCount

def inVram (m : ManagedExpert) : Nat := if m.location = .Vram then 1 else 0

section
variable {s s' : ExpertManager π} {k : ExpertKey} {m : ManagedExpert} {old new : Option ManagedExpert}

theorem vramCount_eq (s : ExpertManager π) : s.vramCount = Table.total inVram s.experts := by
  unfold vramCount
  rw [Table.count_eq_total]
  refine Table.total_congr fun k m _ => ?_
  unfold inVram
  simp

theorem vramCount_replaced (h : Table.Replaced k old new s.experts s'.experts) :
    s'.vramCount + old.elim 0 inVram = s.vramCount + new.elim 0 inVram := by
  rw [vramCount_eq, vramCount_eq]
  exact h.total inVram

theorem inVram_of_ne (h : m.location ≠ .Vram) : inVram m = 0 := if_neg h

/-- nothing is written that the balance depends on -/
theorem Counted.unmoved (C : Counted s) (he : s'.experts = s.experts) (hs : s'.stats = s.stats) :
    Counted s' := by
  unfold Counted vramCount
  rw [he, hs]
  exact C

/-- an expert overwritten by one at the same place -/
theorem Counted.overwrite (C : Counted s) {m' : ManagedExpert}
    (hk : s.experts.lookup k = some m) (hm : m'.metadata = m.metadata)
    (he : s'.experts = s.experts.insert k m') (hs : s'.stats = s.stats) : Counted s' := by
  have hcount : s'.vramCount + inVram m = s.vramCount + inVram m' :=
    vramCount_replaced (.insert hk he)
  have hin : inVram m' = inVram m := by
    unfold inVram ManagedExpert.location
    rw [hm]
  unfold Counted
  rw [hs, show s'.vramCount = s.vramCount by omega]
  exact C

/-- an expert that got a reservation in `tier` -/
theorem Commit.vramCount {tier : MemoryTier} {w d : Option Buffer} (h : Commit k m tier w d s s') :
    s'.vramCount + inVram m = s.vramCount + if tier = .Vram then 1 else 0 :=
  vramCount_replaced (.insert h.found h.experts)

end

variable [CachePolicy π] {T : Transfers} {s s' : ExpertManager π} {k : ExpertKey}
  {m : ManagedExpert}

/-- every effect keeps the balance, but for an expert that is unregistered in VRAM -/
theorem Step.counted [ho : SelectsOffered π] {e : Effect} (h : Step T e s s')
    (hun : ∀ k m, e = .unregistered k → s.experts.lookup k = some m → m.location ≠ .Vram)
    (C : Counted s) : Counted s' := by
  cases e with
  | failed => exact C.unmoved h.experts h.stats
  | leaked k => exact C.unmoved h.experts h.stats
  | evicted k id source =>
    obtain ⟨m, h⟩ := h
    have hcount : s'.vramCount + inVram m = s.vramCount + 0 :=
      vramCount_replaced (.insert h.found h.experts)
    unfold Counted
    rw [h.stats]
    refine C.dropped ?_
    rw [← h.location]
    exact hcount
  | loaded k id =>
    obtain ⟨m, b, h, -, hloc, -, -, hs⟩ := h
    have hcount := h.vramCount
    rw [inVram_of_ne (by rw [hloc ho]; decide)] at hcount
    unfold Counted
    rw [hs, show s'.vramCount = s.vramCount from hcount]
    exact C
  | relocated k id source destination =>
    obtain ⟨m, w, d, h, -, -, -, hat, -, -, hs⟩ := h
    have hin : inVram m = if source = .Vram then 1 else 0 := by
      rcases hat.2 ho with hloc | ⟨rfl, -, hloc, -⟩
      · rw [← hloc]
        rfl
      · exact inVram_of_ne (by rw [hloc]; decide)
    unfold Counted
    rw [hs]
    refine C.moved ?_
    rw [← hin]
    exact h.vramCount
  | adopted k tier b =>
    obtain ⟨m, w, d, h, hloc, -, -, hs⟩ := h
    unfold Counted
    rw [hs]
    exact C.adopted (hloc ho) h.vramCount
  | noted k =>
    obtain ⟨m, m', h⟩ := h
    exact C.overwrite h.found h.holding.metadata h.experts h.stats
  | counted source n =>
    obtain ⟨-, he, hs, -⟩ := h
    unfold Counted vramCount
    rw [he, hs]
    exact C.requested source n
  | registered k =>
    obtain ⟨m, h⟩ := h
    have hcount : s'.vramCount + 0 = s.vramCount + inVram m :=
      vramCount_replaced (.insert h.unknown h.experts)
    rw [inVram_of_ne (by rw [h.location]; decide)] at hcount
    unfold Counted
    rw [h.stats, show s'.vramCount = s.vramCount from hcount]
    exact C
  | unregistered k =>
    obtain ⟨m, h⟩ := h
    have hcount : s'.vramCount + inVram m = s.vramCount + 0 :=
      vramCount_replaced (.erase h.found h.experts)
    rw [inVram_of_ne (hun k m rfl h.found)] at hcount
    unfold Counted
    rw [h.stats, show s'.vramCount = s.vramCount from hcount]
    exact C
  | leased k =>
    obtain ⟨m, h⟩ := h
    refine C.overwrite h.found ?_ h.experts h.stats
    rfl
  | unleased k =>
    obtain ⟨m, h⟩ := h
    refine C.overwrite h.found ?_ h.experts h.stats
    rfl

theorem chain_counted [SelectsOffered π] {P : Effect → Prop} (h : Chain (Step T) P s s')
    (hP : ∀ e, P e → e.isMove) (C : Counted s) : Counted s' := by
  refine h.keeps (fun e t t' he hs hC => hs.counted (fun k m hun _ => ?_) hC) C
  have := hP e he
  rw [hun] at this
  cases this

/-! ## a registration that is rolled back -/

/-- where the expert is after a move in one go that threw -/
theorem Moved.stays [ho : SelectsOffered π] {destination : MemoryTier} {pinned : List ExpertId}
    {r : Except Exn Unit} {e : Exn} (h : Moved T k m destination pinned s r s')
    (hne : m.location ≠ destination) (hstage : ¬ (m.location = .Nvme ∧ destination = .Vram))
    (hr : r = .error e) :
    ∃ m', s'.experts.lookup k = some m' ∧ (m'.location = m.location ∨ m'.location = .Nvme) := by
  obtain ⟨m', hk', hspared⟩ := h.stayed e hr hstage
  refine ⟨m', hk', ?_⟩
  rcases hspared.2 ho hne with rfl | ⟨-, -, hloc, -⟩
  · exact .inl rfl
  · exact .inr hloc

/-- a move from outside VRAM that throws has not reached VRAM, staged or not -/
theorem move_stays [SelectsOffered π] (fuel : Nat) {destination : MemoryTier}
    {pinned : List ExpertId} (W : Wired s) (hk : s.experts.lookup k = some m)
    (hpin : m.policyId ∈ pinned) (hne : m.location ≠ destination) (hv : m.location ≠ .Vram) :
    wp (moveExpertLocked T fuel k destination pinned) (fun r s' => ∀ e, r = .error e →
      ∃ m', s'.experts.lookup k = some m' ∧ m'.location ≠ .Vram) s := by
  have outside : ∀ {m' : ManagedExpert}, m'.location = m.location ∨ m'.location = .Nvme →
      m'.location ≠ .Vram := by
    rintro m' (h | h)
    · rwa [h]
    · rw [h]
      decide
  by_cases hstage : m.location = .Nvme ∧ destination = .Vram
  · obtain ⟨hn, rfl⟩ := hstage
    cases fuel with
    | zero => exact fun e _ => ⟨m, hk, hne⟩
    | succ fuel =>
      unfold moveExpertLocked
      rw [wp_bind, wp_require hk]
      show wp (_ >>= _) _ s
      rw [wp_bind, wp_read]
      show wp (if m.location = .Vram then pure () else _) _ s
      rw [if_neg hne, wp_bind, wp_throwIf]
      split
      · exact fun e _ => ⟨m, hk, hne⟩
      show wp (if _ then _ else _) _ s
      rw [if_pos ⟨hn, rfl⟩]
      refine wp_seq ((moves T π fuel).1 s k m .Ram pinned W hk hpin) (fun _ s₁ h₁ => ?_)
        fun e s₁ h₁ => ?_
      · -- the second half starts from RAM
        obtain ⟨m₁, hk₁, hloc₁⟩ := h₁.arrived rfl
        obtain ⟨y, hy, hi⟩ := (chain_kin h₁.chain fun _ he => he.1).found hk
        obtain rfl := Option.some.inj (hy.symm.trans hk₁)
        have hpin₁ : y.policyId ∈ pinned := by
          rw [show y.policyId = m.policyId from congrArg (·.2.2.1) hi]
          exact hpin
        refine wp_mono ((moves T π fuel).1 s₁ k y .Vram pinned (chain_wired h₁.chain W) hk₁ hpin₁)
          fun r s₂ h₂ e hr => ?_
        obtain ⟨m₂, hk₂, hloc₂⟩ := h₂.stays (by rw [hloc₁]; decide) (by rw [hloc₁]; decide) hr
        refine ⟨m₂, hk₂, ?_⟩
        rw [hloc₁] at hloc₂
        rcases hloc₂ with h | h
        · rw [h]
          decide
        · rw [h]
          decide
      · rintro _ -
        obtain ⟨m₁, hk₁, hloc⟩ := h₁.stays (by rw [hn]; decide) (fun h => by cases h.2) rfl
        exact ⟨m₁, hk₁, outside hloc⟩
  · refine wp_mono ((moves T π fuel).1 s k m destination pinned W hk hpin) fun r s' h e hr => ?_
    obtain ⟨m', hk', hloc⟩ := h.stays hne hstage hr
    exact ⟨m', hk', outside hloc⟩

/-- the whole registration: what is rolled back was not in VRAM -/
theorem wp_registerExpert_counted [SelectsOffered π] {x : Expert} (W : Wired s) (C : Counted s) :
    wp (registerExpert T x) (fun _ s' => Counted s') s := by
  have hfirst : ∀ {m s₁}, Registered x.key m s s₁ → Counted s₁ := fun h =>
    Step.counted (T := T) (e := .registered x.key) ⟨_, h⟩ (fun _ _ h => by cases h) C
  refine wp_registration (R := fun r s₁ => Counted s₁ ∧ ∀ e, r = .error e →
    ∃ m, s₁.experts.lookup x.key = some m ∧ m.policyId = s.nextPolicyId ∧ m.residencyLeases = 0 ∧
      m.location ≠ .Vram) C (fun m s₁ h _ => hfirst h) (fun m s₁ hreg hloc => ?_) (fun s₁ h => h.1)
    fun e s₁ h => ?_
  · have W₁ : Wired s₁ := W.registered hreg
    have hid := hreg.policyId
    have hpin : m.policyId ∈ [s.nextPolicyId] := hid ▸ List.mem_cons_self
    have hstays : wp (move T x.key x.location [s.nextPolicyId]) (fun r s' => ∀ e, r = .error e →
        ∃ m', s'.experts.lookup x.key = some m' ∧ m'.location ≠ .Vram) s₁ := by
      unfold move
      rw [wp_bind, wp_read]
      exact move_stays _ W₁ hreg.found hpin (by rw [hreg.location]; exact hloc.symm)
        (by rw [hreg.location]; decide)
    refine wp_mono (wp_and (wp_move W₁ hreg.found hpin) hstays) fun r s₂ h => ⟨?_, fun e hr => ?_⟩
    · exact chain_counted h.1.chain (fun _ he => he.1) (hfirst hreg)
    · obtain ⟨m', hk', hv⟩ := h.2 e hr
      obtain ⟨m₁, hk₁, hi⟩ := (chain_kin h.1.chain fun _ he => he.1).found hreg.found
      obtain rfl := Option.some.inj (hk₁.symm.trans hk')
      exact ⟨m₁, hk', (congrArg (·.2.2.1) hi).trans hid,
        (congrArg (·.2.2.2) hi).trans hreg.leases, hv⟩
  · obtain ⟨C₁, h⟩ := h
    obtain ⟨m, hk, hid, hl, hv⟩ := h e rfl
    refine ⟨m, hk, hid, hl, fun s₂ hun => ?_⟩
    refine Step.counted (T := T) (e := .unregistered x.key) ⟨m, hun⟩ (fun k m' he hk' => ?_) C₁
    cases he
    obtain rfl := Option.some.inj (hk.symm.trans hk')
    exact hv

/-! ## what only one operation does -/

/-- registrations and counted requests come from the operation of that name -/
def Effect.properTo (op : Op) : Effect → Prop
  | .registered _ | .unregistered _ => ∃ x, op = .registerExpert x
  | .counted _ _ => ∃ target, op = .requestExpert target
  | _ => True

omit [CachePolicy π] in
theorem Effect.properTo_of_isMove {e : Effect} (op : Op) (h : e.isMove) : e.properTo op := by
  cases e <;> first | exact trivial | cases h

theorem Op.allows_properTo {op : Op} {e : Effect} (h : op.allows s e) : e.properTo op := by
  have hmove : ∀ {e : Effect}, e.isMove → e.properTo op := Effect.properTo_of_isMove op
  cases op with
  | registerExpert x =>
    rcases h with rfl | rfl | h
    · exact ⟨x, rfl⟩
    · exact ⟨x, rfl⟩
    · exact hmove h.1
  | requestExpert target =>
    obtain ⟨k', -, ⟨m, -, h⟩ | rfl | ⟨_, _, rfl⟩⟩ := h
    · exact hmove h.1
    · exact trivial
    · exact ⟨target, rfl⟩
  | moveExpert target destination =>
    obtain ⟨k', -, m, -, h⟩ := h
    exact hmove h.1
  | evictUntilWithin tier bound => exact hmove h.1
  | adoptDeviceWeights k' b | adoptHostWeights k' b =>
    rcases h with rfl | ⟨m, -, -, h | ⟨b', -, rfl⟩⟩
    · exact trivial
    · exact hmove h.1
    · exact trivial
  | prepareResidency k' destination =>
    obtain ⟨m, -, h⟩ := h
    exact hmove h.1
  | acquireResidentExpert k' | acquireHostExpert k' =>
    rcases h with ⟨m, -, h⟩ | rfl
    · exact hmove h.1
    · exact trivial
  | releaseLease i =>
    obtain ⟨k', rfl⟩ := h
    exact trivial
  | updatePrediction k' p c =>
    obtain rfl := h
    exact trivial

theorem next_counted [SelectsOffered π] {s : ManagerSystem π} (op : Op) (T : Transfers)
    (W : Wired s.manager) (C : Counted s.manager) : Counted (next s op T).manager := by
  by_cases hop : ∃ x, op = .registerExpert x
  · obtain ⟨x, rfl⟩ := hop
    show wp (onManager (registerExpert T x)) (fun _ s' => Counted s'.manager) s
    exact wp_onManager.mpr (wp_registerExpert_counted W C)
  · refine next_keeps op T W (fun e t t' he hs hC => hs.counted (fun k m hun _ => ?_) hC) C
    rw [hun] at he
    exact absurd (Op.allows_properTo he) hop

/-! ## the counters of requests -/

theorem Step.served {e : Effect} (h : Step T e s s') (he : ∀ source n, e ≠ .counted source n) :
    s'.stats.served = s.stats.served := by
  cases e with
  | failed => rw [h.stats]
  | leaked k => rw [h.stats]
  | evicted k id source =>
    obtain ⟨m, h⟩ := h
    rw [h.stats]
    unfold ExpertManagerStats.dropped
    split
    · rfl
    · split <;> rfl
  | loaded k id =>
    obtain ⟨m, b, -, -, -, -, -, hs⟩ := h
    rw [hs]
  | relocated k id source destination =>
    obtain ⟨m, w, d, -, -, -, -, -, -, -, hs⟩ := h
    rw [hs]
    rfl
  | adopted k tier b =>
    obtain ⟨m, w, d, -, -, -, -, hs⟩ := h
    rw [hs]
    unfold ExpertManagerStats.adopted
    split
    · rfl
    · split <;> rfl
  | counted source n => exact absurd rfl (he source n)
  | noted k =>
    obtain ⟨m, m', h⟩ := h
    rw [h.stats]
  | registered k | unregistered k | leased k | unleased k =>
    obtain ⟨m, h⟩ := h
    rw [h.stats]

theorem chain_served {P : Effect → Prop} (h : Chain (Step T) P s s')
    (hP : ∀ source n, ¬ P (.counted source n)) : s'.stats.served = s.stats.served :=
  h.keeps (I := fun t => t.stats.served = s.stats.served)
    (fun _ _ _ he hs ht => (Step.served hs fun source n hc => hP source n (hc ▸ he)).trans ht) rfl

/-- a request counts as its last act: one that throws has counted nothing -/
theorem wp_requestExpert_served (W : Wired s) :
    wp (requestExpert T k) (fun r s' => ∀ e, r = .error e → s'.stats.served = s.stats.served) s := by
  unfold requestExpert
  cases hk : s.experts.lookup k with
  | none =>
    rw [wp_bind, wp_require_none hk]
    exact fun _ _ => rfl
  | some m =>
    rw [wp_bind, wp_require hk]
    show wp (_ >>= _) _ s
    have hmoved : ∀ {r s₁}, Moved T k m .Vram [m.policyId] s r s₁ →
        s₁.stats.served = s.stats.served := fun h =>
      chain_served h.chain fun _ _ he => by cases he.1
    refine wp_seq (wp_move W hk List.mem_cons_self) (fun _ s₁ h => ?_) fun _ s₁ h _ _ => hmoved h
    obtain ⟨m₁, hk₁, -⟩ := h.arrived rfl
    refine wp_seq (wp_recordAccess (T := T) hk₁) (fun _ s₂ h₂ => ?_) fun _ s₂ h₂ => by cases h₂.1
    obtain ⟨x, y, hnoted⟩ := h₂.2
    show wp (_ >>= _) _ s₂
    rw [wp_bind, wp_update]
    -- the expert is still there when its metadata is read
    have hk₂ : (modifyStats (·.requested
        (if m.location = .Vram then .VramHit else if m.location = .Ram then .RamHit else .NvmeLoad)
        m.sizeBytes) s₂).experts.lookup k = some y := by
      show s₂.experts.lookup k = some y
      rw [hnoted.experts, AList.lookup_insert]
    show wp (_ >>= _) _ _
    rw [wp_bind, wp_require hk₂]
    exact fun e h => by cases h

theorem exec_served (op : Op) {s : ManagerSystem π} (W : Wired s.manager) :
    wp (exec T op) (fun r s' => ∀ e, r = .error e →
      s'.manager.stats.served = s.manager.stats.served) s := by
  by_cases hop : ∃ target, op = .requestExpert target
  · obtain ⟨target, rfl⟩ := hop
    refine wp_target (fun k hk => ?_) fun _ _ _ => rfl
    refine wp_seq (R := fun r s' => ∀ e, r = .error e →
      s'.manager.stats.served = s.manager.stats.served)
      (wp_onManager.mpr (wp_requestExpert_served W)) (fun _ s' _ e h => by cases h)
      fun e s' h _ _ => h e rfl
  · refine wp_mono (exec_effects op s W) fun r s' h e _ => chain_served h fun source n he => ?_
    exact hop (Op.allows_properTo he)

omit [CachePolicy π] in
theorem counted_start (vram ram : Nat) (policy : π) (hasTransfers : Bool) :
    Counted (ManagerSystem.start vram ram policy hasTransfers).manager := ⟨rfl, rfl⟩

/-- After every operation of every run the statistics balance, and an operation that throws leaves
the counters of requests alone. -/
theorem run_counted [SelectsOffered π] (vram ram : Nat) (policy : π) (hasTransfers : Bool)
    (ops : List (Op × Transfers)) :
    let s := run (ManagerSystem.start vram ram policy hasTransfers) ops
    s.manager.stats.Balanced s.manager.vramCount ∧
      ∀ op T e, ((exec T op).exec s).1 = .error e →
        (next s op T).manager.stats.served = s.manager.stats.served := by
  have h := run_keeps (C := fun _ _ _ => True) (I := fun s => Wired s.manager ∧ Counted s.manager)
    (fun _ op T _ hI => ⟨next_wired op T hI.1, next_counted op T hI.1 hI.2⟩) ops _
    (meets_of_forall (fun _ _ _ _ => trivial) _)
    ⟨wired_start vram ram policy hasTransfers, counted_start vram ram policy hasTransfers⟩
  exact ⟨h.2, fun op T e he => exec_served op h.1 e he⟩

/-- a request that is served from NVMe, and one whose load is rethrown -/
theorem run_counted_sample :
    let s := run (ManagerSystem.start 8 8 ({} : LruCachePolicy) true)
      [(.registerExpert sampleExpert, delivering), (.requestExpert (.layered (0, 0)), delivering)]
    s.manager.stats.Balanced 1 ∧ s.manager.stats.served = (1, 0, 0, 1, 4) ∧
      (next s (.requestExpert (.layered (0, 1))) rethrowing).manager.stats.served =
        s.manager.stats.served := by
  have h := run_counted 8 8 ({} : LruCachePolicy) true
    [(.registerExpert sampleExpert, delivering), (.requestExpert (.layered (0, 0)), delivering)]
  exact ⟨h.1, by decide, h.2 _ _ (.outOfRange "unknown expert id") rfl⟩

end ExpertManager

end HyperMoE
