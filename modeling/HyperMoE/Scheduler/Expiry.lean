import HyperMoE.Scheduler.Speculation

/-!
# Prefetches of older layers expire

`expirePrefetchesBefore` takes every mark of an older layer for that of an expert at rest.  A call is
safe exactly when this is so in each of its rounds: then it throws nothing, gives up what is held
for experts at rest and nothing else, and leaves the marks of the other layers.

* `resting`, `nothingHeld`   the condition on the expert of a round;
* `SafeRound`, `SafeCall`    the property, of a round and of the whole call;
* `round_iff`                a round has the property exactly when it meets the condition;
* `Progress`                 the marks while the call goes on;
* `expiry_safe_iff`          every call of every run, with whatever happens in between.
-/

namespace HyperMoE.Scheduler

open Lib Lib.Fallible

variable {cfg : SchedulerConfig} {s s' s₁ : Scheduler} {a : Action} {layerId : LayerId}

/-! ## the condition -/

/-- ready, and without a pending task -/
def resting (s : Scheduler) (k : ExpertKey) : Bool :=
  s.pendingByExpert k = none ∧ (s.states k).any (fun e => e.state = .Ready) = true

/-- nothing is retained for the expert, and its record says so -/
def nothingHeld (s : Scheduler) (k : ExpertKey) : Bool :=
  s.residentTransfers k = none ∧ (s.states k).any (fun e => e.settled .Nvme = e) = true

/-- the expert that the step expires -/
def expires (s : Scheduler) : Action → Option ExpertKey
  | .expireNext => match s.lock with
    | some (.expiring layerId (k :: _) _) => if k.1 < layerId then some k else none
    | _ => none
  | _ => none

def findsResting (s : Scheduler) (a : Action) : Bool :=
  (s.expires a).all fun k => s.resting k || s.nothingHeld k

/-- `expirePrefetchesBefore` is under way -/
def expiring (s : Scheduler) : Bool :=
  match s.lock with
  | some (.expiring _ _ _) => true
  | _ => false

/-! ## the property -/

/-- a round throws nothing, and changes nothing about an expert that is not at rest -/
def SafeRound (s : Scheduler) (a : Action) (s' : Scheduler) : Prop :=
  a = .expireNext → ¬ Threw s s' ∧ ∀ k, s'.residentTransfers k ≠ s.residentTransfers k ∨
    s'.states k ≠ s.states k → s.resting k = true

/-- a call that begins in `s`; its first round comes in `s₁` -/
structure SafeCall (cfg : SchedulerConfig) (layerId : LayerId) (s s₁ : Scheduler) (bs : List Action)
    (s' : Scheduler) : Prop where
  rounds : Runs.Along (step cfg) SafeRound s₁ bs
  after : s'.lock = none →
    ∀ k, k ∈ s'.prefetchedReady ↔ k ∈ s.prefetchedReady ∧ ¬ k.1 < layerId

/-! ## one round -/

theorem resting_iff {k : ExpertKey} : s.resting k = true ↔
    s.pendingByExpert k = none ∧ ∃ e, s.states k = some e ∧ e.state = .Ready := by
  unfold resting
  simp [Option.any_eq_true]

theorem nothingHeld_iff {k : ExpertKey} : s.nothingHeld k = true ↔
    s.residentTransfers k = none ∧ ∃ e, s.states k = some e ∧ e.settled .Nvme = e := by
  unfold nothingHeld
  simp [Option.any_eq_true]

theorem findsResting_iff {k : ExpertKey} (h : s.expires a = some k) :
    s.findsResting a = true ↔ s.resting k = true ∨ s.nothingHeld k = true := by
  unfold findsResting
  rw [h, Option.all_some, Bool.or_eq_true]

/-- such a record can be reconciled -/
theorem reconcilable_of_resting {k : ExpertKey} (h : s.resting k = true ∨ s.nothingHeld k = true) :
    ∃ e, s.states k = some e ∧ reconcilable e.state := by
  have hready : ∃ e, s.states k = some e ∧ e.state = .Ready := by
    rcases h with h | h
    · exact (resting_iff.mp h).2
    · obtain ⟨-, e, he, hsettled⟩ := nothingHeld_iff.mp h
      exact ⟨e, he, hsettled ▸ rfl⟩
  obtain ⟨e, he, hstate⟩ := hready
  refine ⟨e, he, ?_⟩
  rw [hstate]
  decide

theorem safeRound_expired {k : ExpertKey} {rest : List ExpertKey} {wasted : Nat} {e : ExpertState}
    (h : Expired s layerId k rest wasted e s') :
    SafeRound s .expireNext s' ↔ s.resting k = true ∨ s.nothingHeld k = true := by
  have hresident : s'.residentTransfers = Function.update s.residentTransfers k none := by
    rw [h.after]
  have hstates : s'.states = s.states.set k (e.settled .Nvme) := by rw [h.after]
  constructor
  · intro hsafe
    obtain ⟨-, htouches⟩ := hsafe rfl
    by_cases hheld : s.nothingHeld k = true
    · exact .inr hheld
    · refine .inl (htouches k ?_)
      by_contra hsame
      obtain ⟨hr, hst⟩ := not_or.mp hsame
      rw [not_not, hresident, Function.update_self] at hr
      rw [not_not, hstates, States.set_self, h.found] at hst
      exact hheld (nothingHeld_iff.mpr ⟨hr.symm, e, h.found, Option.some.inj hst⟩)
  · intro hk _
    constructor
    · rintro ⟨x, hthrew⟩
      have hhistory : s'.history = s.history := by rw [h.after]
      have hlength := congrArg List.length (hhistory.symm.trans hthrew)
      rw [List.length_cons] at hlength
      omega
    · intro k' hchanged
      by_cases hkk : k' = k
      · subst hkk
        rcases hk with hk | hk
        · exact hk
        · obtain ⟨hnone, e', he', hsettled⟩ := nothingHeld_iff.mp hk
          obtain rfl := Option.some.inj (h.found.symm.trans he')
          rw [hresident, Function.update_self, hnone, hstates, States.set_self, hsettled, h.found] at hchanged
          exact hchanged.elim (absurd rfl) (absurd rfl)
      · rw [hresident, Function.update_of_ne hkk, hstates, States.set_of_ne hkk] at hchanged
        exact hchanged.elim (absurd rfl) (absurd rfl)

theorem safeRound_refused {k : ExpertKey} (h : Refused s k s') :
    SafeRound s .expireNext s' ↔ s.resting k = true ∨ s.nothingHeld k = true := by
  refine iff_of_false (fun hsafe => ?_) fun hk => ?_
  · obtain ⟨x, rfl⟩ := h.after
    exact (hsafe rfl).1 ⟨x, rfl⟩
  · obtain ⟨e, he, hr⟩ := reconcilable_of_resting hk
    exact h.refused e he hr

/-- a round that expires nothing -/
theorem safeRound_of_same (hstates : s'.states = s.states)
    (hresident : s'.residentTransfers = s.residentTransfers) (hthrew : ¬ Threw s s') :
    SafeRound s a s' := by
  refine fun _ => ⟨hthrew, fun k hchanged => ?_⟩
  rw [hstates, hresident] at hchanged
  exact hchanged.elim (absurd rfl) (absurd rfl)

theorem round_iff (h : step cfg a s = some s') : SafeRound s a s' ↔ s.findsResting a = true := by
  obtain ⟨-, hallows, rfl⟩ := step_eq h
  by_cases ha : a = .expireNext
  · subst ha
    have hexpiring : (match s.lock with
      | some (.expiring _ _ _) => true
      | _ => false) = true := hallows
    cases hl : s.lock with
    | none =>
      rw [hl] at hexpiring
      exact nomatch hexpiring
    | some holder =>
      cases holder with
      | worker w =>
        rw [hl] at hexpiring
        exact nomatch hexpiring
      | expiring layerId remaining wasted =>
        have hperform : s.perform cfg .expireNext = s.thread (expire cfg layerId wasted remaining) := by
          unfold perform
          rw [hl]
        rw [hperform]
        cases remaining with
        | nil =>
          have hnone : s.expires .expireNext = none := by
            unfold expires
            rw [hl]
          refine iff_of_true ?_ (by rw [findsResting, hnone]; rfl)
          have hcount : ∀ f, (s.count cfg f).states = s.states ∧
              (s.count cfg f).residentTransfers = s.residentTransfers := by
            intro f
            unfold count
            split <;> exact ⟨rfl, rfl⟩
          refine safeRound_of_same (hcount _).1 (hcount _).2 ?_
          rintro ⟨x, hthrew⟩
          exact nomatch (List.cons.inj hthrew).1
        | cons k rest =>
          by_cases hk : k.1 < layerId
          · have hkey : s.expires .expireNext = some k := by
              unfold expires
              rw [hl]
              exact if_pos hk
            rw [findsResting_iff hkey]
            rcases expire_older cfg s rest wasted hk with ⟨e, h⟩ | h
            · exact safeRound_expired h
            · exact safeRound_refused h
          · have hnone : s.expires .expireNext = none := by
              unfold expires
              rw [hl]
              exact if_neg hk
            refine iff_of_true ?_ (by rw [findsResting, hnone]; rfl)
            rw [expire_newer hk]
            refine safeRound_of_same rfl rfl ?_
            rintro ⟨x, hthrew⟩
            have hlength := congrArg List.length hthrew
            rw [List.length_cons] at hlength
            exact absurd hlength (Nat.ne_of_lt (Nat.lt_succ_self _))
  · refine iff_of_true (fun h => absurd h ha) ?_
    have hnone : s.expires a = none := by
      cases a
      case expireNext => exact absurd rfl ha
      all_goals rfl
    rw [findsResting, hnone]
    rfl

/-! ## a whole call -/

/-- while the call that began in `s` goes on -/
structure Progress (layerId : LayerId) (s x : Scheduler) (rest : List ExpertKey) (wasted : Nat) :
    Prop where
  locked : x.lock = some (.expiring layerId rest wasted)
  nodup : rest.Nodup
  marks : ∀ k, k ∈ x.prefetchedReady ↔ k ∈ s.prefetchedReady ∧ (¬ k.1 < layerId ∨ k ∈ rest)

/-- the call goes on, or is over -/
structure Called (cfg : SchedulerConfig) (layerId : LayerId) (s x : Scheduler) : Prop where
  sound : Sound cfg x
  nodup : x.prefetchedReady.Nodup
  call : (∃ rest wasted, Progress layerId s x rest wasted) ∨
    (x.lock = none ∧ ∀ k, k ∈ x.prefetchedReady ↔ k ∈ s.prefetchedReady ∧ ¬ k.1 < layerId)

/-- nobody is in the other loop meanwhile -/
theorem trimming_of_expiring {x : Scheduler} (hs : Sound cfg x) {rest : List ExpertKey} {wasted : Nat}
    (hl : x.lock = some (.expiring layerId rest wasted)) (w : WorkerId) :
    trimming (x.workers w) = none := by
  cases hw : x.workers w with
  | trimming t r cachedBytes candidates =>
    have hlock : x.lock = some (.worker w) := (hs.tracked.locked w).mpr (by
      show trims (x.workers w) = true
      rw [hw]
      rfl)
    exact nomatch hl.symm.trans hlock
  | _ => rfl

theorem Progress.step {x x' : Scheduler} {rest : List ExpertKey} {wasted : Nat}
    (h : Progress layerId s x rest wasted) (hs : Sound cfg x) (hnodup : x.prefetchedReady.Nodup)
    (hfinds : x.findsResting a = true) (ha : step cfg a x = some x') :
    (∃ rest wasted, Progress layerId s x' rest wasted) ∨
      (x'.lock = none ∧ ∀ k, k ∈ x'.prefetchedReady ↔ k ∈ s.prefetchedReady ∧ ¬ k.1 < layerId) := by
  have hfree : x.lock ≠ none := by
    rw [h.locked]
    exact fun h => nomatch h
  have hloop : ∀ {w : WorkerId} {loop : Trimming}, trimming (x.workers w) ≠ some loop := by
    intro w loop hw
    exact nomatch (trimming_of_expiring hs h.locked w).symm.trans hw
  have hledger := step_ledger hs ha
  generalize hx : x'.ledger = l at hledger
  have hlock : x'.lock = l.lock := congrArg Ledger.lock hx
  have hmarks : x'.prefetchedReady = l.prefetchedReady := congrArg Ledger.prefetchedReady hx
  cases hledger
  case same => exact .inl ⟨rest, wasted, hlock.trans h.locked, h.nodup, fun k => hmarks ▸ h.marks k⟩
  case unmarks hl _ => exact absurd hl hfree
  case marks hl _ _ _ _ => exact absurd hl hfree
  case acknowledges hl => exact absurd hl hfree
  case expireBegins hl _ => exact absurd hl hfree
  case records hl _ => exact absurd hl hfree
  case bounds hl _ => exact absurd hl hfree
  case skips hw hf => exact absurd hw hloop
  case keeps hw hf hx => exact absurd hw hloop
  case drops hw hf hx => exact absurd hw hloop
  case dropRefused hw hf hx hc hr => exact absurd hw hloop
  case trimmed hw => exact absurd hw hloop
  case expireKeeps layerId' k rest' wasted' hl hk =>
    obtain ⟨rfl, rfl, rfl⟩ := Holder.expiring.inj (Option.some.inj (h.locked.symm.trans hl))
    refine .inl ⟨rest', wasted, hlock, (List.nodup_cons.mp h.nodup).2, fun k' => ?_⟩
    rw [hmarks]
    refine (h.marks k').trans (and_congr_right fun _ => ?_)
    rw [List.mem_cons]
    constructor
    · rintro (hk' | rfl | hk')
      · exact .inl hk'
      · exact .inl hk
      · exact .inr hk'
    · exact fun hk' => hk'.imp_right .inr
  case expires layerId' k rest' wasted' hl hk =>
    obtain ⟨rfl, rfl, rfl⟩ := Holder.expiring.inj (Option.some.inj (h.locked.symm.trans hl))
    obtain ⟨hnot, hrest⟩ := List.nodup_cons.mp h.nodup
    refine .inl ⟨rest', wasted + 1, hlock, hrest, fun k' => ?_⟩
    rw [hmarks]
    refine (hnodup.mem_erase_iff).trans ?_
    rw [h.marks k', List.mem_cons]
    constructor
    · rintro ⟨hne, hm, hk'⟩
      exact ⟨hm, hk'.imp_right fun hk' => hk'.resolve_left hne⟩
    · rintro ⟨hm, hk'⟩
      refine ⟨?_, hm, hk'.imp_right .inr⟩
      rintro rfl
      exact hk'.elim (fun hn => hn hk) hnot
  case expireRefused layerId' k rest' wasted' hl hk hr =>
    have hkey : x.expires .expireNext = some k := by
      unfold Scheduler.expires
      rw [hl]
      exact if_pos hk
    obtain ⟨e, he, hallowed⟩ := reconcilable_of_resting ((findsResting_iff hkey).mp hfinds)
    exact absurd hallowed (hr e he)
  case expireEnds layerId' wasted' hl =>
    obtain ⟨rfl, rfl, rfl⟩ := Holder.expiring.inj (Option.some.inj (h.locked.symm.trans hl))
    refine .inr ⟨hlock, fun k => ?_⟩
    rw [hmarks]
    refine (h.marks k).trans (and_congr_right fun _ => ?_)
    simp

theorem Called.step {x x' : Scheduler} (h : Called cfg layerId s x) (hexpiring : x.expiring = true)
    (hfinds : x.findsResting a = true) (ha : step cfg a x = some x') : Called cfg layerId s x' := by
  refine ⟨step_sound h.sound ha, (step_ledger h.sound ha).nodup h.nodup, ?_⟩
  rcases h.call with ⟨rest, wasted, hprogress⟩ | ⟨hl, -⟩
  · exact hprogress.step h.sound h.nodup hfinds ha
  · unfold expiring at hexpiring
    rw [hl] at hexpiring
    exact nomatch hexpiring

theorem called_begin {order : List ExpertKey} (hs : Sound cfg s) (hnodup : s.prefetchedReady.Nodup)
    (h : step cfg (.expirePrefetchesBefore layerId order) s = some s₁) :
    Called cfg layerId s s₁ := by
  refine ⟨step_sound hs h, (step_ledger hs h).nodup hnodup, ?_⟩
  obtain ⟨-, hallows, rfl⟩ := step_eq h
  obtain ⟨-, ho⟩ : s.lock = none ∧ order.isPerm s.prefetchedReady = true := of_decide_eq_true hallows
  have hperm := List.isPerm_iff.mp ho
  refine .inl ⟨order, 0, rfl, hperm.nodup_iff.mpr hnodup, fun k => ?_⟩
  show k ∈ s.prefetchedReady ↔ _
  rw [hperm.mem_iff]
  exact ⟨fun hk => ⟨hk, .inr hk⟩, fun hk => hk.1⟩

/-- a call of `expirePrefetchesBefore` in a run: `as` comes before it, `bs` while it goes on -/
theorem expiry_safe_iff {as bs : List Action} {order : List ExpertKey} (hr : run cfg as = some s)
    (hbegin : step cfg (.expirePrefetchesBefore layerId order) s = some s₁)
    (hduring : Runs.Along (step cfg) (fun x _ _ => x.expiring = true) s₁ bs)
    (hrun : Runs.run (step cfg) s₁ bs = some s') :
    SafeCall cfg layerId s s₁ bs s' ↔
      Runs.Along (step cfg) (fun x a _ => x.findsResting a = true) s₁ bs := by
  have hrounds : Runs.Along (step cfg) SafeRound s₁ bs ↔
      Runs.Along (step cfg) (fun x a _ => x.findsResting a = true) s₁ bs := by
    have hround : ∀ x a x', step cfg a x = some x' → (SafeRound x a x' ↔ x.findsResting a = true) :=
      fun _ _ _ h => round_iff h
    exact Runs.along_congr hround bs s₁
  refine ⟨fun h => hrounds.mp h.rounds, fun hfinds => ⟨hrounds.mpr hfinds, fun hl => ?_⟩⟩
  obtain ⟨hs, hnodup⟩ := run_nodup hr
  have hstep : ∀ x a x', step cfg a x = some x' → (x.expiring = true ∧ x.findsResting a = true) →
      Called cfg layerId s x → Called cfg layerId s x' :=
    fun _ _ _ ha hc h => h.step hc.1 hc.2 ha
  have hboth := Runs.along_and hduring hfinds
  have hcalled := Runs.run_keeps hstep bs s₁ s' hboth (called_begin hs hnodup hbegin) hrun
  rcases hcalled.call with ⟨rest, wasted, hprogress⟩ | ⟨-, hmarks⟩
  · exact nomatch hl.symm.trans hprogress.locked
  · exact hmarks

def ramScheduler : SchedulerConfig where
  prefetchDestination := .Ram
  hasWorker := SchedulerConfig.hasWorker_two
  validPrefetch := SchedulerConfig.validPrefetch_ram

/-- prefetches of layers 0 and 1 find their experts in RAM -/
def twoLayers : List Action :=
  [.registerExpert (0, 1) .Ram, .registerExpert (1, 1) .Ram, .prefetch ⟨0, 1, 1, 1⟩ false,
    .prefetch ⟨1, 1, 1, 1⟩ false]

/-- layer 1 begins, and takes its expert while the older prefetch expires -/
def layerBegins : List Action := [.expireNext, .acquire (1, 1), .expireNext, .expireNext]

theorem expiry_safe_two_layers : ∃ s s₁ s', run ramScheduler twoLayers = some s ∧
    step ramScheduler (.expirePrefetchesBefore 1 [(1, 1), (0, 1)]) s = some s₁ ∧
    Runs.run (step ramScheduler) s₁ layerBegins = some s' ∧ s'.lock = none ∧
    SafeCall ramScheduler 1 s s₁ layerBegins s' := by
  have hall : (run ramScheduler twoLayers).any (fun s =>
      (step ramScheduler (.expirePrefetchesBefore 1 [(1, 1), (0, 1)]) s).any fun s₁ =>
        (Runs.run (step ramScheduler) s₁ layerBegins).any fun s' => s'.lock = none ∧
          Runs.Along (step ramScheduler) (fun x _ _ => x.expiring = true) s₁ layerBegins ∧
          Runs.Along (step ramScheduler) (fun x a _ => x.findsResting a = true) s₁ layerBegins) =
        true := by
    decide +kernel
  obtain ⟨s, hr, hall⟩ := Option.any_eq_true _ _ |>.mp hall
  obtain ⟨s₁, hbegin, hall⟩ := Option.any_eq_true _ _ |>.mp hall
  obtain ⟨s', hrun, hall⟩ := Option.any_eq_true _ _ |>.mp hall
  obtain ⟨hl, hduring, hfinds⟩ := of_decide_eq_true hall
  exact ⟨s, s₁, s', hr, hbegin, hrun, hl, (expiry_safe_iff hr hbegin hduring hrun).mpr hfinds⟩

/-- the older expert is in use: the call throws, and leaves the mark for the next one -/
theorem not_expiry_safe_in_use : ∃ s s₁ s', run ramScheduler (twoLayers ++ [.acquire (0, 1)]) = some s ∧
    step ramScheduler (.expirePrefetchesBefore 1 [(0, 1), (1, 1)]) s = some s₁ ∧
    Runs.run (step ramScheduler) s₁ [.expireNext] = some s' ∧
    ¬ SafeCall ramScheduler 1 s s₁ [.expireNext] s' := by
  have hall : (run ramScheduler (twoLayers ++ [.acquire (0, 1)])).any (fun s =>
      (step ramScheduler (.expirePrefetchesBefore 1 [(0, 1), (1, 1)]) s).any fun s₁ =>
        (Runs.run (step ramScheduler) s₁ [.expireNext]).any fun s' => s'.lock = none ∧
          (0, 1) ∈ s'.prefetchedReady) = true := by
    decide +kernel
  obtain ⟨s, hr, hall⟩ := Option.any_eq_true _ _ |>.mp hall
  obtain ⟨s₁, hbegin, hall⟩ := Option.any_eq_true _ _ |>.mp hall
  obtain ⟨s', hrun, hall⟩ := Option.any_eq_true _ _ |>.mp hall
  obtain ⟨hl, hmark⟩ := of_decide_eq_true hall
  exact ⟨s, s₁, s', hr, hbegin, hrun, fun h => absurd ((h.after hl (0, 1)).mp hmark).2 (by decide)⟩

end HyperMoE.Scheduler
